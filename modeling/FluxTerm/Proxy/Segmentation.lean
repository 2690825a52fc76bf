import FluxTerm.Proxy.HttpClient

/-!
# FluxTerm — heads and segments

Whether `read_http_headers` depends on the segments in which a stream arrives. The bytes before the
blank line are bounded by `MAX_HEADER`, but the bound is compared with what is buffered after each
read, so a head that exceeds it may still be read, or not.

* **`segmentation_iff`** — they agree, but for the heads that exceed the bound by more than one
  byte and by a read at most.
-/

namespace FluxTerm.Proxy

open FluxTerm.Engine FluxTerm.Lib

/-- The size of the chunks that `read_http_headers` reads. -/
def maxRead : ℕ := 1024

abbrev IsHttpHead (stream head : Bytes) : Prop := IsHead (asciiByte '\r') (asciiByte '\n') stream head

theorem mapErr_readWithTimeout_eq_ok {read : Timed Bytes} {code message : String} {bytes : Bytes}
    (h : mapErr code message (readWithTimeout read code message) = .ok bytes) :
    read = .done bytes := by
  cases read with
  | done chunk =>
    cases h
    rfl
  | failed err => cases h
  | timedOut => cases h

/-- **What is read.** The head of all that was received, and what was received behind it. -/
theorem readHttpHeadersFrom_eq_ok {client : List (Timed Bytes)} {buf : Bytes} {r : HttpHeaders}
    (h : readHttpHeadersFrom buf client = .ok r) :
    ∃ reads : List Bytes, client = reads.map .done ++ r.client ∧
      r.headers ++ r.rest = buf ++ reads.flatten ∧
      IsHttpHead (buf ++ reads.flatten) r.headers := by
  induction client generalizing buf with
  | nil => cases h
  | cons read client ih =>
    rw [readHttpHeadersFrom] at h
    cases hread : mapErr proxyHttpParseFailedCode "Failed to read the HTTP request"
        (readWithTimeout read proxyHttpParseFailedCode "Failed to read the HTTP request") with
    | error err =>
      rw [hread] at h
      cases h
    | ok chunk =>
      rw [hread] at h
      dsimp only at h
      have hdone := mapErr_readWithTimeout_eq_ok hread
      split at h
      · cases h
      · cases hend : headEnd (asciiByte '\r') (asciiByte '\n') (buf ++ chunk) with
        | some n =>
          rw [hend] at h
          cases h
          refine ⟨[chunk], by rw [hdone]; rfl, ?_, ?_⟩
          · simp
          · simpa using (headEnd_eq_some_iff.mp hend).2
        | none =>
          rw [hend] at h
          dsimp only at h
          split at h
          · cases h
          · obtain ⟨reads, hclient, hbytes, hhead⟩ := ih h
            refine ⟨chunk :: reads, by rw [hdone, hclient]; rfl, ?_, ?_⟩
            · rw [hbytes, List.flatten_cons, List.append_assoc]
            · rwa [List.flatten_cons, ← List.append_assoc]

/-! ## Segments -/

structure Segmentation (stream : Bytes) where
  reads : List Bytes
  reads_ne_nil : ∀ chunk ∈ reads, chunk ≠ []
  reads_le : ∀ chunk ∈ reads, chunk.length ≤ maxRead
  flatten_reads : reads.flatten = stream

namespace Segmentation

variable {stream : Bytes}

/-- What `read_http_headers` returns. -/
def outcome (c : Segmentation stream) : Except EngineError HttpHeaders :=
  readHttpHeaders (c.reads.map .done)

/-- The same head is read, or none. -/
def SameHead (c c' : Segmentation stream) : Prop :=
  (∃ r r', c.outcome = .ok r ∧ c'.outcome = .ok r' ∧ r.headers = r'.headers) ∨
    ∃ err err', c.outcome = .error err ∧ c'.outcome = .error err'

theorem outcome_eq_ok {c : Segmentation stream} {r : HttpHeaders} (h : c.outcome = .ok r) :
    IsHttpHead stream r.headers ∧
      ∃ k, r.client = (c.reads.drop k).map .done ∧
        r.headers ++ r.rest = (c.reads.take k).flatten := by
  obtain ⟨reads, hclient, hbytes, hhead⟩ := readHttpHeadersFrom_eq_ok h
  rw [List.nil_append] at hbytes hhead
  obtain ⟨reads', left, hsplit, hreads, hleft⟩ := List.map_eq_append_iff.mp hclient
  have hsame : reads' = reads :=
    List.map_injective_iff.mpr (fun _ _ he => Timed.done.inj he) hreads
  subst hsame
  have hlong := headEnd_append left.flatten (headEnd_eq_some_of_isHead hhead)
  rw [← List.flatten_append, ← hsplit, c.flatten_reads] at hlong
  refine ⟨?_, reads'.length, ?_, ?_⟩
  · have hstream : stream.take r.headers.length = r.headers := by
      have hpre : r.headers <+: stream := by
        rw [← c.flatten_reads, hsplit, List.flatten_append]
        exact hhead.isPrefix.trans (List.prefix_append _ _)
      exact (List.prefix_iff_eq_take.mp hpre).symm
    have hresult := (headEnd_eq_some_iff.mp hlong).2
    rwa [hstream] at hresult
  · rw [hsplit, List.drop_left]
    exact hleft.symm
  · rw [hsplit, List.take_left]
    exact hbytes

theorem outcome_eq_ok_iff (c : Segmentation stream) {n : ℕ}
    (hend : headEnd (asciiByte '\r') (asciiByte '\n') stream = some n) :
    (∃ r, c.outcome = .ok r) ↔ HeadInTime n [] c.reads := by
  have hflat : headEnd (asciiByte '\r') (asciiByte '\n') ([] ++ c.reads.flatten) = some n := by
    rw [List.nil_append, c.flatten_reads, hend]
  constructor
  · rintro ⟨r, hr⟩
    by_contra htime
    obtain ⟨err, herr⟩ :=
      readHttpHeadersFrom_of_not_inTime c.reads_ne_nil hflat (Nat.zero_le maxHeader) htime
    rw [outcome, readHttpHeaders, herr] at hr
    cases hr
  · intro htime
    have hpos : 0 < n := by
      have hfour := four_le_headEnd hend
      omega
    obtain ⟨chunks, left, -, -, hread⟩ :=
      readHttpHeadersFrom_of_inTime c.reads_ne_nil hflat hpos htime
    exact ⟨_, hread⟩

theorem sameHead_iff (c c' : Segmentation stream) :
    c.SameHead c' ↔ ((∃ r, c.outcome = .ok r) ↔ ∃ r, c'.outcome = .ok r) := by
  cases h : c.outcome with
  | error err =>
    cases h' : c'.outcome with
    | error err' => simp [SameHead, h, h']
    | ok r' => simp [SameHead, h, h']
  | ok r =>
    cases h' : c'.outcome with
    | error err' => simp [SameHead, h, h']
    | ok r' =>
      have hhead := (outcome_eq_ok h).1
      have hhead' := (outcome_eq_ok h').1
      -- both are the shortest beginning of the stream
      have hlen : r.headers.length = r'.headers.length :=
        Nat.le_antisymm (hhead.shortest _ hhead'.isPrefix hhead'.isSuffix)
          (hhead'.shortest _ hhead.isPrefix hhead.isSuffix)
      have hsame : r.headers = r'.headers := by
        rw [List.prefix_iff_eq_take.mp hhead.isPrefix, List.prefix_iff_eq_take.mp hhead'.isPrefix,
          hlen]
      simp [SameHead, h, h', hsame]

/-! ### Segments at given places -/

def single (stream : Bytes) : Segmentation stream where
  reads := stream.map fun b => [b]
  reads_ne_nil := by simp
  reads_le := by simp [maxRead]
  flatten_reads := by simp [← List.flatMap_def]

/-- The first `n` bytes one by one, `m` bytes at once and the others one by one. -/
def jump (stream : Bytes) (n m : ℕ) (hm : m ≤ maxRead) (hpos : 0 < m)
    (hn : n + m ≤ stream.length) : Segmentation stream where
  reads := (single (stream.take n)).reads ++
    (stream.drop n).take m :: (single ((stream.drop n).drop m)).reads
  reads_ne_nil := by
    intro chunk hchunk
    rcases List.mem_append.mp hchunk with hchunk | hchunk
    · exact (single _).reads_ne_nil chunk hchunk
    · rcases List.mem_cons.mp hchunk with rfl | hchunk
      · rw [← List.length_pos_iff_ne_nil, List.length_take, List.length_drop]
        omega
      · exact (single _).reads_ne_nil chunk hchunk
  reads_le := by
    intro chunk hchunk
    rcases List.mem_append.mp hchunk with hchunk | hchunk
    · exact (single _).reads_le chunk hchunk
    · rcases List.mem_cons.mp hchunk with rfl | hchunk
      · rw [List.length_take]
        omega
      · exact (single _).reads_le chunk hchunk
  flatten_reads := by
    rw [List.flatten_append, List.flatten_cons, (single _).flatten_reads,
      (single _).flatten_reads, List.take_append_drop, List.take_append_drop]

theorem flatten_take_single (stream : Bytes) (k : ℕ) :
    ((single stream).reads.take k).flatten = stream.take k := by
  rw [single, ← List.map_take]
  exact (single (stream.take k)).flatten_reads

theorem not_inTime_single {n : ℕ} (hn : n ≤ stream.length) (hlong : maxHeader + 1 < n) :
    ¬HeadInTime n [] (single stream).reads := by
  intro h
  have hk := h (maxHeader + 1)
  rw [List.nil_append, flatten_take_single, List.length_take] at hk
  have hlimit := hk (by omega)
  omega

theorem inTime_jump {m : ℕ} (hm : m ≤ maxRead) (hpos : 0 < m)
    (hlen : maxHeader + m ≤ stream.length) :
    HeadInTime (maxHeader + m) [] (jump stream maxHeader m hm hpos hlen).reads := by
  intro k hk
  rw [List.nil_append] at hk ⊢
  have hfirst : (single (stream.take maxHeader)).reads.length = maxHeader := by
    rw [single, List.length_map, List.length_take]
    omega
  by_cases hbefore : k ≤ maxHeader
  · rw [jump, List.take_append_of_le_length (by omega), flatten_take_single, List.length_take,
      List.length_take]
    omega
  · -- the read that brings the end of the head is among these
    exfalso
    obtain ⟨j, hj⟩ : ∃ j, k - maxHeader = j + 1 := ⟨k - maxHeader - 1, by omega⟩
    rw [jump, List.take_append, List.flatten_append, hfirst, hj, List.take_succ_cons,
      List.flatten_cons, List.take_of_length_le (by omega), (single _).flatten_reads,
      List.length_append, List.length_append, List.length_take, List.length_take,
      List.length_drop] at hk
    omega

theorem not_inTime_of_lt (c : Segmentation stream) {n : ℕ} (hn : n ≤ stream.length)
    (hlong : maxHeader + maxRead < n) : ¬HeadInTime n [] c.reads := by
  intro h
  -- no read takes the buffer from within the bound to the end of the head
  have hwithin : ∀ k, (c.reads.take k).flatten.length ≤ maxHeader := by
    intro k
    induction k with
    | zero => simp
    | succ k ih =>
      have hnext : (c.reads.take (k + 1)).flatten.length ≤ maxHeader + maxRead := by
        rw [List.take_add_one, List.flatten_append, List.length_append]
        cases hk : c.reads[k]? with
        | none =>
          simp only [Option.toList_none, List.flatten_nil, List.length_nil]
          omega
        | some chunk =>
          have hle := c.reads_le chunk (List.mem_of_getElem? hk)
          simp only [Option.toList_some, List.flatten_singleton]
          omega
      exact h (k + 1) (by rw [List.nil_append]; omega)
  have hall := hwithin c.reads.length
  rw [List.take_length, c.flatten_reads] at hall
  omega

theorem forall_sameHead_iff {n : ℕ}
    (hend : headEnd (asciiByte '\r') (asciiByte '\n') stream = some n) :
    (∀ c c' : Segmentation stream, c.SameHead c') ↔
      n ≤ maxHeader + 1 ∨ maxHeader + maxRead < n := by
  have hn := headEnd_le hend
  constructor
  · intro hsame
    by_contra hbetween
    rw [not_or, not_le, not_lt] at hbetween
    obtain ⟨hlong, hshort⟩ := hbetween
    obtain ⟨m, rfl⟩ : ∃ m, n = maxHeader + m := ⟨n - maxHeader, by omega⟩
    have hm : m ≤ maxRead := by omega
    have hpos : 0 < m := by omega
    have hboth := (sameHead_iff (jump stream maxHeader m hm hpos hn) (single stream)).mp
      (hsame _ _)
    rw [outcome_eq_ok_iff _ hend, outcome_eq_ok_iff _ hend] at hboth
    exact not_inTime_single hn hlong (hboth.mp (inTime_jump hm hpos hn))
  · rintro hcond c c'
    rw [sameHead_iff, outcome_eq_ok_iff _ hend, outcome_eq_ok_iff _ hend]
    rcases hcond with hshort | hlong
    · have htime : ∀ reads, HeadInTime n [] reads := fun reads k hk => by omega
      exact iff_of_true (htime _) (htime _)
    · exact iff_of_false (c.not_inTime_of_lt hn hlong) (c'.not_inTime_of_lt hn hlong)

theorem sameHead_of_no_head (hend : headEnd (asciiByte '\r') (asciiByte '\n') stream = none)
    (c c' : Segmentation stream) : c.SameHead c' := by
  have hno : ∀ c : Segmentation stream, ¬∃ r, c.outcome = .ok r := by
    rintro c ⟨r, hr⟩
    rw [headEnd_eq_some_of_isHead (outcome_eq_ok hr).1] at hend
    cases hend
  exact (sameHead_iff c c').mpr (iff_of_false (hno c) (hno c'))

end Segmentation

/-- **Segments make no difference**, but for a head that exceeds the bound by more than one byte
and by a read at most. Whenever a head is read it is that of the stream, and nothing of what was
received is lost. -/
theorem segmentation_iff (stream : Bytes) :
    ((∀ c c' : Segmentation stream, c.SameHead c') ↔
      ∀ head, IsHttpHead stream head →
        head.length ≤ maxHeader + 1 ∨ maxHeader + maxRead < head.length) ∧
      ∀ (c : Segmentation stream) (r : HttpHeaders), c.outcome = .ok r →
        IsHttpHead stream r.headers ∧
          ∃ k, r.client = (c.reads.drop k).map .done ∧
            r.headers ++ r.rest = (c.reads.take k).flatten := by
  refine ⟨?_, fun _ _ h => Segmentation.outcome_eq_ok h⟩
  cases hend : headEnd (asciiByte '\r') (asciiByte '\n') stream with
  | none =>
    refine iff_of_true (Segmentation.sameHead_of_no_head hend) fun head hhead => ?_
    rw [headEnd_eq_some_of_isHead hhead] at hend
    cases hend
  | some n =>
    rw [Segmentation.forall_sameHead_iff hend]
    obtain ⟨hn, hhead⟩ := headEnd_eq_some_iff.mp hend
    constructor
    · intro hcond head hhead'
      rw [headEnd_eq_some_of_isHead hhead'] at hend
      cases hend
      exact hcond
    · intro hcond
      have hlen := hcond _ hhead
      rwa [List.length_take, Nat.min_eq_left hn] at hlen

def longHead : Bytes :=
  List.replicate (maxHeader - 2) (asciiByte 'a') ++
    [asciiByte '\r', asciiByte '\n', asciiByte '\r', asciiByte '\n']

/-- Whether it is read depends on the segments. -/
theorem longHead_depends : ¬∀ c c' : Segmentation longHead, c.SameHead c' := by
  have hend : headEnd (asciiByte '\r') (asciiByte '\n') longHead = some (maxHeader + 2) := by
    have hno : asciiByte '\r' ∉ List.replicate (maxHeader - 2) (asciiByte 'a') := fun hmem =>
      absurd (List.eq_of_mem_replicate hmem) (by decide)
    rw [longHead, headEnd_append_of_not_mem hno, List.length_replicate]
    rfl
  have hread : maxRead = 1024 := rfl
  rw [Segmentation.forall_sameHead_iff hend]
  omega

end FluxTerm.Proxy
