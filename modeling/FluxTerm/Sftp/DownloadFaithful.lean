import FluxTerm.Sftp.DownloadWindow
import FluxTerm.Lib.Coverage

/-!
# FluxTerm — the windowed download is faithful

Against a server that holds a fixed file `F` and answers a read inside it with any nonempty
prefix of the requested range, a read behind its end with EOF, the loop of `DownloadWindow`
ends, and then the local file is `F`.

## The architecture
-/

namespace FluxTerm.Sftp

open FluxTerm.Engine FluxTerm.Lib

/-! ## What the effects say -/

def writtenBytes : List PipelineEffect → List UInt8
  | [] => []
  | .wrote chunk :: es => chunk ++ writtenBytes es
  | _ :: es => writtenBytes es

/-- The `Progress` values in the order they are reported. -/
def progressValues : List PipelineEffect → List Nat
  | [] => []
  | .progress n :: es => n :: progressValues es
  | _ :: es => progressValues es

/-- Every `Progress` value is the number of bytes written so far, `n` of them before the list. -/
def ReportsExactly : Nat → List PipelineEffect → Prop
  | _, [] => True
  | n, .wrote chunk :: es => ReportsExactly (n + chunk.length) es
  | n, .progress k :: es => k = n ∧ ReportsExactly n es
  | n, _ :: es => ReportsExactly n es

@[simp] theorem writtenBytes_append (es fs : List PipelineEffect) :
    writtenBytes (es ++ fs) = writtenBytes es ++ writtenBytes fs := by
  induction es with
  | nil => rfl
  | cons e es ih => cases e <;> simp [writtenBytes, ih]

theorem reportsExactly_append (es fs : List PipelineEffect) (n : Nat) :
    ReportsExactly n (es ++ fs) ↔
      ReportsExactly n es ∧ ReportsExactly (n + (writtenBytes es).length) fs := by
  induction es generalizing n with
  | nil => simp [ReportsExactly, writtenBytes]
  | cons e es ih =>
    cases e with
    | wrote chunk => simp [ReportsExactly, writtenBytes, ih, Nat.add_assoc]
    | progress k => simp [ReportsExactly, writtenBytes, ih, and_assoc]
    | closedRemote => simp [ReportsExactly, writtenBytes, ih]
    | removedLocal => simp [ReportsExactly, writtenBytes, ih]

theorem ReportsExactly.nondecreasing {n : Nat} {es : List PipelineEffect}
    (h : ReportsExactly n es) :
    (∀ k ∈ progressValues es, n ≤ k) ∧ (progressValues es).Pairwise (· ≤ ·) := by
  induction es generalizing n with
  | nil => simp [progressValues]
  | cons e es ih =>
    cases e with
    | wrote chunk =>
      obtain ⟨hle, hpair⟩ := ih h
      exact ⟨fun k hk => (Nat.le_add_right _ _).trans (hle k hk), hpair⟩
    | progress k =>
      obtain ⟨rfl, hes⟩ := h
      obtain ⟨hle, hpair⟩ := ih hes
      refine ⟨fun j hj => ?_, List.pairwise_cons.mpr ⟨hle, hpair⟩⟩
      rcases List.mem_cons.mp hj with rfl | hj
      · exact le_rfl
      · exact hle j hj
    | closedRemote => exact ih h
    | removedLocal => exact ih h

/-! ## The server -/

/-- The answers of a server that holds the fixed content `F`: any nonempty prefix of the requested
range inside the file, EOF behind its end. -/
def HonestAnswer (F : List UInt8) (request : DownloadReadFollowUp) : ReadAnswer → Prop
  | .data bytes =>
    request.offset < F.length ∧ bytes ≠ [] ∧ bytes <+: (F.drop request.offset).take request.len
  | .eof => F.length ≤ request.offset
  | .failed _ => False
  | .joinFailed _ => False

/-- The events of an undisturbed download of `F`: nobody cancels, the local disk takes every
write, and each in-flight read is answered honestly. -/
def UndisturbedEvent (F : List UInt8) (chunk : ChunkSize) : PipelineState → PipelineEvent → Prop
  | .looping st, .completed index answer none =>
    ∀ request, (fillWindow chunk st).inFlight[index]? = some request →
      HonestAnswer F request answer
  | .looping _, .drained none => True
  | _, _ => False

/-- The size `fstat` reports for the fixed content `F`, when the server answers it at all. -/
def fstatSize (F : List UInt8) (answered : Bool) : Option Nat :=
  if answered then some F.length else none

/-- The download of the fixed content `F`. -/
def honestDownload (F : List UInt8) (chunk : ChunkSize) (fstatAnswered : Bool) :
    Machine PipelineState PipelineEvent :=
  (downloadMachine chunk (fstatSize F fstatAnswered)).restrict (UndisturbedEvent F chunk)

/-! ## The invariant -/

/-- A pending entry holds the bytes of `F` at its offset. -/
structure ChunkOf (F : List UInt8) (entry : Nat × List UInt8) : Prop where
  nonempty : 0 < entry.2.length
  within : entry.1 + entry.2.length ≤ F.length
  bytes : (F.drop entry.1).take entry.2.length = entry.2

/-- An in-flight read asks for a nonempty range that has been handed out, of `u32` length. -/
structure RequestOk (next : Nat) (request : DownloadReadFollowUp) : Prop where
  nonempty : 0 < request.len
  fits : request.len < 2 ^ 32
  within : request.offset + request.len ≤ next

def pendingSpans (pending : OrdMap Nat (List UInt8)) : List Span :=
  pending.entries.map fun e => ⟨e.1, e.2.length⟩

def requestSpans (requests : List DownloadReadFollowUp) : List Span :=
  requests.map fun r => ⟨r.offset, r.len⟩

def DownloadLoop.spans (st : DownloadLoop) : List Span :=
  ⟨0, st.expectedWriteOffset⟩ ::
    (pendingSpans st.queue.pendingChunks ++ requestSpans st.inFlight)

/-- What holds whenever the loop is at its head. -/
structure PipelineInv (F : List UInt8) (st : DownloadLoop) : Prop where
  transferred : st.transferred = st.expectedWriteOffset
  written : writtenBytes st.effects = F.take st.expectedWriteOffset
  reports : ReportsExactly 0 st.effects
  expected_le : st.expectedWriteOffset ≤ F.length
  chunks : ∀ e ∈ st.queue.pendingChunks.entries, ChunkOf F e
  requests : ∀ r ∈ st.inFlight, RequestOk st.nextOffset r
  window : st.inFlight.length ≤ downloadReadWindow
  tiles : Tiles st.spans st.nextOffset F.length
  drained : ∀ e ∈ st.queue.pendingChunks.entries, e.1 ≠ st.expectedWriteOffset
  eof : st.queue.eof = true → F.length ≤ st.nextOffset

theorem pipelineInv_start (F : List UInt8) : PipelineInv F .start where
  transferred := rfl
  written := rfl
  reports := trivial
  expected_le := Nat.zero_le _
  chunks := by simp [DownloadLoop.start]
  requests := by simp [DownloadLoop.start]
  window := by simp [DownloadLoop.start]
  tiles := fun p _ => by
    simp [DownloadLoop.start, DownloadLoop.spans, pendingSpans, requestSpans, Span.count]
  drained := by simp [DownloadLoop.start]
  eof := by simp [DownloadLoop.start]

variable {F : List UInt8} {chunk : ChunkSize} {st : DownloadLoop}

/-! ## Filling the window -/

theorem asU32_chunkSize (chunk : ChunkSize) : asU32 chunk.size = chunk.size :=
  Nat.mod_eq_of_lt chunk.fits

theorem inv_spawnNext (h : PipelineInv F st) (hroom : st.inFlight.length < downloadReadWindow) :
    PipelineInv F (spawnNext chunk st) where
  transferred := h.transferred
  written := h.written
  reports := h.reports
  expected_le := h.expected_le
  chunks := h.chunks
  requests := by
    intro r hr
    rcases List.mem_append.mp hr with hr | hr
    · have hok := h.requests r hr
      exact ⟨hok.nonempty, hok.fits, hok.within.trans (Nat.le_add_right _ _)⟩
    · rw [List.mem_singleton.mp hr, asU32_chunkSize]
      exact ⟨chunk.pos, chunk.fits, le_rfl⟩
  window := by
    rw [spawnNext, List.length_append, List.length_singleton]
    exact hroom
  tiles := by
    have hspans : (spawnNext chunk st).spans = st.spans ++ [⟨st.nextOffset, chunk.size⟩] := by
      simp [DownloadLoop.spans, spawnNext, requestSpans, asU32_chunkSize]
    rw [hspans]
    exact h.tiles.extend chunk.size
  drained := h.drained
  eof := fun he => (h.eof he).trans (Nat.le_add_right _ _)

theorem inv_fillLoop (fuel : Nat) (h : PipelineInv F st) :
    PipelineInv F (fillLoop chunk fuel st) := by
  induction fuel generalizing st with
  | zero => exact h
  | succ fuel ih =>
    rw [fillLoop]
    split
    · rename_i hcond
      rw [Bool.and_eq_true, decide_eq_true_eq] at hcond
      exact ih (inv_spawnNext h hcond.2)
    · exact h

theorem inv_fillWindow (chunk : ChunkSize) (h : PipelineInv F st) : PipelineInv F (fillWindow chunk st) :=
  inv_fillLoop downloadReadWindow h

theorem fillLoop_frame (fuel : Nat) (st : DownloadLoop) :
    (fillLoop chunk fuel st).queue = st.queue ∧
      (fillLoop chunk fuel st).effects = st.effects := by
  induction fuel generalizing st with
  | zero => exact ⟨rfl, rfl⟩
  | succ fuel ih =>
    rw [fillLoop]
    split
    · exact ih (spawnNext chunk st)
    · exact ⟨rfl, rfl⟩

theorem fillLoop_full (fuel : Nat) (st : DownloadLoop)
    (hfuel : downloadReadWindow ≤ st.inFlight.length + fuel) :
    st.queue.eof = true ∨ downloadReadWindow ≤ (fillLoop chunk fuel st).inFlight.length := by
  induction fuel generalizing st with
  | zero => exact .inr hfuel
  | succ fuel ih =>
    rw [fillLoop]
    split
    · refine ih (spawnNext chunk st) ?_
      rw [spawnNext, List.length_append, List.length_singleton]
      omega
    · rename_i hcond
      cases heof : st.queue.eof with
      | true => exact .inl rfl
      | false =>
        simp only [heof, Bool.not_false, Bool.true_and, decide_eq_true_eq] at hcond
        exact .inr (Nat.le_of_not_lt hcond)

theorem fillWindow_full (chunk : ChunkSize) (st : DownloadLoop) :
    st.queue.eof = true ∨ downloadReadWindow ≤ (fillWindow chunk st).inFlight.length :=
  fillLoop_full downloadReadWindow st (Nat.le_add_left _ _)

/-! ## Draining -/

theorem drainLoop_spec (rest : List Span) (n : Nat) :
    ∀ (fuel : Nat) (pending : OrdMap Nat (List UInt8)) (expected : Nat),
      pending.size ≤ fuel → (∀ e ∈ pending.entries, ChunkOf F e) → expected ≤ F.length →
      Tiles (⟨0, expected⟩ :: (pendingSpans pending ++ rest)) n F.length →
      let d := drainLoop fuel pending expected
      (∀ e ∈ d.pendingChunks.entries, ChunkOf F e ∧ e.1 ≠ d.expectedWriteOffset) ∧
        d.expectedWriteOffset ≤ F.length ∧
        Tiles (⟨0, d.expectedWriteOffset⟩ :: (pendingSpans d.pendingChunks ++ rest)) n F.length ∧
        d.expectedWriteOffset = expected + d.chunks.flatten.length ∧
        F.take d.expectedWriteOffset = F.take expected ++ d.chunks.flatten := by
  intro fuel
  induction fuel with
  | zero =>
    intro pending expected hsize hchunks hle htiles
    have hnone : pending.entries = [] := by
      rw [OrdMap.size, Nat.le_zero, List.length_eq_zero_iff] at hsize
      exact hsize
    exact ⟨by simp [drainLoop, hnone], hle, htiles, by simp [drainLoop], by simp [drainLoop]⟩
  | succ fuel ih =>
    intro pending expected hsize hchunks hle htiles
    cases hrem : pending.remove expected with
    | none =>
      simp only [drainLoop, hrem]
      exact ⟨fun e he => ⟨hchunks e he, OrdMap.remove_eq_none.mp hrem e he⟩, hle, htiles,
        by simp, by simp⟩
    | some found =>
      obtain ⟨bytes, remaining⟩ := found
      have hperm := OrdMap.remove_perm hrem
      have hentry : ChunkOf F (expected, bytes) :=
        hchunks _ (hperm.mem_iff.mpr (List.mem_cons_self ..))
      have hrest : ∀ e ∈ remaining.entries, ChunkOf F e := fun e he =>
        hchunks e (hperm.mem_iff.mpr (List.mem_cons_of_mem _ he))
      have hsize' : remaining.size ≤ fuel := by
        have := OrdMap.size_of_remove hrem
        omega
      -- the chunk at `expected` moves from the pending spans into the written one
      have htiles' : Tiles (⟨0, expected + bytes.length⟩ :: (pendingSpans remaining ++ rest))
          n F.length := by
        refine htiles.of_coverage fun p _ => ?_
        have hp : coverage (pendingSpans pending) p
            = Span.count ⟨expected, bytes.length⟩ p + coverage (pendingSpans remaining) p := by
          have hmap := hperm.map fun e : Nat × List UInt8 => (⟨e.1, e.2.length⟩ : Span)
          simpa [pendingSpans] using coverage_perm hmap p
        have hsplit := Span.count_split 0 expected bytes.length p
        rw [Nat.zero_add] at hsplit
        simp only [coverage_cons, coverage_append]
        omega
      obtain ⟨hpend, hle', htile, hlen, htake⟩ :=
        ih remaining (expected + bytes.length) hsize' hrest hentry.within htiles'
      simp only [drainLoop, hrem]
      refine ⟨hpend, hle', htile, ?_, ?_⟩
      · rw [hlen, List.flatten_cons, List.length_append, Nat.add_assoc]
      · rw [htake, List.flatten_cons, List.take_add, hentry.bytes, List.append_assoc]

/-! ## Writing -/

theorem writeChunks_none (chunks : List (List UInt8)) (st : DownloadLoop)
    (hrep : ReportsExactly 0 st.effects)
    (htrans : st.transferred = (writtenBytes st.effects).length) :
    ∃ effects, writeChunks none chunks st
        = ({ st with transferred := st.transferred + chunks.flatten.length, effects }, none) ∧
      ReportsExactly 0 effects ∧
      writtenBytes effects = writtenBytes st.effects ++ chunks.flatten := by
  induction chunks generalizing st with
  | nil => exact ⟨st.effects, by simp [writeChunks], hrep, by simp⟩
  | cons c chunks ih =>
    obtain ⟨effects, heq, hrep', hwritten⟩ := ih
      { st with
        transferred := st.transferred + c.length
        effects := st.effects ++ [.wrote c, .progress (st.transferred + c.length)] }
      (by
        rw [reportsExactly_append]
        exact ⟨hrep, by simp [ReportsExactly, htrans]⟩)
      (by simp [writtenBytes, htrans])
    refine ⟨effects, ?_, hrep', ?_⟩
    · rw [show writeChunks none (c :: chunks) st = writeChunks none chunks
          { st with
            transferred := st.transferred + c.length
            effects := st.effects ++ [.wrote c, .progress (st.transferred + c.length)] } from rfl]
      rw [heq, List.flatten_cons, List.length_append, Nat.add_assoc]
    · rw [hwritten, List.flatten_cons]
      simp [writtenBytes]

/-! ## Processing an answer -/

theorem coverage_eraseIdx {requests : List DownloadReadFollowUp} {index : Nat}
    {request : DownloadReadFollowUp} (hreq : requests[index]? = some request) (p : Nat) :
    coverage (requestSpans requests) p
      = Span.count ⟨request.offset, request.len⟩ p
        + coverage (requestSpans (requests.eraseIdx index)) p := by
  obtain ⟨hlt, rfl⟩ := List.getElem?_eq_some_iff.mp hreq
  have hperm := List.getElem_cons_eraseIdx_perm hlt
  have hmap := hperm.map fun r : DownloadReadFollowUp => (⟨r.offset, r.len⟩ : Span)
  simpa [requestSpans] using (coverage_perm hmap p).symm

theorem length_eraseIdx_of_getElem? {requests : List DownloadReadFollowUp} {index : Nat}
    {request : DownloadReadFollowUp} (hreq : requests[index]? = some request) :
    (requests.eraseIdx index).length + 1 = requests.length := by
  obtain ⟨hlt, -⟩ := List.getElem?_eq_some_iff.mp hreq
  rw [List.length_eraseIdx_of_lt hlt]
  omega

theorem honest_data {request : DownloadReadFollowUp} {bytes : List UInt8}
    (h : HonestAnswer F request (.data bytes)) :
    ChunkOf F (request.offset, bytes) ∧ bytes.length ≤ request.len := by
  obtain ⟨hoff, hne, hpre⟩ := h
  have hlen := hpre.length_le
  rw [List.length_take, List.length_drop] at hlen
  refine ⟨⟨List.length_pos_iff.mpr hne, ?_, ?_⟩, by omega⟩
  · change request.offset + bytes.length ≤ F.length
    omega
  · change (F.drop request.offset).take bytes.length = bytes
    rw [List.prefix_iff_eq_take.mp hpre, List.take_take]
    congr 1
    rw [List.length_take, List.length_drop]
    omega

theorem PipelineInv.not_pending (h : PipelineInv F st) {index : Nat}
    {request : DownloadReadFollowUp} (hreq : st.inFlight[index]? = some request)
    (hoff : request.offset < F.length) :
    ∀ e ∈ st.queue.pendingChunks.entries, e.1 ≠ request.offset := by
  intro e he heq
  have hlen := (h.requests request (List.mem_of_getElem? hreq)).nonempty
  have htile := h.tiles request.offset hoff
  -- both the chunk and the read contain the offset
  have hchunk : 1 ≤ coverage (pendingSpans st.queue.pendingChunks) request.offset := by
    have hmem : (⟨e.1, e.2.length⟩ : Span) ∈ pendingSpans st.queue.pendingChunks :=
      List.mem_map_of_mem he
    have hone := count_le_coverage hmem request.offset
    rwa [Span.count_of_mem heq.le (by simpa [heq] using (h.chunks e he).nonempty)] at hone
  have hread := coverage_eraseIdx hreq request.offset
  rw [Span.count_of_mem le_rfl (by simpa using hlen)] at hread
  rw [DownloadLoop.spans, coverage_cons, coverage_append] at htile
  split_ifs at htile <;> omega

theorem inv_drainAndWrite (h : PipelineInv F st) (queue : ReadQueue)
    (inFlight : List DownloadReadFollowUp)
    (hchunks : ∀ e ∈ queue.pendingChunks.entries, ChunkOf F e)
    (hreqs : ∀ r ∈ inFlight, RequestOk st.nextOffset r)
    (hwindow : inFlight.length ≤ downloadReadWindow)
    (htiles : Tiles (⟨0, st.expectedWriteOffset⟩ ::
      (pendingSpans queue.pendingChunks ++ requestSpans inFlight)) st.nextOffset F.length)
    (heof : queue.eof = true → F.length ≤ st.nextOffset) :
    let drained := drainContiguousDownloadChunks queue.pendingChunks st.expectedWriteOffset
    ∃ st', writeChunks none drained.chunks
        { st with
          inFlight
          queue := { queue with pendingChunks := drained.pendingChunks }
          expectedWriteOffset := drained.expectedWriteOffset } = (st', none) ∧
      PipelineInv F st' ∧ st'.inFlight = inFlight ∧ st'.nextOffset = st.nextOffset ∧
      st'.queue.eof = queue.eof := by
  intro drained
  obtain ⟨hpend, hle, htile, hlen, htake⟩ :=
    drainLoop_spec (requestSpans inFlight) st.nextOffset queue.pendingChunks.size
      queue.pendingChunks st.expectedWriteOffset le_rfl hchunks h.expected_le htiles
  have hwrittenLen : st.transferred = (writtenBytes st.effects).length := by
    rw [h.written, List.length_take, h.transferred, Nat.min_eq_left h.expected_le]
  obtain ⟨effects, heq, hrep, hwritten⟩ := writeChunks_none drained.chunks
    { st with
      inFlight
      queue := { queue with pendingChunks := drained.pendingChunks }
      expectedWriteOffset := drained.expectedWriteOffset } h.reports hwrittenLen
  refine ⟨_, heq, ?_, rfl, rfl, rfl⟩
  exact {
    transferred := (congrArg (· + drained.chunks.flatten.length) h.transferred).trans hlen.symm
    written := by
      change writtenBytes effects = F.take drained.expectedWriteOffset
      rw [hwritten, h.written]
      exact htake.symm
    reports := hrep
    expected_le := hle
    chunks := fun e he => (hpend e he).1
    requests := hreqs
    window := hwindow
    tiles := htile
    drained := fun e he => (hpend e he).2
    eof := heof }

theorem inv_processEof (h : PipelineInv F st) {index : Nat} {request : DownloadReadFollowUp}
    (hreq : st.inFlight[index]? = some request) (hoff : F.length ≤ request.offset) :
    ∃ st', processChunk index ⟨request.offset, request.len, []⟩ none st = (st', none) ∧
      PipelineInv F st' ∧ st'.inFlight = st.inFlight.eraseIdx index ∧
      st'.nextOffset = st.nextOffset ∧ st'.queue.eof = true := by
  have hnext : F.length ≤ st.nextOffset := by
    have hwithin := (h.requests request (List.mem_of_getElem? hreq)).within
    omega
  have hqueue : queueDownloadReadChunk ⟨request.offset, request.len, []⟩ st.queue
      = ({ st.queue with eof := true, eofResponses := st.queue.eofResponses + 1 }, none) := rfl
  simp only [processChunk, hqueue, Option.toList_none, List.append_nil]
  refine inv_drainAndWrite h { st.queue with eof := true, eofResponses := _ }
    (st.inFlight.eraseIdx index) h.chunks (fun r hr => h.requests r (List.mem_of_mem_eraseIdx hr)) ?_ ?_ fun _ => hnext
  · have hlen := length_eraseIdx_of_getElem? hreq
    have hwindow := h.window
    omega
  · refine h.tiles.of_coverage fun p hp => ?_
    have hcov := coverage_eraseIdx hreq p
    rw [Span.count_of_lt (hp.trans_le hoff), Nat.zero_add] at hcov
    simp only [DownloadLoop.spans, coverage_cons, coverage_append, hcov]

/-- The follow-up of an answer with `n` of the requested bytes. -/
def followUpOf (request : DownloadReadFollowUp) (n : Nat) : Option DownloadReadFollowUp :=
  if n < request.len then some ⟨request.offset + n, request.len - n⟩ else none

theorem count_followUp {request : DownloadReadFollowUp} {n : Nat} (hn : n ≤ request.len)
    (p : Nat) :
    Span.count ⟨request.offset, request.len⟩ p
      = Span.count ⟨request.offset, n⟩ p
        + coverage (requestSpans (followUpOf request n).toList) p := by
  rw [followUpOf]
  split
  · have hsplit := Span.count_split request.offset n (request.len - n) p
    rw [Nat.add_sub_cancel' hn] at hsplit
    simpa [requestSpans] using hsplit
  · rw [show n = request.len by omega]
    simp [requestSpans]

theorem inv_processData (h : PipelineInv F st) {index : Nat} {request : DownloadReadFollowUp}
    {bytes : List UInt8} (hreq : st.inFlight[index]? = some request)
    (hans : HonestAnswer F request (.data bytes)) :
    ∃ st', processChunk index ⟨request.offset, request.len, bytes⟩ none st = (st', none) ∧
      PipelineInv F st' ∧
      st'.inFlight = st.inFlight.eraseIdx index ++ (followUpOf request bytes.length).toList ∧
      st'.nextOffset = st.nextOffset ∧ st'.queue.eof = st.queue.eof := by
  obtain ⟨hchunk, hle⟩ := honest_data hans
  have hok := h.requests request (List.mem_of_getElem? hreq)
  have hnew := h.not_pending hreq hans.1
  have hperm := OrdMap.insert_perm bytes hnew
  have hqueue : queueDownloadReadChunk ⟨request.offset, request.len, bytes⟩ st.queue
      = ({ st.queue with
            pendingChunks := st.queue.pendingChunks.insert request.offset bytes },
          followUpOf request bytes.length) := by
    rw [queueDownloadReadChunk, if_neg (by simpa using hans.2.1)]
    simp only [asU32, Nat.mod_eq_of_lt (hle.trans_lt hok.fits)]
    rfl
  simp only [processChunk, hqueue]
  refine inv_drainAndWrite h
    { st.queue with pendingChunks := st.queue.pendingChunks.insert request.offset bytes }
    (st.inFlight.eraseIdx index ++ (followUpOf request bytes.length).toList) ?_ ?_ ?_ ?_ h.eof
  · intro e he
    rcases List.mem_cons.mp (hperm.mem_iff.mp he) with rfl | he
    · exact hchunk
    · exact h.chunks e he
  · intro r hr
    rcases List.mem_append.mp hr with hr | hr
    · exact h.requests r (List.mem_of_mem_eraseIdx hr)
    · rw [followUpOf] at hr
      split at hr
      · rw [Option.toList_some, List.mem_singleton] at hr
        have hfits := hok.fits
        have hwithin := hok.within
        subst hr
        exact ⟨by simp only; omega, by simp only; omega, by simp only; omega⟩
      · simp at hr
  · have hlen := length_eraseIdx_of_getElem? hreq
    have hwindow := h.window
    have htail : (followUpOf request bytes.length).toList.length ≤ 1 := by
      rw [followUpOf]
      split <;> simp
    rw [List.length_append]
    omega
  · refine h.tiles.of_coverage fun p _ => ?_
    have hcov := coverage_eraseIdx hreq p
    have hsplit := count_followUp hle p
    have hmap := hperm.map fun e : Nat × List UInt8 => (⟨e.1, e.2.length⟩ : Span)
    have hpend : coverage (pendingSpans (st.queue.pendingChunks.insert request.offset bytes)) p
        = Span.count ⟨request.offset, bytes.length⟩ p
          + coverage (pendingSpans st.queue.pendingChunks) p := by
      simpa [pendingSpans] using coverage_perm hmap p
    simp only [DownloadLoop.spans, coverage_cons, coverage_append, requestSpans,
      List.map_append] at hcov hsplit hpend ⊢
    omega

/-! ## The end of the loop -/

theorem eof_window_drained (h : PipelineInv F st) (hempty : (fillWindow chunk st).inFlight = []) :
    (fillWindow chunk st).queue.pendingChunks.entries = [] ∧
      (fillWindow chunk st).expectedWriteOffset = F.length := by
  have hfill := inv_fillWindow chunk h
  have heof : (fillWindow chunk st).queue.eof = true := by
    rcases fillWindow_full chunk st with heof | hfull
    · rw [fillWindow, (fillLoop_frame downloadReadWindow st).1]
      exact heof
    · rw [hempty] at hfull
      exact absurd hfull (by decide)
  have hnext := hfill.eof heof
  have htiles := hfill.tiles
  rw [DownloadLoop.spans, hempty] at htiles
  have hpend : ∀ s ∈ pendingSpans (fillWindow chunk st).queue.pendingChunks ++ requestSpans [],
      ∃ e ∈ (fillWindow chunk st).queue.pendingChunks.entries, s = ⟨e.1, e.2.length⟩ := by
    intro s hs
    rw [requestSpans, List.map_nil, List.append_nil, pendingSpans, List.mem_map] at hs
    obtain ⟨e, he, rfl⟩ := hs
    exact ⟨e, he, rfl⟩
  have hend : (fillWindow chunk st).expectedWriteOffset = F.length := by
    -- otherwise the next offset to write would be the start of a pending chunk
    by_contra hne
    have hlt : (fillWindow chunk st).expectedWriteOffset < F.length :=
      lt_of_le_of_ne hfill.expected_le hne
    obtain ⟨s, hs, hstart, -⟩ := htiles.exists_next (hlt.trans_le hnext) hlt
    obtain ⟨e, he, rfl⟩ := hpend s hs
    exact hfill.drained e he hstart
  refine ⟨List.eq_nil_iff_forall_not_mem.mpr fun e he => ?_, hend⟩
  have hchunk := hfill.chunks e he
  have hpos := hchunk.nonempty
  have hwithin := hchunk.within
  have hmem : (⟨e.1, e.2.length⟩ : Span)
      ∈ pendingSpans (fillWindow chunk st).queue.pendingChunks ++ requestSpans [] :=
    List.mem_append_left _ (List.mem_map_of_mem he)
  have hge := htiles.start_ge (hend.le.trans hnext) hmem hpos (by simp only; omega)
  simp only at hge
  omega

/-- What the function returns for a fully downloaded file. -/
structure Downloaded (F : List UInt8) (st : DownloadLoop) (result : Except EngineError Nat) :
    Prop where
  result : result = .ok F.length
  written : writtenBytes st.effects = F
  transferred : st.transferred = F.length
  reports : ReportsExactly 0 st.effects

theorem finishDownload_faithful (h : PipelineInv F st) (fstatAnswered : Bool)
    (hempty : (fillWindow chunk st).inFlight = []) :
    ∃ st' result, finishDownload (fstatSize F fstatAnswered) none (fillWindow chunk st)
        = (st', result) ∧ Downloaded F st' result := by
  obtain ⟨hpend, hend⟩ := eof_window_drained h hempty
  have hfill := inv_fillWindow chunk h
  have htrans : (fillWindow chunk st).transferred = F.length := hfill.transferred.trans hend
  have hclose : finishDownload (fstatSize F fstatAnswered) none (fillWindow chunk st)
      = ({ fillWindow chunk st with
            effects := (fillWindow chunk st).effects ++ [.closedRemote] },
          .ok (fillWindow chunk st).transferred) := by
    cases fstatAnswered with
    | false => simp [finishDownload, finishDownload.closeRemote, hpend, fstatSize]
    | true => simp [finishDownload, finishDownload.closeRemote, hpend, htrans, fstatSize]
  refine ⟨_, _, hclose, ?_⟩
  exact {
    result := by rw [htrans]
    written := by
      simp only [writtenBytes_append, hfill.written, hend, writtenBytes, List.append_nil,
        List.take_length]
    transferred := htrans
    reports := by
      rw [reportsExactly_append]
      exact ⟨hfill.reports, trivial⟩ }

/-! ## One turn, inverted -/

/-- What a step of the undisturbed download can be: an end-of-file answer, a data answer, or the
exit from the loop. -/
inductive Turn (F : List UInt8) (chunk : ChunkSize) (st : DownloadLoop) : PipelineState → Prop where
  | eof (index : Nat) (request : DownloadReadFollowUp) (st' : DownloadLoop)
      (hreq : (fillWindow chunk st).inFlight[index]? = some request)
      (hoff : F.length ≤ request.offset) (hinv : PipelineInv F st')
      (hreads : st'.inFlight = (fillWindow chunk st).inFlight.eraseIdx index)
      (hnext : st'.nextOffset = (fillWindow chunk st).nextOffset)
      (heof : st'.queue.eof = true) : Turn F chunk st (.looping st')
  | data (index : Nat) (request : DownloadReadFollowUp) (bytes : List UInt8) (st' : DownloadLoop)
      (hreq : (fillWindow chunk st).inFlight[index]? = some request)
      (hans : HonestAnswer F request (.data bytes)) (hinv : PipelineInv F st')
      (hreads : st'.inFlight = (fillWindow chunk st).inFlight.eraseIdx index
        ++ (followUpOf request bytes.length).toList)
      (hnext : st'.nextOffset = (fillWindow chunk st).nextOffset)
      (heof : st'.queue.eof = (fillWindow chunk st).queue.eof) : Turn F chunk st (.looping st')
  | exit (st' : DownloadLoop) (result : Except EngineError Nat)
      (hempty : (fillWindow chunk st).inFlight = [])
      (hdone : Downloaded F st' result) : Turn F chunk st (.returned st' result)

theorem completed_turn (h : PipelineInv F st) (fstatAnswered : Bool) {index : Nat}
    {request : DownloadReadFollowUp} {answer : ReadAnswer}
    (hreq : (fillWindow chunk st).inFlight[index]? = some request)
    (hans : HonestAnswer F request answer) :
    ∃ st', pipelineStep chunk (fstatSize F fstatAnswered) (.looping st)
        (.completed index answer none) = some (.looping st') ∧
      Turn F chunk st (.looping st') := by
  have hfill := inv_fillWindow chunk h
  cases answer with
  | failed detail => exact hans.elim
  | joinFailed detail => exact hans.elim
  | eof =>
    obtain ⟨st', heq, hinv, hreads, hnext, heof⟩ := inv_processEof hfill hreq hans
    refine ⟨st', ?_, .eof index request st' hreq hans hinv hreads hnext heof⟩
    simp only [pipelineStep, hreq, readChunk, heq]
  | data bytes =>
    obtain ⟨st', heq, hinv, hreads, hnext, heof⟩ := inv_processData hfill hreq hans
    refine ⟨st', ?_, .data index request bytes st' hreq hans hinv hreads hnext heof⟩
    simp only [pipelineStep, hreq, readChunk, heq]

theorem turn_of_step (h : PipelineInv F st) {fstatAnswered : Bool} {e : PipelineEvent}
    {t : PipelineState} (hstep : (honestDownload F chunk fstatAnswered).step (.looping st) e t) :
    Turn F chunk st t := by
  obtain ⟨hok, hnext⟩ := hstep
  simp only [downloadMachine, Machine.ofStep_step] at hnext
  cases e with
  | cancelled => exact hok.elim
  | completed index answer writeFault =>
    cases writeFault with
    | some _ => exact hok.elim
    | none =>
      cases hreq : (fillWindow chunk st).inFlight[index]? with
      | none => simp [pipelineStep, hreq] at hnext
      | some request =>
        obtain ⟨st', heq, hturn⟩ := completed_turn h fstatAnswered hreq
          (hok request hreq)
        rw [heq, Option.some.injEq] at hnext
        exact hnext ▸ hturn
  | drained closeFault =>
    cases closeFault with
    | some _ => exact hok.elim
    | none =>
      rw [pipelineStep] at hnext
      split at hnext
      · rename_i hempty
        have hnil := List.isEmpty_iff.mp hempty
        obtain ⟨st', result, heq, hdone⟩ := finishDownload_faithful h fstatAnswered hnil
        rw [heq, Option.some.injEq] at hnext
        exact hnext ▸ .exit st' result hnil hdone
      · cases hnext

def StateInv (F : List UInt8) : PipelineState → Prop
  | .looping st => PipelineInv F st
  | .returned st result => Downloaded F st result

/-- **The run lemma.** -/
theorem stateInv_of_reachable {fstatAnswered : Bool} {s : PipelineState}
    (h : (honestDownload F chunk fstatAnswered).Reachable s) : StateInv F s := by
  refine h.induct ?_ ?_
  · rintro s rfl
    exact pipelineInv_start F
  · intro s e t _ hinv hstep
    cases s with
    | returned st result => simp [honestDownload, downloadMachine, pipelineStep] at hstep
    | looping st =>
      cases turn_of_step hinv hstep with
      | eof _ _ _ _ _ hinv' => exact hinv'
      | data _ _ _ _ _ _ hinv' => exact hinv'
      | exit _ _ _ hdone => exact hdone

/-! ## Termination -/

/-- The bytes of `F` a read can still bring. -/
def bytesLeft (F : List UInt8) (request : DownloadReadFollowUp) : Nat :=
  min (request.offset + request.len) F.length - min request.offset F.length

/-- The bytes of `F` not yet received: in flight or not yet asked for. -/
def remainingBytes (F : List UInt8) (st : DownloadLoop) : Nat :=
  (st.inFlight.map (bytesLeft F)).sum + (F.length - st.nextOffset)

def pipelineRank (F : List UInt8) : PipelineState → Nat
  | .looping st =>
    remainingBytes F st * (downloadReadWindow + 2)
      + (if st.queue.eof then st.inFlight.length else downloadReadWindow + 1) + 1
  | .returned _ _ => 0

theorem pipelineRank_fillLoop (fuel : Nat) (st : DownloadLoop) :
    pipelineRank F (.looping (fillLoop chunk fuel st)) = pipelineRank F (.looping st) := by
  induction fuel generalizing st with
  | zero => rfl
  | succ fuel ih =>
    rw [fillLoop]
    split
    · rename_i hcond
      simp only [Bool.and_eq_true, Bool.not_eq_true'] at hcond
      rw [ih]
      have hbytes : remainingBytes F (spawnNext chunk st) = remainingBytes F st := by
        simp only [remainingBytes, spawnNext, List.map_append, List.sum_append, List.map_cons,
          List.map_nil, List.sum_cons, List.sum_nil, bytesLeft, asU32_chunkSize]
        omega
      have heof : (spawnNext chunk st).queue.eof = false := hcond.1
      simp only [pipelineRank, hbytes, heof, hcond.1, Bool.false_eq_true, if_false]
    · rfl

theorem pipelineRank_fillWindow (chunk : ChunkSize) (st : DownloadLoop) :
    pipelineRank F (.looping (fillWindow chunk st)) = pipelineRank F (.looping st) :=
  pipelineRank_fillLoop downloadReadWindow st

theorem sum_bytesLeft_eraseIdx {requests : List DownloadReadFollowUp} {index : Nat}
    {request : DownloadReadFollowUp} (hreq : requests[index]? = some request) :
    (requests.map (bytesLeft F)).sum
      = bytesLeft F request + ((requests.eraseIdx index).map (bytesLeft F)).sum := by
  obtain ⟨hlt, rfl⟩ := List.getElem?_eq_some_iff.mp hreq
  have hperm := (List.getElem_cons_eraseIdx_perm hlt).map (bytesLeft F)
  simpa using hperm.sum_eq.symm

theorem sum_bytesLeft_followUp {request : DownloadReadFollowUp} {bytes : List UInt8}
    (hans : HonestAnswer F request (.data bytes)) :
    ((followUpOf request bytes.length).toList.map (bytesLeft F)).sum + bytes.length
      = bytesLeft F request := by
  obtain ⟨hchunk, hle⟩ := honest_data hans
  have hwithin := hchunk.within
  simp only at hwithin
  rw [followUpOf]
  split
  · simp only [Option.toList_some, List.map_cons, List.map_nil, List.sum_cons, List.sum_nil,
      bytesLeft]
    omega
  · simp only [Option.toList_none, List.map_nil, List.sum_nil, bytesLeft]
    omega

theorem pipelineRank_lt (h : PipelineInv F st) {t : PipelineState} (hturn : Turn F chunk st t) :
    pipelineRank F t < pipelineRank F (.looping st) := by
  rw [← pipelineRank_fillWindow chunk st]
  have hwindow := (inv_fillWindow chunk h).window
  cases hturn with
  | exit => simp [pipelineRank]
  | eof index request st' hreq hoff hinv hreads hnext heof =>
    have hsum := sum_bytesLeft_eraseIdx (F := F) hreq
    have hzero : bytesLeft F request = 0 := by
      rw [bytesLeft]
      omega
    have hlen := length_eraseIdx_of_getElem? hreq
    simp only [pipelineRank, remainingBytes, hreads, hnext, heof, if_true, hsum,
      hzero, Nat.zero_add, downloadReadWindow] at hwindow ⊢
    split <;> omega
  | data index request bytes st' hreq hans hinv hreads hnext heof =>
    have hsum := sum_bytesLeft_eraseIdx (F := F) hreq
    have hleft := sum_bytesLeft_followUp hans
    have hpos := (honest_data hans).1.nonempty
    have hlen := length_eraseIdx_of_getElem? hreq
    have htail : (followUpOf request bytes.length).toList.length ≤ 1 := by
      rw [followUpOf]
      split <;> simp
    simp only at hpos
    simp only [pipelineRank, remainingBytes, hreads, hnext, heof, hsum,
      List.map_append, List.sum_append, List.length_append, downloadReadWindow]
    split <;> omega

/-! ## No offset overflows -/

def readsPastEnd (F : List UInt8) (requests : List DownloadReadFollowUp) : Nat :=
  requests.countP (fun r => F.length ≤ r.offset)

/-- As long as no read has answered EOF, each chunk handed out behind the end of the file is still
in flight; there are at most eight of them. -/
structure OffsetBound (F : List UInt8) (chunk : ChunkSize) (st : DownloadLoop) : Prop where
  bound : st.nextOffset ≤ F.length + (downloadReadWindow + 1) * chunk.size
  open_bound : st.queue.eof = false →
    st.nextOffset ≤ F.length + (readsPastEnd F st.inFlight + 1) * chunk.size

theorem offsetBound_fillLoop (fuel : Nat) (h : OffsetBound F chunk st) :
    OffsetBound F chunk (fillLoop chunk fuel st) := by
  induction fuel generalizing st with
  | zero => exact h
  | succ fuel ih =>
    rw [fillLoop]
    split
    · rename_i hcond
      simp only [Bool.and_eq_true, Bool.not_eq_true', decide_eq_true_eq] at hcond
      refine ih ?_
      have hopen := h.open_bound hcond.1
      have hcount : readsPastEnd F st.inFlight ≤ st.inFlight.length := List.countP_le_length
      have hnew : st.nextOffset + chunk.size
          ≤ F.length + (readsPastEnd F (spawnNext chunk st).inFlight + 1) * chunk.size := by
        rcases Nat.lt_or_ge st.nextOffset F.length with hlt | hge
        · rw [Nat.add_one_mul]
          omega
        · have hone : readsPastEnd F (spawnNext chunk st).inFlight
              = readsPastEnd F st.inFlight + 1 := by
            simp [readsPastEnd, spawnNext, hge]
          rw [hone, Nat.add_one_mul]
          omega
      refine ⟨hnew.trans ?_, fun _ => hnew⟩
      have hle : readsPastEnd F (spawnNext chunk st).inFlight ≤ downloadReadWindow := by
        have hall : readsPastEnd F (spawnNext chunk st).inFlight
            ≤ (spawnNext chunk st).inFlight.length := List.countP_le_length
        rw [spawnNext, List.length_append, List.length_singleton] at hall
        exact hall.trans hcond.2
      exact Nat.add_le_add_left (Nat.mul_le_mul_right _ (Nat.succ_le_succ hle)) _
    · exact h

theorem offsetBound_turn (h : OffsetBound F chunk st) {st' : DownloadLoop}
    (hturn : Turn F chunk st (.looping st')) : OffsetBound F chunk st' := by
  have hfill : OffsetBound F chunk (fillWindow chunk st) := offsetBound_fillLoop _ h
  cases hturn with
  | eof index request _ hreq hoff hinv hreads hnext heof =>
    exact ⟨hnext ▸ hfill.bound, fun hno => absurd (heof.symm.trans hno) (by decide)⟩
  | data index request bytes _ hreq hans hinv hreads hnext heof =>
    refine ⟨hnext ▸ hfill.bound, fun hno => ?_⟩
    have hopen := hfill.open_bound (heof ▸ hno)
    -- the joined read was inside the file, so no read behind its end has gone
    have hkeep : readsPastEnd F (fillWindow chunk st).inFlight ≤ readsPastEnd F st'.inFlight := by
      obtain ⟨hlt, rfl⟩ := List.getElem?_eq_some_iff.mp hreq
      have hperm := (List.getElem_cons_eraseIdx_perm hlt).countP_eq
        (fun r : DownloadReadFollowUp => decide (F.length ≤ r.offset))
      rw [List.countP_cons_of_neg (by simpa using hans.1)] at hperm
      rw [readsPastEnd, readsPastEnd, hreads, List.countP_append, ← hperm]
      exact Nat.le_add_right _ _
    rw [hnext]
    exact hopen.trans
      (Nat.add_le_add_left (Nat.mul_le_mul_right _ (Nat.succ_le_succ hkeep)) _)

/-- No offset the loop computes is more than nine chunks behind the end of the file. -/
theorem nextOffset_le {fstatAnswered : Bool} {s : PipelineState}
    (h : (honestDownload F chunk fstatAnswered).Reachable s) :
    ∀ st, s = .looping st → st.nextOffset ≤ F.length + (downloadReadWindow + 1) * chunk.size := by
  suffices hall : ∀ st, s = .looping st → OffsetBound F chunk st from
    fun st hs => (hall st hs).bound
  refine h.induct (I := fun s => ∀ st, s = .looping st → OffsetBound F chunk st) ?_ ?_
  · rintro s rfl st ⟨⟩
    exact ⟨Nat.zero_le _, fun _ => Nat.zero_le _⟩
  · rintro s e t hreach hbound hstep st' rfl
    cases s with
    | returned st result => simp [honestDownload, downloadMachine, pipelineStep] at hstep
    | looping st =>
      exact offsetBound_turn (hbound st rfl) (turn_of_step (stateInv_of_reachable hreach) hstep)

theorem nextOffset_le_sample : ∃ st : DownloadLoop, st.nextOffset = 16 ∧
    st.nextOffset ≤ [7, 8, 9].length + (downloadReadWindow + 1) * 2 := by
  have hread : UndisturbedEvent [7, 8, 9] ⟨2, by decide, by decide⟩ (.looping .start)
      (.completed 0 (.data [7]) none) := by
    rintro request ⟨⟩
    exact ⟨by decide, by decide, by decide⟩
  exact ⟨_, rfl, nextOffset_le (Machine.Reachable.step (.init rfl) ⟨hread, rfl⟩ :
    (honestDownload _ _ false).Reachable _) _ rfl⟩

/-! ## The main result -/

/-- **The windowed download is faithful.** For every content `F`, chunk size and behaviour of
`fstat`, and every order and length of the answers:

* a run takes at most `10 * F.length + 10` turns;
* it is never stuck: each read in the window can be the next to complete, with any honest answer,
  and with no read in flight the loop is left;
* in every state each reported `Progress` value is the number of bytes written before it, so the
  values do not decrease;
* when the function returns, it returns `Ok` of the length of `F`, and the chunks written are
  `F`. -/
theorem download_faithful (F : List UInt8) (chunk : ChunkSize) (fstatAnswered : Bool) :
    (∀ es s, (honestDownload F chunk fstatAnswered).Run (.looping .start) es s →
        es.length ≤ 10 * F.length + 10) ∧
      (∀ st, (honestDownload F chunk fstatAnswered).Reachable (.looping st) →
        ((fillWindow chunk st).inFlight = [] ∧
          ∃ st' result, (honestDownload F chunk fstatAnswered).step (.looping st)
            (.drained none) (.returned st' result)) ∨
        ((fillWindow chunk st).inFlight ≠ [] ∧
          ∀ index request, (fillWindow chunk st).inFlight[index]? = some request →
            (∃ answer, HonestAnswer F request answer) ∧
            ∀ answer, HonestAnswer F request answer →
              ∃ st', (honestDownload F chunk fstatAnswered).step (.looping st)
                (.completed index answer none) (.looping st'))) ∧
      (∀ st, (honestDownload F chunk fstatAnswered).Reachable (.looping st) ∨
          (∃ result, (honestDownload F chunk fstatAnswered).Reachable (.returned st result)) →
        ReportsExactly 0 st.effects ∧ (progressValues st.effects).Pairwise (· ≤ ·)) ∧
      (∀ st result, (honestDownload F chunk fstatAnswered).Reachable (.returned st result) →
        result = .ok F.length ∧ writtenBytes st.effects = F ∧ st.transferred = F.length) := by
  refine ⟨fun es s hrun => ?_, fun st hreach => ?_, fun st hreach => ?_, fun st result hreach => ?_⟩
  · -- the rank of the start state bounds the run
    have hbound := Machine.Run.length_add_rank_le (pipelineRank F)
      (fun s e t hreach hstep => by
        cases s with
        | returned st result => simp [honestDownload, downloadMachine, pipelineStep] at hstep
        | looping st =>
          have hinv : PipelineInv F st := stateInv_of_reachable hreach
          exact pipelineRank_lt hinv (turn_of_step hinv hstep))
      (.init rfl) hrun
    simp only [pipelineRank, remainingBytes, DownloadLoop.start, downloadReadWindow,
      List.map_nil, List.sum_nil] at hbound
    simp only [Bool.false_eq_true, if_false] at hbound
    omega
  · have hinv : PipelineInv F st := stateInv_of_reachable hreach
    by_cases hempty : (fillWindow chunk st).inFlight = []
    · obtain ⟨st', result, heq, -⟩ := finishDownload_faithful hinv fstatAnswered hempty
      refine .inl ⟨hempty, st', result, trivial, ?_⟩
      simp [downloadMachine, pipelineStep, hempty, heq]
    · refine .inr ⟨hempty, fun index request hreq => ⟨?_, fun answer hans => ?_⟩⟩
      · have hok := (inv_fillWindow chunk hinv).requests request
          (List.mem_of_getElem? hreq)
        rcases Nat.lt_or_ge request.offset F.length with hlt | hge
        · refine ⟨.data ((F.drop request.offset).take request.len), hlt, ?_, List.prefix_refl _⟩
          have hpos := hok.nonempty
          rw [← List.length_pos_iff, List.length_take, List.length_drop]
          omega
        · exact ⟨.eof, hge⟩
      · obtain ⟨st', heq, -⟩ := completed_turn hinv fstatAnswered hreq hans
        refine ⟨st', fun request' hreq' => ?_, heq⟩
        rw [hreq, Option.some.injEq] at hreq'
        exact hreq' ▸ hans
  · have hrep : ReportsExactly 0 st.effects := by
      rcases hreach with hreach | ⟨result, hreach⟩
      · exact PipelineInv.reports (stateInv_of_reachable hreach)
      · exact Downloaded.reports (stateInv_of_reachable hreach)
    exact ⟨hrep, hrep.nondecreasing.2⟩
  · have hdone : Downloaded F st result := stateInv_of_reachable hreach
    exact ⟨hdone.result, hdone.written, hdone.transferred⟩

end FluxTerm.Sftp
