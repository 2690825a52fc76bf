import FluxTerm.Lib.JsString
import FluxTerm.Lib.Machine
import FluxTerm.Lib.Pieces

/-!
# FluxTerm — the output of a session on its way to xterm

Output that comes before the terminal is created waits in a bounded buffer; afterwards it goes
through a queue that is drained batch by batch, each after xterm has finished the one before.

* **`delivered_of_reachable`** — all output is delivered, in every run.
-/

namespace FluxTerm.Terminal

open Lib

def terminalOutputWriteBatchChars : ℕ := 64 * 1024

def terminalDetachedBufferMaxChars : ℕ := 1024 * 1024

/-- What a `TerminalBundle` has for its output. -/
structure TerminalBundle where
  outputQueue : List JsString
  outputQueuedChars : ℤ
  outputWritePending : Bool
  outputDrainTimer : Option ℕ
deriving DecidableEq

/-! ## A batch -/

/-- The state of the loop of `takeTerminalOutputBatch`. -/
structure Taking where
  batch : JsString
  bundle : TerminalBundle

def SurrogatePair (high low : UInt16) : Prop :=
  isHighSurrogate high = true ∧ isLowSurrogate low = true

/-- `takeLength`: how much of the first string the batch still takes. -/
def takeLength (batch next : JsString) : ℕ :=
  let length := min next.length (terminalOutputWriteBatchChars - batch.length)
  if 0 < length ∧ length < next.length ∧ (next[length - 1]?).any isHighSurrogate ∧
      (next[length]?).any isLowSurrogate then
    length - 1
  else length

/-- One turn of the loop; none when it ends. -/
def Taking.turn (t : Taking) : Option Taking :=
  match t.bundle.outputQueue with
  | [] => none
  | next :: rest =>
    if t.batch.length < terminalOutputWriteBatchChars then
      let length := takeLength t.batch next
      if length = 0 then none
      else some
        { batch := t.batch ++ next.take length
          bundle := { t.bundle with
            outputQueuedChars := t.bundle.outputQueuedChars - length
            outputQueue := if length = next.length then rest else next.drop length :: rest } }
    else none

theorem takeLength_le (batch next : JsString) :
    takeLength batch next ≤ min next.length (terminalOutputWriteBatchChars - batch.length) := by
  unfold takeLength
  dsimp only
  split <;> omega

theorem Taking.turn_eq_some {t t' : Taking} (h : t.turn = some t') :
    ∃ next rest, t.bundle.outputQueue = next :: rest ∧
      t.batch.length < terminalOutputWriteBatchChars ∧ 0 < takeLength t.batch next ∧
      t' =
        { batch := t.batch ++ next.take (takeLength t.batch next)
          bundle := { t.bundle with
            outputQueuedChars := t.bundle.outputQueuedChars - takeLength t.batch next
            outputQueue := if takeLength t.batch next = next.length then rest
              else next.drop (takeLength t.batch next) :: rest } } := by
  unfold turn at h
  split at h
  · cases h
  · rename_i next rest hqueue
    split at h
    · rename_i hroom
      dsimp only at h
      split at h
      · cases h
      · rename_i hpos
        cases h
        exact ⟨next, rest, hqueue, hroom, Nat.pos_of_ne_zero hpos, rfl⟩
    · cases h

theorem Taking.length_turn {t t' : Taking} (h : t.turn = some t') :
    t.batch.length < t'.batch.length ∧ t'.batch.length ≤ terminalOutputWriteBatchChars := by
  obtain ⟨next, rest, -, hroom, hpos, rfl⟩ := turn_eq_some h
  have hle := takeLength_le t.batch next
  rw [List.length_append, List.length_take]
  omega

def Taking.loop (t : Taking) : Taking :=
  match _hturn : t.turn with
  | none => t
  | some t' => t'.loop
termination_by terminalOutputWriteBatchChars - t.batch.length
decreasing_by
  have hlength := Taking.length_turn _hturn
  omega

theorem Taking.loop_of_none {t : Taking} (h : t.turn = none) : t.loop = t := by
  rw [loop]
  split
  · rfl
  · rename_i hturn
    rw [h] at hturn
    cases hturn

theorem Taking.loop_of_some {t t' : Taking} (h : t.turn = some t') : t.loop = t'.loop := by
  rw [loop]
  split
  · rename_i hturn
    rw [h] at hturn
    cases hturn
  · rename_i hturn
    rw [h] at hturn
    cases hturn
    rfl

def takeTerminalOutputBatch (bundle : TerminalBundle) : Taking :=
  Taking.loop { batch := [], bundle := bundle }

/-! ## The world of a session -/

structure OutputWorld where
  /-- `sessionBuffersRef`. -/
  sessionBuffer : JsString
  /-- `terminalsRef`. -/
  bundle : Option TerminalBundle
  /-- What has been passed to `terminal.write`. -/
  written : List JsString
  callbacks : List JsString
  /-- What the callbacks have passed to `parseWorkingDirectoryFromPrompt`. -/
  parsed : List JsString
  timers : List ℕ
  timerCount : ℕ
  before : List JsString
  after : List JsString

/-- `slice(-n)`. -/
def lastUnits (n : ℕ) (s : JsString) : JsString := s.drop (s.length - n)

def appendSessionBuffer (buffer data : JsString) : JsString :=
  let next := buffer ++ data
  if next.length ≤ terminalDetachedBufferMaxChars then next
  else lastUnits terminalDetachedBufferMaxChars next

/-- What `createTerminal` begins with. -/
def freshBundle : TerminalBundle := ⟨[], 0, false, none⟩

inductive OutputEvent where
  | output (data : JsString)
  | create
  | callback (index : ℕ)
  | timer (handle : ℕ)

namespace OutputWorld

def start : OutputWorld := ⟨[], none, [], [], [], [], 0, [], []⟩

def drainTerminalOutput (w : OutputWorld) (bundle : TerminalBundle) : OutputWorld :=
  if bundle.outputWritePending ∨ bundle.outputDrainTimer ≠ none ∨
      bundle.outputQueuedChars = 0 then
    { w with bundle := some bundle }
  else
    let taking := takeTerminalOutputBatch bundle
    if taking.batch = [] then { w with bundle := some taking.bundle }
    else { w with
      bundle := some { taking.bundle with outputWritePending := true }
      written := w.written ++ [taking.batch]
      callbacks := w.callbacks ++ [taking.batch] }

def writeToBundle (w : OutputWorld) (bundle : TerminalBundle) (data : JsString) : OutputWorld :=
  if data = [] then { w with bundle := some bundle }
  else w.drainTerminalOutput { bundle with
    outputQueue := bundle.outputQueue ++ [data]
    outputQueuedChars := bundle.outputQueuedChars + data.length }

/-- The callback that `drainTerminalOutput` gives to `terminal.write`. -/
def writeDone (w : OutputWorld) (bundle : TerminalBundle) (data : JsString) : OutputWorld :=
  if bundle.outputQueuedChars = 0 then
    { w with
      parsed := w.parsed ++ [data]
      bundle := some { bundle with outputWritePending := false } }
  else
    { w with
      parsed := w.parsed ++ [data]
      bundle := some { bundle with
        outputWritePending := false
        outputDrainTimer := some w.timerCount }
      timers := w.timers ++ [w.timerCount]
      timerCount := w.timerCount + 1 }

def next (w : OutputWorld) : OutputEvent → Option OutputWorld
  | .output data =>
    match w.bundle with
    | some bundle => some ({ w with after := w.after ++ [data] }.writeToBundle bundle data)
    | none => some { w with
        sessionBuffer := appendSessionBuffer w.sessionBuffer data
        before := w.before ++ [data] }
  | .create =>
    match w.bundle with
    | some _ => none
    | none =>
      if w.sessionBuffer = [] then some { w with bundle := some freshBundle }
      else some ({ w with sessionBuffer := [] }.writeToBundle freshBundle w.sessionBuffer)
  | .callback index => do
    let data ← w.callbacks[index]?
    let bundle ← w.bundle
    some ({ w with callbacks := w.callbacks.eraseIdx index }.writeDone bundle data)
  | .timer handle =>
    if handle ∈ w.timers then do
      let bundle ← w.bundle
      some ({ w with timers := w.timers.erase handle }.drainTerminalOutput
        { bundle with outputDrainTimer := none })
    else none

def pieces (w : OutputWorld) : List JsString :=
  lastUnits terminalDetachedBufferMaxChars w.before.flatten :: w.after

end OutputWorld

def outputMachine : Machine OutputWorld OutputEvent :=
  Machine.ofStep OutputWorld.start OutputWorld.next

/-- The output is delivered. -/
structure Delivered (w : OutputWorld) : Prop where
  inOrder : w.written.flatten <+: w.pieces.flatten
  complete : w.bundle.isSome = true → w.callbacks = [] → w.timers = [] →
    w.written.flatten = w.pieces.flatten
  queuedChars : ∀ bundle, w.bundle = some bundle →
    bundle.outputQueuedChars = (bundle.outputQueue.map List.length).sum
  bounded : ∀ data ∈ w.written, data.length ≤ terminalOutputWriteBatchChars
  whole : ∀ k, ¬ CutsBetween SurrogatePair w.pieces (w.written.take k).flatten.length
  single : w.callbacks.length ≤ 1
  parsed : w.written = w.parsed ++ w.callbacks
  atWork : ∀ bundle, w.bundle = some bundle → bundle.outputQueue ≠ [] →
    w.callbacks ≠ [] ∨ w.timers ≠ []

/-! ## What a batch is -/

theorem not_pair_takeLength {batch next front back : JsString} {high low : UInt16}
    (hnext : next = front ++ high :: low :: back)
    (hlength : front.length + 1 = takeLength batch next) : ¬ SurrogatePair high low := by
  rintro ⟨hhigh, hlow⟩
  subst hnext
  unfold takeLength at hlength
  dsimp only at hlength
  split at hlength
  · rename_i hcut
    obtain ⟨-, -, hat, -⟩ := hcut
    -- the unit before the place where the step back began is the low surrogate
    rw [← hlength, List.getElem?_append_right (by omega), Nat.add_sub_cancel_left] at hat
    rw [show (high :: low :: back)[1]? = some low from rfl, Option.any_some] at hat
    unfold isHighSurrogate at hat
    unfold isLowSurrogate at hlow
    rw [Bool.and_eq_true, decide_eq_true_iff, decide_eq_true_iff] at hat hlow
    omega
  · rename_i hcut
    refine hcut ⟨by omega, ?_, ?_, ?_⟩
    · rw [← hlength, List.length_append, List.length_cons, List.length_cons]
      omega
    · rw [← hlength, Nat.add_sub_cancel, List.getElem?_append_right (Nat.le_refl _), Nat.sub_self]
      exact hhigh
    · rw [← hlength, List.getElem?_append_right (by omega), Nat.add_sub_cancel_left]
      exact hlow

/-- A batch on its way: what has been taken of `queue`. -/
structure TakenFrom (bundle : TerminalBundle) (t : Taking) : Prop where
  batch : t.batch = bundle.outputQueue.flatten.take t.batch.length
  queue : t.bundle.outputQueue = leftOf bundle.outputQueue t.batch.length
  queuedChars : t.bundle.outputQueuedChars = bundle.outputQueuedChars - t.batch.length
  timer : t.bundle.outputDrainTimer = bundle.outputDrainTimer
  bounded : t.batch.length ≤ terminalOutputWriteBatchChars
  whole : ¬ CutsBetween SurrogatePair bundle.outputQueue t.batch.length

theorem TakenFrom.turn {bundle : TerminalBundle} {t t' : Taking}
    (hne : [] ∉ bundle.outputQueue) (ht : TakenFrom bundle t) (h : t.turn = some t') :
    TakenFrom bundle t' := by
  obtain ⟨next, rest, hqueue, hroom, hpos, rfl⟩ := Taking.turn_eq_some h
  set length := takeLength t.batch next with hlength
  have hle : length ≤ min next.length (terminalOutputWriteBatchChars - t.batch.length) :=
    takeLength_le t.batch next
  have hleft : leftOf bundle.outputQueue t.batch.length = next :: rest := by
    rw [← hqueue, ht.queue]
  have hrest : [] ∉ next :: rest := hleft ▸ nil_notMem_leftOf hne _
  have htaken : (t.batch ++ next.take length).length = t.batch.length + length := by
    rw [List.length_append, List.length_take]
    omega
  have hflatten : bundle.outputQueue.flatten.drop t.batch.length = next ++ rest.flatten := by
    rw [← flatten_leftOf, hleft, List.flatten_cons]
  refine ⟨?_, ?_, ?_, ht.timer, ?_, ?_⟩
  · show t.batch ++ next.take length = _
    rw [htaken, List.take_add, ← ht.batch, hflatten, List.take_append_of_le_length (by omega)]
  · show (if length = next.length then rest else next.drop length :: rest) = _
    rw [htaken, ← leftOf_leftOf, hleft]
    split
    · rename_i heq
      rw [leftOf_cons_of_le (by omega), heq, Nat.sub_self,
        leftOf_zero fun hmem => hrest (List.mem_cons_of_mem _ hmem)]
    · rw [leftOf_cons_of_lt (by omega)]
  · show t.bundle.outputQueuedChars - (length : ℤ) = _
    rw [htaken, ht.queuedChars]
    push_cast
    omega
  · show (t.batch ++ next.take length).length ≤ _
    rw [htaken]
    omega
  · show ¬ CutsBetween _ _ (t.batch ++ next.take length).length
    rw [htaken]
    intro hcut
    have hcut' := hcut.of_add hpos
    rw [hleft] at hcut'
    rcases cutsBetween_cons.mp hcut' with ⟨front, high, low, back, hnext, hfront, hpair⟩ |
      ⟨hwhole, hbehind⟩
    · exact not_pair_takeLength hnext hfront hpair
    · rw [show length - next.length = 0 by omega] at hbehind
      exact not_cutsBetween_zero _ hbehind

theorem takenFrom_start {bundle : TerminalBundle} (hne : [] ∉ bundle.outputQueue) :
    TakenFrom bundle ⟨[], bundle⟩ :=
  ⟨rfl, (leftOf_zero hne).symm, (Int.sub_zero _).symm, rfl, Nat.zero_le _, not_cutsBetween_zero _⟩

theorem TakenFrom.loop {bundle : TerminalBundle} (hne : [] ∉ bundle.outputQueue) (t : Taking)
    (ht : TakenFrom bundle t) : TakenFrom bundle t.loop := by
  induction t using Taking.loop.induct with
  | case1 t hend =>
    rw [Taking.loop_of_none hend]
    exact ht
  | case2 t t' hturn ih =>
    rw [Taking.loop_of_some hturn]
    exact ih (ht.turn hne hturn)

/-- **The batch**, what it is and what it leaves. -/
theorem takeTerminalOutputBatch_spec {bundle : TerminalBundle} (hne : [] ∉ bundle.outputQueue) :
    TakenFrom bundle (takeTerminalOutputBatch bundle) :=
  TakenFrom.loop hne _ (takenFrom_start hne)

theorem Taking.length_le_loop (t : Taking) : t.batch.length ≤ t.loop.batch.length := by
  induction t using Taking.loop.induct with
  | case1 t hend =>
    rw [loop_of_none hend]
  | case2 t t' hturn ih =>
    rw [loop_of_some hturn]
    exact Nat.le_trans (Nat.le_of_lt (length_turn hturn).1) ih

theorem takeTerminalOutputBatch_ne_nil {bundle : TerminalBundle} (hne : [] ∉ bundle.outputQueue)
    (hqueue : bundle.outputQueue ≠ []) : (takeTerminalOutputBatch bundle).batch ≠ [] := by
  obtain ⟨next, rest, hnext⟩ := List.exists_cons_of_ne_nil hqueue
  have hpos : 0 < next.length :=
    List.length_pos_iff.mpr fun hnil => hne (hnext ▸ hnil ▸ List.mem_cons_self)
  have hlength : 0 < takeLength [] next := by
    unfold takeLength terminalOutputWriteBatchChars
    dsimp only [List.length_nil]
    split <;> omega
  obtain ⟨t', hturn⟩ : ∃ t', Taking.turn ⟨[], bundle⟩ = some t' := by
    unfold Taking.turn
    rw [show (⟨[], bundle⟩ : Taking).bundle.outputQueue = next :: rest from hnext]
    exact ⟨_, (if_pos (Nat.zero_lt_succ _)).trans (if_neg (Nat.ne_of_gt hlength))⟩
  have hgrown := (Taking.length_turn hturn).1
  have hloop := Taking.length_le_loop t'
  intro hnil
  unfold takeTerminalOutputBatch at hnil
  rw [Taking.loop_of_some hturn] at hnil
  rw [hnil] at hloop
  rw [List.length_nil] at hloop
  omega

/-! ## The invariant -/

def OutputWorld.fullPieces (w : OutputWorld) : List JsString := w.pieces.filter (!·.isEmpty)

theorem flatten_filter_nonempty (pieces : List JsString) :
    (pieces.filter (!·.isEmpty)).flatten = pieces.flatten := by
  induction pieces with
  | nil => rfl
  | cons piece pieces ih => cases piece <;> simp_all

theorem OutputWorld.nil_notMem_fullPieces (w : OutputWorld) : [] ∉ w.fullPieces := by
  simp [fullPieces]

theorem OutputWorld.flatten_fullPieces (w : OutputWorld) :
    w.fullPieces.flatten = w.pieces.flatten := flatten_filter_nonempty _

/-- The queue, the flags and what is outstanding, for a terminal whose bundle is `bundle`. -/
structure Sound (w : OutputWorld) (bundle : TerminalBundle) : Prop where
  inOrder : w.written.flatten <+: w.pieces.flatten
  queue : bundle.outputQueue = leftOf w.fullPieces w.written.flatten.length
  queuedChars : bundle.outputQueuedChars = bundle.outputQueue.flatten.length
  bounded : ∀ data ∈ w.written, data.length ≤ terminalOutputWriteBatchChars
  whole : ∀ k, ¬ CutsBetween SurrogatePair w.fullPieces (w.written.take k).flatten.length
  parsed : w.written = w.parsed ++ w.callbacks
  outstanding : bundle.outputWritePending = true ∧ w.callbacks.length = 1 ∧
      bundle.outputDrainTimer = none ∧ w.timers = [] ∨
    bundle.outputWritePending = false ∧ w.callbacks = [] ∧
      w.timers = bundle.outputDrainTimer.toList

/-- The queue is not left alone. -/
def AtWork (bundle : TerminalBundle) : Prop :=
  bundle.outputQueue ≠ [] →
    bundle.outputWritePending = true ∨ bundle.outputDrainTimer ≠ none

namespace Sound

variable {w : OutputWorld} {bundle : TerminalBundle}

theorem nil_notMem_queue (h : Sound w bundle) : [] ∉ bundle.outputQueue := by
  rw [h.queue]
  exact nil_notMem_leftOf w.nil_notMem_fullPieces _

theorem flatten_queue (h : Sound w bundle) :
    w.written.flatten ++ bundle.outputQueue.flatten = w.pieces.flatten := by
  rw [h.queue, flatten_leftOf, w.flatten_fullPieces]
  conv_rhs => rw [← List.take_append_drop w.written.flatten.length w.pieces.flatten]
  rw [← List.prefix_iff_eq_take.mp h.inOrder]

theorem queue_eq_nil_iff (h : Sound w bundle) :
    bundle.outputQueue = [] ↔ bundle.outputQueuedChars = 0 := by
  rw [h.queuedChars]
  constructor
  · intro hnil
    rw [hnil]
    rfl
  · intro hsum
    cases hq : bundle.outputQueue with
    | nil => rfl
    | cons next rest =>
      rw [hq, List.flatten_cons, List.length_append] at hsum
      have hnil : next = [] := List.length_eq_zero_iff.mp (by omega)
      exact absurd (hq ▸ hnil ▸ List.mem_cons_self) h.nil_notMem_queue

theorem drain (h : Sound w bundle) :
    ∃ bundle', (w.drainTerminalOutput bundle).bundle = some bundle' ∧
      Sound (w.drainTerminalOutput bundle) bundle' ∧ AtWork bundle' := by
  unfold OutputWorld.drainTerminalOutput
  split
  · rename_i hskip
    refine ⟨bundle, rfl, ⟨h.inOrder, h.queue, h.queuedChars, h.bounded, h.whole, h.parsed,
      h.outstanding⟩, fun hqueue => ?_⟩
    rcases hskip with hpending | htimer | hzero
    · exact .inl hpending
    · exact .inr htimer
    · exact absurd (h.queue_eq_nil_iff.mpr hzero) hqueue
  · rename_i hgo
    push Not at hgo
    obtain ⟨hpending, htimer, hchars⟩ := hgo
    have hidle : w.callbacks = [] ∧ w.timers = [] := by
      rcases h.outstanding with ⟨hpending', -⟩ | ⟨-, hcallbacks, htimers⟩
      · exact absurd hpending' hpending
      · rw [htimer] at htimers
        exact ⟨hcallbacks, htimers⟩
    have hspec := takeTerminalOutputBatch_spec h.nil_notMem_queue
    have hbatch := takeTerminalOutputBatch_ne_nil h.nil_notMem_queue
      fun hnil => hchars (h.queue_eq_nil_iff.mp hnil)
    dsimp only
    rw [if_neg hbatch]
    set taking := takeTerminalOutputBatch bundle with htaking
    have hwritten : (w.written ++ [taking.batch]).flatten = w.written.flatten ++ taking.batch := by
      rw [List.flatten_append, List.flatten_cons, List.flatten_nil, List.append_nil]
    have hqueue : taking.bundle.outputQueue =
        leftOf w.fullPieces (w.written ++ [taking.batch]).flatten.length := by
      rw [hspec.queue, h.queue, leftOf_leftOf, hwritten, List.length_append]
    have hgoes : w.written.flatten ++ taking.batch ++ taking.bundle.outputQueue.flatten =
        w.pieces.flatten := by
      rw [← h.flatten_queue, List.append_assoc, hspec.queue, flatten_leftOf]
      congr 1
      calc taking.batch ++ bundle.outputQueue.flatten.drop taking.batch.length
          = bundle.outputQueue.flatten.take taking.batch.length ++
              bundle.outputQueue.flatten.drop taking.batch.length := by rw [← hspec.batch]
        _ = bundle.outputQueue.flatten := List.take_append_drop _ _
    refine ⟨_, rfl, ⟨?_, hqueue, ?_, ?_, ?_, ?_, ?_⟩, fun _ => .inl rfl⟩
    · show (w.written ++ [taking.batch]).flatten <+: _
      rw [hwritten]
      exact ⟨_, hgoes⟩
    · show taking.bundle.outputQueuedChars = _
      have hlength : taking.batch.length ≤ bundle.outputQueue.flatten.length := by
        rw [hspec.batch, List.length_take]
        exact Nat.min_le_right _ _
      rw [hspec.queuedChars, h.queuedChars, hspec.queue, flatten_leftOf, List.length_drop,
        Int.ofNat_sub hlength]
    · intro data hdata
      rcases List.mem_append.mp hdata with hold | hnew
      · exact h.bounded data hold
      · exact List.mem_singleton.mp hnew ▸ hspec.bounded
    · intro k hcut
      change CutsBetween _ w.fullPieces ((w.written ++ [taking.batch]).take k).flatten.length at hcut
      rcases Nat.lt_or_ge w.written.length k with hlast | hold
      · rw [List.take_of_length_le (by rw [List.length_append, List.length_singleton]; omega),
          hwritten, List.length_append] at hcut
        have hbehind := hcut.of_add (List.length_pos_iff.mpr hbatch)
        rw [← h.queue] at hbehind
        exact hspec.whole hbehind
      · rw [List.take_append_of_le_length hold] at hcut
        exact h.whole k hcut
    · show w.written ++ [taking.batch] = w.parsed ++ (w.callbacks ++ [taking.batch])
      rw [h.parsed, List.append_assoc]
    · refine .inl ⟨rfl, ?_, ?_, hidle.2⟩
      · show (w.callbacks ++ [taking.batch]).length = 1
        rw [hidle.1]
        rfl
      · exact hspec.timer.trans htimer

theorem length_written_le (h : Sound w bundle) (k : ℕ) :
    (w.written.take k).flatten.length ≤ w.fullPieces.flatten.length := by
  rw [w.flatten_fullPieces]
  refine Nat.le_trans ?_ h.inOrder.length_le
  conv_rhs => rw [← List.take_append_drop k w.written, List.flatten_append, List.length_append]
  exact Nat.le_add_right _ _

variable {w' : OutputWorld} {data : JsString}

theorem push (h : Sound w bundle) (hwritten : w'.written = w.written)
    (hcallbacks : w'.callbacks = w.callbacks) (hparsed : w'.parsed = w.parsed)
    (htimers : w'.timers = w.timers) (hdata : data ≠ [])
    (hpieces : w'.fullPieces = w.fullPieces ++ [data]) :
    Sound w' { bundle with
      outputQueue := bundle.outputQueue ++ [data]
      outputQueuedChars := bundle.outputQueuedChars + data.length } := by
  have hflatten : w'.pieces.flatten = w.pieces.flatten ++ data := by
    rw [← w'.flatten_fullPieces, hpieces, List.flatten_append, w.flatten_fullPieces,
      List.flatten_cons, List.flatten_nil, List.append_nil]
  refine ⟨?_, ?_, ?_, ?_, ?_, ?_, ?_⟩
  · rw [hwritten, hflatten]
    exact h.inOrder.trans (List.prefix_append _ _)
  · show bundle.outputQueue ++ [data] = _
    have hle := h.length_written_le w.written.length
    rw [List.take_length] at hle
    rw [hwritten, hpieces, leftOf_append hle hdata, h.queue]
  · show bundle.outputQueuedChars + (data.length : ℤ) =
      (bundle.outputQueue ++ [data]).flatten.length
    rw [List.flatten_append, List.length_append, h.queuedChars, List.flatten_cons,
      List.flatten_nil, List.append_nil, Int.natCast_add]
  · rw [hwritten]
    exact h.bounded
  · intro k hcut
    rw [hwritten, hpieces] at hcut
    exact h.whole k (hcut.of_append (h.length_written_le k))
  · rw [hwritten, hparsed, hcallbacks]
    exact h.parsed
  · rw [hcallbacks, htimers]
    exact h.outstanding

theorem writeToBundle (h : Sound w bundle) (hwork : AtWork bundle)
    (hwritten : w'.written = w.written) (hcallbacks : w'.callbacks = w.callbacks)
    (hparsed : w'.parsed = w.parsed) (htimers : w'.timers = w.timers)
    (hpieces : w'.fullPieces = w.fullPieces ++ [data].filter (!·.isEmpty)) :
    ∃ bundle', (w'.writeToBundle bundle data).bundle = some bundle' ∧
      Sound (w'.writeToBundle bundle data) bundle' ∧ AtWork bundle' := by
  unfold OutputWorld.writeToBundle
  split
  · rename_i hnil
    have hsame : w'.fullPieces = w.fullPieces := by
      rw [hpieces, hnil]
      exact List.append_nil _
    have hflatten : w'.pieces.flatten = w.pieces.flatten := by
      rw [← w'.flatten_fullPieces, hsame, w.flatten_fullPieces]
    refine ⟨bundle, rfl, ⟨?_, ?_, h.queuedChars, ?_, ?_, ?_, ?_⟩, hwork⟩
    · show w'.written.flatten <+: w'.pieces.flatten
      rw [hwritten, hflatten]
      exact h.inOrder
    · show bundle.outputQueue = leftOf w'.fullPieces w'.written.flatten.length
      rw [hwritten, hsame]
      exact h.queue
    · show ∀ data ∈ w'.written, _
      rw [hwritten]
      exact h.bounded
    · show ∀ k, ¬ CutsBetween SurrogatePair w'.fullPieces (w'.written.take k).flatten.length
      rw [hwritten, hsame]
      exact h.whole
    · show w'.written = w'.parsed ++ w'.callbacks
      rw [hwritten, hparsed, hcallbacks]
      exact h.parsed
    · show _ ∧ w'.callbacks.length = 1 ∧ _ ∧ w'.timers = [] ∨
        _ ∧ w'.callbacks = [] ∧ w'.timers = _
      rw [hcallbacks, htimers]
      exact h.outstanding
  · rename_i hdata
    have hfull : [data].filter (!·.isEmpty) = [data] := by simpa using hdata
    exact (h.push hwritten hcallbacks hparsed htimers hdata (hfull ▸ hpieces)).drain

theorem writeDone (h : Sound w bundle) {index : ℕ} (hdata : w.callbacks[index]? = some data)
    (hw : w' = { w with callbacks := w.callbacks.eraseIdx index }) :
    ∃ bundle', (w'.writeDone bundle data).bundle = some bundle' ∧
      Sound (w'.writeDone bundle data) bundle' ∧ AtWork bundle' := by
  subst hw
  rcases h.outstanding with ⟨-, hone, htimer, htimers⟩ | ⟨-, hnone, -⟩
  swap
  · rw [hnone] at hdata
    cases hdata
  obtain ⟨data', hcallbacks⟩ := List.length_eq_one_iff.mp hone
  obtain ⟨rfl, rfl⟩ : index = 0 ∧ data' = data := by
    rw [hcallbacks] at hdata
    cases index with
    | zero => exact ⟨rfl, Option.some.inj hdata⟩
    | succ index => cases hdata
  have herase : w.callbacks.eraseIdx 0 = [] := by rw [hcallbacks]; rfl
  have hparsed : w.written = w.parsed ++ [data'] ++ w.callbacks.eraseIdx 0 := by
    rw [herase, List.append_nil, ← hcallbacks]
    exact h.parsed
  unfold OutputWorld.writeDone
  split
  · rename_i hzero
    refine ⟨_, rfl, ⟨h.inOrder, h.queue, h.queuedChars, h.bounded, h.whole, hparsed,
      .inr ⟨rfl, herase, ?_⟩⟩, fun hqueue => absurd (h.queue_eq_nil_iff.mpr hzero) hqueue⟩
    show w.timers = bundle.outputDrainTimer.toList
    rw [htimers, htimer]
    rfl
  · refine ⟨_, rfl, ⟨h.inOrder, h.queue, h.queuedChars, h.bounded, h.whole, hparsed,
      .inr ⟨rfl, herase, ?_⟩⟩, fun _ => .inr (Option.some_ne_none _)⟩
    show w.timers ++ [w.timerCount] = _
    rw [htimers]
    rfl

theorem timer (h : Sound w bundle) {handle : ℕ} (hhandle : handle ∈ w.timers)
    (hw : w' = { w with timers := w.timers.erase handle }) :
    ∃ bundle', (w'.drainTerminalOutput { bundle with outputDrainTimer := none }).bundle =
        some bundle' ∧
      Sound (w'.drainTerminalOutput { bundle with outputDrainTimer := none }) bundle' ∧
      AtWork bundle' := by
  subst hw
  rcases h.outstanding with ⟨-, -, -, hnone⟩ | ⟨hpending, hcallbacks, htimers⟩
  · rw [hnone] at hhandle
    cases hhandle
  have herase : w.timers.erase handle = [] := by
    cases htimer : bundle.outputDrainTimer with
    | none =>
      rw [htimers, htimer] at hhandle
      cases hhandle
    | some handle' =>
      rw [htimers, htimer, Option.toList_some, List.mem_singleton] at hhandle
      rw [htimers, htimer, hhandle, Option.toList_some, List.erase_cons_head]
  refine Sound.drain ⟨h.inOrder, h.queue, h.queuedChars, h.bounded, h.whole, h.parsed,
    .inr ⟨hpending, hcallbacks, herase⟩⟩

end Sound

/-! ## Runs -/

theorem lastUnits_of_le {n : ℕ} {s : JsString} (h : s.length ≤ n) : lastUnits n s = s := by
  rw [lastUnits, Nat.sub_eq_zero_of_le h, List.drop_zero]

theorem lastUnits_append (n : ℕ) (s data : JsString) :
    lastUnits n (lastUnits n s ++ data) = lastUnits n (s ++ data) := by
  unfold lastUnits
  rw [← List.drop_append_of_le_length (Nat.sub_le _ _), List.drop_drop, List.length_drop,
    List.length_append]
  congr 1
  omega

theorem appendSessionBuffer_lastUnits (s data : JsString) :
    appendSessionBuffer (lastUnits terminalDetachedBufferMaxChars s) data =
      lastUnits terminalDetachedBufferMaxChars (s ++ data) := by
  rw [← lastUnits_append]
  unfold appendSessionBuffer
  dsimp only
  split
  · rename_i hle
    rw [lastUnits_of_le hle]
  · rfl

/-- Before there is a terminal. -/
structure Waiting (w : OutputWorld) : Prop where
  written : w.written = []
  callbacks : w.callbacks = []
  parsed : w.parsed = []
  timers : w.timers = []
  after : w.after = []
  sessionBuffer :
    w.sessionBuffer = lastUnits terminalDetachedBufferMaxChars w.before.flatten

inductive OutputKept (w : OutputWorld) : Prop where
  | waiting (hbundle : w.bundle = none) (h : Waiting w)
  | running {bundle : TerminalBundle} (hbundle : w.bundle = some bundle) (h : Sound w bundle)
      (hwork : AtWork bundle)

theorem outputKept_of_exists {w : OutputWorld}
    (h : ∃ bundle, w.bundle = some bundle ∧ Sound w bundle ∧ AtWork bundle) : OutputKept w := by
  obtain ⟨bundle, hbundle, hsound, hwork⟩ := h
  exact .running hbundle hsound hwork

theorem Waiting.sound {w : OutputWorld} (h : Waiting w) (hbefore : w.fullPieces = []) :
    Sound w freshBundle := by
  have hflatten : w.pieces.flatten = [] := by rw [← w.flatten_fullPieces, hbefore]; rfl
  refine ⟨?_, ?_, rfl, ?_, ?_, ?_, .inr ⟨rfl, h.callbacks, h.timers⟩⟩
  · rw [h.written]
    exact List.nil_prefix
  · rw [hbefore]
    rfl
  · rw [h.written]
    exact fun _ hdata => absurd hdata List.not_mem_nil
  · rw [hbefore]
    exact fun _ => not_cutsBetween_nil _
  · rw [h.written, h.parsed, h.callbacks]
    rfl

theorem Waiting.fullPieces {w : OutputWorld} (h : Waiting w) :
    w.fullPieces = [w.sessionBuffer].filter (!·.isEmpty) := by
  unfold OutputWorld.fullPieces OutputWorld.pieces
  rw [h.after, ← h.sessionBuffer]

/-- **What a step keeps.** -/
theorem OutputKept.next {w w' : OutputWorld} (h : OutputKept w) {event : OutputEvent}
    (hnext : w.next event = some w') : OutputKept w' := by
  cases event with
  | output data =>
    cases h with
    | waiting hbundle h =>
      unfold OutputWorld.next at hnext
      rw [hbundle] at hnext
      cases hnext
      refine .waiting rfl ⟨h.written, h.callbacks, h.parsed, h.timers, h.after, ?_⟩
      show appendSessionBuffer w.sessionBuffer data = lastUnits _ (w.before ++ [data]).flatten
      rw [h.sessionBuffer, appendSessionBuffer_lastUnits, List.flatten_append, List.flatten_cons,
        List.flatten_nil, List.append_nil]
    | @running bundle hbundle h hwork =>
      unfold OutputWorld.next at hnext
      rw [hbundle] at hnext
      cases hnext
      refine outputKept_of_exists (h.writeToBundle hwork rfl rfl rfl rfl ?_)
      unfold OutputWorld.fullPieces OutputWorld.pieces
      rw [← List.filter_append, List.cons_append]
  | create =>
    cases h with
    | waiting hbundle h =>
      unfold OutputWorld.next at hnext
      rw [hbundle] at hnext
      dsimp only at hnext
      split at hnext
      · rename_i hempty
        cases hnext
        have hsound : Sound w freshBundle := h.sound (by rw [h.fullPieces, hempty]; rfl)
        exact .running rfl ⟨hsound.inOrder, hsound.queue, hsound.queuedChars, hsound.bounded,
          hsound.whole, hsound.parsed, hsound.outstanding⟩ fun hqueue => absurd rfl hqueue
      · cases hnext
        have hwaiting : Waiting { w with before := [], sessionBuffer := [] } :=
          ⟨h.written, h.callbacks, h.parsed, h.timers, h.after, List.drop_nil.symm⟩
        have hempty : OutputWorld.fullPieces { w with before := [], sessionBuffer := [] } = [] := by
          rw [hwaiting.fullPieces]
          rfl
        refine outputKept_of_exists ((hwaiting.sound hempty).writeToBundle
          (fun hqueue => absurd rfl hqueue) rfl rfl rfl rfl ?_)
        rw [hempty, List.nil_append]
        exact h.fullPieces
    | running hbundle h hwork =>
      unfold OutputWorld.next at hnext
      rw [hbundle] at hnext
      cases hnext
  | callback index =>
    obtain ⟨data, hdata, hnext⟩ := Option.bind_eq_some_iff.mp hnext
    obtain ⟨bundle, hbundle, hnext⟩ := Option.bind_eq_some_iff.mp hnext
    cases hnext
    cases h with
    | waiting hnone h =>
      rw [hnone] at hbundle
      cases hbundle
    | running hsome h hwork =>
      rw [hsome] at hbundle
      cases hbundle
      exact outputKept_of_exists (h.writeDone hdata rfl)
  | timer handle =>
    rw [OutputWorld.next] at hnext
    split at hnext
    · rename_i hhandle
      obtain ⟨bundle, hbundle, hnext⟩ := Option.bind_eq_some_iff.mp hnext
      cases hnext
      cases h with
      | waiting hnone h =>
        rw [hnone] at hbundle
        cases hbundle
      | running hsome h hwork =>
        rw [hsome] at hbundle
        cases hbundle
        exact outputKept_of_exists (h.timer hhandle rfl)
    · cases hnext

theorem outputKept_of_reachable {w : OutputWorld} (h : outputMachine.Reachable w) :
    OutputKept w := by
  refine h.induct ?_ fun w event w' _ hkept hnext => hkept.next hnext
  rintro w rfl
  exact .waiting rfl ⟨rfl, rfl, rfl, rfl, rfl, List.drop_nil.symm⟩

/-- **Terminal output reaches xterm completely and in order**, in every run. -/
theorem delivered_of_reachable {w : OutputWorld} (h : outputMachine.Reachable w) :
    Delivered w := by
  cases outputKept_of_reachable h with
  | waiting hbundle h =>
    refine ⟨?_, ?_, ?_, ?_, ?_, ?_, ?_, ?_⟩
    · rw [h.written]
      exact List.nil_prefix
    · intro hsome
      rw [hbundle] at hsome
      cases hsome
    · intro bundle hsome
      rw [hbundle] at hsome
      cases hsome
    · rw [h.written]
      exact fun _ hdata => absurd hdata List.not_mem_nil
    · intro k
      rw [h.written, List.take_nil]
      exact not_cutsBetween_zero _
    · rw [h.callbacks]
      exact Nat.zero_le 1
    · rw [h.written, h.parsed, h.callbacks]
      rfl
    · intro bundle hsome
      rw [hbundle] at hsome
      cases hsome
  | @running bundle hbundle h hwork =>
    -- the queue goes on as long as something is outstanding
    have hgoes : bundle.outputQueue ≠ [] → w.callbacks ≠ [] ∨ w.timers ≠ [] := by
      intro hqueue
      rcases h.outstanding with ⟨-, hone, -⟩ | ⟨hpending, -, htimers⟩
      · refine .inl fun hnil => ?_
        rw [hnil] at hone
        cases hone
      · rcases hwork hqueue with hpending' | htimer
        · rw [hpending] at hpending'
          cases hpending'
        · obtain ⟨handle, hhandle⟩ := Option.ne_none_iff_exists'.mp htimer
          rw [htimers, hhandle]
          exact .inr (List.cons_ne_nil _ _)
    refine ⟨h.inOrder, ?_, ?_, h.bounded, ?_, ?_, h.parsed, ?_⟩
    · intro _ hcallbacks htimers
      have hqueue : bundle.outputQueue = [] := by
        by_contra hne
        rcases hgoes hne with hcallbacks' | htimers'
        · exact hcallbacks' hcallbacks
        · exact htimers' htimers
      rw [← h.flatten_queue, hqueue]
      exact (List.append_nil _).symm
    · intro bundle' hsome
      rw [hbundle] at hsome
      cases hsome
      rw [h.queuedChars, List.length_flatten]
    · exact fun k hcut => h.whole k hcut.filter
    · rcases h.outstanding with ⟨-, hone, -⟩ | ⟨-, hnone, -⟩
      · exact Nat.le_of_eq hone
      · rw [hnone]
        exact Nat.zero_le 1
    · intro bundle' hsome hqueue
      rw [hbundle] at hsome
      cases hsome
      exact hgoes hqueue

theorem takeTerminalOutputBatch_short {data : JsString} (hne : data ≠ [])
    (hlength : data.length < terminalOutputWriteBatchChars) (chars : ℤ) :
    takeTerminalOutputBatch ⟨[data], chars, false, none⟩ =
      ⟨data, [], chars - data.length, false, none⟩ := by
  have htake : takeLength [] data = data.length := by
    unfold takeLength
    dsimp only [List.length_nil]
    rw [if_neg (by omega)]
    omega
  have hturn : Taking.turn ⟨[], [data], chars, false, none⟩ =
      some ⟨data, [], chars - data.length, false, none⟩ := by
    unfold Taking.turn
    simp [htake, hne, terminalOutputWriteBatchChars]
  have hend : Taking.turn ⟨data, [], chars - data.length, false, none⟩ = none := rfl
  rw [takeTerminalOutputBatch, Taking.loop_of_some hturn, Taking.loop_of_none hend]

theorem drainTerminalOutput_short (w : OutputWorld) {data : JsString} (hne : data ≠ [])
    (hlength : data.length < terminalOutputWriteBatchChars) {chars : ℤ} (hchars : chars ≠ 0) :
    w.drainTerminalOutput ⟨[data], chars, false, none⟩ =
      { w with
        bundle := some ⟨[], chars - data.length, true, none⟩
        written := w.written ++ [data]
        callbacks := w.callbacks ++ [data] } := by
  unfold OutputWorld.drainTerminalOutput
  rw [takeTerminalOutputBatch_short hne hlength, if_neg (by simp [hchars])]
  exact if_neg hne

theorem drainTerminalOutput_pending (w : OutputWorld) {bundle : TerminalBundle}
    (h : bundle.outputWritePending = true) :
    w.drainTerminalOutput bundle = { w with bundle := some bundle } := if_pos (.inl h)

/-- Output before the terminal is there, then output while that is being written. -/
def sampleOutput : OutputWorld :=
  { sessionBuffer := []
    bundle := some ⟨[], 0, true, none⟩
    written := [[104, 105], [120]]
    callbacks := [[120]]
    parsed := [[104, 105]]
    timers := []
    timerCount := 1
    before := [[104], [105]]
    after := [[120]] }

theorem reachable_sampleOutput : outputMachine.Reachable sampleOutput := by
  have hfirst (w : OutputWorld) := drainTerminalOutput_short w (List.cons_ne_nil 104 [105])
    (by decide) (show (2 : ℤ) ≠ 0 by decide)
  have hsecond (w : OutputWorld) := drainTerminalOutput_short w (List.cons_ne_nil 120 [])
    (by decide) (show (1 : ℤ) ≠ 0 by decide)
  have hexec : Machine.exec OutputWorld.next .start
      [.output [104], .output [105], .create, .output [120], .callback 0, .timer 0] =
        some sampleOutput := by
    simp [Machine.exec, OutputWorld.next, OutputWorld.start, appendSessionBuffer, freshBundle,
      OutputWorld.writeToBundle, OutputWorld.writeDone, drainTerminalOutput_pending,
      terminalDetachedBufferMaxChars, sampleOutput, hfirst, hsecond]
  exact Machine.reachable_exec hexec

theorem delivered_of_reachable_sampleOutput : Delivered sampleOutput :=
  delivered_of_reachable reachable_sampleOutput

end FluxTerm.Terminal
