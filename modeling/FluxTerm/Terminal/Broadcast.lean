import FluxTerm.Terminal.SessionInput
import Mathlib.Data.List.ReduceOption

/-!
# FluxTerm — broadcasts

`handleBroadcastCommand`: the targets are served one after the other, each with two inputs, one
that clears its line and then the command, and the second is called when the promise of the first
is fulfilled. `handleSend` of the docked widget waits for a broadcast before it sends the next one;
the floating window posts its broadcasts to the main window and goes on.

* **`broadcast_units`** — broadcasts are units in every run without disturbances; the widgets.
-/

namespace FluxTerm.Terminal

open Lib Window

/-! ## Commands -/

/-- `replace(/\r\n/g, "\r")`. -/
def foldCrlf : Text → Text
  | '\r' :: '\n' :: rest => '\r' :: foldCrlf rest
  | c :: rest => c :: foldCrlf rest
  | [] => []

def normalizeQuickCommandForSubmit (input : Text) : Text :=
  (foldCrlf input).map fun c => if c = '\n' then '\r' else c

def normalizeBroadcastCommandForSubmit (input : Text) : Text :=
  let normalized := normalizeQuickCommandForSubmit input
  if normalized.getLast? = some '\r' then normalized else normalized ++ ['\r']

example : normalizeBroadcastCommandForSubmit "a\r\nb\n".toList = "a\rb\r".toList := by decide

def clearInputSequence (kind : SessionKind) (shellKind : Option Text) : Text :=
  if kind = .localShell ∧ shellKind ≠ some "wsl".toList then [Char.ofNat 0x1b]
  else [Char.ofNat 0x15]

/-! ## Broadcasts -/

/-- How far a broadcast is with a target; the inputs are given by their calls. -/
inductive Visit where
  | unknown
  | clearing (clear : ℕ)
  | submitting (clear submit : ℕ)
  | sent (clear submit : ℕ)
  | rejected (call : ℕ)

def Visit.isOver : Visit → Bool
  | clearing _ => false
  | submitting _ _ => false
  | _ => true

/-- A call of `handleBroadcastCommand`; a visit for each target that it has come to. -/
structure BroadcastRun where
  sessionIds : List Text
  command : Text
  /-- The kinds of the local shells in `localSessionMeta`. -/
  shellKinds : Text → Option Text
  visits : List Visit
  floating : Bool

namespace BroadcastRun

variable (run : BroadcastRun)

def normalized : Text := normalizeBroadcastCommandForSubmit run.command

def ahead : List Text := run.sessionIds.drop run.visits.length

def isOver : Bool := run.ahead.isEmpty && run.visits.all Visit.isOver

def successCount : ℕ := run.visits.countP fun visit => match visit with
  | .sent _ _ => true
  | _ => false

def failedCount : ℕ := run.visits.countP fun visit => match visit with
  | .unknown => true
  | .rejected _ => true
  | _ => false

end BroadcastRun

/-! ## Widgets -/

/-- What `handleSend` has captured. -/
structure SendJob where
  sessionIds : List Text
  command : Text
  /-- `normalizedRepeatCount`; 0 repeats without end. -/
  repeatCount : ℕ

def SendJob.canSend (job : SendJob) : Bool :=
  trimBy isWhitespace job.command ≠ [] ∧ job.sessionIds ≠ []

/-- Where `handleSend` is. -/
inductive SendStage where
  | idle
  | head (job : SendJob) (index : ℕ)
  /-- `onSend` is awaited; in the docked widget it is this broadcast. -/
  | awaiting (job : SendJob) (index : ℕ) (broadcast : Option ℕ)
  /-- `waitUntilNextSend`. -/
  | interval (job : SendJob) (index : ℕ)

/-- The state of a widget; `started` counts the calls of `onSend` since `sentCount` was zero. -/
structure SendLoop where
  stage : SendStage
  sentCount : ℕ
  lastSendTotal : Option ℕ
  stopRequested : Bool
  started : ℕ

namespace SendLoop

variable (loop : SendLoop)

def start : SendLoop := ⟨.idle, 0, none, false, 0⟩

def isAwaiting : Bool :=
  match loop.stage with
  | .awaiting _ _ _ => true
  | _ => false

def handleSend (job : SendJob) : Option SendLoop :=
  match loop.stage with
  | .idle => if job.canSend then some ⟨.head job 0, 0, some job.repeatCount, false, 0⟩ else none
  | _ => some { loop with stopRequested := true }

def sending : Option (SendJob × ℕ) :=
  match loop.stage with
  | .head job index =>
    if (job.repeatCount = 0 ∨ index < job.repeatCount) ∧ loop.stopRequested = false then
      some (job, index)
    else none
  | _ => none

/-- `onSend` is called. -/
def called (job : SendJob) (index : ℕ) (broadcast : Option ℕ) : SendLoop :=
  { loop with stage := .awaiting job index broadcast, started := loop.started + 1 }

def goOn : Option SendLoop :=
  match loop.stage, loop.sending with
  | .head _ _, none => some { loop with stage := .idle, stopRequested := false }
  | .interval job index, _ => some { loop with stage := .head job (index + 1) }
  | _, _ => none

/-- The promise of `onSend` is fulfilled. -/
def sent : Option SendLoop :=
  match loop.stage with
  | .awaiting job index _ =>
    some { loop with
      sentCount := index + 1
      stage := if job.repeatCount = 0 ∨ index + 1 < job.repeatCount then .interval job index
        else .head job (index + 1) }
  | _ => none

def broadcast : Option ℕ :=
  match loop.stage with
  | .awaiting _ _ broadcast => broadcast
  | _ => none

end SendLoop

/-! ## The world -/

structure BroadcastWorld (α ε : Type) where
  input : InputWorld α ε
  broadcasts : List BroadcastRun
  docked : SendLoop
  floating : SendLoop
  channel : List (List Text × Text)
  posted : List (List Text × Text)

inductive BroadcastEvent (α ε : Type) where
  /-- Another input is called, or a job of `SessionInput` runs. -/
  | input (event : InputEvent α ε)
  | clear (b : ℕ) (kind : Option SessionKind) (profile : Option Text)
  | submit (b j : ℕ) (kind : Option SessionKind) (profile : Option Text)
  | ended (b j : ℕ)
  | dockedClick (job : SendJob)
  /-- The docked widget calls `onSend`. -/
  | dockedSend (shellKinds : Text → Option Text)
  | dockedSent
  | dockedGoOn
  | floatingClick (job : SendJob)
  | floatingSend
  | floatingSent
  | floatingGoOn
  | receive (shellKinds : Text → Option Text)

variable {α ε : Type}

namespace BroadcastWorld

def start : BroadcastWorld α ε := ⟨.start, [], .start, .start, [], []⟩

def visitAt (w : BroadcastWorld α ε) (b j : ℕ) : Option (Text × Visit) := do
  let run ← w.broadcasts[b]?
  let sessionId ← run.sessionIds[j]?
  let visit ← run.visits[j]?
  some (sessionId, visit)

def returned (w : BroadcastWorld α ε) (k : ℕ) : Option (Except ε α) :=
  (w.input.calls[k]?).bind InputCall.returned

def setRun (w : BroadcastWorld α ε) (b : ℕ) (run : BroadcastRun) : BroadcastWorld α ε :=
  { w with broadcasts := w.broadcasts.set b run }

def setVisit (w : BroadcastWorld α ε) (b j : ℕ) (run : BroadcastRun) (visit : Visit) :
    BroadcastWorld α ε :=
  w.setRun b { run with visits := run.visits.set j visit }

def addVisit (w : BroadcastWorld α ε) (b : ℕ) (run : BroadcastRun) (visit : Visit) :
    BroadcastWorld α ε :=
  w.setRun b { run with visits := run.visits ++ [visit] }

/-- `handleBroadcastCommand` is called. -/
def handleBroadcastCommand (w : BroadcastWorld α ε) (sessionIds : List Text) (command : Text)
    (shellKinds : Text → Option Text) (floating : Bool) : BroadcastWorld α ε :=
  { w with broadcasts := w.broadcasts ++ [⟨sessionIds, command, shellKinds, [], floating⟩] }

/-- `writeToSession` of a known session. -/
def write (w : BroadcastWorld α ε) (sessionId : Text) (kind : SessionKind)
    (profile : Option Text) (data : Text) : BroadcastWorld α ε :=
  { w with input := (w.input.next (.call sessionId (some kind) profile (.text data))).getD w.input }

/-- Whether the docked widget's `onSend` is fulfilled. -/
def dockedOver (w : BroadcastWorld α ε) : Bool :=
  match w.docked.broadcast with
  | some b => ((w.broadcasts[b]?).map BroadcastRun.isOver).getD false
  | none => false

def next (w : BroadcastWorld α ε) : BroadcastEvent α ε → Option (BroadcastWorld α ε)
  | .input event => (w.input.next event).map fun input => { w with input }
  | .clear b kind profile => do
    let run ← w.broadcasts[b]?
    if run.visits.all Visit.isOver then
      let sessionId ← run.sessionIds[run.visits.length]?
      match kind with
      | none => some (w.addVisit b run .unknown)
      | some kind =>
        let data := clearInputSequence kind (run.shellKinds sessionId)
        some ((w.write sessionId kind profile data).addVisit b run (.clearing w.input.calls.length))
    else none
  | .submit b j kind profile => do
    let run ← w.broadcasts[b]?
    match ← w.visitAt b j with
    | (sessionId, .clearing clear) =>
      match w.returned clear, kind with
      | some (.ok _), none => some (w.setVisit b j run .unknown)
      | some (.ok _), some kind =>
        some ((w.write sessionId kind profile run.normalized).setVisit b j run
          (.submitting clear w.input.calls.length))
      | _, _ => none
    | _ => none
  | .ended b j => do
    let run ← w.broadcasts[b]?
    match ← w.visitAt b j with
    | (_, .clearing clear) =>
      match w.returned clear with
      | some (.error _) => some (w.setVisit b j run (.rejected clear))
      | _ => none
    | (_, .submitting clear submit) =>
      match w.returned submit with
      | some (.ok _) => some (w.setVisit b j run (.sent clear submit))
      | some (.error _) => some (w.setVisit b j run (.rejected submit))
      | none => none
    | _ => none
  | .dockedClick job => (w.docked.handleSend job).map fun docked => { w with docked }
  | .dockedSend shellKinds => do
    let (job, index) ← w.docked.sending
    some { w.handleBroadcastCommand job.sessionIds job.command shellKinds false with
      docked := w.docked.called job index (some w.broadcasts.length) }
  | .dockedSent =>
    if w.dockedOver then w.docked.sent.map fun docked => { w with docked } else none
  | .dockedGoOn => w.docked.goOn.map fun docked => { w with docked }
  | .floatingClick job => (w.floating.handleSend job).map fun floating => { w with floating }
  | .floatingSend => do
    let (job, index) ← w.floating.sending
    some { w with
      floating := w.floating.called job index none
      channel := w.channel ++ [(job.sessionIds, job.command)]
      posted := w.posted ++ [(job.sessionIds, job.command)] }
  | .floatingSent => w.floating.sent.map fun floating => { w with floating }
  | .floatingGoOn => w.floating.goOn.map fun floating => { w with floating }
  | .receive shellKinds =>
    match w.channel with
    | [] => none
    | (sessionIds, command) :: channel =>
      some { w.handleBroadcastCommand sessionIds command shellKinds true with channel }

end BroadcastWorld

def broadcastMachine (α ε : Type) : Machine (BroadcastWorld α ε) (BroadcastEvent α ε) :=
  Machine.ofStep BroadcastWorld.start BroadcastWorld.next

/-! ## Visits -/

section Visits

variable {w : BroadcastWorld α ε} {run : BroadcastRun} {b j : ℕ} {sessionId : Text} {visit : Visit}

theorem visitAt_eq (hrun : w.broadcasts[b]? = some run) :
    w.visitAt b j = (run.sessionIds[j]?).bind fun sessionId =>
      (run.visits[j]?).map fun visit => (sessionId, visit) := by
  unfold BroadcastWorld.visitAt
  rw [hrun]
  show ((run.sessionIds[j]?).bind fun sessionId => (run.visits[j]?).bind fun visit => _) = _
  simp only [Option.map_eq_bind]
  rfl

theorem exists_run_of_visitAt (h : w.visitAt b j = some (sessionId, visit)) :
    ∃ run, w.broadcasts[b]? = some run ∧ run.sessionIds[j]? = some sessionId ∧
      run.visits[j]? = some visit := by
  cases hrun : w.broadcasts[b]? with
  | none =>
    unfold BroadcastWorld.visitAt at h
    rw [hrun] at h
    cases h
  | some run =>
    rw [visitAt_eq hrun] at h
    obtain ⟨s, hs, h⟩ := Option.bind_eq_some_iff.mp h
    obtain ⟨v, hv, heq⟩ := Option.map_eq_some_iff.mp h
    cases heq
    exact ⟨run, rfl, hs, hv⟩

theorem getElem?_setRun (hrun : w.broadcasts[b]? = some run) (run' : BroadcastRun) (b' : ℕ) :
    (w.setRun b run').broadcasts[b']? = if b' = b then some run' else w.broadcasts[b']? := by
  have hlt : b < w.broadcasts.length := (List.getElem?_eq_some_iff.mp hrun).1
  show (w.broadcasts.set b run')[b']? = _
  rw [List.getElem?_set]
  by_cases hb : b' = b
  · rw [if_pos hb.symm, if_pos hb, if_pos hlt]
  · rw [if_neg (Ne.symm hb), if_neg hb]

theorem visitAt_setRun {run' : BroadcastRun} (hrun : w.broadcasts[b]? = some run) (b' j' : ℕ) :
    (w.setRun b run').visitAt b' j' =
      if b' = b then (run'.sessionIds[j']?).bind fun sessionId =>
        (run'.visits[j']?).map fun visit => (sessionId, visit)
      else w.visitAt b' j' := by
  have hget := getElem?_setRun hrun run' b'
  split
  · rename_i hb
    rw [if_pos hb] at hget
    exact visitAt_eq hget
  · rename_i hb
    rw [if_neg hb] at hget
    unfold BroadcastWorld.visitAt
    rw [hget]

theorem visitAt_setVisit (hrun : w.broadcasts[b]? = some run)
    (hvisit : w.visitAt b j = some (sessionId, visit)) (visit' : Visit) (b' j' : ℕ) :
    (w.setVisit b j run visit').visitAt b' j' =
      if b' = b ∧ j' = j then some (sessionId, visit') else w.visitAt b' j' := by
  rw [BroadcastWorld.setVisit, visitAt_setRun hrun]
  rw [visitAt_eq hrun] at hvisit
  obtain ⟨s, hs, hmap⟩ := Option.bind_eq_some_iff.mp hvisit
  obtain ⟨v, hv, heq⟩ := Option.map_eq_some_iff.mp hmap
  cases heq
  have hlt : j < run.visits.length := (List.getElem?_eq_some_iff.mp hv).1
  by_cases hb : b' = b
  · subst hb
    rw [if_pos rfl, visitAt_eq hrun]
    by_cases hj : j' = j
    · subst hj
      rw [if_pos ⟨rfl, rfl⟩, hs]
      simp [hlt]
    · rw [if_neg fun h => hj h.2]
      simp [List.getElem?_set_ne (Ne.symm hj)]
  · rw [if_neg hb, if_neg fun h => hb h.1]

theorem visitAt_addVisit (hrun : w.broadcasts[b]? = some run)
    (hsession : run.sessionIds[run.visits.length]? = some sessionId) (visit' : Visit)
    (b' j' : ℕ) :
    (w.addVisit b run visit').visitAt b' j' =
      if b' = b ∧ j' = run.visits.length then some (sessionId, visit') else w.visitAt b' j' := by
  rw [BroadcastWorld.addVisit, visitAt_setRun hrun]
  by_cases hb : b' = b
  · subst hb
    rw [if_pos rfl, visitAt_eq hrun]
    by_cases hj : j' = run.visits.length
    · subst hj
      rw [if_pos ⟨rfl, rfl⟩, hsession]
      simp
    · rw [if_neg fun h => hj h.2]
      have hsame : (run.visits ++ [visit'])[j']? = run.visits[j']? := by
        rw [List.getElem?_append]
        split
        · rfl
        · rename_i hge
          have hgt : run.visits.length < j' := by omega
          rw [List.getElem?_eq_none (by simp; omega), List.getElem?_eq_none (by omega)]
      show (run.sessionIds[j']?).bind _ = _
      rw [hsame]
  · rw [if_neg hb, if_neg fun h => hb h.1]

theorem visitAt_handleBroadcastCommand (sessionIds : List Text) (command : Text)
    (shellKinds : Text → Option Text) (floating : Bool) (b' j' : ℕ) :
    (w.handleBroadcastCommand sessionIds command shellKinds floating).visitAt b' j' =
      w.visitAt b' j' := by
  unfold BroadcastWorld.visitAt BroadcastWorld.handleBroadcastCommand
  dsimp only
  rw [List.getElem?_append]
  split
  · rfl
  · rename_i hge
    rw [List.getElem?_eq_none (Nat.not_lt.mp hge)]
    cases hnew : b' - w.broadcasts.length with
    | zero =>
      show ((sessionIds[j']?).bind fun sessionId => none) = none
      cases sessionIds[j']? with
      | none => rfl
      | some s => rfl
    | succ n => rfl

end Visits

/-! ## Inputs -/

def InputEvent.target : InputEvent α ε → Option Text
  | .call sessionId (some _) _ _ => some sessionId
  | _ => none

/-- Calls stay what they are, and a new one is for `target`. -/
structure Grows (input input' : InputWorld α ε) (target : Option Text) : Prop where
  old : ∀ (k : ℕ) (call : InputCall α ε), input.calls[k]? = some call →
    ∃ call', input'.calls[k]? = some call' ∧ call'.command = call.command ∧
      ∀ outcome, call.returned = some outcome → call'.returned = some outcome
  fresh : ∀ i sessionId, input.calls.length ≤ i → input'.sessionAt i = some sessionId →
    target = some sessionId

section Inputs

variable {input input' : InputWorld α ε} {run : BroadcastRun} {sessionId : Text} {visit : Visit}

theorem grows_setCall {k : ℕ} {call : InputCall α ε} (hcall : input.calls[k]? = some call)
    (call' : InputCall α ε)
    (hcalls : input'.calls = input.calls.set k call') (hcommand : call'.command = call.command)
    (hreturned : ∀ outcome, call.returned = some outcome → call'.returned = some outcome)
    (target : Option Text) :
    Grows input input' target := by
  have hget (i : ℕ) : input'.calls[i]? = if i = k then some call' else input.calls[i]? := by
    rw [hcalls]
    exact getElem?_setCall hcall call' i
  refine ⟨fun i c hc => ?_, fun i s hi hs => ?_⟩
  · rw [hget]
    by_cases hik : i = k
    · subst hik
      rw [hcall] at hc
      cases hc
      exact ⟨call', if_pos rfl, hcommand, hreturned⟩
    · exact ⟨c, by rw [if_neg hik, hc], rfl, fun _ => id⟩
  · have hlength : input'.calls.length = input.calls.length := by rw [hcalls, List.length_set]
    rw [InputWorld.sessionAt, List.getElem?_eq_none (hlength ▸ hi)] at hs
    cases hs

theorem grows_of_next {event : InputEvent α ε} (h : input.next event = some input') :
    Grows input input' event.target := by
  cases event with
  | call s kind profile data =>
    cases kind with
    | none =>
      cases h
      refine ⟨fun k call hcall => ⟨call, hcall, rfl, fun _ => id⟩, fun i s hi hs => ?_⟩
      rw [InputWorld.sessionAt, List.getElem?_eq_none hi] at hs
      cases hs
    | some kind =>
      cases h
      refine ⟨fun k call hcall => ⟨call, ?_, rfl, fun _ => id⟩, fun i t hi ht => ?_⟩
      · show (input.calls ++ [_])[k]? = some call
        rw [List.getElem?_append_left (List.getElem?_eq_some_iff.mp hcall).1, hcall]
      · have hget : (input.calls ++ [(⟨inputCommand s kind profile data, input.queue s, .waiting,
            false, none⟩ : InputCall α ε)])[i]?.map (·.sessionId) = some t := ht
        rw [List.getElem?_append_right hi] at hget
        cases hnew : i - input.calls.length with
        | zero =>
          rw [hnew] at hget
          exact hget
        | succ n =>
          rw [hnew] at hget
          cases hget
  | start k =>
    obtain ⟨call, hcall, h⟩ := Option.bind_eq_some_iff.mp h
    split at h
    · split at h
      · cases h
        exact grows_setCall hcall { call with stage := .issued } rfl rfl (fun _ => id) _
      · cases h
    · cases h
  | answer k outcome =>
    obtain ⟨call, hcall, h⟩ := Option.bind_eq_some_iff.mp h
    split at h
    · cases h
      exact grows_setCall hcall { call with stage := .answered outcome } rfl rfl (fun _ => id) _
    · cases h
  | settle k =>
    obtain ⟨call, hcall, h⟩ := Option.bind_eq_some_iff.mp h
    split at h
    · cases h
      exact grows_setCall hcall { call with stage := .settled _ } rfl rfl (fun _ => id) _
    · cases h
  | resolveTail k =>
    obtain ⟨call, hcall, h⟩ := Option.bind_eq_some_iff.mp h
    split at h
    · split at h
      · cases h
      · cases h
        exact grows_setCall hcall { call with tail := true } rfl rfl (fun _ => id) _
    · cases h
  | finish k =>
    obtain ⟨call, hcall, h⟩ := Option.bind_eq_some_iff.mp h
    split at h
    · split at h
      · cases h
      · rename_i hreturned
        cases h
        refine grows_setCall hcall { call with returned := some _ } rfl rfl
          (fun outcome houtcome => ?_) _
        rw [houtcome] at hreturned
        exact absurd rfl hreturned
    · cases h

/-- The call writes this text into the session. -/
def Writes (input : InputWorld α ε) (sessionId : Text) (k : ℕ) (data : SessionKind → Text) : Prop :=
  ∃ call kind profile, input.calls[k]? = some call ∧
    call.command = inputCommand sessionId kind profile (.text (data kind))

def Returned (input : InputWorld α ε) (k : ℕ) (outcome : Except ε α) : Prop :=
  ∃ call, input.calls[k]? = some call ∧ call.returned = some outcome

theorem Writes.sessionAt {k : ℕ} {data : SessionKind → Text}
    (h : Writes input sessionId k data) : input.sessionAt k = some sessionId := by
  obtain ⟨call, kind, profile, hcall, hcommand⟩ := h
  rw [InputWorld.sessionAt, hcall, Option.map_some, InputCall.sessionId, hcommand]
  rfl

theorem lt_of_sessionAt {k : ℕ} (h : input.sessionAt k = some sessionId) :
    k < input.calls.length := by
  obtain ⟨call, hcall, -⟩ := Option.map_eq_some_iff.mp h
  exact (List.getElem?_eq_some_iff.mp hcall).1

section Grown

variable {target : Option Text} (hgrows : Grows input input' target)

include hgrows

theorem Grows.writes {k : ℕ} {data : SessionKind → Text} (h : Writes input sessionId k data) :
    Writes input' sessionId k data := by
  obtain ⟨call, kind, profile, hcall, hcommand⟩ := h
  obtain ⟨call', hcall', hsame, -⟩ := hgrows.old k call hcall
  exact ⟨call', kind, profile, hcall', hsame.trans hcommand⟩

theorem Grows.returned {k : ℕ} {outcome : Except ε α} (h : Returned input k outcome) :
    Returned input' k outcome := by
  obtain ⟨call, hcall, houtcome⟩ := h
  obtain ⟨call', hcall', -, hreturned⟩ := hgrows.old k call hcall
  exact ⟨call', hcall', hreturned outcome houtcome⟩

theorem Grows.sessionAt {i : ℕ} (h : input'.sessionAt i = some sessionId) :
    input.sessionAt i = some sessionId ∨
      (input.calls.length ≤ i ∧ target = some sessionId) := by
  rcases Nat.lt_or_ge i input.calls.length with hlt | hge
  · obtain ⟨call', hcall', hsame, -⟩ := hgrows.old i _ (List.getElem?_eq_getElem hlt)
    rw [InputWorld.sessionAt, hcall', Option.map_some, InputCall.sessionId, hsame] at h
    refine .inl ?_
    rw [InputWorld.sessionAt, List.getElem?_eq_getElem hlt]
    exact h
  · exact .inr ⟨hge, hgrows.fresh i sessionId hge h⟩

theorem Grows.sessionAt_old {i : ℕ} (h : input.sessionAt i = some sessionId) :
    input'.sessionAt i = some sessionId := by
  obtain ⟨call, hcall, hid⟩ := Option.map_eq_some_iff.mp h
  obtain ⟨call', hcall', hsame, -⟩ := hgrows.old i call hcall
  rw [InputWorld.sessionAt, hcall', Option.map_some, InputCall.sessionId, hsame]
  exact congrArg some hid

end Grown

/-! ## What is kept -/

/-- The clear sequence, and then the command, with nothing for the session in between. -/
structure Paired (input : InputWorld α ε) (shellKind : Option Text) (normalized sessionId : Text)
    (first second : ℕ) : Prop where
  clear : Writes input sessionId first fun kind => clearInputSequence kind shellKind
  submit : Writes input sessionId second fun _ => normalized
  lt : first < second
  between : ∀ i, first < i → i < second → input.sessionAt i ≠ some sessionId
  cleared : ∃ value, Returned input first (.ok value)

/-- What is kept of the inputs of a broadcast at one target. -/
def Visited (input : InputWorld α ε) (run : BroadcastRun) (sessionId : Text) : Visit → Prop
  | .unknown => True
  | .clearing clear =>
    Writes input sessionId clear (fun kind => clearInputSequence kind (run.shellKinds sessionId)) ∧
      ∀ i, clear < i → input.sessionAt i ≠ some sessionId
  | .submitting clear submit =>
    Paired input (run.shellKinds sessionId) run.normalized sessionId clear submit
  | .sent clear submit =>
    Paired input (run.shellKinds sessionId) run.normalized sessionId clear submit ∧
      ∃ value, Returned input submit (.ok value)
  | .rejected call =>
    input.sessionAt call = some sessionId ∧ ∃ err, Returned input call (.error err)

theorem Paired.grow {target : Option Text} (hgrows : Grows input input' target)
    {shellKind : Option Text} {normalized : Text} {clear submit : ℕ}
    (h : Paired input shellKind normalized sessionId clear submit) :
    Paired input' shellKind normalized sessionId clear submit where
  clear := hgrows.writes h.clear
  submit := hgrows.writes h.submit
  lt := h.lt
  between i hlt hgt hi := by
    rcases hgrows.sessionAt hi with hold | ⟨hnew, -⟩
    · exact h.between i hlt hgt hold
    · exact absurd (lt_of_sessionAt h.submit.sessionAt) (by omega)
  cleared := h.cleared.imp fun _ => hgrows.returned

theorem visited_visits (visits : List Visit) :
    Visited input { run with visits } sessionId visit ↔ Visited input run sessionId visit := by
  cases visit with
  | _ => exact Iff.rfl

theorem Visited.grow {target : Option Text} (hgrows : Grows input input' target)
    (h : Visited input run sessionId visit)
    (hfree : ∀ clear, visit = .clearing clear → target ≠ some sessionId) :
    Visited input' run sessionId visit := by
  cases visit with
  | unknown => trivial
  | clearing clear =>
    refine ⟨hgrows.writes h.1, fun i hi hsame => ?_⟩
    rcases hgrows.sessionAt hsame with hold | ⟨-, htarget⟩
    · exact h.2 i hi hold
    · exact hfree clear rfl htarget
  | submitting clear submit => exact Paired.grow hgrows h
  | sent clear submit => exact ⟨h.1.grow hgrows, h.2.imp fun _ => hgrows.returned⟩
  | rejected call => exact ⟨hgrows.sessionAt_old h.1, h.2.imp fun _ => hgrows.returned⟩

end Inputs

def Visit.calls : Visit → List ℕ
  | .clearing clear => [clear]
  | .submitting clear submit => [clear, submit]
  | .sent clear submit => [clear, submit]
  | _ => []

/-- What is kept of the broadcasts. -/
structure BroadcastWorld.Kept (w : BroadcastWorld α ε) : Prop where
  input : (inputMachine α ε).Reachable w.input
  length : ∀ (b : ℕ) (run : BroadcastRun), w.broadcasts[b]? = some run →
    run.visits.length ≤ run.sessionIds.length
  visited : ∀ b j run sessionId visit, w.broadcasts[b]? = some run →
    w.visitAt b j = some (sessionId, visit) → Visited w.input run sessionId visit
  order : ∀ b j b' j' sessionId visit visit', w.visitAt b j = some (sessionId, visit) →
    w.visitAt b' j' = some (sessionId, visit') → (b < b' ∨ b = b' ∧ j < j') →
      ∀ x ∈ visit.calls, ∀ y ∈ visit'.calls, x < y
  ahead : ∀ b b' j run sessionId visit, b < b' → w.broadcasts[b]? = some run →
    w.visitAt b' j = some (sessionId, visit) → visit.calls ≠ [] → sessionId ∉ run.ahead

def BroadcastWorld.Free (w : BroadcastWorld α ε) (sessionId : Text) : Prop :=
  ∀ b j clear, w.visitAt b j ≠ some (sessionId, .clearing clear)

def Undisturbed (w : BroadcastWorld α ε) : BroadcastEvent α ε → Prop
  | .input event => ∀ sessionId, event.target = some sessionId → w.Free sessionId
  | .clear b (some _) _ =>
    ∀ run sessionId, w.broadcasts[b]? = some run →
      run.sessionIds[run.visits.length]? = some sessionId → w.Free sessionId ∧
        ∀ b' run', b' < b → w.broadcasts[b']? = some run' → sessionId ∉ run'.ahead
  | _ => True

/-! ## Steps -/

theorem Visited.sessionAt {input : InputWorld α ε} {run : BroadcastRun} {sessionId : Text}
    {visit : Visit} (h : Visited input run sessionId visit) {k : ℕ} (hk : k ∈ visit.calls) :
    input.sessionAt k = some sessionId := by
  have hpair {shellKind : Option Text} {normalized : Text} {clear submit : ℕ}
      (h : Paired input shellKind normalized sessionId clear submit)
      (hk : k ∈ [clear, submit]) : input.sessionAt k = some sessionId := by
    rcases List.mem_cons.mp hk with rfl | hk
    · exact h.clear.sessionAt
    · exact List.mem_singleton.mp hk ▸ h.submit.sessionAt
  cases visit with
  | unknown => cases hk
  | clearing clear => exact List.mem_singleton.mp hk ▸ h.1.sessionAt
  | submitting clear submit => exact hpair h hk
  | sent clear submit => exact hpair h.1 hk
  | rejected call => cases hk

namespace BroadcastWorld.Kept

variable {w : BroadcastWorld α ε} {run : BroadcastRun} {b j b' j' : ℕ} {sessionId : Text}
  {visit visit' : Visit} (h : w.Kept)

include h

theorem sessionAt (hvisit : w.visitAt b j = some (sessionId, visit)) {k : ℕ}
    (hk : k ∈ visit.calls) : w.input.sessionAt k = some sessionId := by
  obtain ⟨run, hrun, -, -⟩ := exists_run_of_visitAt hvisit
  exact (h.visited b j run sessionId visit hrun hvisit).sessionAt hk

theorem calls_eq_nil {clear : ℕ} (hvisit : w.visitAt b j = some (sessionId, .clearing clear))
    (hlater : w.visitAt b' j' = some (sessionId, visit')) (hlt : b < b' ∨ b = b' ∧ j < j') :
    visit'.calls = [] := by
  refine List.eq_nil_iff_forall_not_mem.mpr fun y hy => ?_
  obtain ⟨run, hrun, -, -⟩ := exists_run_of_visitAt hvisit
  have hlast := (h.visited b j run sessionId _ hrun hvisit).2 y
    (h.order b j b' j' sessionId _ _ hvisit hlater hlt clear List.mem_cons_self y hy)
  exact hlast (h.sessionAt hlater hy)

theorem unique {clear clear' : ℕ} (hvisit : w.visitAt b j = some (sessionId, .clearing clear))
    (hvisit' : w.visitAt b' j' = some (sessionId, .clearing clear')) : b' = b ∧ j' = j := by
  by_contra hne
  have hcases : (b < b' ∨ b = b' ∧ j < j') ∨ (b' < b ∨ b' = b ∧ j' < j) := by omega
  rcases hcases with hlt | hlt
  · exact absurd (h.calls_eq_nil hvisit hvisit' hlt) (List.cons_ne_nil _ _)
  · exact absurd (h.calls_eq_nil hvisit' hvisit hlt) (List.cons_ne_nil _ _)

theorem grow {input : InputWorld α ε} {target : Option Text} (hgrows : Grows w.input input target)
    (hreachable : (inputMachine α ε).Reachable input)
    (hfree : ∀ sessionId, target = some sessionId → w.Free sessionId) :
    BroadcastWorld.Kept { w with input } where
  input := hreachable
  length := h.length
  visited b j run sessionId visit hrun hvisit := by
    refine (h.visited b j run sessionId visit hrun hvisit).grow hgrows ?_
    rintro clear rfl htarget
    exact hfree sessionId htarget b j clear hvisit
  order := h.order
  ahead := h.ahead

theorem setRun {visits : List Visit} {input : InputWorld α ε}
    (hrun : w.broadcasts[b]? = some run) (hreachable : (inputMachine α ε).Reachable input)
    (hat : ∀ b' j', ({ w with input }.setRun b { run with visits }).visitAt b' j' =
      if b' = b ∧ j' = j then some (sessionId, visit') else w.visitAt b' j')
    (hnew : Visited input run sessionId visit')
    (hothers : ∀ b' j' run' s v, ¬(b' = b ∧ j' = j) → w.broadcasts[b']? = some run' →
      w.visitAt b' j' = some (s, v) → Visited input run' s v)
    (hearlier : ∀ b' j' v, w.visitAt b' j' = some (sessionId, v) → (b' < b ∨ b' = b ∧ j' < j) →
      ∀ x ∈ v.calls, ∀ y ∈ visit'.calls, x < y)
    (hlater : ∀ b' j' v, w.visitAt b' j' = some (sessionId, v) → (b < b' ∨ b = b' ∧ j < j') →
      ∀ x ∈ visit'.calls, ∀ y ∈ v.calls, x < y)
    (hahead : ∀ b' run', b' < b → w.broadcasts[b']? = some run' → visit'.calls ≠ [] →
      sessionId ∉ run'.ahead)
    (hlength : visits.length ≤ run.sessionIds.length)
    (hshrinks : ({ run with visits } : BroadcastRun).ahead ⊆ run.ahead) :
    ({ w with input }.setRun b { run with visits }).Kept := by
  have hget (b' : ℕ) : ({ w with input }.setRun b { run with visits }).broadcasts[b']? =
      if b' = b then some { run with visits } else w.broadcasts[b']? :=
    getElem?_setRun (w := { w with input }) hrun _ b'
  refine ⟨hreachable, ?_, ?_, ?_, ?_⟩
  · intro b₁ run₁ hrun₁
    rw [hget] at hrun₁
    split at hrun₁
    · cases hrun₁
      exact hlength
    · exact h.length b₁ run₁ hrun₁
  · intro b₁ j₁ run₁ s v hrun₁ hv
    rw [hat] at hv
    rw [hget] at hrun₁
    split at hv
    · rename_i heq
      cases hv
      rw [if_pos heq.1] at hrun₁
      cases hrun₁
      exact (visited_visits visits).mpr hnew
    · rename_i hne
      split at hrun₁
      · rename_i heq
        cases hrun₁
        exact (visited_visits visits).mpr (hothers b₁ j₁ run s v hne (heq ▸ hrun) hv)
      · exact hothers b₁ j₁ run₁ s v hne hrun₁ hv
  · intro b₁ j₁ b₂ j₂ s v₁ v₂ hv₁ hv₂ hlt x hx y hy
    rw [hat] at hv₁ hv₂
    split at hv₁
    · rename_i h₁
      cases hv₁
      rw [h₁.1, h₁.2] at hlt
      rw [if_neg fun h₂ => by omega] at hv₂
      exact hlater b₂ j₂ v₂ hv₂ hlt x hx y hy
    · split at hv₂
      · rename_i h₂
        cases hv₂
        rw [h₂.1, h₂.2] at hlt
        exact hearlier b₁ j₁ v₁ hv₁ hlt x hx y hy
      · exact h.order b₁ j₁ b₂ j₂ s v₁ v₂ hv₁ hv₂ hlt x hx y hy
  · intro b₁ b₂ j₂ run₁ s v hlt hrun₁ hv hcalls
    rw [hat] at hv
    rw [hget] at hrun₁
    split at hv
    · rename_i h₂
      cases hv
      rw [h₂.1] at hlt
      rw [if_neg (Nat.ne_of_lt hlt)] at hrun₁
      exact hahead b₁ run₁ hlt hrun₁ hcalls
    · split at hrun₁
      · rename_i h₁
        cases hrun₁
        rw [h₁] at hlt
        exact fun hmem => h.ahead b b₂ j₂ run s v hlt hrun hv hcalls (hshrinks hmem)
      · exact h.ahead b₁ b₂ j₂ run₁ s v hlt hrun₁ hv hcalls

theorem setVisit (hrun : w.broadcasts[b]? = some run)
    (hvisit : w.visitAt b j = some (sessionId, visit))
    (hnew : Visited w.input run sessionId visit') (hcalls : visit'.calls ⊆ visit.calls) :
    (w.setVisit b j run visit').Kept := by
  refine h.setRun hrun h.input (visitAt_setVisit hrun hvisit visit') hnew ?_ ?_ ?_ ?_ ?_ ?_
  · exact fun b' j' run' s v _ => h.visited b' j' run' s v
  · exact fun b' j' v hv hlt x hx y hy =>
      h.order b' j' b j sessionId v visit hv hvisit hlt x hx y (hcalls hy)
  · exact fun b' j' v hv hlt x hx y hy =>
      h.order b j b' j' sessionId visit v hvisit hv hlt x (hcalls hx) y hy
  · intro b' run' hlt hrun' hne
    refine h.ahead b' b j run' sessionId visit hlt hrun' hvisit fun hnil => hne ?_
    exact List.subset_nil.mp (hnil ▸ hcalls)
  · rw [List.length_set]
    exact h.length b run hrun
  · rw [BroadcastRun.ahead, BroadcastRun.ahead, List.length_set]
    exact List.Subset.refl _

theorem addVisit (hrun : w.broadcasts[b]? = some run)
    (hsession : run.sessionIds[run.visits.length]? = some sessionId) :
    (w.addVisit b run .unknown).Kept := by
  refine h.setRun hrun h.input (visitAt_addVisit hrun hsession .unknown) trivial ?_ ?_ ?_ ?_ ?_ ?_
  · exact fun b' j' run' s v _ => h.visited b' j' run' s v
  · exact fun _ _ _ _ _ _ _ _ hy => absurd hy List.not_mem_nil
  · exact fun _ _ _ _ _ _ hx => absurd hx List.not_mem_nil
  · exact fun _ _ _ _ hne => absurd rfl hne
  · rw [List.length_append]
    exact (List.getElem?_eq_some_iff.mp hsession).1
  · rw [BroadcastRun.ahead, BroadcastRun.ahead, List.length_append]
    exact List.drop_subset_drop_left _ (Nat.le_add_right _ _)

end BroadcastWorld.Kept

section Write

variable {w : BroadcastWorld α ε} {sessionId : Text} {kind : SessionKind} {profile : Option Text}
  {data : Text}

theorem write_spec (w : BroadcastWorld α ε) (sessionId : Text) (kind : SessionKind)
    (profile : Option Text) (data : Text) :
    ∃ input, w.input.next (.call sessionId (some kind) profile (.text data)) = some input ∧
      w.write sessionId kind profile data = { w with input } ∧
      Grows w.input input (some sessionId) ∧
      (∀ text : SessionKind → Text, text kind = data →
        Writes input sessionId w.input.calls.length text) ∧
      input.calls.length = w.input.calls.length + 1 := by
  refine ⟨_, rfl, rfl, ?_, ?_, ?_⟩
  · have hcall : w.input.next (.call sessionId (some kind) profile (.text data)) = some _ := rfl
    exact grows_of_next hcall
  · rintro text rfl
    exact ⟨_, kind, profile, List.getElem?_concat_length .., rfl⟩
  · exact List.length_append ..

end Write

namespace BroadcastWorld.Kept

variable {w : BroadcastWorld α ε} {run : BroadcastRun} {b j : ℕ} {sessionId : Text}
  {kind : SessionKind} {profile : Option Text} (h : w.Kept)

include h

theorem clear (hrun : w.broadcasts[b]? = some run)
    (hsession : run.sessionIds[run.visits.length]? = some sessionId) (hfree : w.Free sessionId)
    (hahead : ∀ b' run', b' < b → w.broadcasts[b']? = some run' → sessionId ∉ run'.ahead) :
    ((w.write sessionId kind profile (clearInputSequence kind (run.shellKinds sessionId))).addVisit
      b run (.clearing w.input.calls.length)).Kept := by
  obtain ⟨input, hnext, hwrite, hgrows, hwrites, hlength⟩ := write_spec w sessionId kind profile
    (clearInputSequence kind (run.shellKinds sessionId))
  have hmine : sessionId ∈ run.ahead :=
    List.mem_of_getElem? (i := 0)
      (by rw [BroadcastRun.ahead, List.getElem?_drop, Nat.add_zero, hsession])
  rw [hwrite]
  refine h.setRun hrun (h.input.step hnext)
    (visitAt_addVisit (w := { w with input }) hrun hsession _) ?_ ?_ ?_ ?_ ?_ ?_ ?_
  · refine ⟨hwrites _ rfl, fun i hi hsame => ?_⟩
    have hlt := lt_of_sessionAt hsame
    omega
  · intro b' j' run' s v _ hrun' hv
    refine (h.visited b' j' run' s v hrun' hv).grow hgrows ?_
    rintro first rfl hsame
    cases hsame
    exact hfree b' j' first hv
  · intro b' j' v hv _ x hx y hy
    rw [List.mem_singleton.mp hy]
    exact lt_of_sessionAt (h.sessionAt hv hx)
  · -- no later broadcast can have been there
    intro b' j' v hv hlt x hx y hy
    rcases hlt with hlt | ⟨rfl, hlt⟩
    · exact absurd hmine (h.ahead b b' j' run sessionId v hlt hrun hv (List.ne_nil_of_mem hy))
    · obtain ⟨other, hother, -, hlast⟩ := exists_run_of_visitAt hv
      rw [hrun] at hother
      cases hother
      exact absurd (List.getElem?_eq_some_iff.mp hlast).1 (by omega)
  · exact fun b' run' hlt hrun' _ => hahead b' run' hlt hrun'
  · rw [List.length_append]
    exact (List.getElem?_eq_some_iff.mp hsession).1
  · rw [BroadcastRun.ahead, BroadcastRun.ahead, List.length_append]
    exact List.drop_subset_drop_left _ (Nat.le_add_right _ _)

theorem submit {first : ℕ} (hrun : w.broadcasts[b]? = some run)
    (hvisit : w.visitAt b j = some (sessionId, .clearing first))
    (hcleared : ∃ value, Returned w.input first (.ok value)) :
    ((w.write sessionId kind profile run.normalized).setVisit b j run
      (.submitting first w.input.calls.length)).Kept := by
  obtain ⟨input, hnext, hwrite, hgrows, hwrites, hlength⟩ :=
    write_spec w sessionId kind profile run.normalized
  obtain ⟨hclear, hlast⟩ := h.visited b j run sessionId _ hrun hvisit
  rw [hwrite]
  refine h.setRun hrun (h.input.step hnext)
    (visitAt_setVisit (w := { w with input }) hrun hvisit _) ?_ ?_ ?_ ?_ ?_ ?_ ?_
  · refine ⟨hgrows.writes hclear, hwrites _ rfl, lt_of_sessionAt hclear.sessionAt, ?_,
      hcleared.imp fun _ => hgrows.returned⟩
    intro i hlt hgt hsame
    rcases hgrows.sessionAt hsame with hold | ⟨hge, -⟩
    · exact hlast i hlt hold
    · omega
  · intro b' j' run' s v hne hrun' hv
    refine (h.visited b' j' run' s v hrun' hv).grow hgrows ?_
    rintro other rfl hsame
    cases hsame
    exact hne (h.unique hvisit hv)
  · intro b' j' v hv hlt x hx y hy
    rcases List.mem_cons.mp hy with rfl | hy
    · exact h.order b' j' b j sessionId v _ hv hvisit hlt x hx _ List.mem_cons_self
    · rw [List.mem_singleton.mp hy]
      exact lt_of_sessionAt (h.sessionAt hv hx)
  · intro b' j' v hv hlt x _ y hy
    rw [h.calls_eq_nil hvisit hv hlt] at hy
    cases hy
  · exact fun b' run' hlt hrun' _ =>
      h.ahead b' b j run' sessionId _ hlt hrun' hvisit (List.cons_ne_nil _ _)
  · rw [List.length_set]
    exact h.length b run hrun
  · rw [BroadcastRun.ahead, BroadcastRun.ahead, List.length_set]
    exact List.Subset.refl _

theorem handleBroadcastCommand (sessionIds : List Text) (command : Text)
    (shellKinds : Text → Option Text) (floating : Bool) :
    (w.handleBroadcastCommand sessionIds command shellKinds floating).Kept := by
  have hat := visitAt_handleBroadcastCommand (w := w) sessionIds command shellKinds floating
  have hold {b' j' : ℕ} {s : Text} {v : Visit} (hv : w.visitAt b' j' = some (s, v))
      {run' : BroadcastRun}
      (hrun' : (w.handleBroadcastCommand sessionIds command shellKinds floating).broadcasts[b']? =
        some run') : w.broadcasts[b']? = some run' := by
    obtain ⟨other, hother, -, -⟩ := exists_run_of_visitAt hv
    have hlt := (List.getElem?_eq_some_iff.mp hother).1
    rw [← hrun']
    exact (List.getElem?_append_left hlt).symm
  refine ⟨h.input, ?_, ?_, ?_, ?_⟩
  · intro b' run' hrun'
    rcases List.mem_append.mp (List.mem_of_getElem? hrun') with hmem | hmem
    · obtain ⟨b₀, hb₀⟩ := List.mem_iff_getElem?.mp hmem
      exact h.length b₀ run' hb₀
    · rw [List.mem_singleton.mp hmem]
      exact Nat.zero_le _
  · intro b' j' run' s v hrun' hv
    rw [hat] at hv
    exact h.visited b' j' run' s v (hold hv hrun') hv
  · intro b₁ j₁ b₂ j₂ s v₁ v₂ hv₁ hv₂
    rw [hat] at hv₁ hv₂
    exact h.order b₁ j₁ b₂ j₂ s v₁ v₂ hv₁ hv₂
  · intro b₁ b₂ j₂ run' s v hlt hrun' hv hne
    rw [hat] at hv
    obtain ⟨other, hother, -, -⟩ := exists_run_of_visitAt hv
    have hlt₂ := (List.getElem?_eq_some_iff.mp hother).1
    refine h.ahead b₁ b₂ j₂ run' s v hlt ?_ hv hne
    rw [← hrun']
    exact (List.getElem?_append_left (Nat.lt_trans hlt hlt₂)).symm

end BroadcastWorld.Kept

theorem returned_iff {w : BroadcastWorld α ε} {k : ℕ} {outcome : Except ε α} :
    w.returned k = some outcome ↔ Returned w.input k outcome := Option.bind_eq_some_iff

theorem BroadcastWorld.Kept.step {w w' : BroadcastWorld α ε} {event : BroadcastEvent α ε}
    (h : w.Kept) (hundisturbed : Undisturbed w event) (hstep : w.next event = some w') :
    w'.Kept := by
  cases event with
  | input event =>
    obtain ⟨input, hnext, rfl⟩ := Option.map_eq_some_iff.mp hstep
    exact h.grow (grows_of_next hnext) (h.input.step hnext) hundisturbed
  | clear b kind profile =>
    obtain ⟨run, hrun, hstep⟩ := Option.bind_eq_some_iff.mp hstep
    split at hstep
    · obtain ⟨sessionId, hsession, hstep⟩ := Option.bind_eq_some_iff.mp hstep
      cases kind with
      | none =>
        cases hstep
        exact h.addVisit hrun hsession
      | some kind =>
        cases hstep
        obtain ⟨hfree, hahead⟩ := hundisturbed run sessionId hrun hsession
        exact h.clear hrun hsession hfree hahead
    · cases hstep
  | submit b j kind profile =>
    obtain ⟨run, hrun, hstep⟩ := Option.bind_eq_some_iff.mp hstep
    obtain ⟨⟨sessionId, visit⟩, hvisit, hstep⟩ := Option.bind_eq_some_iff.mp hstep
    split at hstep
    · rename_i first heq
      cases heq
      split at hstep
      · cases hstep
        exact h.setVisit hrun hvisit trivial (List.nil_subset _)
      · rename_i value _ hreturned _ _
        cases hstep
        exact h.submit hrun hvisit ⟨value, returned_iff.mp hreturned⟩
      · cases hstep
    · cases hstep
  | ended b j =>
    obtain ⟨run, hrun, hstep⟩ := Option.bind_eq_some_iff.mp hstep
    obtain ⟨⟨sessionId, visit⟩, hvisit, hstep⟩ := Option.bind_eq_some_iff.mp hstep
    have hkept := h.visited b j run sessionId visit hrun hvisit
    split at hstep
    · rename_i first heq
      cases heq
      split at hstep
      · rename_i err hreturned
        cases hstep
        refine h.setVisit hrun hvisit ⟨?_, err, returned_iff.mp hreturned⟩ (List.nil_subset _)
        exact h.sessionAt hvisit List.mem_cons_self
      · cases hstep
    · rename_i first second heq
      cases heq
      split at hstep
      · rename_i value hreturned
        cases hstep
        exact h.setVisit hrun hvisit ⟨hkept, value, returned_iff.mp hreturned⟩
          (List.Subset.refl _)
      · rename_i err hreturned
        cases hstep
        refine h.setVisit hrun hvisit ⟨?_, err, returned_iff.mp hreturned⟩ (List.nil_subset _)
        exact h.sessionAt hvisit (List.mem_cons_of_mem _ List.mem_cons_self)
      · cases hstep
    · cases hstep
  | dockedClick job =>
    obtain ⟨docked, -, rfl⟩ := Option.map_eq_some_iff.mp hstep
    exact ⟨h.input, h.length, h.visited, h.order, h.ahead⟩
  | dockedSend shellKinds =>
    obtain ⟨⟨job, index⟩, -, hstep⟩ := Option.bind_eq_some_iff.mp hstep
    cases hstep
    have hnew := h.handleBroadcastCommand job.sessionIds job.command shellKinds false
    exact ⟨hnew.input, hnew.length, hnew.visited, hnew.order, hnew.ahead⟩
  | dockedSent =>
    unfold BroadcastWorld.next at hstep
    dsimp only at hstep
    split at hstep
    · obtain ⟨docked, -, rfl⟩ := Option.map_eq_some_iff.mp hstep
      exact ⟨h.input, h.length, h.visited, h.order, h.ahead⟩
    · cases hstep
  | dockedGoOn =>
    obtain ⟨docked, -, rfl⟩ := Option.map_eq_some_iff.mp hstep
    exact ⟨h.input, h.length, h.visited, h.order, h.ahead⟩
  | floatingClick job =>
    obtain ⟨floating, -, rfl⟩ := Option.map_eq_some_iff.mp hstep
    exact ⟨h.input, h.length, h.visited, h.order, h.ahead⟩
  | floatingSend =>
    obtain ⟨⟨job, index⟩, -, hstep⟩ := Option.bind_eq_some_iff.mp hstep
    cases hstep
    exact ⟨h.input, h.length, h.visited, h.order, h.ahead⟩
  | floatingSent =>
    obtain ⟨floating, -, rfl⟩ := Option.map_eq_some_iff.mp hstep
    exact ⟨h.input, h.length, h.visited, h.order, h.ahead⟩
  | floatingGoOn =>
    obtain ⟨floating, -, rfl⟩ := Option.map_eq_some_iff.mp hstep
    exact ⟨h.input, h.length, h.visited, h.order, h.ahead⟩
  | receive shellKinds =>
    unfold BroadcastWorld.next at hstep
    dsimp only at hstep
    split at hstep
    · cases hstep
    · rename_i sessionIds command channel hchannel
      cases hstep
      have hnew := h.handleBroadcastCommand sessionIds command shellKinds true
      exact ⟨hnew.input, hnew.length, hnew.visited, hnew.order, hnew.ahead⟩

theorem broadcast_kept {w : BroadcastWorld α ε}
    (h : ((broadcastMachine α ε).restrict Undisturbed).Reachable w) : w.Kept := by
  refine h.induct (I := BroadcastWorld.Kept) ?_ ?_
  · rintro _ rfl
    refine ⟨.init rfl, fun b run hrun => ?_, fun b j run s visit hrun => ?_,
      fun b j b' j' s visit visit' hvisit => ?_, fun b b' j run s visit _ hrun => ?_⟩
    · cases hrun
    · cases hrun
    · cases hvisit
    · cases hrun
  · rintro _ _ _ - hkept ⟨hundisturbed, hstep⟩
    exact hkept.step hundisturbed hstep

/-! ## Streams -/

def InputWorld.accepted (input : InputWorld α ε) (k : ℕ) : Bool :=
  input.answers.any fun answer => answer.1 = k && answer.2.toOption.isSome

def InputWorld.stream (input : InputWorld α ε) (sessionId : Text) : List ℕ :=
  input.issued.filter fun k => input.sessionAt k = some sessionId && input.accepted k

section Streams

variable {input : InputWorld α ε} {sessionId : Text} {k : ℕ}

theorem mem_stream : k ∈ input.stream sessionId ↔
    k ∈ input.issued ∧ input.sessionAt k = some sessionId ∧ input.accepted k = true := by
  rw [InputWorld.stream, List.mem_filter, Bool.and_eq_true, decide_eq_true_iff]

theorem stream_increasing (h : (inputMachine α ε).Reachable input) (sessionId : Text) :
    (input.stream sessionId).Pairwise (· < ·) := by
  refine ((inOrder_of_reachable h).order.filter _).imp_of_mem fun {i j} hi hj hlt => hlt ?_
  rw [(mem_stream.mp hi).2.1, (mem_stream.mp hj).2.1]

theorem mem_stream_of_returned (h : (inputMachine α ε).Reachable input)
    (hsession : input.sessionAt k = some sessionId) {value : α}
    (hreturned : Returned input k (.ok value)) : k ∈ input.stream sessionId := by
  obtain ⟨call, hcall, houtcome⟩ := hreturned
  have hchained := Chained.of_reachable h
  have hanswer := (inOrder_of_reachable h).outcome k call (.ok value) hcall houtcome
  refine mem_stream.mpr ⟨(hchained.issued k).mpr ⟨call, hcall, ?_⟩, hsession, ?_⟩
  · have hsettled := hchained.links.returned k call (.ok value) hcall houtcome
    cases hstage : call.stage with
    | settled outcome => rfl
    | _ =>
      rw [hstage] at hsettled
      cases hsettled
  · exact List.any_eq_true.mpr ⟨_, hanswer, by simp [Except.toOption]⟩

theorem infix_of_increasing {l : List ℕ} (h : l.Pairwise (· < ·)) {a b : ℕ} (ha : a ∈ l)
    (hb : b ∈ l) (hlt : a < b) (hnone : ∀ x ∈ l, a < x → ¬x < b) : [a, b] <:+: l := by
  induction l with
  | nil => cases ha
  | cons x l ih =>
    obtain ⟨hx, hl⟩ := List.pairwise_cons.mp h
    rcases List.mem_cons.mp ha with rfl | hmem
    · have hb : b ∈ l := (List.mem_cons.mp hb).resolve_left (Nat.ne_of_gt hlt)
      cases l with
      | nil => cases hb
      | cons y l =>
        have hy : ¬y < b :=
          hnone y (List.mem_cons_of_mem _ List.mem_cons_self) (hx y List.mem_cons_self)
        obtain rfl : b = y := by
          refine (List.mem_cons.mp hb).resolve_right fun hb => hy ?_
          exact (List.pairwise_cons.mp hl).1 b hb
        exact (List.prefix_append [a, b] l).isInfix
    · have hb : b ∈ l := by
        refine (List.mem_cons.mp hb).resolve_left ?_
        rintro rfl
        exact absurd (hx a hmem) (Nat.not_lt.mpr (Nat.le_of_lt hlt))
      exact (ih hl hmem hb fun y hy => hnone y (List.mem_cons_of_mem _ hy)).trans
        (List.suffix_cons x l).isInfix

end Streams

/-! ## Units -/

/-- The broadcasts are units. -/
structure Units (w : BroadcastWorld α ε) : Prop where
  sent : ∀ b j run sessionId clear submit, w.broadcasts[b]? = some run →
    w.visitAt b j = some (sessionId, .sent clear submit) →
      [clear, submit] <:+: w.input.stream sessionId ∧
        Writes w.input sessionId clear
          (fun kind => clearInputSequence kind (run.shellKinds sessionId)) ∧
        Writes w.input sessionId submit fun _ => run.normalized
  once : ∀ sessionId, (w.input.stream sessionId).Pairwise (· < ·)
  order : ∀ b j b' j' sessionId clear submit clear' submit',
    w.visitAt b j = some (sessionId, .sent clear submit) →
    w.visitAt b' j' = some (sessionId, .sent clear' submit') → (b < b' ∨ b = b' ∧ j < j') →
      submit < clear'
  failed : ∀ b j sessionId call, w.visitAt b j = some (sessionId, .rejected call) →
    w.input.sessionAt call = some sessionId ∧ ∃ err, (call, .error err) ∈ w.input.answers
  ended : ∀ b run, w.broadcasts[b]? = some run → run.isOver = true →
    ∀ j sessionId, run.sessionIds[j]? = some sessionId →
      ∃ visit, w.visitAt b j = some (sessionId, visit) ∧ visit.isOver = true
  waits : ∀ b run, w.broadcasts[b]? = some run → run.isOver = false →
    (∃ event, (w.next event).isSome = true ∧
      ((∃ kind profile, event = .clear b kind profile) ∨
        (∃ j kind profile, event = .submit b j kind profile) ∨ ∃ j, event = .ended b j)) ∨
      ∃ j sessionId visit k, w.visitAt b j = some (sessionId, visit) ∧ visit.isOver = false ∧
        k ∈ visit.calls ∧ w.returned k = none

section Results

variable {w w' : BroadcastWorld α ε} {run : BroadcastRun} {b : ℕ}

theorem over_of_isOver (hrun : w.broadcasts[b]? = some run) (hover : run.isOver = true) {j : ℕ}
    {sessionId : Text} (hsession : run.sessionIds[j]? = some sessionId) :
    ∃ visit, w.visitAt b j = some (sessionId, visit) ∧ visit.isOver = true := by
  obtain ⟨hahead, hall⟩ := Bool.and_eq_true_iff.mp hover
  have hlength : run.sessionIds.length ≤ run.visits.length :=
    List.drop_eq_nil_iff.mp (List.isEmpty_iff.mp hahead)
  have hlt : j < run.visits.length :=
    Nat.lt_of_lt_of_le (List.getElem?_eq_some_iff.mp hsession).1 hlength
  refine ⟨run.visits[j], ?_, List.all_eq_true.mp hall _ (List.getElem_mem hlt)⟩
  rw [visitAt_eq hrun, hsession, List.getElem?_eq_getElem hlt]
  rfl

theorem waits_of_not_isOver (hrun : w.broadcasts[b]? = some run) (hover : run.isOver = false)
    (hlength : run.visits.length ≤ run.sessionIds.length) :
    (∃ event, (w.next event).isSome = true ∧
      ((∃ kind profile, event = .clear b kind profile) ∨
        (∃ j kind profile, event = .submit b j kind profile) ∨ ∃ j, event = .ended b j)) ∨
      ∃ j sessionId visit k, w.visitAt b j = some (sessionId, visit) ∧ visit.isOver = false ∧
        k ∈ visit.calls ∧ w.returned k = none := by
  by_cases hall : run.visits.all Visit.isOver = true
  · -- the next target
    have hahead : run.ahead ≠ [] := by
      intro hnil
      rw [BroadcastRun.isOver, hall, hnil] at hover
      cases hover
    have hlt : run.visits.length < run.sessionIds.length := by
      by_contra hge
      exact hahead (List.drop_eq_nil_iff.mpr (Nat.not_lt.mp hge))
    refine .inl ⟨.clear b none none, ?_, .inl ⟨none, none, rfl⟩⟩
    simpa [BroadcastWorld.next, hrun, List.getElem?_eq_getElem hlt] using hall
  · obtain ⟨visit, hmem, hbusy⟩ := List.all_eq_false.mp (Bool.eq_false_iff.mpr hall)
    obtain ⟨j, hlt, rfl⟩ := List.mem_iff_getElem.mp hmem
    have hvisit : w.visitAt b j = some (run.sessionIds[j], run.visits[j]) := by
      rw [visitAt_eq hrun, List.getElem?_eq_getElem hlt,
        List.getElem?_eq_getElem (Nat.lt_of_lt_of_le hlt hlength)]
      rfl
    generalize run.visits[j] = visit at hbusy hvisit
    cases visit with
    | clearing clear =>
      cases hreturned : w.returned clear with
      | none => exact .inr ⟨j, _, _, clear, hvisit, rfl, List.mem_cons_self, hreturned⟩
      | some outcome =>
        cases outcome with
        | ok value =>
          refine .inl ⟨.submit b j none none, ?_, .inr (.inl ⟨j, none, none, rfl⟩)⟩
          simp [BroadcastWorld.next, hrun, hvisit, hreturned]
        | error err =>
          refine .inl ⟨.ended b j, ?_, .inr (.inr ⟨j, rfl⟩)⟩
          simp [BroadcastWorld.next, hrun, hvisit, hreturned]
    | submitting clear submit =>
      cases hreturned : w.returned submit with
      | none =>
        exact .inr ⟨j, _, _, submit, hvisit, rfl, List.mem_cons_of_mem _ List.mem_cons_self,
          hreturned⟩
      | some outcome =>
        refine .inl ⟨.ended b j, ?_, .inr (.inr ⟨j, rfl⟩)⟩
        cases outcome with
        | ok value => simp [BroadcastWorld.next, hrun, hvisit, hreturned]
        | error err => simp [BroadcastWorld.next, hrun, hvisit, hreturned]
    | unknown => exact absurd rfl hbusy
    | sent clear submit => exact absurd rfl hbusy
    | rejected call => exact absurd rfl hbusy

end Results

theorem units_of_kept {w : BroadcastWorld α ε} (h : w.Kept) : Units w where
  sent b j run sessionId clear submit hrun hvisit := by
    obtain ⟨hpaired, value, hreturned⟩ := h.visited b j run sessionId _ hrun hvisit
    obtain ⟨first, hcleared⟩ := hpaired.cleared
    refine ⟨?_, hpaired.clear, hpaired.submit⟩
    refine infix_of_increasing (stream_increasing h.input sessionId) ?_ ?_ hpaired.lt ?_
    · exact mem_stream_of_returned h.input hpaired.clear.sessionAt hcleared
    · exact mem_stream_of_returned h.input hpaired.submit.sessionAt hreturned
    · exact fun i hi hlt hgt => hpaired.between i hlt hgt (mem_stream.mp hi).2.1
  once := stream_increasing h.input
  order b j b' j' sessionId clear submit clear' submit' hvisit hvisit' hlt :=
    h.order b j b' j' sessionId _ _ hvisit hvisit' hlt submit
      (List.mem_cons_of_mem _ List.mem_cons_self) clear' List.mem_cons_self
  failed b j sessionId call hvisit := by
    obtain ⟨run, hrun, -, -⟩ := exists_run_of_visitAt hvisit
    obtain ⟨hsession, err, inputCall, hcall, hreturned⟩ :=
      h.visited b j run sessionId _ hrun hvisit
    exact ⟨hsession, err, (inOrder_of_reachable h.input).outcome call inputCall _ hcall hreturned⟩
  ended _ _ hrun hover _ _ hsession := over_of_isOver hrun hover hsession
  waits b run hrun hover := waits_of_not_isOver hrun hover (h.length b run hrun)

/-! ## Counters -/

/-- The counter of a widget is behind by the call of `onSend` that is awaited. -/
def SendLoop.Counted (loop : SendLoop) : Prop :=
  match loop.stage with
  | .idle => loop.sentCount = loop.started
  | .head _ index => loop.sentCount = index ∧ loop.started = index
  | .awaiting _ index _ => loop.sentCount = index ∧ loop.started = index + 1
  | .interval _ index => loop.sentCount = index + 1 ∧ loop.started = index + 1

theorem SendLoop.Counted.iff {loop : SendLoop} (h : loop.Counted) :
    loop.sentCount = loop.started ↔ loop.isAwaiting = false := by
  obtain ⟨stage, sentCount, lastSendTotal, stopRequested, started⟩ := loop
  cases stage with
  | idle => exact iff_of_true h rfl
  | head job index => exact iff_of_true (h.1.trans h.2.symm) rfl
  | awaiting job index broadcast =>
    refine iff_of_false (fun heq => ?_) nofun
    have hsent : sentCount = index := h.1
    have hstarted : started = index + 1 := h.2
    exact absurd (hsent.symm.trans (heq.trans hstarted)) (Nat.ne_of_lt (Nat.lt_succ_self _))
  | interval job index => exact iff_of_true (h.1.trans h.2.symm) rfl

section Loops

variable {loop loop' : SendLoop} (h : loop.Counted)

include h

theorem SendLoop.Counted.handleSend {job : SendJob} (hstep : loop.handleSend job = some loop') :
    loop'.Counted := by
  obtain ⟨stage, sentCount, lastSendTotal, stopRequested, started⟩ := loop
  cases stage with
  | idle =>
    unfold SendLoop.handleSend at hstep
    dsimp only at hstep
    split at hstep
    · cases hstep
      exact ⟨rfl, rfl⟩
    · cases hstep
  | _ =>
    cases hstep
    exact h

theorem SendLoop.Counted.called {job : SendJob} {index : ℕ} {broadcast : Option ℕ}
    (hsending : loop.sending = some (job, index)) :
    (loop.called job index broadcast).Counted := by
  obtain ⟨stage, sentCount, lastSendTotal, stopRequested, started⟩ := loop
  cases stage with
  | head job index =>
    unfold SendLoop.sending at hsending
    dsimp only at hsending
    split at hsending
    · cases hsending
      exact ⟨h.1, congrArg (· + 1) h.2⟩
    · cases hsending
  | _ => cases hsending

theorem SendLoop.Counted.goOn (hstep : loop.goOn = some loop') : loop'.Counted := by
  obtain ⟨stage, sentCount, lastSendTotal, stopRequested, started⟩ := loop
  unfold SendLoop.goOn at hstep
  split at hstep
  · rename_i hstage _
    cases hstage
    cases hstep
    exact h.1.trans h.2.symm
  · rename_i hstage
    cases hstage
    cases hstep
    exact h
  · cases hstep

theorem SendLoop.Counted.sent (hstep : loop.sent = some loop') : loop'.Counted := by
  obtain ⟨stage, sentCount, lastSendTotal, stopRequested, started⟩ := loop
  cases stage with
  | awaiting job index broadcast =>
    cases hstep
    have hstarted : started = index + 1 := h.2
    by_cases hnext : job.repeatCount = 0 ∨ index + 1 < job.repeatCount
    · simp [SendLoop.Counted, hnext, hstarted]
    · simp [SendLoop.Counted, hnext, hstarted]
  | _ => cases hstep

end Loops

def BroadcastRun.message (run : BroadcastRun) : Option (List Text × Text) :=
  if run.floating then some (run.sessionIds, run.command) else none

/-- What holds of the widgets in every run. -/
structure Widgets (w : BroadcastWorld α ε) : Prop where
  docked : w.docked.Counted
  floating : w.floating.Counted
  posted : w.posted = (w.broadcasts.map BroadcastRun.message).reduceOption ++ w.channel

theorem map_message_setRun {w : BroadcastWorld α ε} {b : ℕ} {run : BroadcastRun}
    (hrun : w.broadcasts[b]? = some run) (visits : List Visit) :
    (w.setRun b { run with visits }).broadcasts.map BroadcastRun.message =
      w.broadcasts.map BroadcastRun.message := by
  refine List.ext_getElem? fun i => ?_
  rw [List.getElem?_map, List.getElem?_map, getElem?_setRun hrun]
  split
  · rename_i hi
    rw [hi, hrun]
    rfl
  · rfl

theorem Widgets.setRun {w : BroadcastWorld α ε} {b : ℕ} {run : BroadcastRun} (h : Widgets w)
    (hrun : w.broadcasts[b]? = some run) (input : InputWorld α ε) (visits : List Visit) :
    Widgets ({ w with input }.setRun b { run with visits }) where
  docked := h.docked
  floating := h.floating
  posted := by
    rw [map_message_setRun (w := { w with input }) hrun]
    exact h.posted

theorem Widgets.step {w w' : BroadcastWorld α ε} {event : BroadcastEvent α ε} (h : Widgets w)
    (hstep : w.next event = some w') : Widgets w' := by
  cases event with
  | input event =>
    obtain ⟨input, -, rfl⟩ := Option.map_eq_some_iff.mp hstep
    exact ⟨h.docked, h.floating, h.posted⟩
  | clear b kind profile =>
    obtain ⟨run, hrun, hstep⟩ := Option.bind_eq_some_iff.mp hstep
    split at hstep
    · obtain ⟨sessionId, -, hstep⟩ := Option.bind_eq_some_iff.mp hstep
      cases kind with
      | none =>
        cases hstep
        exact h.setRun hrun w.input _
      | some kind =>
        cases hstep
        exact h.setRun hrun _ _
    · cases hstep
  | submit b j kind profile =>
    obtain ⟨run, hrun, hstep⟩ := Option.bind_eq_some_iff.mp hstep
    obtain ⟨⟨sessionId, visit⟩, -, hstep⟩ := Option.bind_eq_some_iff.mp hstep
    split at hstep
    · split at hstep
      · cases hstep
        exact h.setRun hrun w.input _
      · cases hstep
        exact h.setRun hrun _ _
      · cases hstep
    · cases hstep
  | ended b j =>
    obtain ⟨run, hrun, hstep⟩ := Option.bind_eq_some_iff.mp hstep
    obtain ⟨⟨sessionId, visit⟩, -, hstep⟩ := Option.bind_eq_some_iff.mp hstep
    split at hstep
    · split at hstep
      · cases hstep
        exact h.setRun hrun w.input _
      · cases hstep
    · split at hstep
      · cases hstep
        exact h.setRun hrun w.input _
      · cases hstep
        exact h.setRun hrun w.input _
      · cases hstep
    · cases hstep
  | dockedClick job =>
    obtain ⟨docked, hdocked, rfl⟩ := Option.map_eq_some_iff.mp hstep
    exact ⟨h.docked.handleSend hdocked, h.floating, h.posted⟩
  | dockedSend shellKinds =>
    obtain ⟨⟨job, index⟩, hsending, hstep⟩ := Option.bind_eq_some_iff.mp hstep
    cases hstep
    refine ⟨h.docked.called hsending, h.floating, ?_⟩
    show w.posted = ((w.broadcasts ++ [_]).map _).reduceOption ++ w.channel
    rw [h.posted, List.map_append, List.reduceOption_append]
    simp [BroadcastRun.message]
  | dockedSent =>
    unfold BroadcastWorld.next at hstep
    dsimp only at hstep
    split at hstep
    · obtain ⟨docked, hdocked, rfl⟩ := Option.map_eq_some_iff.mp hstep
      exact ⟨h.docked.sent hdocked, h.floating, h.posted⟩
    · cases hstep
  | dockedGoOn =>
    obtain ⟨docked, hdocked, rfl⟩ := Option.map_eq_some_iff.mp hstep
    exact ⟨h.docked.goOn hdocked, h.floating, h.posted⟩
  | floatingClick job =>
    obtain ⟨floating, hfloating, rfl⟩ := Option.map_eq_some_iff.mp hstep
    exact ⟨h.docked, h.floating.handleSend hfloating, h.posted⟩
  | floatingSend =>
    obtain ⟨⟨job, index⟩, hsending, hstep⟩ := Option.bind_eq_some_iff.mp hstep
    cases hstep
    refine ⟨h.docked, h.floating.called hsending, ?_⟩
    show w.posted ++ _ = _ ++ (w.channel ++ _)
    rw [h.posted, List.append_assoc]
  | floatingSent =>
    obtain ⟨floating, hfloating, rfl⟩ := Option.map_eq_some_iff.mp hstep
    exact ⟨h.docked, h.floating.sent hfloating, h.posted⟩
  | floatingGoOn =>
    obtain ⟨floating, hfloating, rfl⟩ := Option.map_eq_some_iff.mp hstep
    exact ⟨h.docked, h.floating.goOn hfloating, h.posted⟩
  | receive shellKinds =>
    unfold BroadcastWorld.next at hstep
    dsimp only at hstep
    split at hstep
    · cases hstep
    · rename_i sessionIds command channel hchannel
      cases hstep
      refine ⟨h.docked, h.floating, ?_⟩
      show w.posted = ((w.broadcasts ++ [_]).map _).reduceOption ++ channel
      rw [h.posted, hchannel, List.map_append, List.reduceOption_append]
      simp [BroadcastRun.message]

theorem widgets_of_reachable {w : BroadcastWorld α ε}
    (h : (broadcastMachine α ε).Reachable w) : Widgets w := by
  refine h.induct (I := Widgets) ?_ fun _ _ _ _ hkept hstep => hkept.step hstep
  rintro _ rfl
  exact ⟨rfl, rfl, rfl⟩

/-! ## The results -/

/-- **Broadcasts.** In every run in which no input falls between the two inputs of a broadcast and
no broadcast comes to a session before an earlier one, the broadcasts are units, in order. In every
run the counter of a widget equals the number of broadcasts it has started if and only if none is
awaited, and the messages of the floating window become broadcasts in order. -/
theorem broadcast_units (α ε : Type) :
    (∀ w, ((broadcastMachine α ε).restrict Undisturbed).Reachable w → Units w) ∧
    ∀ w, (broadcastMachine α ε).Reachable w →
      (w.docked.sentCount = w.docked.started ↔ w.docked.isAwaiting = false) ∧
      (w.floating.sentCount = w.floating.started ↔ w.floating.isAwaiting = false) ∧
      w.posted = (w.broadcasts.map BroadcastRun.message).reduceOption ++ w.channel := by
  refine ⟨fun w h => units_of_kept (broadcast_kept h), fun w h => ?_⟩
  have hwidgets := widgets_of_reachable h
  exact ⟨hwidgets.docked.iff, hwidgets.floating.iff, hwidgets.posted⟩

/-- A broadcast of `ls` to one session, and a key that is pressed while the clear sequence is
awaited. -/
def disturbed : List (BroadcastEvent Unit Unit) :=
  let session := "s1".toList
  let key : BroadcastEvent Unit Unit :=
    .input (.call session (some .ssh) none (.text "x".toList))
  let through (k : ℕ) : List (BroadcastEvent Unit Unit) :=
    [.input (.start k), .input (.answer k (.ok ())), .input (.settle k), .input (.resolveTail k),
      .input (.finish k)]
  [.dockedClick ⟨[session], "ls".toList, 1⟩, .dockedSend fun _ => none,
    .clear 0 (some .ssh) none, key] ++ through 0 ++ [.submit 0 0 (some .ssh) none] ++ through 1 ++
    through 2 ++ [.ended 0 0]

/-- The command is `xls`: the key is between the clear sequence and the command. -/
theorem disturbed_not_unit :
    ∃ w, Machine.exec BroadcastWorld.next BroadcastWorld.start disturbed = some w ∧
      w.visitAt 0 0 = some ("s1".toList, .sent 0 2) ∧
      w.input.stream "s1".toList = [0, 1, 2] ∧ ¬[0, 2] <:+: [0, 1, 2] := by
  have hexec : Machine.exec BroadcastWorld.next BroadcastWorld.start disturbed =
      some ((Machine.exec BroadcastWorld.next BroadcastWorld.start disturbed).get rfl) := rfl
  exact ⟨_, hexec, rfl, rfl, by decide⟩

end FluxTerm.Terminal
