import Mathlib.Data.List.Nodup
import FluxTerm.Lib.Workers
import FluxTerm.Window.FileActions

/-!
# FluxTerm — the input of sessions

`sendSessionInput`: the inputs of a session are chained, each to the tail of the one before. The
jobs that settled promises leave behind may run in any order here.

* **`inOrder_of_reachable`** — it holds in every run.
-/

namespace FluxTerm.Terminal

open Lib Window

inductive SessionInput where
  | text (data : Text)
  | binary (data : List ℕ)
deriving DecidableEq

structure InputCommand where
  name : Text
  sessionId : Text
  data : SessionInput
  encoding : Option Text
deriving DecidableEq

/-- `commandByKind`. -/
def commandName (kind : SessionKind) (input : SessionInput) : Text :=
  match kind, input with
  | .ssh, .text _ => "ssh_write".toList
  | .ssh, .binary _ => "ssh_write_binary".toList
  | .localShell, .text _ => "local_shell_write".toList
  | .localShell, .binary _ => "local_shell_write_binary".toList
  | .serial, .text _ => "serial_write_text".toList
  | .serial, .binary _ => "serial_write_binary".toList

/-- The command of an input; `profile` is the encoding of the serial profile. -/
def inputCommand (sessionId : Text) (kind : SessionKind) (profile : Option Text)
    (input : SessionInput) : InputCommand where
  name := commandName kind input
  sessionId := sessionId
  data := input
  encoding :=
    match kind, input with
    | .serial, .text _ => some (profile.getD "utf8".toList)
    | _, _ => none

inductive InputStage (α ε : Type) where
  | waiting
  | issued
  | answered (outcome : Except ε α)
  /-- `queuedInput` is settled. -/
  | settled (outcome : Except ε α)

/-- A call of `sendSessionInput`. -/
structure InputCall (α ε : Type) where
  command : InputCommand
  previous : Option ℕ
  stage : InputStage α ε
  /-- `queueTail` is resolved. -/
  tail : Bool
  returned : Option (Except ε α)

structure InputWorld (α ε : Type) where
  calls : List (InputCall α ε)
  /-- `sessionInputQueueRef`: the call whose tail is there. -/
  queue : Text → Option ℕ
  issued : List ℕ
  answers : List (ℕ × Except ε α)

inductive InputEvent (α ε : Type) where
  | call (sessionId : Text) (kind : Option SessionKind) (profile : Option Text)
      (input : SessionInput)
  /-- The callback of `then` runs. -/
  | start (k : ℕ)
  | answer (k : ℕ) (outcome : Except ε α)
  | settle (k : ℕ)
  | resolveTail (k : ℕ)
  /-- The `finally` block runs. -/
  | finish (k : ℕ)

variable {α ε : Type}

namespace InputWorld

def start : InputWorld α ε := ⟨[], fun _ => none, [], []⟩

def setCall (w : InputWorld α ε) (k : ℕ) (call : InputCall α ε) : InputWorld α ε :=
  { w with calls := w.calls.set k call }

def ready (w : InputWorld α ε) (call : InputCall α ε) : Bool :=
  match call.previous with
  | none => true
  | some j => ((w.calls[j]?).map (·.tail)).getD false

def next (w : InputWorld α ε) : InputEvent α ε → Option (InputWorld α ε)
  -- the promise of a call for an unknown session is rejected at once
  | .call _ none _ _ => some w
  | .call sessionId (some kind) profile input =>
    some { w with
      calls := w.calls ++
        [⟨inputCommand sessionId kind profile input, w.queue sessionId, .waiting, false, none⟩]
      queue := Function.update w.queue sessionId (some w.calls.length) }
  | .start k => do
    let call ← w.calls[k]?
    match call.stage with
    | .waiting =>
      if w.ready call then
        some { w.setCall k { call with stage := .issued } with issued := w.issued ++ [k] }
      else none
    | _ => none
  | .answer k outcome => do
    let call ← w.calls[k]?
    match call.stage with
    | .issued =>
      some { w.setCall k { call with stage := .answered outcome } with
        answers := w.answers ++ [(k, outcome)] }
    | _ => none
  | .settle k => do
    let call ← w.calls[k]?
    match call.stage with
    | .answered outcome => some (w.setCall k { call with stage := .settled outcome })
    | _ => none
  | .resolveTail k => do
    let call ← w.calls[k]?
    match call.stage with
    | .settled _ => if call.tail then none else some (w.setCall k { call with tail := true })
    | _ => none
  | .finish k => do
    let call ← w.calls[k]?
    match call.stage with
    | .settled outcome =>
      if call.returned.isSome then none
      else some { w.setCall k { call with returned := some outcome } with
        queue := if w.queue call.command.sessionId = some k then
            Function.update w.queue call.command.sessionId none
          else w.queue }
    | _ => none

end InputWorld

def inputMachine (α ε : Type) : Machine (InputWorld α ε) (InputEvent α ε) :=
  Machine.ofStep InputWorld.start InputWorld.next

/-! ## What is wanted -/

namespace InputStage

def outcome? : InputStage α ε → Option (Except ε α)
  | .settled outcome => some outcome
  | _ => none

def answer? : InputStage α ε → Option (Except ε α)
  | .answered outcome => some outcome
  | .settled outcome => some outcome
  | _ => none

def isWaiting : InputStage α ε → Bool
  | .waiting => true
  | _ => false

def rank : InputStage α ε → ℕ
  | .waiting => 3
  | .issued => 2
  | .answered _ => 1
  | .settled _ => 0

end InputStage

namespace InputCall

abbrev sessionId (call : InputCall α ε) : Text := call.command.sessionId

def isSettled (call : InputCall α ε) : Prop := call.stage.outcome?.isSome = true

def rank (call : InputCall α ε) : ℕ :=
  call.stage.rank + (if call.tail then 0 else 1) + (if call.returned.isSome then 0 else 1)

end InputCall

def InputEvent.isCall : InputEvent α ε → Bool
  | .call .. => true
  | _ => false

namespace InputWorld

def rank (w : InputWorld α ε) : ℕ := (w.calls.map InputCall.rank).sum

def sessionAt (w : InputWorld α ε) (i : ℕ) : Option Text := (w.calls[i]?).map (·.sessionId)

/-- `queuedInput` of a call is settled. -/
def SettledAt (w : InputWorld α ε) (i : ℕ) : Prop :=
  ∃ call, w.calls[i]? = some call ∧ call.isSettled

/-- The call is the last one of its session, and its promise is pending. -/
def LastPending (w : InputWorld α ε) (sessionId : Text) (k : ℕ) : Prop :=
  (∃ call, w.calls[k]? = some call ∧ call.sessionId = sessionId ∧ call.returned = none) ∧
    ∀ i, k < i → w.sessionAt i ≠ some sessionId

/-- The command of a call is in flight, or one of its jobs can run. -/
def CanGoOn (w : InputWorld α ε) (k : ℕ) : Prop :=
  (∃ call, w.calls[k]? = some call ∧ call.stage = .issued) ∨
    ∃ event ∈ [InputEvent.start k, .settle k, .resolveTail k, .finish k],
      (w.next event).isSome = true

end InputWorld

/-- The inputs of a session are a queue, and none gets lost. -/
structure InOrder (w : InputWorld α ε) : Prop where
  once : w.issued.Nodup
  called : ∀ k ∈ w.issued, k < w.calls.length
  order : w.issued.Pairwise fun i j => w.sessionAt i = w.sessionAt j → i < j
  alone : ∀ k ∈ w.issued, ∀ i < k, w.sessionAt i = w.sessionAt k → i ∈ w.issued ∧ w.SettledAt i
  outcome : ∀ (k : ℕ) (call : InputCall α ε) (outcome : Except ε α), w.calls[k]? = some call →
    call.returned = some outcome → (k, outcome) ∈ w.answers
  answered : (w.answers.map Prod.fst).Nodup
  apart : ∀ (k : ℕ) (call : InputCall α ε), w.calls[k]? = some call → call.stage.isWaiting = true →
    (∀ (i : ℕ) (before : InputCall α ε), i < k → w.calls[i]? = some before →
      before.sessionId = call.sessionId → before.tail = true) → (w.next (.start k)).isSome = true
  entry : ∀ (sessionId : Text) (k : ℕ), w.queue sessionId = some k ↔ w.LastPending sessionId k
  moves : ∀ (k : ℕ) (call : InputCall α ε), w.calls[k]? = some call →
    (k ∉ w.issued ∨ call.returned = none) →
      ∃ j ≤ k, w.sessionAt j = some call.sessionId ∧ w.CanGoOn j
  ends : ∀ (event : InputEvent α ε) (w' : InputWorld α ε), w.next event = some w' →
    event.isCall = false → w'.rank < w.rank

/-! ## What a step does -/

theorem getElem?_setCall {w : InputWorld α ε} {k : ℕ} {call : InputCall α ε}
    (h : w.calls[k]? = some call) (call' : InputCall α ε) (i : ℕ) :
    (w.setCall k call').calls[i]? = if i = k then some call' else w.calls[i]? := by
  have hlt : k < w.calls.length := (List.getElem?_eq_some_iff.mp h).1
  show (w.calls.set k call')[i]? = _
  rw [List.getElem?_set]
  by_cases hik : i = k
  · rw [if_pos hik.symm, if_pos hik, if_pos hlt]
  · rw [if_neg (Ne.symm hik), if_neg hik]

/-- The steps, each with what it needs. -/
inductive Stepped (w : InputWorld α ε) : InputWorld α ε → Prop where
  | refused : Stepped w w
  | called (sessionId : Text) (kind : SessionKind) (profile : Option Text) (input : SessionInput) :
    Stepped w { w with
      calls := w.calls ++
        [⟨inputCommand sessionId kind profile input, w.queue sessionId, .waiting, false, none⟩]
      queue := Function.update w.queue sessionId (some w.calls.length) }
  | started {k : ℕ} {call : InputCall α ε} (hcall : w.calls[k]? = some call)
      (hstage : call.stage = .waiting) (hready : w.ready call = true) :
    Stepped w { w.setCall k { call with stage := .issued } with issued := w.issued ++ [k] }
  | answered {k : ℕ} {call : InputCall α ε} (outcome : Except ε α)
      (hcall : w.calls[k]? = some call) (hstage : call.stage = .issued) :
    Stepped w { w.setCall k { call with stage := .answered outcome } with
      answers := w.answers ++ [(k, outcome)] }
  | settled {k : ℕ} {call : InputCall α ε} {outcome : Except ε α}
      (hcall : w.calls[k]? = some call) (hstage : call.stage = .answered outcome) :
    Stepped w (w.setCall k { call with stage := .settled outcome })
  | resolved {k : ℕ} {call : InputCall α ε} {outcome : Except ε α}
      (hcall : w.calls[k]? = some call) (hstage : call.stage = .settled outcome) :
    Stepped w (w.setCall k { call with tail := true })
  | finished {k : ℕ} {call : InputCall α ε} {outcome : Except ε α}
      (hcall : w.calls[k]? = some call) (hstage : call.stage = .settled outcome)
      (hreturned : call.returned = none) :
    Stepped w { w.setCall k { call with returned := some outcome } with
      queue := if w.queue call.command.sessionId = some k then
          Function.update w.queue call.command.sessionId none
        else w.queue }

theorem stepped_of_next {w w' : InputWorld α ε} {event : InputEvent α ε}
    (h : w.next event = some w') : Stepped w w' := by
  cases event with
  | call sessionId kind profile input =>
    cases kind with
    | none =>
      cases h
      exact .refused
    | some kind =>
      cases h
      exact .called sessionId kind profile input
  | start k =>
    obtain ⟨call, hcall, h⟩ := Option.bind_eq_some_iff.mp h
    split at h
    · rename_i hstage
      split at h
      · rename_i hready
        cases h
        exact .started hcall hstage hready
      · cases h
    · cases h
  | answer k outcome =>
    obtain ⟨call, hcall, h⟩ := Option.bind_eq_some_iff.mp h
    split at h
    · rename_i hstage
      cases h
      exact .answered outcome hcall hstage
    · cases h
  | settle k =>
    obtain ⟨call, hcall, h⟩ := Option.bind_eq_some_iff.mp h
    split at h
    · rename_i hstage
      cases h
      exact .settled hcall hstage
    · cases h
  | resolveTail k =>
    obtain ⟨call, hcall, h⟩ := Option.bind_eq_some_iff.mp h
    split at h
    · rename_i hstage
      split at h
      · cases h
      · cases h
        exact .resolved hcall hstage
    · cases h
  | finish k =>
    obtain ⟨call, hcall, h⟩ := Option.bind_eq_some_iff.mp h
    split at h
    · rename_i hstage
      split at h
      · cases h
      · rename_i hreturned
        cases h
        refine .finished hcall hstage ?_
        rwa [Bool.not_eq_true, Option.isSome_eq_false_iff, Option.isNone_iff_eq_none] at hreturned
    · cases h

/-! ## The chain -/

/-- What the calls know of each other. -/
structure Links (w : InputWorld α ε) : Prop where
  previous : ∀ (k : ℕ) (call : InputCall α ε) (j : ℕ), w.calls[k]? = some call →
    call.previous = some j → j < k ∧ w.sessionAt j = some call.sessionId ∧
      ∀ i, j < i → i < k → w.sessionAt i ≠ some call.sessionId
  unchained : ∀ (k : ℕ) (call : InputCall α ε), w.calls[k]? = some call → call.previous = none →
    ∀ i < k, w.sessionAt i = some call.sessionId → w.SettledAt i
  started : ∀ (k : ℕ) (call : InputCall α ε), w.calls[k]? = some call →
    call.stage.isWaiting = false → ∀ i < k, w.sessionAt i = some call.sessionId → w.SettledAt i
  tail : ∀ (k : ℕ) (call : InputCall α ε), w.calls[k]? = some call → call.tail = true →
    call.isSettled
  returned : ∀ (k : ℕ) (call : InputCall α ε) (outcome : Except ε α), w.calls[k]? = some call →
    call.returned = some outcome → call.stage.outcome? = some outcome

/-- The logs and the queue. -/
structure Chained (w : InputWorld α ε) : Prop where
  links : Links w
  queue : ∀ (sessionId : Text) (k : ℕ), w.queue sessionId = some k ↔ w.LastPending sessionId k
  drained : ∀ sessionId, w.queue sessionId = none → ∀ i, w.sessionAt i = some sessionId →
    w.SettledAt i
  once : w.issued.Nodup
  order : w.issued.Pairwise fun i j => w.sessionAt i = w.sessionAt j → i < j
  issued : ∀ k, k ∈ w.issued ↔ ∃ call, w.calls[k]? = some call ∧ call.stage.isWaiting = false
  answered : (w.answers.map Prod.fst).Nodup
  answers : ∀ (k : ℕ) (outcome : Except ε α), (k, outcome) ∈ w.answers ↔
    ∃ call, w.calls[k]? = some call ∧ call.stage.answer? = some outcome

section Update

variable {w w' : InputWorld α ε} {k : ℕ} {call call' : InputCall α ε}

theorem sessionAt_update (hcall : w.calls[k]? = some call)
    (hget : ∀ i : ℕ, w'.calls[i]? = if i = k then some call' else w.calls[i]?)
    (hcommand : call'.command = call.command) (i : ℕ) : w'.sessionAt i = w.sessionAt i := by
  unfold InputWorld.sessionAt
  rw [hget]
  split
  · rename_i hik
    rw [hik, hcall, Option.map_some, Option.map_some, InputCall.sessionId, hcommand]
  · rfl

theorem settledAt_update (hcall : w.calls[k]? = some call)
    (hget : ∀ i : ℕ, w'.calls[i]? = if i = k then some call' else w.calls[i]?)
    (hsettled : call.isSettled → call'.isSettled) {i : ℕ} (h : w.SettledAt i) :
    w'.SettledAt i := by
  obtain ⟨before, hbefore, hdone⟩ := h
  by_cases hik : i = k
  · rw [hik, hcall] at hbefore
    cases hbefore
    exact ⟨call', by rw [hget, if_pos hik], hsettled hdone⟩
  · exact ⟨before, by rw [hget, if_neg hik, hbefore], hdone⟩

theorem Links.update (h : Links w) (hcall : w.calls[k]? = some call)
    (hget : ∀ i : ℕ, w'.calls[i]? = if i = k then some call' else w.calls[i]?)
    (hcommand : call'.command = call.command) (hprevious : call'.previous = call.previous)
    (hsettled : call.isSettled → call'.isSettled)
    (hstarted : call'.stage.isWaiting = false →
      ∀ i < k, w.sessionAt i = some call.sessionId → w.SettledAt i)
    (htail : call'.tail = true → call'.isSettled)
    (hreturned : ∀ outcome, call'.returned = some outcome → call'.stage.outcome? = some outcome) :
    Links w' := by
  have hsession := sessionAt_update hcall hget hcommand
  have hkept := fun i => settledAt_update (i := i) hcall hget hsettled
  have hid : call'.sessionId = call.sessionId := congrArg InputCommand.sessionId hcommand
  have hcases : ∀ {i : ℕ} {c : InputCall α ε}, w'.calls[i]? = some c →
      (i = k ∧ c = call') ∨ w.calls[i]? = some c := by
    intro i c hc
    rw [hget] at hc
    split at hc
    · exact .inl ⟨‹_›, (Option.some.inj hc).symm⟩
    · exact .inr hc
  refine ⟨?_, ?_, ?_, ?_, ?_⟩
  · intro i c j hc hj
    simp only [hsession]
    rcases hcases hc with ⟨rfl, rfl⟩ | hc
    · rw [hid]
      exact h.previous i call j hcall (hprevious.symm.trans hj)
    · exact h.previous i c j hc hj
  · intro i c hc hnone j hji hj
    rw [hsession] at hj
    rcases hcases hc with ⟨rfl, rfl⟩ | hc
    · rw [hid] at hj
      exact hkept j (h.unchained i call hcall (hprevious.symm.trans hnone) j hji hj)
    · exact hkept j (h.unchained i c hc hnone j hji hj)
  · intro i c hc hstage j hji hj
    rw [hsession] at hj
    rcases hcases hc with ⟨rfl, rfl⟩ | hc
    · rw [hid] at hj
      exact hkept j (hstarted hstage j hji hj)
    · exact hkept j (h.started i c hc hstage j hji hj)
  · intro i c hc htrue
    rcases hcases hc with ⟨rfl, rfl⟩ | hc
    · exact htail htrue
    · exact h.tail i c hc htrue
  · intro i c outcome hc hsome
    rcases hcases hc with ⟨rfl, rfl⟩ | hc
    · exact hreturned outcome hsome
    · exact h.returned i c outcome hc hsome

theorem lastPending_update (hcall : w.calls[k]? = some call)
    (hget : ∀ i : ℕ, w'.calls[i]? = if i = k then some call' else w.calls[i]?)
    (hcommand : call'.command = call.command) (hreturned : call'.returned = call.returned)
    (sessionId : Text) (j : ℕ) : w'.LastPending sessionId j ↔ w.LastPending sessionId j := by
  unfold InputWorld.LastPending
  simp only [sessionAt_update hcall hget hcommand]
  refine and_congr_left fun _ => ?_
  by_cases hjk : j = k
  · subst hjk
    rw [hget, if_pos rfl, hcall]
    have hid : call'.sessionId = call.sessionId := congrArg InputCommand.sessionId hcommand
    constructor
    · rintro ⟨_, ⟨⟩, hsession, hnone⟩
      exact ⟨call, rfl, hid.symm.trans hsession, hreturned.symm.trans hnone⟩
    · rintro ⟨_, ⟨⟩, hsession, hnone⟩
      exact ⟨call', rfl, hid.trans hsession, hreturned.trans hnone⟩
  · rw [hget, if_neg hjk]

theorem Chained.update (h : Chained w) (hlinks : Links w') (hcall : w.calls[k]? = some call)
    (hget : ∀ i : ℕ, w'.calls[i]? = if i = k then some call' else w.calls[i]?)
    (hcommand : call'.command = call.command) (hreturned : call'.returned = call.returned)
    (hsettled : call.isSettled → call'.isSettled) (hqueue : w'.queue = w.queue)
    (honce : w'.issued.Nodup)
    (horder : w'.issued.Pairwise fun i j => w.sessionAt i = w.sessionAt j → i < j)
    (hissued : ∀ i, i ∈ w'.issued ↔
      (i ∈ w.issued ∧ i ≠ k) ∨ (i = k ∧ call'.stage.isWaiting = false))
    (hanswered : (w'.answers.map Prod.fst).Nodup)
    (hanswers : ∀ (i : ℕ) (outcome : Except ε α), (i, outcome) ∈ w'.answers ↔
      ((i, outcome) ∈ w.answers ∧ i ≠ k) ∨ (i = k ∧ call'.stage.answer? = some outcome)) :
    Chained w' := by
  have hsession := sessionAt_update hcall hget hcommand
  refine ⟨hlinks, ?_, ?_, honce, ?_, ?_, hanswered, ?_⟩
  · intro sessionId j
    rw [hqueue, lastPending_update hcall hget hcommand hreturned]
    exact h.queue sessionId j
  · intro sessionId hnone i hi
    rw [hqueue] at hnone
    rw [hsession] at hi
    exact settledAt_update hcall hget hsettled (h.drained sessionId hnone i hi)
  · simp only [hsession]
    exact horder
  · intro i
    rw [hissued, hget, h.issued]
    by_cases hik : i = k
    · simp [hik]
    · simp [hik]
  · intro i outcome
    rw [hanswers, hget, h.answers]
    by_cases hik : i = k
    · simp [hik]
    · simp [hik]

end Update

namespace Chained

variable {w : InputWorld α ε} {k : ℕ} {call : InputCall α ε}

theorem through_of_ready (h : Chained w) (hcall : w.calls[k]? = some call)
    (hready : w.ready call = true) :
    ∀ i < k, w.sessionAt i = some call.sessionId → w.SettledAt i := by
  intro i hik hi
  unfold InputWorld.ready at hready
  cases hprevious : call.previous with
  | none => exact h.links.unchained k call hcall hprevious i hik hi
  | some j =>
    rw [hprevious] at hready
    obtain ⟨-, hsession, hbetween⟩ := h.links.previous k call j hcall hprevious
    obtain ⟨before, hbefore, hid⟩ := Option.map_eq_some_iff.mp hsession
    simp only [hbefore, Option.map_some, Option.getD_some] at hready
    have hsettled := h.links.tail j before hbefore hready
    rcases Nat.lt_trichotomy i j with hij | rfl | hji
    · refine h.links.started j before hbefore ?_ i hij (hi.trans (congrArg some hid.symm))
      revert hsettled
      unfold InputCall.isSettled
      cases before.stage <;> simp [InputStage.outcome?, InputStage.isWaiting]
    · exact ⟨before, hbefore, hsettled⟩
    · exact absurd hi (hbetween i hji hik)

theorem not_mem_issued (h : Chained w) (hcall : w.calls[k]? = some call)
    (hstage : call.stage.isWaiting = true) : k ∉ w.issued := by
  intro hk
  obtain ⟨other, hother, hwaiting⟩ := (h.issued k).mp hk
  rw [hcall] at hother
  cases hother
  rw [hstage] at hwaiting
  cases hwaiting

theorem not_mem_answers (h : Chained w) (hcall : w.calls[k]? = some call)
    (hstage : call.stage.answer? = none) (outcome : Except ε α) : (k, outcome) ∉ w.answers := by
  intro hk
  obtain ⟨other, hother, hanswer⟩ := (h.answers k outcome).mp hk
  rw [hcall] at hother
  cases hother
  rw [hstage] at hanswer
  cases hanswer

theorem issue (h : Chained w) (hcall : w.calls[k]? = some call) (hstage : call.stage = .waiting)
    (hready : w.ready call = true) :
    Chained { w.setCall k { call with stage := .issued } with issued := w.issued ++ [k] } := by
  have hget := getElem?_setCall hcall { call with stage := .issued }
  have hnot : ¬call.isSettled := by
    unfold InputCall.isSettled
    rw [hstage]
    exact Bool.false_ne_true
  have hthrough := h.through_of_ready hcall hready
  have hfresh := h.not_mem_issued hcall (by rw [hstage]; rfl)
  have hunanswered := h.not_mem_answers hcall (by rw [hstage]; rfl)
  refine h.update (k := k) ?_ hcall hget rfl rfl (fun h => absurd h hnot) rfl ?_ ?_ ?_ h.answered ?_
  · refine h.links.update hcall hget rfl rfl (fun h => absurd h hnot) (fun _ => hthrough) ?_ ?_
    · exact fun htail => absurd (h.links.tail k call hcall htail) hnot
    · intro outcome houtcome
      have hnone := h.links.returned k call outcome hcall houtcome
      rw [hstage] at hnone
      cases hnone
  · exact List.nodup_append.mpr ⟨h.once, List.nodup_singleton k, fun i hi j hj heq =>
      hfresh (List.mem_singleton.mp hj ▸ heq ▸ hi)⟩
  · refine List.pairwise_append.mpr
      ⟨h.order, List.pairwise_singleton _ _, fun i hi j hj hsame => ?_⟩
    rw [List.mem_singleton.mp hj] at hsame ⊢
    -- a later input of the session would have found this one settled
    by_contra hle
    obtain ⟨other, hother, hwaiting⟩ := (h.issued i).mp hi
    have hki : k < i := by
      refine lt_of_le_of_ne (Nat.le_of_not_lt hle) ?_
      rintro rfl
      exact hfresh hi
    have hsession : w.sessionAt k = some other.sessionId := by
      rw [← hsame]
      exact congrArg (Option.map (·.sessionId)) hother
    obtain ⟨self, hself, hsettled⟩ := h.links.started i other hother hwaiting k hki hsession
    rw [hcall] at hself
    cases hself
    exact hnot hsettled
  · intro i
    rw [List.mem_append, List.mem_singleton]
    constructor
    · rintro (hi | rfl)
      · exact .inl ⟨hi, fun heq => hfresh (heq ▸ hi)⟩
      · exact .inr ⟨rfl, rfl⟩
    · rintro (⟨hi, -⟩ | ⟨rfl, -⟩)
      · exact .inl hi
      · exact .inr rfl
  · intro i outcome
    constructor
    · exact fun hi => .inl ⟨hi, fun heq => hunanswered outcome (heq ▸ hi)⟩
    · rintro (⟨hi, -⟩ | ⟨-, hanswer⟩)
      · exact hi
      · cases hanswer

theorem answer (h : Chained w) (hcall : w.calls[k]? = some call) (hstage : call.stage = .issued)
    (outcome : Except ε α) :
    Chained { w.setCall k { call with stage := .answered outcome } with
      answers := w.answers ++ [(k, outcome)] } := by
  have hget := getElem?_setCall hcall { call with stage := .answered outcome }
  have hnot : ¬call.isSettled := by
    unfold InputCall.isSettled
    rw [hstage]
    exact Bool.false_ne_true
  have hunanswered := h.not_mem_answers hcall (by rw [hstage]; rfl)
  have hmem : k ∈ w.issued := (h.issued k).mpr ⟨call, hcall, by rw [hstage]; rfl⟩
  refine h.update ?_ hcall hget rfl rfl (fun h => absurd h hnot) rfl h.once h.order ?_ ?_ ?_
  · refine h.links.update hcall hget rfl rfl (fun h => absurd h hnot) (fun _ => ?_) ?_ ?_
    · exact h.links.started k call hcall (by rw [hstage]; rfl)
    · exact fun htail => absurd (h.links.tail k call hcall htail) hnot
    · intro other hother
      have hnone := h.links.returned k call other hcall hother
      rw [hstage] at hnone
      cases hnone
  · intro i
    by_cases hik : i = k
    · subst hik
      exact iff_of_true hmem (.inr ⟨rfl, rfl⟩)
    · exact ⟨fun hi => .inl ⟨hi, hik⟩, fun hi => (hi.resolve_right fun h => hik h.1).1⟩
  · rw [List.map_append]
    refine List.nodup_append.mpr ⟨h.answered, List.nodup_singleton k, fun i hi j hj heq => ?_⟩
    obtain ⟨⟨other, given⟩, hgiven, rfl⟩ := List.mem_map.mp hi
    have heq : other = k := heq.trans (List.mem_singleton.mp hj)
    exact hunanswered given (heq ▸ hgiven)
  · intro i given
    rw [List.mem_append, List.mem_singleton]
    constructor
    · rintro (hi | heq)
      · exact .inl ⟨hi, fun heq => hunanswered given (heq ▸ hi)⟩
      · cases heq
        exact .inr ⟨rfl, rfl⟩
    · rintro (⟨hi, -⟩ | ⟨rfl, hgiven⟩)
      · exact .inl hi
      · cases hgiven
        exact .inr rfl

theorem goOn (h : Chained w) {call' : InputCall α ε} (hcall : w.calls[k]? = some call)
    (hcommand : call'.command = call.command) (hprevious : call'.previous = call.previous)
    (hreturned : call'.returned = call.returned) {outcome : Except ε α}
    (hanswer : call.stage.answer? = some outcome) (hanswer' : call'.stage = .settled outcome) :
    Chained (w.setCall k call') := by
  have hget := getElem?_setCall hcall call'
  have hwaiting : call.stage.isWaiting = false := by
    revert hanswer
    cases call.stage <;> simp [InputStage.answer?, InputStage.isWaiting]
  have hsettled' : call'.isSettled := by
    unfold InputCall.isSettled
    rw [hanswer']
    rfl
  have hmem : k ∈ w.issued := (h.issued k).mpr ⟨call, hcall, hwaiting⟩
  refine h.update ?_ hcall hget hcommand hreturned (fun _ => hsettled') rfl h.once h.order ?_
    h.answered ?_
  · refine h.links.update hcall hget hcommand hprevious (fun _ => hsettled') (fun _ => ?_)
      (fun _ => hsettled') ?_
    · exact h.links.started k call hcall hwaiting
    · intro given hgiven
      rw [hreturned] at hgiven
      have hgiven := h.links.returned k call given hcall hgiven
      rw [hanswer']
      revert hanswer hgiven
      cases call.stage <;> simp [InputStage.answer?, InputStage.outcome?]
      rintro rfl rfl
      rfl
  · intro i
    by_cases hik : i = k
    · subst hik
      exact iff_of_true hmem (.inr ⟨rfl, by rw [hanswer']; rfl⟩)
    · exact ⟨fun hi => .inl ⟨hi, hik⟩, fun hi => (hi.resolve_right fun h => hik h.1).1⟩
  · intro i given
    by_cases hik : i = k
    · subst hik
      show (i, given) ∈ w.answers ↔ _
      rw [h.answers, hcall]
      constructor
      · rintro ⟨_, ⟨⟩, hgiven⟩
        exact .inr ⟨rfl, by rw [hanswer']; exact hanswer.symm.trans hgiven⟩
      · rintro (⟨-, hne⟩ | ⟨-, hgiven⟩)
        · exact absurd rfl hne
        · rw [hanswer'] at hgiven
          exact ⟨call, rfl, hanswer.trans hgiven⟩
    · exact ⟨fun hi => .inl ⟨hi, hik⟩, fun hi => (hi.resolve_right fun h => hik h.1).1⟩

theorem enqueue (h : Chained w) (sessionId : Text) (command : InputCommand)
    (hcommand : command.sessionId = sessionId) :
    Chained { w with
      calls := w.calls ++ [⟨command, w.queue sessionId, .waiting, false, none⟩]
      queue := Function.update w.queue sessionId (some w.calls.length) } := by
  generalize hw' : ({ w with
    calls := w.calls ++ [⟨command, w.queue sessionId, .waiting, false, none⟩]
    queue := Function.update w.queue sessionId (some w.calls.length) } : InputWorld α ε) = w'
  obtain ⟨new, hnew⟩ : ∃ new : InputCall α ε,
      new = ⟨command, w.queue sessionId, .waiting, false, none⟩ := ⟨_, rfl⟩
  have hget : ∀ i : ℕ, w'.calls[i]? = if i = w.calls.length then some new else w.calls[i]? := by
    intro i
    rw [← hw', hnew]
    exact getElem?_concat i
  have hfresh : w.calls[w.calls.length]? = none := List.getElem?_eq_none (Nat.le_refl _)
  have hlt : ∀ {i : ℕ} {sid : Text}, w.sessionAt i = some sid → i < w.calls.length := by
    intro i sid hi
    obtain ⟨call, hcall, -⟩ := Option.map_eq_some_iff.mp hi
    exact (List.getElem?_eq_some_iff.mp hcall).1
  have hsession : ∀ i, w'.sessionAt i =
      if i = w.calls.length then some sessionId else w.sessionAt i := by
    intro i
    unfold InputWorld.sessionAt
    rw [hget]
    split
    · rw [hnew, Option.map_some, InputCall.sessionId, hcommand]
    · rfl
  have hold : ∀ {i : ℕ}, i ≠ w.calls.length → w'.sessionAt i = w.sessionAt i := by
    intro i hi
    rw [hsession, if_neg hi]
  have hkept : ∀ {i : ℕ}, w.SettledAt i → w'.SettledAt i := by
    rintro i ⟨call, hcall, hsettled⟩
    refine ⟨call, ?_, hsettled⟩
    rw [hget, if_neg (Nat.ne_of_lt (List.getElem?_eq_some_iff.mp hcall).1), hcall]
  have hqueue : ∀ sid, w'.queue sid =
      if sid = sessionId then some w.calls.length else w.queue sid := by
    intro sid
    rw [← hw']
    exact Function.update_apply ..
  have hcases : ∀ {i : ℕ} {c : InputCall α ε}, w'.calls[i]? = some c →
      (i = w.calls.length ∧ c = new) ∨ (i < w.calls.length ∧ w.calls[i]? = some c) := by
    intro i c hc
    rw [hget] at hc
    split at hc
    · exact .inl ⟨‹_›, (Option.some.inj hc).symm⟩
    · exact .inr ⟨(List.getElem?_eq_some_iff.mp hc).1, hc⟩
  have hid : new.sessionId = sessionId := by rw [hnew]; exact hcommand
  refine ⟨⟨?_, ?_, ?_, ?_, ?_⟩, ?_, ?_, ?_, ?_, ?_, ?_, ?_⟩
  · intro k call j hcall hprevious
    rcases hcases hcall with ⟨rfl, rfl⟩ | ⟨hk, hcall⟩
    · rw [hid]
      have hqueued : w.queue sessionId = some j := by rw [hnew] at hprevious; exact hprevious
      obtain ⟨⟨before, hbefore, hsame, -⟩, hlast⟩ := (h.queue sessionId j).mp hqueued
      have hj : j < w.calls.length := (List.getElem?_eq_some_iff.mp hbefore).1
      refine ⟨hj, ?_, fun i hji hi => ?_⟩
      · rw [hold (Nat.ne_of_lt hj), InputWorld.sessionAt, hbefore, Option.map_some, hsame]
      · rw [hold (Nat.ne_of_lt hi)]
        exact hlast i hji
    · obtain ⟨hjk, hsame, hbetween⟩ := h.links.previous k call j hcall hprevious
      refine ⟨hjk, ?_, fun i hji hik => ?_⟩
      · rw [hold (Nat.ne_of_lt (hjk.trans hk)), hsame]
      · rw [hold (Nat.ne_of_lt (hik.trans hk))]
        exact hbetween i hji hik
  · intro k call hcall hprevious i hik hi
    rcases hcases hcall with ⟨rfl, rfl⟩ | ⟨hk, hcall⟩
    · rw [hold (Nat.ne_of_lt hik), hid] at hi
      rw [hnew] at hprevious
      exact hkept (h.drained sessionId hprevious i hi)
    · rw [hold (Nat.ne_of_lt (hik.trans hk))] at hi
      exact hkept (h.links.unchained k call hcall hprevious i hik hi)
  · intro k call hcall hstage i hik hi
    rcases hcases hcall with ⟨rfl, rfl⟩ | ⟨hk, hcall⟩
    · rw [hnew] at hstage
      cases hstage
    · rw [hold (Nat.ne_of_lt (hik.trans hk))] at hi
      exact hkept (h.links.started k call hcall hstage i hik hi)
  · intro k call hcall htail
    rcases hcases hcall with ⟨rfl, rfl⟩ | ⟨-, hcall⟩
    · rw [hnew] at htail
      cases htail
    · exact h.links.tail k call hcall htail
  · intro k call outcome hcall hreturned
    rcases hcases hcall with ⟨rfl, rfl⟩ | ⟨-, hcall⟩
    · rw [hnew] at hreturned
      cases hreturned
    · exact h.links.returned k call outcome hcall hreturned
  · intro sid k
    rw [hqueue]
    constructor
    · intro hk
      split at hk
      · rename_i hsid
        cases hk
        refine ⟨⟨new, by rw [hget, if_pos rfl], hid.trans hsid.symm, by rw [hnew]⟩,
          fun i hi => ?_⟩
        rw [hold (Nat.ne_of_gt hi), InputWorld.sessionAt,
          List.getElem?_eq_none (Nat.le_of_lt hi), Option.map_none]
        exact Option.some_ne_none sid |>.symm
      · rename_i hsid
        obtain ⟨⟨call, hcall, hsame, hnone⟩, hlast⟩ := (h.queue sid k).mp hk
        have hk : k < w.calls.length := (List.getElem?_eq_some_iff.mp hcall).1
        refine ⟨⟨call, by rw [hget, if_neg (Nat.ne_of_lt hk), hcall], hsame, hnone⟩,
          fun i hi => ?_⟩
        rw [hsession]
        split
        · exact fun heq => hsid (Option.some.inj heq).symm
        · exact hlast i hi
    · rintro ⟨⟨call, hcall, hsame, hnone⟩, hlast⟩
      rcases hcases hcall with ⟨rfl, rfl⟩ | ⟨hk, hcall⟩
      · rw [if_pos (hsame.symm.trans hid)]
      · have hsid : sid ≠ sessionId := by
          rintro rfl
          exact hlast w.calls.length hk (by rw [hsession, if_pos rfl])
        rw [if_neg hsid]
        refine (h.queue sid k).mpr ⟨⟨call, hcall, hsame, hnone⟩, fun i hi => ?_⟩
        intro heq
        exact hlast i hi (by rw [hold (Nat.ne_of_lt (hlt heq)), heq])
  · intro sid hnone i hi
    rw [hqueue] at hnone
    split at hnone
    · cases hnone
    · rename_i hsid
      rw [hsession] at hi
      split at hi
      · exact absurd (Option.some.inj hi).symm hsid
      · exact hkept (h.drained sid hnone i hi)
  · rw [← hw']
    exact h.once
  · have hissued : ∀ i ∈ w.issued, w'.sessionAt i = w.sessionAt i := by
      intro i hi
      obtain ⟨call, hcall, -⟩ := (h.issued i).mp hi
      exact hold (Nat.ne_of_lt (List.getElem?_eq_some_iff.mp hcall).1)
    have heq : w'.issued = w.issued := by rw [← hw']
    rw [heq]
    refine h.order.imp_of_mem fun {i j} hi hj hij hsame => hij ?_
    rwa [hissued i hi, hissued j hj] at hsame
  · intro k
    have heq : w'.issued = w.issued := by rw [← hw']
    rw [heq, h.issued, hget]
    split
    · rename_i hk
      rw [hk, hfresh]
      refine ⟨fun ⟨_, hcall, _⟩ => (Option.some_ne_none _ hcall.symm).elim, ?_⟩
      rintro ⟨_, ⟨⟩, hwaiting⟩
      rw [hnew] at hwaiting
      cases hwaiting
    · rfl
  · rw [← hw']
    exact h.answered
  · intro k outcome
    have heq : w'.answers = w.answers := by rw [← hw']
    rw [heq, h.answers, hget]
    split
    · rename_i hk
      rw [hk, hfresh]
      refine ⟨fun ⟨_, hcall, _⟩ => (Option.some_ne_none _ hcall.symm).elim, ?_⟩
      rintro ⟨_, ⟨⟩, hanswer⟩
      rw [hnew] at hanswer
      cases hanswer
    · rfl

theorem finish (h : Chained w) {outcome : Except ε α} (hcall : w.calls[k]? = some call)
    (hstage : call.stage = .settled outcome) :
    Chained { w.setCall k { call with returned := some outcome } with
      queue := if w.queue call.command.sessionId = some k then
          Function.update w.queue call.command.sessionId none
        else w.queue } := by
  generalize hw' : ({ w.setCall k { call with returned := some outcome } with
    queue := if w.queue call.command.sessionId = some k then
        Function.update w.queue call.command.sessionId none
      else w.queue } : InputWorld α ε) = w'
  have hget : ∀ i : ℕ, w'.calls[i]? =
      if i = k then some { call with returned := some outcome } else w.calls[i]? := by
    intro i
    rw [← hw']
    exact getElem?_setCall hcall _ i
  have hsession := sessionAt_update hcall hget rfl
  have hsettled : call.isSettled := by
    unfold InputCall.isSettled
    rw [hstage]
    rfl
  have hwaiting : call.stage.isWaiting = false := by rw [hstage]; rfl
  have hthrough := h.links.started k call hcall hwaiting
  have hlast : ∀ sid j, w'.LastPending sid j ↔ w.LastPending sid j ∧ j ≠ k := by
    intro sid j
    unfold InputWorld.LastPending
    simp only [hsession]
    by_cases hjk : j = k
    · subst hjk
      rw [hget, if_pos rfl]
      refine iff_of_false ?_ fun hj => hj.2 rfl
      rintro ⟨⟨_, ⟨⟩, -, hnone⟩, -⟩
      cases hnone
    · rw [hget, if_neg hjk]
      exact (and_iff_left hjk).symm
  have howner : ∀ sid, w.queue sid = some k → sid = call.command.sessionId := by
    intro sid hk
    obtain ⟨⟨other, hother, hsame, -⟩, -⟩ := (h.queue sid k).mp hk
    rw [hcall] at hother
    cases hother
    exact hsame.symm
  have hqueue : ∀ sid j, w'.queue sid = some j ↔ w.queue sid = some j ∧ j ≠ k := by
    intro sid j
    have hnext : w'.queue sid =
        if w.queue call.command.sessionId = some k ∧ sid = call.command.sessionId then none
        else w.queue sid := by
      rw [← hw']
      by_cases hmine : w.queue call.command.sessionId = some k
      · simp [hmine, Function.update_apply]
      · simp [hmine]
    rw [hnext]
    split
    · rename_i hmine
      rw [hmine.2, hmine.1]
      exact iff_of_false (Option.some_ne_none j).symm fun hj => hj.2 (Option.some.inj hj.1).symm
    · rename_i hother
      refine ⟨fun hj => ⟨hj, ?_⟩, And.left⟩
      rintro rfl
      have hsid := howner sid hj
      exact hother ⟨hsid ▸ hj, hsid⟩
  refine ⟨?_, ?_, ?_, ?_, ?_, ?_, ?_, ?_⟩
  · refine h.links.update hcall hget rfl rfl id (fun _ => hthrough) (fun _ => hsettled) ?_
    rintro _ ⟨⟩
    rw [hstage]
    rfl
  · intro sid j
    rw [hqueue, hlast, h.queue]
  · intro sid hnone i hi
    rw [hsession] at hi
    refine settledAt_update hcall hget id ?_
    cases hbefore : w.queue sid with
    | none => exact h.drained sid hbefore i hi
    | some j =>
      -- the entry was that of this call, the last one of its session
      have hj : j = k := by
        by_contra hj
        have hstays := (hqueue sid j).mpr ⟨hbefore, hj⟩
        rw [hnone] at hstays
        cases hstays
      subst hj
      have hsid := howner sid hbefore
      rcases Nat.lt_trichotomy i j with hij | rfl | hji
      · exact hthrough i hij (hi.trans (congrArg some hsid))
      · exact ⟨call, hcall, hsettled⟩
      · exact absurd hi (((h.queue sid j).mp hbefore).2 i hji)
  · rw [← hw']
    exact h.once
  · simp only [hsession]
    rw [← hw']
    exact h.order
  · intro i
    have heq : w'.issued = w.issued := by rw [← hw']; rfl
    rw [heq, h.issued, hget]
    by_cases hik : i = k
    · subst hik
      rw [if_pos rfl, hcall]
      exact iff_of_true ⟨call, rfl, hwaiting⟩ ⟨_, rfl, hwaiting⟩
    · rw [if_neg hik]
  · rw [← hw']
    exact h.answered
  · intro i given
    have heq : w'.answers = w.answers := by rw [← hw']; rfl
    rw [heq, h.answers, hget]
    by_cases hik : i = k
    · subst hik
      rw [if_pos rfl, hcall]
      constructor
      · rintro ⟨_, ⟨⟩, hgiven⟩
        exact ⟨_, rfl, hgiven⟩
      · rintro ⟨_, ⟨⟩, hgiven⟩
        exact ⟨call, rfl, hgiven⟩
    · rw [if_neg hik]

protected theorem start : Chained (InputWorld.start : InputWorld α ε) := by
  refine ⟨⟨?_, ?_, ?_, ?_, ?_⟩, ?_, ?_, List.nodup_nil, List.Pairwise.nil, ?_, List.nodup_nil, ?_⟩
  · rintro k call j ⟨⟩
  · rintro k call ⟨⟩
  · rintro k call ⟨⟩
  · rintro k call ⟨⟩
  · rintro k call outcome ⟨⟩
  · intro sessionId k
    refine iff_of_false (Option.some_ne_none k).symm ?_
    rintro ⟨⟨call, ⟨⟩, -⟩, -⟩
  · rintro sessionId - i ⟨⟩
  · intro k
    refine iff_of_false List.not_mem_nil ?_
    rintro ⟨call, ⟨⟩, -⟩
  · intro k outcome
    refine iff_of_false List.not_mem_nil ?_
    rintro ⟨call, ⟨⟩, -⟩

theorem next {w' : InputWorld α ε} (h : Chained w) (hstep : Stepped w w') : Chained w' := by
  cases hstep with
  | refused => exact h
  | called sessionId kind profile input => exact h.enqueue sessionId _ rfl
  | started hcall hstage hready => exact h.issue hcall hstage hready
  | answered outcome hcall hstage => exact h.answer hcall hstage outcome
  | settled hcall hstage =>
    exact h.goOn hcall rfl rfl rfl (by rw [hstage]; rfl) rfl
  | resolved hcall hstage =>
    exact h.goOn hcall rfl rfl rfl (by rw [hstage]; rfl) hstage
  | finished hcall hstage => exact h.finish hcall hstage

theorem of_reachable (h : (inputMachine α ε).Reachable w) : Chained w :=
  h.induct (fun _ hinit => by cases hinit; exact .start)
    fun _ _ _ _ hchained hstep => hchained.next (stepped_of_next hstep)

theorem moves (h : Chained w) (k : ℕ) :
    ∀ call : InputCall α ε, w.calls[k]? = some call →
      (∃ j ≤ k, w.sessionAt j = some call.sessionId ∧ w.CanGoOn j) ∨
        (k ∈ w.issued ∧ call.tail = true ∧ call.returned.isSome = true) := by
  induction k using Nat.strong_induction_on with
  | h k ih =>
    intro call hcall
    have hself : w.sessionAt k = some call.sessionId := by
      rw [InputWorld.sessionAt, hcall, Option.map_some]
    cases hstage : call.stage with
    | waiting =>
      have hnext : w.ready call = true → (w.next (.start k)).isSome = true := by
        intro hready
        simp [InputWorld.next, hcall, hstage, hready]
      cases hprevious : call.previous with
      | none =>
        have hready : w.ready call = true := by rw [InputWorld.ready, hprevious]
        exact .inl ⟨k, Nat.le_refl k, hself, .inr ⟨_, by simp, hnext hready⟩⟩
      | some j =>
        obtain ⟨hjk, hsession, -⟩ := h.links.previous k call j hcall hprevious
        obtain ⟨before, hbefore, hid⟩ := Option.map_eq_some_iff.mp hsession
        rcases ih j hjk before hbefore with ⟨i, hij, hsame, hgo⟩ | ⟨-, htail, -⟩
        · exact .inl ⟨i, hij.trans (Nat.le_of_lt hjk), hid ▸ hsame, hgo⟩
        · have hready : w.ready call = true := by
            simp only [InputWorld.ready, hprevious, hbefore, Option.map_some, Option.getD_some]
            exact htail
          exact .inl ⟨k, Nat.le_refl k, hself, .inr ⟨_, by simp, hnext hready⟩⟩
    | issued => exact .inl ⟨k, Nat.le_refl k, hself, .inl ⟨call, hcall, hstage⟩⟩
    | answered outcome =>
      have hnext : (w.next (.settle k)).isSome = true := by
        simp [InputWorld.next, hcall, hstage]
      exact .inl ⟨k, Nat.le_refl k, hself, .inr ⟨_, by simp, hnext⟩⟩
    | settled outcome =>
      by_cases htail : call.tail = true
      · by_cases hreturned : call.returned.isSome = true
        · exact .inr ⟨(h.issued k).mpr ⟨call, hcall, by rw [hstage]; rfl⟩, htail, hreturned⟩
        · have hnext : (w.next (.finish k)).isSome = true := by
            simp [InputWorld.next, hcall, hstage, hreturned]
          exact .inl ⟨k, Nat.le_refl k, hself, .inr ⟨_, by simp, hnext⟩⟩
      · have hnext : (w.next (.resolveTail k)).isSome = true := by
          simp [InputWorld.next, hcall, hstage, htail]
        exact .inl ⟨k, Nat.le_refl k, hself, .inr ⟨_, by simp, hnext⟩⟩

end Chained

theorem rank_setCall {w : InputWorld α ε} {k : ℕ} {call : InputCall α ε}
    (hcall : w.calls[k]? = some call) (call' : InputCall α ε) (hlt : call'.rank < call.rank) :
    (w.setCall k call').rank < w.rank := by
  have hsum : (w.setCall k call').rank + call.rank = w.rank + call'.rank :=
    sum_map_set_add hcall InputCall.rank call'
  omega

theorem rank_lt_of_next {w w' : InputWorld α ε} {event : InputEvent α ε}
    (h : w.next event = some w') (hevent : event.isCall = false) : w'.rank < w.rank := by
  cases event with
  | call => cases hevent
  | start k =>
    obtain ⟨call, hcall, h⟩ := Option.bind_eq_some_iff.mp h
    split at h
    · rename_i hstage
      split at h
      · cases h
        refine rank_setCall hcall { call with stage := .issued } ?_
        simp [InputCall.rank, InputStage.rank, hstage]
      · cases h
    · cases h
  | answer k outcome =>
    obtain ⟨call, hcall, h⟩ := Option.bind_eq_some_iff.mp h
    split at h
    · rename_i hstage
      cases h
      refine rank_setCall hcall { call with stage := .answered outcome } ?_
      simp [InputCall.rank, InputStage.rank, hstage]
    · cases h
  | settle k =>
    obtain ⟨call, hcall, h⟩ := Option.bind_eq_some_iff.mp h
    split at h
    · rename_i hstage
      cases h
      refine rank_setCall hcall _ ?_
      simp [InputCall.rank, InputStage.rank, hstage]
    · cases h
  | resolveTail k =>
    obtain ⟨call, hcall, h⟩ := Option.bind_eq_some_iff.mp h
    split at h
    · rename_i hstage
      split at h
      · cases h
      · rename_i htail
        cases h
        refine rank_setCall hcall _ ?_
        simp [InputCall.rank, InputStage.rank, hstage, htail]
    · cases h
  | finish k =>
    obtain ⟨call, hcall, h⟩ := Option.bind_eq_some_iff.mp h
    split at h
    · rename_i outcome hstage
      split at h
      · cases h
      · rename_i hreturned
        cases h
        refine rank_setCall hcall { call with returned := some outcome } ?_
        simp [InputCall.rank, InputStage.rank, hstage, hreturned]
    · cases h

theorem inOrder_of_chained {w : InputWorld α ε} (h : Chained w) : InOrder w where
  once := h.once
  called := by
    intro k hk
    obtain ⟨call, hcall, -⟩ := (h.issued k).mp hk
    exact (List.getElem?_eq_some_iff.mp hcall).1
  order := h.order
  alone := by
    intro k hk i hik hsame
    obtain ⟨call, hcall, hwaiting⟩ := (h.issued k).mp hk
    have hi : w.sessionAt i = some call.sessionId := by
      rw [hsame, InputWorld.sessionAt, hcall, Option.map_some]
    obtain ⟨before, hbefore, hsettled⟩ := h.links.started k call hcall hwaiting i hik hi
    refine ⟨(h.issued i).mpr ⟨before, hbefore, ?_⟩, before, hbefore, hsettled⟩
    revert hsettled
    unfold InputCall.isSettled
    cases before.stage <;> simp [InputStage.outcome?, InputStage.isWaiting]
  outcome := by
    intro k call outcome hcall hreturned
    have hsettled := h.links.returned k call outcome hcall hreturned
    refine (h.answers k outcome).mpr ⟨call, hcall, ?_⟩
    revert hsettled
    cases call.stage <;> simp [InputStage.outcome?, InputStage.answer?]
  answered := h.answered
  apart := by
    intro k call hcall hwaiting hearlier
    have hready : w.ready call = true := by
      unfold InputWorld.ready
      cases hprevious : call.previous with
      | none => rfl
      | some j =>
        obtain ⟨hjk, hsession, -⟩ := h.links.previous k call j hcall hprevious
        obtain ⟨before, hbefore, hid⟩ := Option.map_eq_some_iff.mp hsession
        simp only [hbefore, Option.map_some, Option.getD_some]
        exact hearlier j before hjk hbefore hid
    cases hstage : call.stage with
    | waiting => simp [InputWorld.next, hcall, hstage, hready]
    | issued => rw [hstage] at hwaiting; cases hwaiting
    | answered outcome => rw [hstage] at hwaiting; cases hwaiting
    | settled outcome => rw [hstage] at hwaiting; cases hwaiting
  entry := h.queue
  moves := by
    intro k call hcall hopen
    rcases h.moves k call hcall with hmoves | ⟨hissued, -, hreturned⟩
    · exact hmoves
    · rcases hopen with hopen | hopen
      · exact absurd hissued hopen
      · rw [hopen] at hreturned
        cases hreturned
  ends := fun _ _ => rank_lt_of_next

/-- **In every run**, whatever the order of the jobs and however the commands end, the inputs of
each session are a queue without loss. -/
theorem inOrder_of_reachable {w : InputWorld α ε} (h : (inputMachine α ε).Reachable w) :
    InOrder w :=
  inOrder_of_chained (Chained.of_reachable h)

def overlapping : List (InputEvent Unit Unit) :=
  [.call "s1".toList (some .serial) none (.text "a".toList),
    .call "s1".toList (some .serial) none (.binary [7]), .start 0, .answer 0 (.error ()), .settle 0,
    .call "s1".toList (some .serial) none (.text "b".toList), .resolveTail 0, .finish 0, .start 1]

theorem inOrder_of_reachable_overlapping :
    ∃ w, Machine.exec InputWorld.next InputWorld.start overlapping = some w ∧
      w.issued = [0, 1] ∧ w.queue "s1".toList = some 2 ∧ InOrder w := by
  have hexec : Machine.exec InputWorld.next InputWorld.start overlapping =
      some ((Machine.exec InputWorld.next InputWorld.start overlapping).get rfl) := rfl
  exact ⟨_, hexec, rfl, rfl, inOrder_of_reachable (Machine.reachable_exec hexec)⟩

end FluxTerm.Terminal
