import FluxTerm.Serial.Manager
import Mathlib.Data.List.Infix

/-!
# FluxTerm — what a serial call holds

A call holds the claim of its port from `claim_port` to the drop of its guard, is listed from the
start to `remove_pending_connect_entry`, and has a session from the insertion to the removal.
-/

namespace FluxTerm.Serial

open FluxTerm.Engine FluxTerm.Lib

/-! ## What a call has -/

/-- In `claim_port`, or on the way out of it. -/
def Caller.early : Caller → Bool
  | checking | claiming | waiting .. | failing _ | spawning => true
  | awaiting | timingOut | returned _ => false

def Stage.holdsClaim : Stage → Bool
  | notSpawned => false
  | starting | opening | opened | checked | inserted | unlisted | sent | running => true
  | leaving _ todo => decide (.dropClaim ∈ todo)

def Stage.listed : Stage → Bool
  | notSpawned => false
  | starting | opening | opened | checked | inserted => true
  | unlisted | sent | running => false
  | leaving _ todo => decide (.removePending ∈ todo)

def Stage.inSessions : Stage → Bool
  | notSpawned | starting | opening | opened | checked => false
  | inserted | unlisted | sent | running => true
  | leaving _ todo => decide (.removeSession ∈ todo)

def Stage.hasHandle : Stage → Bool
  | notSpawned | starting | opening => false
  | opened | checked | inserted | unlisted | sent | running => true
  | leaving _ todo => decide (.closePort ∈ todo)

/-- The guard `SerialPortClaim` is alive. -/
def Call.holdsClaim (c : Call) : Bool :=
  match c.caller with
  | .spawning => true
  | _ => c.stage.holdsClaim

/-- The entry of `pending_connects` is this call's. -/
def Call.listed (c : Call) : Bool := c.caller.early || c.stage.listed

/-! ## The order of the cleanup -/

/-- Nothing is done twice, the port is closed before the claim is dropped, and the final event
comes after both and after the removal of the session. -/
def Tidy (todo : List Cleanup) : Prop :=
  todo.Nodup ∧ (.closePort ∈ todo → .dropClaim ∈ todo) ∧
    (todo.head? = some .emitStatus → .dropClaim ∉ todo ∧ .removeSession ∉ todo)

instance (todo : List Cleanup) : Decidable (Tidy todo) := inferInstanceAs (Decidable (_ ∧ _ ∧ _))

theorem tidy_of_suffix {exit : Exit} {todo : List Cleanup} (h : todo <:+ exit.plan) : Tidy todo := by
  rw [← List.mem_tails] at h
  have hall : ∀ exit : Exit, ∀ todo ∈ exit.plan.tails, Tidy todo := by
    intro exit
    cases exit with
    | openFailed err => simp only [Exit.plan]; decide
    | cancelled => decide
    | insertFailed => decide
    | refused => decide
    | finished finalError requested =>
      cases finalError with
      | some err => simp only [Exit.plan]; decide
      | none => cases requested <;> decide
  exact hall exit todo h

def Stage.OnPlan : Stage → Prop
  | leaving exit todo => todo <:+ exit.plan
  | _ => True

/-- What holds of a call by itself: no task before `spawn`, and a task that leaves by its plan. -/
structure Call.Local (c : Call) : Prop where
  spawned : c.caller.early = true → c.stage = .notSpawned
  onPlan : c.stage.OnPlan

theorem Stage.onPlan_leave (exit : Exit) : (Stage.leave exit).OnPlan := List.suffix_rfl

/-! ## What a step does to a call -/

structure Holdings where
  claim : Bool
  entry : Bool
  session : Bool

def Stage.holdings (stage : Stage) : Holdings := ⟨stage.holdsClaim, stage.listed, stage.inSessions⟩

def Call.holdings (c : Call) : Holdings := ⟨c.holdsClaim, c.listed, c.stage.inSessions⟩

def Action.Fits (h h' : Holdings) : Action → Prop
  | keep | emit _ | takePermit _ | passOn .. => h' = h
  | claimPort => h.claim = false ∧ h' = { h with claim := true }
  | dropClaim _ => h.claim = true ∧ h' = { h with claim := false }
  | removePending => h.entry = true ∧ h' = { h with entry := false }
  | insertSession => h' = { h with session := true }
  | removeSession => h' = { h with session := false }

/-- A step keeps the port and the operation and fits its action, and claims free ports only. -/
structure StepOf (m : SerialManager) (c c' : Call) (action : Action) : Prop where
  operationId : c'.operationId = c.operationId
  portName : c'.portName = c.portName
  isLocal : c'.Local
  fits : action.Fits c.holdings c'.holdings
  free : action = .claimPort → m.claimedPorts c.portName = none

variable {m : SerialManager} {i : ℕ} {c c' : Call} {action : Action}

theorem Call.Local.late (h : c.Local) (hstage : c.stage ≠ .notSpawned) : c.caller.early = false := by
  rw [← Bool.not_eq_true]
  exact fun hearly => hstage (h.spawned hearly)

theorem holdings_of_late (h : c.caller.early = false) : c.holdings = c.stage.holdings := by
  have hclaim : c.holdsClaim = c.stage.holdsClaim := by
    unfold Call.holdsClaim
    split
    · rename_i hcaller
      rw [hcaller] at h
      cases h
    · rfl
  have hentry : c.listed = c.stage.listed := by
    unfold Call.listed
    rw [h, Bool.false_or]
  unfold Call.holdings Stage.holdings
  rw [hclaim, hentry]

theorem callerNext_spec {event : CallerEvent} (hlocal : c.Local)
    (h : m.callerNext c event = some (c', action)) : StepOf m c c' action := by
  obtain ⟨hspawned, hplan⟩ := hlocal
  obtain ⟨operationId, portName, cancelled, cancelNotified, released, caller, stage, ready,
    cancelling, acknowledged⟩ := c
  dsimp only at hspawned hplan
  unfold SerialManager.callerNext at h
  dsimp only at h
  -- before `spawn` the stage is known; the claim is there in between
  split at h
  · -- `check`
    cases hspawned rfl
    split at h <;> cases h <;> exact ⟨rfl, rfl, ⟨fun _ => rfl, trivial⟩, rfl, nofun⟩
  · -- `claim`
    cases hspawned rfl
    split at h
    · rename_i hfree
      cases h
      exact ⟨rfl, rfl, ⟨fun _ => rfl, trivial⟩, ⟨rfl, rfl⟩, fun _ => hfree⟩
    · split at h <;> cases h <;> exact ⟨rfl, rfl, ⟨fun _ => rfl, trivial⟩, rfl, nofun⟩
  · -- `poll`
    cases hspawned rfl
    split at h <;> cases h <;> exact ⟨rfl, rfl, ⟨fun _ => rfl, trivial⟩, rfl, nofun⟩
  · -- `wake`
    cases hspawned rfl
    cases h
    exact ⟨rfl, rfl, ⟨fun _ => rfl, trivial⟩, rfl, nofun⟩
  · -- `cancelSeen`
    rename_i wait _
    cases hspawned rfl
    split at h
    · cases h
      cases wait <;> exact ⟨rfl, rfl, ⟨fun _ => rfl, trivial⟩, rfl, nofun⟩
    · cases h
  · -- `claimTimeout`
    rename_i wait _
    cases hspawned rfl
    split at h
    · cases h
    · cases h
      cases wait <;> exact ⟨rfl, rfl, ⟨fun _ => rfl, trivial⟩, rfl, nofun⟩
  · -- `giveUp`
    cases hspawned rfl
    cases h
    exact ⟨rfl, rfl, ⟨fun _ => rfl, trivial⟩, ⟨rfl, rfl⟩, nofun⟩
  · -- `spawn`
    cases hspawned rfl
    cases h
    exact ⟨rfl, rfl, ⟨nofun, trivial⟩, rfl, nofun⟩
  · -- `receive`
    obtain ⟨result, -, hpair⟩ := Option.map_eq_some_iff.mp h
    cases hpair
    exact ⟨rfl, rfl, ⟨nofun, hplan⟩, rfl, nofun⟩
  · -- `readyTimeout`
    cases h
    exact ⟨rfl, rfl, ⟨nofun, hplan⟩, rfl, nofun⟩
  · -- `markTimeout`
    cases h
    exact ⟨rfl, rfl, ⟨nofun, hplan⟩, rfl, nofun⟩
  · cases h

theorem StepOf.of_stage (hlocal : c.Local) (hstage : c.stage ≠ .notSpawned)
    (hop : c'.operationId = c.operationId) (hport : c'.portName = c.portName)
    (hcaller : c'.caller = c.caller) (hplan : c'.stage.OnPlan)
    (hfits : action.Fits c.stage.holdings c'.stage.holdings) (hfree : action ≠ .claimPort) :
    StepOf m c c' action := by
  have hlate : c.caller.early = false := hlocal.late hstage
  have hlate' : c'.caller.early = false := hcaller ▸ hlate
  refine ⟨hop, hport, ⟨fun hearly => ?_, hplan⟩, ?_, fun h => absurd h hfree⟩
  · rw [hlate'] at hearly
    cases hearly
  · rw [holdings_of_late hlate, holdings_of_late hlate']
    exact hfits

theorem cleaned_spec {exit : Exit} {cleanup : Cleanup} {todo : List Cleanup} {waiter : Option ℕ}
    (hlocal : c.Local) (hstage : c.stage = .leaving exit (cleanup :: todo)) :
    StepOf m c (Call.cleaned i { c with stage := .leaving exit todo } exit waiter cleanup).1
      (Call.cleaned i { c with stage := .leaving exit todo } exit waiter cleanup).2 := by
  have hsuffix : cleanup :: todo <:+ exit.plan := by
    have := hlocal.onPlan
    rwa [hstage] at this
  have hplan : todo <:+ exit.plan := (List.suffix_cons cleanup todo).trans hsuffix
  have honce : cleanup ∉ todo := (List.nodup_cons.mp (tidy_of_suffix hsuffix).1).1
  have hspawned : c.stage ≠ .notSpawned := by rw [hstage]; nofun
  have hbefore : c.stage.holdings = (Stage.leaving exit (cleanup :: todo)).holdings :=
    congrArg Stage.holdings hstage
  cases cleanup with
  | closePort | emitStatus | emitExit =>
    refine .of_stage hlocal hspawned rfl rfl rfl hplan ?_ nofun
    rw [hbefore]
    simp [Call.cleaned, Action.Fits, Stage.holdings, Stage.holdsClaim, Stage.listed,
      Stage.inSessions]
  | dropClaim | removePending | removeSession =>
    refine .of_stage hlocal hspawned rfl rfl rfl hplan ?_ nofun
    rw [hbefore]
    simp [Call.cleaned, Action.Fits, Stage.holdings, Stage.holdsClaim, Stage.listed,
      Stage.inSessions, honce]
  | reply =>
    show StepOf m c (Call.replied _ _) .keep
    unfold Call.replied
    split <;>
    · refine .of_stage hlocal hspawned rfl rfl rfl hplan ?_ nofun
      rw [hbefore]
      simp [Action.Fits, Stage.holdings, Stage.holdsClaim, Stage.listed, Stage.inSessions]

theorem StepOf.of_next {stage : Stage} (hlocal : c.Local) (hstage : c.stage = stage)
    (hspawned : stage ≠ .notSpawned)
    (hop : c'.operationId = c.operationId) (hport : c'.portName = c.portName)
    (hcaller : c'.caller = c.caller) (hplan : c'.stage.OnPlan)
    (hfits : action.Fits stage.holdings c'.stage.holdings) (hfree : action ≠ .claimPort) :
    StepOf m c c' action := by
  subst hstage
  exact .of_stage hlocal hspawned hop hport hcaller hplan hfits hfree

theorem holdings_leave_loopEnd (loopEnd : LoopEnd) :
    (Stage.leave loopEnd.exit).holdings = Stage.running.holdings := by
  cases loopEnd <;> rfl

theorem taskNext_spec {event : TaskEvent} (hlocal : c.Local)
    (h : SerialManager.taskNext i c event = some (c', action)) : StepOf m c c' action := by
  unfold SerialManager.taskNext at h
  split at h
  · -- `workerStart`
    rename_i hstage
    split at h <;> cases h
    · exact .of_next hlocal hstage nofun rfl rfl rfl (Stage.onPlan_leave _) rfl nofun
    · exact .of_next hlocal hstage nofun rfl rfl rfl trivial rfl nofun
  · -- `openerReturns (.ok ())`
    rename_i hstage
    cases h
    exact .of_next hlocal hstage nofun rfl rfl rfl trivial rfl nofun
  · -- `openerReturns (.error err)`
    rename_i hstage
    cases h
    exact .of_next hlocal hstage nofun rfl rfl rfl (Stage.onPlan_leave _) rfl nofun
  · -- `checkOpened`
    rename_i hstage
    split at h <;> cases h
    · exact .of_next hlocal hstage nofun rfl rfl rfl (Stage.onPlan_leave _) rfl nofun
    · exact .of_next hlocal hstage nofun rfl rfl rfl trivial rfl nofun
  · -- `insert true`
    rename_i hstage
    cases h
    exact .of_next hlocal hstage nofun rfl rfl rfl trivial rfl nofun
  · -- `insert false`
    rename_i hstage
    cases h
    exact .of_next hlocal hstage nofun rfl rfl rfl (Stage.onPlan_leave _) rfl nofun
  · -- `unlist`
    rename_i hstage
    cases h
    exact .of_next hlocal hstage nofun rfl rfl rfl trivial ⟨rfl, rfl⟩ nofun
  · -- `sendReady`
    rename_i hstage
    split at h <;> cases h
    · exact .of_next hlocal hstage nofun rfl rfl rfl trivial rfl nofun
    · exact .of_next hlocal hstage nofun rfl rfl rfl (Stage.onPlan_leave _) rfl nofun
  · -- `emitConnected`
    rename_i hstage
    cases h
    exact .of_next hlocal hstage nofun rfl rfl rfl trivial rfl nofun
  · -- `output`
    rename_i hstage
    split at h <;> cases h
    exact .of_next hlocal hstage nofun rfl rfl rfl (hstage ▸ trivial) (congrArg _ hstage) nofun
  · -- `loopEnds`
    rename_i loopEnd hstage
    cases h
    exact .of_next hlocal hstage nofun rfl rfl rfl (Stage.onPlan_leave _)
      (holdings_leave_loopEnd loopEnd) nofun
  · -- `clean`
    rename_i exit cleanup todo waiter hstage
    rw [Option.some.injEq] at h
    have hspec := @cleaned_spec m i c exit cleanup todo waiter hlocal hstage
    rwa [h] at hspec
  · cases h

end FluxTerm.Serial
