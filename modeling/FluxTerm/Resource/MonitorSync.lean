import FluxTerm.Lib.Machine
import Mathlib.Data.Int.Notation

/-!
# FluxTerm — which sessions the window monitors

The `syncMonitor` effect of `useSessionResourceMonitor.ts`. An effect begins a run of an `async`
function; a run awaits the commands that it issues, and later runs begin meanwhile. What a run
reads of the hook is read when it begins.

* **`onlyActive_of_orderlySync`** — the result on runs.
-/

namespace FluxTerm.Resource

open FluxTerm.Lib

/-! ## The inputs of the hook -/

structure MonitorInputs where
  enabled : Bool
  intervalSec : ℤ
  activeSessionId : Option ℕ
  /-- `activeSessionState === "connected"`. -/
  connected : Bool
  /-- The id of `activeSessionProfile`. -/
  profileId : Option ℕ
  isLocalSession : ℕ → Bool
  /-- The sessions whose snapshot is `unsupported`. -/
  unsupported : ℕ → Bool

/-- The parts of `desiredMonitorKey`. -/
structure MonitorKey where
  sessionId : ℕ
  isLocal : Bool
  profileId : Option ℕ
  normalizedInterval : ℤ
deriving DecidableEq

def minResourceMonitorIntervalSec : ℤ := 3

/-- `desiredMonitorKey`; the empty text is `none`. -/
def MonitorInputs.desiredMonitorKey (inputs : MonitorInputs) : Option MonitorKey :=
  match inputs.activeSessionId with
  | none => none
  | some sessionId =>
    let isLocal := inputs.isLocalSession sessionId
    if inputs.enabled && inputs.connected && (isLocal || inputs.profileId.isSome) then
      some ⟨sessionId, isLocal, inputs.profileId,
        max minResourceMonitorIntervalSec inputs.intervalSec⟩
    else none

/-- `activeResourceMonitorKeyRef`. -/
inductive KeyRef where
  | desired (key : Option MonitorKey)
  | unsupported (sessionId : ℕ)
deriving DecidableEq

/-! ## The commands -/

inductive MonitorCommand where
  | startLocal (sessionId : ℕ) (intervalSec : ℤ)
  | startSsh (sessionId profileId : ℕ) (intervalSec : ℤ)
  | stop (sessionId : ℕ)

namespace MonitorCommand

def sessionId : MonitorCommand → ℕ
  | startLocal sessionId _ | startSsh sessionId _ _ | stop sessionId => sessionId

def isStart : MonitorCommand → Bool
  | stop _ => false
  | _ => true

end MonitorCommand

def MonitorKey.start (key : MonitorKey) : Option MonitorCommand :=
  if key.isLocal then some (.startLocal key.sessionId key.normalizedInterval)
  else key.profileId.map (.startSsh key.sessionId · key.normalizedInterval)

theorem MonitorKey.start_sessionId {key : MonitorKey} {command : MonitorCommand}
    (h : key.start = some command) : command.sessionId = key.sessionId := by
  unfold start at h
  split at h
  · cases h
    rfl
  · cases hprofile : key.profileId with
    | none => rw [hprofile] at h; cases h
    | some profileId => rw [hprofile] at h; cases h; rfl

/-! ## The runs -/

inductive AfterStop where
  | clear
  | unsupported (sessionId : ℕ)
  | start (key : MonitorKey)

inductive SyncStage where
  /-- `stopMonitorById`, which has issued a command if there was a session. -/
  | stopping (command : Option ℕ) (after : AfterStop)
  | starting (command sessionId : ℕ)
  | finished

structure MonitorSync where
  inputs : MonitorInputs
  /-- `activeResourceMonitorKeyRef`. -/
  keyRef : KeyRef
  /-- `activeResourceMonitorSessionIdRef`. -/
  sessionIdRef : Option ℕ
  runs : List SyncStage
  issued : List (ℕ × MonitorCommand)
  outcome : ℕ → Option Bool
  mounted : Bool

inductive SyncEvent where
  | effect (inputs : MonitorInputs)
  | complete (command : ℕ) (ok : Bool)
  | goOn (run : ℕ)
  | unmount

namespace MonitorSync

variable (s : MonitorSync)

def issue (command : MonitorCommand) : MonitorSync :=
  { s with issued := (s.issued.length, command) :: s.issued }

/-- `await stopMonitorById(sessionId)` in a new run. -/
def stopThen (sessionId : Option ℕ) (after : AfterStop) : MonitorSync :=
  match sessionId with
  | none => { s with runs := s.runs ++ [.stopping none after] }
  | some sessionId =>
    { s.issue (.stop sessionId) with
      runs := s.runs ++ [.stopping (some s.issued.length) after] }

def startMonitor (key : MonitorKey) : MonitorSync × SyncStage :=
  match key.start with
  | some command => (s.issue command, .starting s.issued.length key.sessionId)
  | none => ({ s with sessionIdRef := some key.sessionId }, .finished)

/-- A new run of `syncMonitor`, up to its first `await`. -/
def syncMonitor (inputs : MonitorInputs) : MonitorSync :=
  let s := { s with inputs }
  if s.keyRef = .desired inputs.desiredMonitorKey then s
  else
    let s := { s with keyRef := .desired inputs.desiredMonitorKey }
    match inputs.desiredMonitorKey with
    | none => s.stopThen s.sessionIdRef .clear
    | some key =>
      if inputs.unsupported key.sessionId then
        s.stopThen s.sessionIdRef (.unsupported key.sessionId)
      else if s.sessionIdRef.any (· ≠ key.sessionId) then s.stopThen s.sessionIdRef (.start key)
      else
        let started := s.startMonitor key
        { started.1 with runs := s.runs ++ [started.2] }

/-- Run `k` goes on when the old monitor has been stopped. -/
def stopped (k : ℕ) : AfterStop → MonitorSync
  | .clear => { s with sessionIdRef := none, runs := s.runs.set k .finished }
  | .unsupported sessionId =>
    { s with
      sessionIdRef := none
      keyRef := .unsupported sessionId
      runs := s.runs.set k .finished }
  | .start key =>
    let started := s.startMonitor key
    { started.1 with runs := s.runs.set k started.2 }

/-- What run `k` has awaited is there. A stop that fails is caught, a start is not. -/
def resume (k : ℕ) : SyncStage → Option MonitorSync
  | .stopping command after =>
    if command.all fun n => (s.outcome n).isSome then some (s.stopped k after) else none
  | .starting command sessionId =>
    (s.outcome command).map fun ok =>
      { s with
        sessionIdRef := if ok then some sessionId else s.sessionIdRef
        runs := s.runs.set k .finished }
  | .finished => none

/-- One step. -/
def next : SyncEvent → Option MonitorSync
  | .effect inputs => if s.mounted then some (s.syncMonitor inputs) else none
  | .complete command ok =>
    if command < s.issued.length ∧ s.outcome command = none then
      some { s with outcome := Function.update s.outcome command (some ok) }
    else none
  | .goOn k => (s.runs[k]?).bind (s.resume k)
  | .unmount =>
    if s.mounted then
      some { s.sessionIdRef.elim s fun sessionId => s.issue (.stop sessionId) with mounted := false }
    else none

/-- Before the first effect nothing is wanted. -/
def start : MonitorSync where
  inputs := ⟨false, 0, none, false, none, fun _ => false, fun _ => false⟩
  keyRef := .desired none
  sessionIdRef := none
  runs := []
  issued := []
  outcome := fun _ => none
  mounted := true

/-! ## What is monitored -/

def lastCommand (sessionId : ℕ) : Option (ℕ × MonitorCommand) :=
  s.issued.find? fun issued => issued.2.sessionId = sessionId

/-- The last command issued for the session is a start, and `p` holds of how it has ended. -/
def lastStart (p : Option Bool → Bool) (sessionId : ℕ) : Bool :=
  (s.lastCommand sessionId).any fun issued => issued.2.isStart && p (s.outcome issued.1)

def Monitored (sessionId : ℕ) : Prop := s.lastStart (· == some true) sessionId = true

def Running (sessionId : ℕ) : Prop := s.lastStart (· != some false) sessionId = true

instance (sessionId : ℕ) : Decidable (s.Running sessionId) := inferInstanceAs (Decidable (_ = _))

def AllCompleted : Prop := ∀ command < s.issued.length, (s.outcome command).isSome

/-- When every command has completed, a session that is monitored is the active one, it is
connected, and monitoring is enabled. -/
def OnlyActive : Prop :=
  s.AllCompleted → ∀ sessionId, s.Monitored sessionId →
    s.inputs.activeSessionId = some sessionId ∧ s.inputs.enabled = true ∧
      s.inputs.connected = true

end MonitorSync

def syncMachine : Machine MonitorSync SyncEvent := .ofStep MonitorSync.start MonitorSync.next

/-! ## The condition -/

def wantedSession (key : Option MonitorKey) : Option ℕ := key.map (·.sessionId)

def SyncStage.pendingStart : SyncStage → Option MonitorKey
  | stopping _ (.start key) => some key
  | _ => none

/-- When the key changes, every session with a running monitor is the one recorded or the one
wanted now; a run that has awaited a stop starts a monitor only for the session that is wanted
now. -/
def OrderlySync (s : MonitorSync) : SyncEvent → Prop
  | .effect inputs =>
    s.keyRef = .desired inputs.desiredMonitorKey ∨
      ∀ issued ∈ s.issued, s.Running issued.2.sessionId →
        s.sessionIdRef = some issued.2.sessionId ∨
          wantedSession inputs.desiredMonitorKey = some issued.2.sessionId
  | .goOn k => ∀ stage ∈ s.runs[k]?, ∀ key ∈ stage.pendingStart,
      wantedSession s.inputs.desiredMonitorKey = some key.sessionId
  | _ => True

instance (s : MonitorSync) (event : SyncEvent) : Decidable (OrderlySync s event) := by
  unfold OrderlySync
  split <;> infer_instance

/-! ## The invariant -/

namespace MonitorSync

variable {s t : MonitorSync} {sessionId : ℕ}

/-- Whatever runs is wanted, and the key is known. -/
structure Settling (s : MonitorSync) : Prop where
  wanted : ∀ sessionId, s.Running sessionId →
    wantedSession s.inputs.desiredMonitorKey = some sessionId
  keyRef : s.keyRef = .desired s.inputs.desiredMonitorKey ∨
    ∃ sessionId, s.keyRef = .unsupported sessionId

theorem Monitored.running (h : s.Monitored sessionId) : s.Running sessionId := by
  unfold Monitored Running lastStart at *
  cases hlast : s.lastCommand sessionId with
  | none => rw [hlast] at h; cases h
  | some issued =>
    rw [hlast, Option.any_some, Bool.and_eq_true, beq_iff_eq] at h
    rw [Option.any_some, h.1, h.2]
    rfl

theorem mem_issued_of_running (h : s.Running sessionId) :
    ∃ issued ∈ s.issued, issued.2.sessionId = sessionId := by
  unfold Running lastStart at h
  cases hlast : s.lastCommand sessionId with
  | none => rw [hlast] at h; cases h
  | some issued =>
    unfold lastCommand at hlast
    have hid := List.find?_some hlast
    exact ⟨issued, List.mem_of_find?_eq_some hlast, of_decide_eq_true hid⟩

theorem active_of_wanted {inputs : MonitorInputs}
    (h : wantedSession inputs.desiredMonitorKey = some sessionId) :
    inputs.activeSessionId = some sessionId ∧ inputs.enabled = true ∧ inputs.connected = true := by
  unfold MonitorInputs.desiredMonitorKey wantedSession at h
  cases hactive : inputs.activeSessionId with
  | none => rw [hactive] at h; cases h
  | some active =>
    rw [hactive] at h
    dsimp only at h
    split at h
    · rename_i hwanted
      cases h
      rw [Bool.and_eq_true, Bool.and_eq_true] at hwanted
      exact ⟨rfl, hwanted.1.1, hwanted.1.2⟩
    · cases h

theorem Settling.onlyActive (h : s.Settling) : s.OnlyActive :=
  fun _ sessionId hmonitored => active_of_wanted (h.wanted sessionId hmonitored.running)

/-! ### What runs after a command -/

theorem running_issue {command : MonitorCommand} (h : (s.issue command).Running sessionId) :
    (command.isStart = true ∧ command.sessionId = sessionId) ∨
      (s.Running sessionId ∧ command.sessionId ≠ sessionId) := by
  unfold Running lastStart lastCommand issue at h
  rw [List.find?_cons] at h
  dsimp only at h
  by_cases hid : command.sessionId = sessionId
  · rw [decide_eq_true hid] at h
    dsimp only at h
    rw [Option.any_some, Bool.and_eq_true] at h
    exact .inl ⟨h.1, hid⟩
  · rw [decide_eq_false hid] at h
    exact .inr ⟨h, hid⟩

theorem running_congr (hissued : t.issued = s.issued) (houtcome : t.outcome = s.outcome)
    (h : t.Running sessionId) : s.Running sessionId := by
  unfold Running lastStart lastCommand at *
  rw [hissued, houtcome] at h
  exact h

theorem running_stopThen {recorded : Option ℕ} {after : AfterStop}
    (h : (s.stopThen recorded after).Running sessionId) :
    s.Running sessionId ∧ recorded ≠ some sessionId := by
  cases recorded with
  | none => exact ⟨running_congr rfl rfl h, nofun⟩
  | some old =>
    have hissue : (s.issue (.stop old)).Running sessionId := running_congr rfl rfl h
    rcases running_issue hissue with ⟨hstart, -⟩ | ⟨hrun, hne⟩
    · cases hstart
    · exact ⟨hrun, fun heq => hne (Option.some.inj heq)⟩

theorem running_startMonitor {key : MonitorKey} (h : (s.startMonitor key).1.Running sessionId) :
    key.sessionId = sessionId ∨ s.Running sessionId := by
  unfold startMonitor at h
  cases hstart : key.start with
  | none =>
    rw [hstart] at h
    exact .inr (running_congr rfl rfl h)
  | some command =>
    rw [hstart] at h
    rcases running_issue h with ⟨-, hid⟩ | ⟨hrun, -⟩
    · exact .inl ((MonitorKey.start_sessionId hstart).symm.trans hid)
    · exact .inr hrun

theorem running_complete {command : ℕ} {ok : Bool} (hopen : s.outcome command = none)
    (h : { s with outcome := Function.update s.outcome command (some ok) }.Running sessionId) :
    s.Running sessionId := by
  unfold Running lastStart at *
  cases hlast : s.lastCommand sessionId with
  | none =>
    change Option.any _ (s.lastCommand sessionId) = true at h
    rw [hlast] at h
    cases h
  | some issued =>
    change Option.any _ (s.lastCommand sessionId) = true at h
    rw [hlast, Option.any_some, Bool.and_eq_true] at h
    rw [Option.any_some, h.1, Bool.true_and]
    by_cases hnumber : issued.1 = command
    · -- the command has not failed as long as it has not completed
      rw [hnumber, hopen]
      rfl
    · have houtcome := h.2
      dsimp only at houtcome
      rw [Function.update_of_ne hnumber] at houtcome
      exact houtcome

/-! ## What the steps preserve -/

@[simp] theorem stopThen_inputs (recorded : Option ℕ) (after : AfterStop) :
    (s.stopThen recorded after).inputs = s.inputs := by cases recorded <;> rfl

@[simp] theorem stopThen_keyRef (recorded : Option ℕ) (after : AfterStop) :
    (s.stopThen recorded after).keyRef = s.keyRef := by cases recorded <;> rfl

@[simp] theorem startMonitor_inputs (key : MonitorKey) :
    (s.startMonitor key).1.inputs = s.inputs := by
  unfold startMonitor
  split <;> rfl

@[simp] theorem startMonitor_keyRef (key : MonitorKey) :
    (s.startMonitor key).1.keyRef = s.keyRef := by
  unfold startMonitor
  split <;> rfl

theorem stopThen_settling {after : AfterStop}
    (hknown : ∀ sessionId, s.Running sessionId → s.sessionIdRef = some sessionId ∨
      wantedSession s.inputs.desiredMonitorKey = some sessionId)
    (hkey : s.keyRef = .desired s.inputs.desiredMonitorKey) :
    (s.stopThen s.sessionIdRef after).Settling := by
  refine ⟨fun sessionId hrun => ?_, .inl ?_⟩
  · have hother := running_stopThen hrun
    rw [stopThen_inputs]
    exact (hknown sessionId hother.1).resolve_left hother.2
  · rw [stopThen_keyRef, stopThen_inputs]
    exact hkey

theorem startMonitor_settling {key : MonitorKey} (runs : List SyncStage)
    (hknown : ∀ sessionId, s.Running sessionId →
      wantedSession s.inputs.desiredMonitorKey = some sessionId)
    (hwanted : wantedSession s.inputs.desiredMonitorKey = some key.sessionId)
    (hkey : s.keyRef = .desired s.inputs.desiredMonitorKey ∨
      ∃ sessionId, s.keyRef = .unsupported sessionId) :
    { (s.startMonitor key).1 with runs }.Settling := by
  refine ⟨fun sessionId hrun => ?_, ?_⟩
  · show wantedSession (s.startMonitor key).1.inputs.desiredMonitorKey = some sessionId
    rw [startMonitor_inputs]
    rcases running_startMonitor (running_congr rfl rfl hrun) with hid | hrun
    · rw [← hid]
      exact hwanted
    · exact hknown sessionId hrun
  · show (s.startMonitor key).1.keyRef = .desired (s.startMonitor key).1.inputs.desiredMonitorKey ∨
      ∃ sessionId, (s.startMonitor key).1.keyRef = .unsupported sessionId
    rw [startMonitor_keyRef, startMonitor_inputs]
    exact hkey

theorem syncMonitor_settling {inputs : MonitorInputs} (h : s.Settling)
    (hguard : OrderlySync s (.effect inputs)) : (s.syncMonitor inputs).Settling := by
  unfold syncMonitor
  dsimp only
  split
  · -- the key is the old one
    rename_i hkey
    have hsame : s.inputs.desiredMonitorKey = inputs.desiredMonitorKey := by
      rcases h.keyRef with hknown | ⟨sessionId, hknown⟩
      · rw [hknown] at hkey
        exact KeyRef.desired.inj hkey
      · rw [hknown] at hkey
        cases hkey
    refine ⟨fun sessionId hrun => ?_, .inl hkey⟩
    show wantedSession inputs.desiredMonitorKey = some sessionId
    rw [← hsame]
    exact h.wanted sessionId (running_congr rfl rfl hrun)
  · rename_i hkey
    have hknown : ∀ sessionId, s.Running sessionId →
        s.sessionIdRef = some sessionId ∨
          wantedSession inputs.desiredMonitorKey = some sessionId := by
      intro sessionId hrun
      obtain ⟨issued, hmem, rfl⟩ := mem_issued_of_running hrun
      exact (hguard.resolve_left hkey) issued hmem hrun
    cases hdesired : inputs.desiredMonitorKey with
    | none =>
      apply stopThen_settling
      · intro sessionId hrun
        exact hknown sessionId (running_congr rfl rfl hrun)
      · exact congrArg KeyRef.desired hdesired.symm
    | some key =>
      dsimp only
      split
      · -- its monitor is known not to work
        apply stopThen_settling
        · intro sessionId hrun
          exact hknown sessionId (running_congr rfl rfl hrun)
        · exact congrArg KeyRef.desired hdesired.symm
      · split
        · apply stopThen_settling
          · intro sessionId hrun
            exact hknown sessionId (running_congr rfl rfl hrun)
          · exact congrArg KeyRef.desired hdesired.symm
        · -- no other session is recorded
          rename_i hsame
          have hwanted : wantedSession inputs.desiredMonitorKey = some key.sessionId :=
            congrArg wantedSession hdesired
          refine startMonitor_settling _ (fun sessionId hrun => ?_) hwanted
            (.inl (congrArg KeyRef.desired hdesired.symm))
          show wantedSession inputs.desiredMonitorKey = some sessionId
          rcases hknown sessionId (running_congr rfl rfl hrun) with hrecorded | hwanted
          · rw [hrecorded, Option.any_some, decide_eq_true_eq, not_not] at hsame
            rw [hwanted, hsame]
          · exact hwanted

theorem resume_settling {k : ℕ} {stage : SyncStage} (h : s.Settling)
    (hguard : ∀ key ∈ stage.pendingStart,
      wantedSession s.inputs.desiredMonitorKey = some key.sessionId)
    (hstep : s.resume k stage = some t) : t.Settling := by
  have hquiet : ∀ u : MonitorSync, u.issued = s.issued → u.outcome = s.outcome →
      u.inputs = s.inputs → ∀ sessionId, u.Running sessionId →
        wantedSession u.inputs.desiredMonitorKey = some sessionId := by
    intro u hissued houtcome hinputs sessionId hrun
    rw [hinputs]
    exact h.wanted sessionId (running_congr hissued houtcome hrun)
  unfold resume at hstep
  cases stage with
  | stopping command after =>
    dsimp only at hstep
    split at hstep
    · cases hstep
      cases after with
      | clear => exact ⟨hquiet _ rfl rfl rfl, h.keyRef⟩
      | unsupported sessionId => exact ⟨hquiet _ rfl rfl rfl, .inr ⟨sessionId, rfl⟩⟩
      | start key => exact startMonitor_settling _ h.wanted (hguard key rfl) h.keyRef
    · cases hstep
  | starting command sessionId =>
    dsimp only at hstep
    cases houtcome : s.outcome command with
    | none => rw [houtcome] at hstep; cases hstep
    | some ok =>
      rw [houtcome] at hstep
      cases hstep
      exact ⟨hquiet _ rfl rfl rfl, h.keyRef⟩
  | finished => cases hstep

theorem next_settling {event : SyncEvent} (h : s.Settling) (hguard : OrderlySync s event)
    (hstep : s.next event = some t) : t.Settling := by
  cases event with
  | effect inputs =>
    unfold next at hstep
    dsimp only at hstep
    split at hstep
    · cases hstep
      exact syncMonitor_settling h hguard
    · cases hstep
  | complete command ok =>
    unfold next at hstep
    dsimp only at hstep
    split at hstep
    · rename_i hopen
      cases hstep
      exact ⟨fun sessionId hrun => h.wanted sessionId (running_complete hopen.2 hrun), h.keyRef⟩
    · cases hstep
  | goOn k =>
    change (s.runs[k]?).bind (s.resume k) = some t at hstep
    cases hstage : s.runs[k]? with
    | none => rw [hstage] at hstep; cases hstep
    | some stage =>
      rw [hstage] at hstep
      exact resume_settling h (hguard stage hstage) hstep
  | unmount =>
    unfold next at hstep
    dsimp only at hstep
    split at hstep
    · cases hstep
      cases hrecorded : s.sessionIdRef with
      | none =>
        exact ⟨fun sessionId hrun => h.wanted sessionId (running_congr rfl rfl hrun), h.keyRef⟩
      | some old =>
        refine ⟨fun sessionId hrun => ?_, h.keyRef⟩
        have hissue : (s.issue (.stop old)).Running sessionId := running_congr rfl rfl hrun
        rcases running_issue hissue with ⟨hstart, -⟩ | ⟨hrun, -⟩
        · cases hstart
        · exact h.wanted sessionId hrun
    · cases hstep

theorem start_settling : start.Settling := ⟨nofun, .inl rfl⟩

end MonitorSync

/-! ## The result -/

/-- **Only the active session is monitored.** In every run in which no monitor is forgotten and
none is started for a session left meanwhile, every state that is reached monitors only the
active session once its commands have completed. -/
theorem onlyActive_of_orderlySync {s : MonitorSync}
    (h : (syncMachine.restrict OrderlySync).Reachable s) : s.OnlyActive := by
  have hinv : s.Settling := by
    refine h.induct (fun s hs => ?_) fun s event t _ hinv hstep => ?_
    · rw [hs]
      exact MonitorSync.start_settling
    · exact MonitorSync.next_settling hinv hstep.1 hstep.2
  exact hinv.onlyActive

/-! ## Two sessions -/

def activeLocal (sessionId : ℕ) : MonitorInputs :=
  ⟨true, 5, some sessionId, true, none, fun _ => true, fun _ => false⟩

/-- The second session becomes active when the monitor of the first one is recorded. -/
theorem sampleSwitch_onlyActive : ∃ s : MonitorSync,
    s.AllCompleted ∧ s.Monitored 2 ∧ ¬ s.Monitored 1 ∧ s.OnlyActive := by
  have hrun : ∃ s, Machine.exec
      (fun s event => if OrderlySync s event then MonitorSync.next s event else none)
      MonitorSync.start
      [.effect (activeLocal 1), .complete 0 true, .goOn 0, .effect (activeLocal 2),
        .complete 1 true, .goOn 1, .complete 2 true, .goOn 1] = some s ∧
      (∀ command < s.issued.length, (s.outcome command).isSome) ∧
      s.lastStart (· == some true) 2 = true ∧ s.lastStart (· == some true) 1 = false :=
    ⟨_, rfl, by decide, rfl, rfl⟩
  obtain ⟨s, hexec, hcompleted, hsecond, hfirst⟩ := hrun
  refine ⟨s, hcompleted, hsecond, ?_, onlyActive_of_orderlySync
    (Machine.reachable_restrict (Machine.reachable_exec hexec))⟩
  unfold MonitorSync.Monitored
  rw [hfirst]
  exact Bool.false_ne_true

/-- The second session becomes active while the start of the first one is pending: nobody stops
the monitor of the first one. -/
theorem sampleOverlap_monitored : ∃ s : MonitorSync,
    syncMachine.Reachable s ∧
      (∀ stage ∈ s.runs, stage = .finished) ∧ s.Monitored 1 ∧ ¬ s.OnlyActive := by
  have hrun : ∃ s, Machine.exec MonitorSync.next MonitorSync.start
      [.effect (activeLocal 1), .effect (activeLocal 2), .complete 0 true, .goOn 0,
        .complete 1 true, .goOn 1] = some s ∧
      s.runs = [.finished, .finished] ∧
      (∀ command < s.issued.length, (s.outcome command).isSome) ∧
      s.lastStart (· == some true) 1 = true ∧ s.inputs.activeSessionId = some 2 :=
    ⟨_, rfl, rfl, by decide, rfl, rfl⟩
  obtain ⟨s, hexec, hruns, hcompleted, hfirst, hactive⟩ := hrun
  refine ⟨s, Machine.reachable_exec hexec, fun stage hmem => ?_, hfirst, fun honly => ?_⟩
  · rw [hruns] at hmem
    simpa using hmem
  · have hwrong := (honly hcompleted 1 hfirst).1
    rw [hactive] at hwrong
    cases hwrong

end FluxTerm.Resource
