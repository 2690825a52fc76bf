import FluxTerm.Reconnect.Runtime
import FluxTerm.RemoteEdit.UploadAlone

/-!
# FluxTerm — asking about pending remote edits

The listener of `useRemoteEditSessions.ts`, on top of the instances: when the monitor finds a
change, the backend emits an update, and every listener that is registered then opens a dialog or
confirms the upload by itself, by the state of the render that it comes from. The hook takes its
listener down and registers another one at each change of state; both take their time.

* **`remoteEdit_asked`** — when every pending change is asked about exactly once.
-/

namespace FluxTerm.RemoteEdit.Prompts

open Lib Reconnect

/-! ## The hook -/

structure HostProfile where
  id : Text
  name : Text
  host : Text

structure View where
  sessions : List Session
  profiles : List HostProfile
  sessionStates : Text → Option SessionStateUi
  /-- `remoteEditAutoUploadBySession`. -/
  autoUpload : Text → Bool
  language : Text

/-- `sessionStates[sessionId] === "connected"`. -/
def View.connected (view : View) (sessionId : Text) : Bool :=
  view.sessionStates sessionId = some .connected

def serverLabel (view : View) (sessionId : Text) : Text :=
  let session := view.sessions.find? (·.sessionId = sessionId)
  let profile := (truthy (session.bind Session.profileId)).bind fun profileId =>
    view.profiles.find? (·.id = profileId)
  let name := truthy (profile.map HostProfile.name)
  let host := truthy (profile.map HostProfile.host)
  match name, host with
  | some name, some host => name ++ " (".toList ++ host ++ ")".toList
  | none, some host => host
  | some name, none => name
  | none, none => sessionId

inductive Prompt where
  /-- `openDialog`, with the label of the server and the language of its texts. -/
  | dialog (server language : Text)
  /-- `confirmRemoteEditUpload`. -/
  | upload

def prompt (view : View) (payload : RemoteEditSnapshot) : Option Prompt :=
  if payload.status ≠ .pendingConfirm then none
  else if view.connected payload.sessionId = false then none
  else if view.autoUpload payload.sessionId then some .upload
  else some (.dialog (serverLabel view payload.sessionId) view.language)

/-- Where a listener is. -/
inductive ListenerStage where
  /-- `listen` is called. -/
  | registering
  /-- The backend has registered it; `listen` has not resolved yet. -/
  | registered
  | listening
  /-- `unlisten` is called. -/
  | unlistening
  | removed
deriving DecidableEq

structure Listener where
  view : View
  disposed : Bool
  stage : ListenerStage

namespace Listener

variable (listener : Listener)

def isRegistered : Bool :=
  match listener.stage with
  | .registered | .listening | .unlistening => true
  | _ => false

def dispose : Listener :=
  if listener.disposed then listener
  else { listener with
    disposed := true
    stage := if listener.stage = .listening then .unlistening else listener.stage }

/-- `listen` resolves. -/
def resolve : Listener :=
  { listener with stage := if listener.disposed then .unlistening else .listening }

end Listener

/-! ## The whole -/

structure Message where
  number : ℕ
  view : View
  payload : RemoteEditSnapshot

structure Dialog where
  number : ℕ
  payload : RemoteEditSnapshot
  server : Text
  language : Text

inductive CallKind where
  /-- `remote_edit_confirm_upload`. -/
  | confirm
  /-- `remote_edit_dismiss_pending`. -/
  | dismiss
deriving DecidableEq

def CallKind.event : CallKind → EditEvent
  | .confirm => .confirm
  | .dismiss => .dismiss

structure Call where
  number : ℕ
  kind : CallKind
  instanceId : Text

structure Emission where
  number : ℕ
  inst : ℕ
  payload : RemoteEditSnapshot
  ui : View
  reached : List View

/-- The instances and the hook; the last two fields log the updates, the latest one first, and those
about which somebody was asked or an upload was called for. -/
structure EditUi where
  instances : List EditRun
  /-- `RemoteEditState`. -/
  items : Text → Option ℕ
  ui : View
  stale : Bool
  listeners : List Listener
  messages : List Message
  dialogs : List Dialog
  calls : List Call
  emissions : List Emission
  asked : List ℕ

inductive Answer where
  | confirm
  | secondary
  | cancel

/-- What can happen. -/
inductive UiEvent where
  | commit (view : View)
  | effects
  | registered (listener : ℕ)
  /-- `listen` resolves. -/
  | resolved (listener : ℕ)
  | removed (listener : ℕ)
  /-- `remote_edit_open` stores an instance. -/
  | store (snapshot : RemoteEditSnapshot) (mtimeMs : ℕ) (content : Bytes)
  /-- `remove_by_session`. -/
  | remove (instanceIds : List Text)
  | work (inst : ℕ) (event : EditEvent)
  | handle (message : ℕ)
  | answer (dialog : ℕ) (answer : Answer)
  | closeDialog (dialog : ℕ)
  | begin (call : ℕ)

def isOwn : EditEvent → Bool
  | .confirm | .dismiss => false
  | _ => true

/-- The monitor is about to set `PendingConfirm`. -/
def detects (run : EditRun) : Bool :=
  match run.monitor with
  | .changed _ => !run.edit.status.isBusy
  | _ => false

/-- A step of an instance ends with `emit_remote_edit_update`. -/
def emits (run : EditRun) : EditEvent → Bool
  | .confirm => run.edit.pendingSnapshot.isSome
  | .dismiss => true
  | .call index (.finish _ persisted) =>
    match run.calls[index]? with
    | some (.finishing (.error _)) => true
    -- an error of `persist_remote_edit_instance` returns before
    | some (.finishing (.ok _)) => persisted
    | _ => false
  | .monitor .settle =>
    match run.monitor with
    | .failed _ => true
    | _ => detects run
  | _ => false

namespace EditUi

variable (w : EditUi)

def reached : List View := (w.listeners.filter (·.isRegistered)).map Listener.view

/-- `emit_remote_edit_update`. -/
def emit (inst : ℕ) (payload : RemoteEditSnapshot) : EditUi :=
  let number := w.emissions.length
  { w with
    messages := w.messages ++ w.reached.map (⟨number, ·, payload⟩)
    emissions := ⟨number, inst, payload, w.ui, w.reached⟩ :: w.emissions }

def advance (hash : Bytes → Text) (inst : ℕ) (event : EditEvent) : Option EditUi :=
  (w.instances[inst]?).bind fun run => (editNext hash run event).map fun run' =>
    let w' := { w with instances := w.instances.set inst run' }
    if emits run event then w'.emit inst run'.edit.snapshot else w'

def onListener (i : ℕ) (before : ListenerStage → Bool) (change : Listener → Listener) :
    Option EditUi :=
  (w.listeners[i]?).bind fun listener =>
    if before listener.stage then some { w with listeners := w.listeners.set i (change listener) }
    else none

/-- A listener handles a message. -/
def onUpdate (message : Message) : EditUi :=
  match prompt message.view message.payload with
  | none => w
  | some .upload =>
    { w with
      calls := w.calls ++ [⟨message.number, .confirm, message.payload.instanceId⟩]
      asked := message.number :: w.asked }
  | some (.dialog server language) =>
    { w with
      dialogs := w.dialogs ++ [⟨message.number, message.payload, server, language⟩]
      asked := message.number :: w.asked }

def answerKind : Answer → CallKind
  | .confirm | .secondary => .confirm
  | .cancel => .dismiss

/-- One step. -/
def step (hash : Bytes → Text) (w : EditUi) : UiEvent → Option EditUi
  | .commit view => if w.stale then none else some { w with ui := view, stale := true }
  | .effects =>
    if w.stale then
      some { w with
        stale := false
        listeners := w.listeners.map Listener.dispose ++ [⟨w.ui, false, .registering⟩] }
    else none
  | .registered i => w.onListener i (· = .registering) fun l => { l with stage := .registered }
  | .resolved i => w.onListener i (· = .registered) Listener.resolve
  | .removed i => w.onListener i (· = .unlistening) fun l => { l with stage := .removed }
  | .store snapshot mtimeMs content =>
    let run := EditRun.opened hash snapshot mtimeMs content
    let inst := w.instances.length
    some ({ w with
      instances := w.instances ++ [run]
      items := Function.update w.items snapshot.instanceId (some inst) }.emit inst
        run.edit.snapshot)
  | .remove instanceIds =>
    some { w with items := fun instanceId =>
      if instanceId ∈ instanceIds then none else w.items instanceId }
  | .work inst event => if isOwn event then w.advance hash inst event else none
  | .handle i =>
    (w.messages[i]?).map fun message =>
      { w with messages := w.messages.eraseIdx i }.onUpdate message
  | .answer i answer =>
    (w.dialogs[i]?).map fun dialog =>
      { w with
        dialogs := w.dialogs.eraseIdx i
        calls := w.calls ++ [⟨dialog.number, answerKind answer, dialog.payload.instanceId⟩] }
  | .closeDialog i =>
    (w.dialogs[i]?).map fun _ => { w with dialogs := w.dialogs.eraseIdx i }
  | .begin i =>
    (w.calls[i]?).bind fun call =>
      let w' := { w with calls := w.calls.eraseIdx i }
      match w.items call.instanceId with
      | none => some w'
      | some inst => w'.advance hash inst call.kind.event

/-- The hook is about to run its effects for the first time. -/
def start (view : View) : EditUi where
  instances := []
  items _ := none
  ui := view
  stale := true
  listeners := []
  messages := []
  dialogs := []
  calls := []
  emissions := []
  asked := []

end EditUi

def editUiMachine (hash : Bytes → Text) (view : View) : Machine EditUi UiEvent :=
  .ofStep (.start view) (EditUi.step hash)

/-! ## Pending changes -/

variable {hash : Bytes → Text} {run run' : EditRun}

/-- What a step of an instance is to its pending change: there is none afterwards, or it is the one
from before and nothing is emitted, or it is a new one. -/
inductive EditTurn (run : EditRun) (event : EditEvent) (run' : EditRun) : Prop where
  | left (hstatus : run'.edit.status ≠ .pendingConfirm)
  | kept (hedit : run'.edit = run.edit) (hquiet : emits run event = false)
  | detected (hevent : event = .monitor .settle) (hdetects : detects run = true)
    (hpending : run'.edit.pendingSnapshot.isSome = true)
    (hsession : run'.edit.snapshot.sessionId = run.edit.snapshot.sessionId)

theorem callNext_edit_turn {index : ℕ} {stage : ConfirmStage} {event : CallEvent}
    (hget : run.calls[index]? = some stage)
    (h : run.callNext hash index stage event = some run') :
    EditTurn run (.call index event) run' := by
  by_cases hfinishing : ∃ result, stage = .finishing result
  · obtain ⟨result, rfl⟩ := hfinishing
    unfold EditRun.callNext at h
    split at h
    · cases ‹ConfirmStage.finishing result = .begun›
    · cases ‹ConfirmStage.finishing result = .task _ _ _›
    · cases h
      exact .left nofun
    · cases h
      exact .left nofun
    · cases h
  · -- the instance is left alone, and nothing is emitted
    have hquiet : emits run (.call index event) = false := by
      unfold emits
      split
      · cases ‹EditEvent.call index event = .confirm›
      · cases ‹EditEvent.call index event = .dismiss›
      · cases ‹EditEvent.call index event = .call _ _›
        rw [hget]
        cases stage with
        | finishing result => exact absurd ⟨result, rfl⟩ hfinishing
        | _ => rfl
      · cases ‹EditEvent.call index event = .monitor _›
      · rfl
    obtain ⟨-, hturn⟩ := callNext_turn h
    cases hturn with
    | on stage' remote hstage' => exact .kept rfl hquiet
    | panicked hevent => exact .kept rfl hquiet
    | failed err hstage => exact absurd ⟨_, hstage⟩ hfinishing
    | finished remote baseline now hstage => exact absurd ⟨_, hstage⟩ hfinishing

theorem compare_edit (baseline : RemoteFileSnapshot) (ignored : Option Text) (mtimeMs now : ℕ) :
    (run.compare hash baseline ignored mtimeMs now).edit = run.edit := by
  unfold EditRun.compare
  dsimp only
  split
  · rfl
  · split
    · rfl
    · split
      · rfl
      · rfl

theorem monitorNext_edit_turn {event : MonitorEvent} (h : run.monitorNext hash event = some run') :
    EditTurn run (.monitor event) run' := by
  unfold EditRun.monitorNext at h
  split at h
  · split at h
    · cases h
      exact .kept rfl rfl
    · cases h
      exact .kept rfl rfl
  · cases h
    exact .kept rfl rfl
  · cases h
    exact .kept rfl rfl
  · cases h
    exact .kept rfl rfl
  · cases h
    exact .kept (compare_edit ..) rfl
  · cases h
    exact .left nofun
  · rename_i current hmonitor
    cases h
    unfold RemoteEditInstance.changeDetected
    by_cases hbusy : run.edit.status.isBusy = true
    · rw [if_pos hbusy]
      refine .kept rfl ?_
      rw [emits, hmonitor, detects, hmonitor, hbusy]
      rfl
    · rw [if_neg hbusy]
      refine .detected rfl ?_ rfl rfl
      rw [detects, hmonitor, Bool.eq_false_iff.mpr hbusy]
      rfl
  · cases h

theorem editNext_turn {event : EditEvent} (h : editNext hash run event = some run') :
    EditTurn run event run' := by
  cases event with
  | confirm =>
    unfold editNext RemoteEditInstance.beginUpload at h
    dsimp only at h
    split at h
    · rename_i edit hbegin
      split at hbegin
      · cases hbegin
      · cases hbegin
        cases h
        exact .left nofun
    · rename_i hbegin
      split at hbegin
      · rename_i hnone
        cases h
        refine .kept rfl ?_
        rw [emits, Option.isNone_iff_eq_none.mp hnone]
        rfl
      · cases hbegin
  | call index event =>
    obtain ⟨stage, hget, hcall⟩ := Option.bind_eq_some_iff.mp h
    exact callNext_edit_turn hget hcall
  | dismiss =>
    cases h
    refine .left fun hpending => ?_
    have hfree := isBusy_dismissPending run.edit
    rw [show run.edit.dismissPending.status = .pendingConfirm from hpending] at hfree
    cases hfree
  | monitor event => exact monitorNext_edit_turn h
  | save content mtimeMs =>
    cases h
    exact .kept rfl rfl

/-! ## How often is asked -/

def asks (payload : RemoteEditSnapshot) (view : View) : Bool := (prompt view payload).isSome

theorem asks_eq_connected {payload : RemoteEditSnapshot} (h : payload.status = .pendingConfirm)
    (view : View) : asks payload view = view.connected payload.sessionId := by
  unfold asks prompt
  rw [if_neg (not_not.mpr h)]
  cases hconnected : view.connected payload.sessionId with
  | false => rfl
  | true =>
    rw [if_neg Bool.true_eq_false_eq_False.elim]
    split
    · rfl
    · rfl

def Message.isAbout (number : ℕ) (message : Message) : Bool :=
  message.number = number && asks message.payload message.view

namespace EditUi

variable {w w' : EditUi}

/-- About each update somebody is asked, or will be, by every listener that it came to and that
asks. -/
structure Counted (w : EditUi) : Prop where
  emissions : ∀ e ∈ w.emissions, e.number < w.emissions.length
  messages : ∀ m ∈ w.messages, m.number < w.emissions.length
  asked : ∀ n ∈ w.asked, n < w.emissions.length
  count : ∀ e ∈ w.emissions,
    w.asked.count e.number + w.messages.countP (Message.isAbout e.number) =
      e.reached.countP (asks e.payload)

theorem Counted.of_eq (h : w.Counted) (hemissions : w'.emissions = w.emissions)
    (hmessages : w'.messages = w.messages) (hasked : w'.asked = w.asked) : w'.Counted where
  emissions := hemissions ▸ h.emissions
  messages := hemissions ▸ hmessages ▸ h.messages
  asked := hemissions ▸ hasked ▸ h.asked
  count := by
    rw [hemissions, hmessages, hasked]
    exact h.count

theorem Counted.emit (h : w.Counted) (inst : ℕ) (payload : RemoteEditSnapshot) :
    (w.emit inst payload).Counted := by
  have hlt {n : ℕ} (hn : n < w.emissions.length) : n < (w.emit inst payload).emissions.length :=
    Nat.lt_succ_of_lt hn
  have hnew : w.emissions.length < (w.emit inst payload).emissions.length := Nat.lt_succ_self _
  refine ⟨fun e he => ?_, fun m hm => ?_, fun n hn => hlt (h.asked n hn), fun e he => ?_⟩
  · rcases List.mem_cons.mp he with rfl | hbefore
    · exact hnew
    · exact hlt (h.emissions e hbefore)
  · rcases List.mem_append.mp hm with hbefore | hsent
    · exact hlt (h.messages m hbefore)
    · obtain ⟨view, -, rfl⟩ := List.mem_map.mp hsent
      exact hnew
  · show w.asked.count e.number + List.countP _ (w.messages ++ w.reached.map _) = _
    rw [List.countP_append, List.countP_map]
    rcases List.mem_cons.mp he with rfl | hbefore
    · -- nothing has been said of the new update before
      have hasked : w.asked.count w.emissions.length = 0 :=
        List.count_eq_zero.mpr fun hmem => absurd (h.asked _ hmem) (Nat.lt_irrefl _)
      have hmessages : w.messages.countP (Message.isAbout w.emissions.length) = 0 := by
        refine List.countP_eq_zero.mpr fun m hm => ?_
        rw [Message.isAbout, decide_eq_false (h.messages m hm).ne]
        exact Bool.false_ne_true
      rw [hasked, hmessages, Nat.zero_add, Nat.zero_add]
      refine List.countP_congr fun view _ => ?_
      rw [Function.comp_apply, Message.isAbout, decide_eq_true rfl, Bool.true_and]
    · have hother : List.countP (Message.isAbout e.number ∘ (⟨w.emissions.length, ·, payload⟩))
          w.reached = 0 := by
        refine List.countP_eq_zero.mpr fun view _ => ?_
        rw [Function.comp_apply, Message.isAbout, decide_eq_false (h.emissions e hbefore).ne']
        exact Bool.false_ne_true
      rw [hother]
      exact h.count e hbefore

theorem Counted.advance {inst : ℕ} {event : EditEvent} (h : w.Counted)
    (hstep : w.advance hash inst event = some w') : w'.Counted := by
  obtain ⟨run, -, hrun⟩ := Option.bind_eq_some_iff.mp hstep
  obtain ⟨run', -, rfl⟩ := Option.map_eq_some_iff.mp hrun
  have hset : { w with instances := w.instances.set inst run' }.Counted := h.of_eq rfl rfl rfl
  dsimp only
  split
  · exact hset.emit inst run'.edit.snapshot
  · exact hset

theorem Counted.onUpdate {i : ℕ} {message : Message} (h : w.Counted)
    (hmessage : w.messages[i]? = some message) :
    ({ w with messages := w.messages.eraseIdx i }.onUpdate message).Counted := by
  obtain ⟨hlt, hget⟩ := List.getElem?_eq_some_iff.mp hmessage
  have hperm := List.getElem_cons_eraseIdx_perm hlt
  rw [hget] at hperm
  have hbefore : ∀ m ∈ w.messages.eraseIdx i, m.number < w.emissions.length :=
    fun m hm => h.messages m (List.mem_of_mem_eraseIdx hm)
  have hnumber : message.number < w.emissions.length :=
    h.messages message (List.mem_of_getElem? hmessage)
  -- what is asked now was a message before
  have hcount (e : Emission) (he : e ∈ w.emissions) :
      (w.asked.count e.number + if message.isAbout e.number then 1 else 0) +
        (w.messages.eraseIdx i).countP (Message.isAbout e.number) =
          e.reached.countP (asks e.payload) := by
    rw [← h.count e he, ← hperm.countP_eq, List.countP_cons]
    omega
  have hasked (hasks : asks message.payload message.view = true) (e : Emission)
      (he : e ∈ w.emissions) : (message.number :: w.asked).count e.number +
        (w.messages.eraseIdx i).countP (Message.isAbout e.number) =
          e.reached.countP (asks e.payload) := by
    rw [← hcount e he, List.count_cons, Message.isAbout, hasks, Bool.and_true, beq_eq_decide]
  have hbound : ∀ n ∈ message.number :: w.asked, n < w.emissions.length :=
    List.forall_mem_cons.mpr ⟨hnumber, h.asked⟩
  unfold EditUi.onUpdate
  split
  · rename_i hprompt
    refine ⟨h.emissions, hbefore, h.asked, fun e he => ?_⟩
    refine Eq.trans ?_ (hcount e he)
    rw [Message.isAbout, asks, hprompt, Option.isSome_none, Bool.and_false]
    rfl
  · rename_i hprompt
    have hasks : asks message.payload message.view = true := by
      rw [asks, hprompt]
      rfl
    exact ⟨h.emissions, hbefore, hbound, hasked hasks⟩
  · rename_i hprompt
    have hasks : asks message.payload message.view = true := by
      rw [asks, hprompt]
      rfl
    exact ⟨h.emissions, hbefore, hbound, hasked hasks⟩

/-- What a step can be. -/
inductive StepCases (hash : Bytes → Text) (w : EditUi) : UiEvent → EditUi → Prop where
  | shown {event : UiEvent} (ui : View) (stale : Bool) (listeners : List Listener) :
      StepCases hash w event { w with ui, stale, listeners }
  | stored (snapshot : RemoteEditSnapshot) (mtimeMs : ℕ) (content : Bytes) :
      StepCases hash w (.store snapshot mtimeMs content)
        ({ w with
          instances := w.instances ++ [EditRun.opened hash snapshot mtimeMs content]
          items := Function.update w.items snapshot.instanceId
            (some w.instances.length) }.emit w.instances.length
              (EditRun.opened hash snapshot mtimeMs content).edit.snapshot)
  | removed (instanceIds : List Text) :
      StepCases hash w (.remove instanceIds) { w with items := fun instanceId =>
        if instanceId ∈ instanceIds then none else w.items instanceId }
  | worked {inst : ℕ} {event : EditEvent} {w' : EditUi}
      (h : w.advance hash inst event = some w') : StepCases hash w (.work inst event) w'
  | handled {i : ℕ} {message : Message} (hmessage : w.messages[i]? = some message) :
      StepCases hash w (.handle i)
        ({ w with messages := w.messages.eraseIdx i }.onUpdate message)
  | answered {i : ℕ} {dialog : Dialog} (answer : Answer) (hdialog : w.dialogs[i]? = some dialog) :
      StepCases hash w (.answer i answer) { w with
        dialogs := w.dialogs.eraseIdx i
        calls := w.calls ++ [⟨dialog.number, answerKind answer, dialog.payload.instanceId⟩] }
  | closed {i : ℕ} {dialog : Dialog} (hdialog : w.dialogs[i]? = some dialog) :
      StepCases hash w (.closeDialog i) { w with dialogs := w.dialogs.eraseIdx i }
  | missed {i : ℕ} {call : Call} (hcall : w.calls[i]? = some call)
      (hitem : w.items call.instanceId = none) :
      StepCases hash w (.begin i) { w with calls := w.calls.eraseIdx i }
  | begun {i inst : ℕ} {call : Call} {w' : EditUi} (hcall : w.calls[i]? = some call)
      (hitem : w.items call.instanceId = some inst)
      (h : { w with calls := w.calls.eraseIdx i }.advance hash inst call.kind.event = some w') :
      StepCases hash w (.begin i) w'

theorem onListener_cases {event : UiEvent} {i : ℕ} {before : ListenerStage → Bool}
    {change : Listener → Listener} (h : w.onListener i before change = some w') :
    StepCases hash w event w' := by
  obtain ⟨listener, -, hchange⟩ := Option.bind_eq_some_iff.mp h
  split at hchange
  · cases hchange
    exact .shown ..
  · cases hchange

theorem step_cases {event : UiEvent} (h : w.step hash event = some w') :
    StepCases hash w event w' := by
  unfold EditUi.step at h
  cases event with
  | commit view =>
    dsimp only at h
    split at h
    · cases h
    · cases h
      exact .shown ..
  | effects =>
    dsimp only at h
    split at h
    · cases h
      exact .shown ..
    · cases h
  | registered i => exact onListener_cases h
  | resolved i => exact onListener_cases h
  | removed i => exact onListener_cases h
  | store snapshot mtimeMs content =>
    cases h
    exact .stored snapshot mtimeMs content
  | remove instanceIds =>
    cases h
    exact .removed instanceIds
  | work inst event =>
    dsimp only at h
    split at h
    · exact .worked h
    · cases h
  | handle i =>
    obtain ⟨message, hmessage, rfl⟩ := Option.map_eq_some_iff.mp h
    exact .handled hmessage
  | answer i answer =>
    obtain ⟨dialog, hdialog, rfl⟩ := Option.map_eq_some_iff.mp h
    exact .answered answer hdialog
  | closeDialog i =>
    obtain ⟨dialog, hdialog, rfl⟩ := Option.map_eq_some_iff.mp h
    exact .closed hdialog
  | begin i =>
    obtain ⟨call, hcall, hbegin⟩ := Option.bind_eq_some_iff.mp h
    dsimp only at hbegin
    split at hbegin
    · cases hbegin
      exact .missed hcall ‹_›
    · exact .begun hcall ‹_› hbegin

theorem Counted.step {event : UiEvent} (h : w.Counted) (hstep : w.step hash event = some w') :
    w'.Counted := by
  cases step_cases hstep with
  | shown ui stale listeners => exact h.of_eq rfl rfl rfl
  | stored snapshot mtimeMs content =>
    let run := EditRun.opened hash snapshot mtimeMs content
    have hstored : { w with
        instances := w.instances ++ [run]
        items := Function.update w.items snapshot.instanceId (some w.instances.length) }.Counted :=
      h.of_eq rfl rfl rfl
    exact hstored.emit w.instances.length run.edit.snapshot
  | removed instanceIds => exact h.of_eq rfl rfl rfl
  | worked hadvance => exact h.advance hadvance
  | handled hmessage => exact h.onUpdate hmessage
  | answered answer hdialog => exact h.of_eq rfl rfl rfl
  | closed hdialog => exact h.of_eq rfl rfl rfl
  | missed hcall hitem => exact h.of_eq rfl rfl rfl
  | @begun i inst call w' hcall hitem hadvance =>
    have hbegun : { w with calls := w.calls.eraseIdx i }.Counted := h.of_eq rfl rfl rfl
    exact hbegun.advance hadvance

/-! ## What a pending change waits for -/

def lastOf (w : EditUi) (inst : ℕ) : Option Emission := w.emissions.find? (·.inst = inst)

/-- About the update somebody will be asked, is asked, or has answered. -/
inductive Alive (w : EditUi) (e : Emission) : Prop where
  | message {m : Message} (hmem : m ∈ w.messages) (hnumber : m.number = e.number)
      (hpayload : m.payload = e.payload) (hasks : asks m.payload m.view = true)
  | dialog {d : Dialog} (hmem : d ∈ w.dialogs) (hnumber : d.number = e.number)
      (hpayload : d.payload = e.payload)
  | call {c : Call} (hmem : c ∈ w.calls) (hnumber : c.number = e.number)
      (hinstance : c.instanceId = e.payload.instanceId)

/-- What the pending change of an instance waits for: its update was the last one, and as long as
the instance is stored, that is alive if its session was connected. -/
structure Waits (w : EditUi) (inst : ℕ) (run : EditRun) (e : Emission) : Prop where
  last : w.lastOf inst = some e
  payload : e.payload = run.edit.snapshot
  alive : w.items run.edit.snapshot.instanceId = some inst →
    e.ui.connected e.payload.sessionId = true → w.Alive e

def hearing (w : EditUi) (sessionId : Text) : ℕ := w.reached.countP (·.connected sessionId)

/-- Every pending change waits for an answer, and its update came to one listener that asks. -/
structure Waited (w : EditUi) : Prop where
  pending : ∀ inst run, w.instances[inst]? = some run → run.edit.status = .pendingConfirm →
    run.edit.pendingSnapshot.isSome = true ∧ ∃ e, w.Waits inst run e
  heard : ∀ e ∈ w.emissions, e.payload.status = .pendingConfirm →
    e.ui.connected e.payload.sessionId = true →
    e.reached.countP (·.connected e.payload.sessionId) = 1

theorem Alive.mono {e : Emission} (h : w.Alive e) (hmessages : w.messages ⊆ w'.messages)
    (hdialogs : w.dialogs ⊆ w'.dialogs) (hcalls : w.calls ⊆ w'.calls) : w'.Alive e := by
  cases h with
  | message hmem hnumber hpayload hasks => exact .message (hmessages hmem) hnumber hpayload hasks
  | dialog hmem hnumber hpayload => exact .dialog (hdialogs hmem) hnumber hpayload
  | call hmem hnumber hinstance => exact .call (hcalls hmem) hnumber hinstance

theorem Waits.mono {inst : ℕ} {e : Emission} (h : w.Waits inst run e)
    (hlast : w'.lastOf inst = w.lastOf inst)
    (hitems : w'.items run.edit.snapshot.instanceId = some inst →
      w.items run.edit.snapshot.instanceId = some inst)
    (halive : w'.items run.edit.snapshot.instanceId = some inst → w.Alive e → w'.Alive e) :
    w'.Waits inst run e where
  last := hlast.trans h.last
  payload := h.payload
  alive hstored hconnected := halive hstored (h.alive (hitems hstored) hconnected)

theorem Waited.of_eq (h : w.Waited) (hinstances : w'.instances = w.instances)
    (hemissions : w'.emissions = w.emissions)
    (hitems : ∀ instanceId inst, w'.items instanceId = some inst →
      w.items instanceId = some inst)
    (halive : ∀ inst run e, w.instances[inst]? = some run → run.edit.status = .pendingConfirm →
      w.items run.edit.snapshot.instanceId = some inst → e.payload = run.edit.snapshot →
        w.Alive e → w'.Alive e) : w'.Waited where
  pending inst run hinst hpending := by
    rw [hinstances] at hinst
    obtain ⟨hsome, e, hwaits⟩ := h.pending inst run hinst hpending
    refine ⟨hsome, e, hwaits.mono ?_ (hitems _ inst) fun hstored => ?_⟩
    · rw [lastOf, hemissions]
      rfl
    · exact halive inst run e hinst hpending (hitems _ inst hstored) hwaits.payload
  heard := hemissions ▸ h.heard

theorem lastOf_emit_of_ne {inst other : ℕ} (h : inst ≠ other) (payload : RemoteEditSnapshot) :
    (w.emit inst payload).lastOf other = w.lastOf other := by
  unfold EditUi.lastOf EditUi.emit
  rw [List.find?_cons_of_neg (by simpa using h)]

theorem lastOf_emit (inst : ℕ) (payload : RemoteEditSnapshot) :
    (w.emit inst payload).lastOf inst =
      some ⟨w.emissions.length, inst, payload, w.ui, w.reached⟩ := by
  unfold EditUi.lastOf EditUi.emit
  rw [List.find?_cons_of_pos (by simp)]

theorem Alive.emit {e : Emission} (h : w.Alive e) (inst : ℕ) (payload : RemoteEditSnapshot) :
    (w.emit inst payload).Alive e :=
  h.mono (List.subset_append_left _ _) (List.Subset.refl _) (List.Subset.refl _)

theorem alive_emit {inst : ℕ} {payload : RemoteEditSnapshot}
    (hstatus : payload.status = .pendingConfirm) (hheard : 0 < w.hearing payload.sessionId) :
    (w.emit inst payload).Alive ⟨w.emissions.length, inst, payload, w.ui, w.reached⟩ := by
  obtain ⟨view, hview, hconnected⟩ := List.countP_pos_iff.mp hheard
  refine .message (m := ⟨w.emissions.length, view, payload⟩) ?_ rfl rfl ?_
  · exact List.mem_append_right _ (List.mem_map_of_mem hview)
  · rw [asks_eq_connected hstatus]
    exact hconnected

theorem Waits.emit {inst other : ℕ} {e : Emission} (h : w.Waits other run e) (hne : inst ≠ other)
    (payload : RemoteEditSnapshot) : (w.emit inst payload).Waits other run e :=
  h.mono (lastOf_emit_of_ne hne payload) id fun _ halive => halive.emit inst payload

/-- The monitor detects a change while one listener asks, if the session is connected. -/
def HeardOnce (w : EditUi) (inst : ℕ) : Prop :=
  ∀ run, w.instances[inst]? = some run → detects run = true →
    w.ui.connected run.edit.snapshot.sessionId = true →
      w.hearing run.edit.snapshot.sessionId = 1

theorem Waited.advance {inst : ℕ} {event : EditEvent}
    (hpending : ∀ other run, w.instances[other]? = some run →
      run.edit.status = .pendingConfirm → run.edit.pendingSnapshot.isSome = true ∧
        ((other = inst → emits run event = false) → ∃ e, w.Waits other run e))
    (hheard : ∀ e ∈ w.emissions, e.payload.status = .pendingConfirm →
      e.ui.connected e.payload.sessionId = true →
      e.reached.countP (·.connected e.payload.sessionId) = 1)
    (honce : event = .monitor .settle → w.HeardOnce inst)
    (hstep : w.advance hash inst event = some w') : w'.Waited := by
  obtain ⟨run, hrun, hnext⟩ := Option.bind_eq_some_iff.mp hstep
  obtain ⟨run', hrun', hresult⟩ := Option.map_eq_some_iff.mp hnext
  have hlt : inst < w.instances.length := (List.getElem?_eq_some_iff.mp hrun).1
  let moved : EditUi := { w with instances := w.instances.set inst run' }
  have hwaits_moved {other : ℕ} {r : EditRun} {e : Emission} (h : w.Waits other r e) :
      moved.Waits other r e := h.mono rfl id fun _ halive =>
    halive.mono (List.Subset.refl _) (List.Subset.refl _) (List.Subset.refl _)
  -- the others go on to wait
  have hothers (other : ℕ) (r : EditRun) (hne : inst ≠ other)
      (hget : moved.instances[other]? = some r) (hstatus : r.edit.status = .pendingConfirm) :
      r.edit.pendingSnapshot.isSome = true ∧ ∃ e, moved.Waits other r e := by
    rw [show moved.instances = w.instances.set inst run' from rfl,
      List.getElem?_set_ne hne] at hget
    obtain ⟨hsome, hwaits⟩ := hpending other r hget hstatus
    obtain ⟨e, hwaits⟩ := hwaits fun heq => absurd heq.symm hne
    exact ⟨hsome, e, hwaits_moved hwaits⟩
  have hself : moved.instances[inst]? = some run' := List.getElem?_set_self hlt
  replace hresult : (if emits run event then moved.emit inst run'.edit.snapshot else moved) = w' :=
    hresult
  cases editNext_turn hrun' with
  | left hstatus =>
    split at hresult
    · subst hresult
      refine ⟨fun other r hget hr => ?_, fun e he hpend hconnected => ?_⟩
      · by_cases hne : inst = other
        · subst hne
          cases hself.symm.trans hget
          exact absurd hr hstatus
        · obtain ⟨hsome, e, hwaits⟩ := hothers other r hne hget hr
          exact ⟨hsome, e, hwaits.emit hne _⟩
      · rcases List.mem_cons.mp he with rfl | hbefore
        · exact absurd hpend hstatus
        · exact hheard e hbefore hpend hconnected
    · subst hresult
      refine ⟨fun other r hget hr => ?_, hheard⟩
      by_cases hne : inst = other
      · subst hne
        cases hself.symm.trans hget
        exact absurd hr hstatus
      · exact hothers other r hne hget hr
  | kept hedit hquiet =>
    rw [hquiet, if_neg Bool.false_ne_true] at hresult
    subst hresult
    refine ⟨fun other r hget hr => ?_, hheard⟩
    by_cases hne : inst = other
    · subst hne
      cases hself.symm.trans hget
      rw [hedit] at hr ⊢
      obtain ⟨hsome, hwaits⟩ := hpending inst run hrun hr
      obtain ⟨e, hwaits⟩ := hwaits fun _ => hquiet
      obtain ⟨hlast, hpayload, halive⟩ := hwaits_moved hwaits
      exact ⟨hsome, e, hlast, hedit ▸ hpayload, hedit ▸ halive⟩
    · exact hothers other r hne hget hr
  | detected hevent hdetects hsome hsession =>
    subst hevent
    have hemits : emits run (.monitor .settle) = true := by
      cases hmonitor : run.monitor with
      | failed err => rw [emits, hmonitor]
      | _ =>
        rw [emits, hmonitor]
        exact hdetects
    rw [if_pos hemits] at hresult
    subst hresult
    have hhearing : w.ui.connected run'.edit.snapshot.sessionId = true →
        w.hearing run'.edit.snapshot.sessionId = 1 := by
      rw [hsession]
      exact honce rfl run hrun hdetects
    refine ⟨fun other r hget hr => ?_, fun e he hpend hconnected => ?_⟩
    · by_cases hne : inst = other
      · subst hne
        cases hself.symm.trans hget
        refine ⟨hsome, _, lastOf_emit (w := moved) inst _, rfl, fun _ hconnected => ?_⟩
        exact alive_emit (w := moved) hr ((hhearing hconnected).symm ▸ Nat.one_pos)
      · obtain ⟨hsome, e, hwaits⟩ := hothers other r hne hget hr
        exact ⟨hsome, e, hwaits.emit hne _⟩
    · rcases List.mem_cons.mp he with rfl | hbefore
      · exact hhearing hconnected
      · exact hheard e hbefore hpend hconnected

theorem mem_eraseIdx_of_ne {α : Type*} {l : List α} {i : ℕ} {a b : α} (hget : l[i]? = some a)
    (hmem : b ∈ l) (hne : b ≠ a) : b ∈ l.eraseIdx i := by
  obtain ⟨hlt, rfl⟩ := List.getElem?_eq_some_iff.mp hget
  exact List.mem_of_ne_of_mem hne ((List.getElem_cons_eraseIdx_perm hlt).mem_iff.mpr hmem)

theorem Alive.onUpdate {e : Emission} {i : ℕ} {message : Message} (h : w.Alive e)
    (hmessage : w.messages[i]? = some message) :
    ({ w with messages := w.messages.eraseIdx i }.onUpdate message).Alive e := by
  have hothers {m : Message} (hmem : m ∈ w.messages) (hne : m ≠ message) :
      m ∈ ({ w with messages := w.messages.eraseIdx i }.onUpdate message).messages := by
    have herased := mem_eraseIdx_of_ne hmessage hmem hne
    unfold EditUi.onUpdate
    split
    · exact herased
    · exact herased
    · exact herased
  cases h with
  | @message m hmem hnumber hpayload hasks =>
    by_cases hne : m = message
    · subst hne
      unfold EditUi.onUpdate
      unfold asks at hasks
      split
      · rename_i hprompt
        rw [hprompt] at hasks
        cases hasks
      · exact .call (List.mem_append_right _ List.mem_cons_self) hnumber
          (congrArg RemoteEditSnapshot.instanceId hpayload)
      · exact .dialog (List.mem_append_right _ List.mem_cons_self) hnumber hpayload
    · exact .message (hothers hmem hne) hnumber hpayload hasks
  | dialog hmem hnumber hpayload =>
    unfold EditUi.onUpdate
    split
    · exact .dialog hmem hnumber hpayload
    · exact .dialog hmem hnumber hpayload
    · exact .dialog (List.mem_append_left _ hmem) hnumber hpayload
  | call hmem hnumber hinstance =>
    unfold EditUi.onUpdate
    split
    · exact .call hmem hnumber hinstance
    · exact .call (List.mem_append_left _ hmem) hnumber hinstance
    · exact .call hmem hnumber hinstance

theorem Alive.answer {e : Emission} {i : ℕ} {dialog : Dialog} (h : w.Alive e) (answer : Answer)
    (hdialog : w.dialogs[i]? = some dialog) :
    EditUi.Alive { w with
      dialogs := w.dialogs.eraseIdx i
      calls := w.calls ++ [⟨dialog.number, answerKind answer, dialog.payload.instanceId⟩] } e := by
  cases h with
  | message hmem hnumber hpayload hasks => exact .message hmem hnumber hpayload hasks
  | @dialog d hmem hnumber hpayload =>
    by_cases hne : d = dialog
    · subst hne
      exact .call (List.mem_append_right _ List.mem_cons_self) hnumber
        (congrArg RemoteEditSnapshot.instanceId hpayload)
    · exact .dialog (mem_eraseIdx_of_ne hdialog hmem hne) hnumber hpayload
  | call hmem hnumber hinstance => exact .call (List.mem_append_left _ hmem) hnumber hinstance

theorem Alive.eraseCall {e : Emission} {i : ℕ} {call : Call} (h : w.Alive e)
    (hcall : w.calls[i]? = some call) (hne : call.instanceId ≠ e.payload.instanceId) :
    { w with calls := w.calls.eraseIdx i }.Alive e := by
  cases h with
  | message hmem hnumber hpayload hasks => exact .message hmem hnumber hpayload hasks
  | dialog hmem hnumber hpayload => exact .dialog hmem hnumber hpayload
  | @call c hmem hnumber hinstance =>
    refine .call (mem_eraseIdx_of_ne hcall hmem ?_) hnumber hinstance
    rintro rfl
    exact hne hinstance

/-- The change that the dialog is about is not pending any more. -/
def IsOver (w : EditUi) (dialog : Dialog) : Prop :=
  ∀ inst run, w.items dialog.payload.instanceId = some inst → w.instances[inst]? = some run →
    run.edit.status ≠ .pendingConfirm

def Heard (w : EditUi) : UiEvent → Prop
  | .work inst (.monitor .settle) => w.HeardOnce inst
  | .closeDialog i => ∀ dialog, w.dialogs[i]? = some dialog → w.IsOver dialog
  | _ => True

theorem Waited.store (h : w.Waited) (snapshot : RemoteEditSnapshot) (mtimeMs : ℕ)
    (content : Bytes) :
    ({ w with
      instances := w.instances ++ [EditRun.opened hash snapshot mtimeMs content]
      items := Function.update w.items snapshot.instanceId
        (some w.instances.length) }.emit w.instances.length
          (EditRun.opened hash snapshot mtimeMs content).edit.snapshot).Waited := by
  refine ⟨fun inst run hget hstatus => ?_, fun e he hpend hconnected => ?_⟩
  · replace hget : (w.instances ++ [EditRun.opened hash snapshot mtimeMs content])[inst]? =
      some run := hget
    rcases Nat.lt_or_ge inst w.instances.length with hlt | hge
    · rw [List.getElem?_append_left hlt] at hget
      obtain ⟨hsome, e, hwaits⟩ := h.pending inst run hget hstatus
      refine ⟨hsome, e, hwaits.mono (lastOf_emit_of_ne hlt.ne' _) (fun hstored => ?_)
        fun _ halive => halive.mono (List.subset_append_left _ _) (List.Subset.refl _)
          (List.Subset.refl _)⟩
      -- the new instance has another number
      replace hstored : Function.update w.items snapshot.instanceId (some w.instances.length)
        run.edit.snapshot.instanceId = some inst := hstored
      rw [Function.update_apply] at hstored
      split at hstored
      · cases hstored
        exact absurd hlt (Nat.lt_irrefl _)
      · exact hstored
    · rw [List.getElem?_append_right hge] at hget
      cases hindex : inst - w.instances.length with
      | zero =>
        rw [hindex] at hget
        cases hget
        cases hstatus
      | succ n =>
        rw [hindex] at hget
        cases hget
  · rcases List.mem_cons.mp he with rfl | hbefore
    · cases hpend
    · exact h.heard e hbefore hpend hconnected

theorem Waited.step {event : UiEvent} (h : w.Waited) (hheard : w.Heard event)
    (hstep : w.step hash event = some w') : w'.Waited := by
  cases step_cases hstep with
  | shown ui stale listeners =>
    exact h.of_eq rfl rfl (fun _ _ => id) fun _ _ _ _ _ _ _ halive =>
      halive.mono (List.Subset.refl _) (List.Subset.refl _) (List.Subset.refl _)
  | stored snapshot mtimeMs content => exact h.store snapshot mtimeMs content
  | removed instanceIds =>
    refine h.of_eq rfl rfl (fun instanceId inst hitem => ?_) fun _ _ _ _ _ _ _ halive =>
      halive.mono (List.Subset.refl _) (List.Subset.refl _) (List.Subset.refl _)
    dsimp only at hitem
    split at hitem
    · cases hitem
    · exact hitem
  | @worked inst event w' hadvance =>
    refine .advance (fun other run hget hstatus => ?_) h.heard (fun hevent => ?_) hadvance
    · obtain ⟨hsome, hwaits⟩ := h.pending other run hget hstatus
      exact ⟨hsome, fun _ => hwaits⟩
    · subst hevent
      exact hheard
  | @handled i message hmessage =>
    have hsame : ({ w with messages := w.messages.eraseIdx i }.onUpdate message).instances =
        w.instances ∧ ({ w with messages := w.messages.eraseIdx i }.onUpdate message).emissions =
          w.emissions ∧ ({ w with messages := w.messages.eraseIdx i }.onUpdate message).items =
            w.items := by
      unfold EditUi.onUpdate
      split
      · exact ⟨rfl, rfl, rfl⟩
      · exact ⟨rfl, rfl, rfl⟩
      · exact ⟨rfl, rfl, rfl⟩
    exact h.of_eq hsame.1 hsame.2.1 (fun _ _ hitem => hsame.2.2 ▸ hitem)
      fun _ _ _ _ _ _ _ halive => halive.onUpdate hmessage
  | answered answer hdialog =>
    exact h.of_eq rfl rfl (fun _ _ => id) fun _ _ _ _ _ _ _ halive => halive.answer answer hdialog
  | closed hdialog =>
    refine h.of_eq rfl rfl (fun _ _ => id) fun inst run e hget hstatus hstored hpayload halive => ?_
    cases halive with
    | message hmem hnumber hpayload hasks => exact .message hmem hnumber hpayload hasks
    | dialog hmem hnumber hsame =>
      -- the dialog that is closed is about nothing pending
      refine .dialog (mem_eraseIdx_of_ne hdialog hmem ?_) hnumber hsame
      rintro rfl
      rw [← hpayload, ← hsame] at hstored
      exact hheard _ hdialog inst run hstored hget hstatus
    | call hmem hnumber hinstance => exact .call hmem hnumber hinstance
  | missed hcall hitem =>
    refine h.of_eq rfl rfl (fun _ _ => id) fun inst run e hget hstatus hstored hpayload halive =>
      halive.eraseCall hcall fun hsame => ?_
    rw [hsame, hpayload, hstored] at hitem
    cases hitem
  | @begun i inst call w' hcall hitem hadvance =>
    refine Waited.advance (w := { w with calls := w.calls.eraseIdx i })
      (fun other run hget hstatus => ?_) h.heard (fun hevent => ?_) hadvance
    · obtain ⟨hsome, e, hwaits⟩ := h.pending other run hget hstatus
      refine ⟨hsome, fun hquiet => ?_⟩
      have hne : other ≠ inst := by
        intro heq
        have hquiet := hquiet heq
        cases hkind : call.kind with
        | confirm =>
          rw [hkind] at hquiet
          exact absurd (hsome.symm.trans hquiet) Bool.noConfusion
        | dismiss =>
          rw [hkind] at hquiet
          cases hquiet
      refine ⟨e, hwaits.mono rfl id fun hstored halive => halive.eraseCall hcall fun hsame => ?_⟩
      rw [hsame, hwaits.payload, hstored] at hitem
      exact hne (Option.some.inj hitem)
    · cases hkind : call.kind with
      | confirm =>
        rw [hkind] at hevent
        cases hevent
      | dismiss =>
        rw [hkind] at hevent
        cases hevent

theorem counted_of_reachable {view : View} (h : (editUiMachine hash view).Reachable w) :
    w.Counted := by
  refine h.induct (I := Counted) ?_ fun _ _ _ _ hkept hstep => hkept.step hstep
  rintro _ rfl
  exact ⟨List.forall_mem_nil _, List.forall_mem_nil _, List.forall_mem_nil _,
    List.forall_mem_nil _⟩

theorem waited_of_reachable {view : View}
    (h : ((editUiMachine hash view).restrict Heard).Reachable w) : w.Waited := by
  refine h.induct (I := Waited) ?_ ?_
  · rintro _ rfl
    refine ⟨fun _ _ hget => ?_, fun _ he => absurd he List.not_mem_nil⟩
    cases hget
  · rintro _ _ _ - hkept ⟨hheard, hstep⟩
    exact hkept.step hheard hstep

/-! ## The result -/

def IsHandled (w : EditUi) (e : Emission) : Prop := ∀ m ∈ w.messages, m.number ≠ e.number

/-- What is wanted: every pending change whose session was connected is asked about exactly once,
and while it stays pending, a dialog is open or an upload is called for as soon as all messages are
handled and no dismissal is on its way. -/
structure Asked (w : EditUi) : Prop where
  once : ∀ e ∈ w.emissions, e.payload.status = .pendingConfirm →
    e.ui.connected e.payload.sessionId = true → w.IsHandled e → w.asked.count e.number = 1
  pending : ∀ inst run, w.instances[inst]? = some run →
    w.items run.edit.snapshot.instanceId = some inst → run.edit.status = .pendingConfirm →
      ∃ e, w.lastOf inst = some e ∧ e.payload = run.edit.snapshot ∧
        (e.ui.connected e.payload.sessionId = true → w.messages = [] →
          (∀ call ∈ w.calls, call.kind = .confirm) →
            (∃ dialog ∈ w.dialogs, dialog.payload = run.edit.snapshot) ∨
              ∃ call ∈ w.calls, call.instanceId = run.edit.snapshot.instanceId)

theorem Counted.count_asked (h : w.Counted) {e : Emission} (he : e ∈ w.emissions)
    (hstatus : e.payload.status = .pendingConfirm) (hhandled : w.IsHandled e) :
    w.asked.count e.number = e.reached.countP (·.connected e.payload.sessionId) := by
  have hnone : w.messages.countP (Message.isAbout e.number) = 0 := by
    refine List.countP_eq_zero.mpr fun m hm => ?_
    rw [Message.isAbout, decide_eq_false (hhandled m hm)]
    exact Bool.false_ne_true
  rw [← Nat.add_zero (w.asked.count e.number), ← hnone, h.count e he]
  exact List.countP_congr fun view _ => by rw [asks_eq_connected hstatus]

theorem Waited.asked (h : w.Waited) (hcounted : w.Counted) : w.Asked where
  once e he hstatus hconnected hhandled :=
    (hcounted.count_asked he hstatus hhandled).trans (h.heard e he hstatus hconnected)
  pending inst run hget hstored hstatus := by
    obtain ⟨-, e, hwaits⟩ := h.pending inst run hget hstatus
    refine ⟨e, hwaits.last, hwaits.payload, fun hconnected hmessages hcalls => ?_⟩
    cases hwaits.alive hstored hconnected with
    | message hmem hnumber hpayload hasks =>
      rw [hmessages] at hmem
      cases hmem
    | @dialog d hmem hnumber hpayload => exact .inl ⟨d, hmem, hpayload.trans hwaits.payload⟩
    | @call c hmem hnumber hinstance =>
      exact .inr ⟨c, hmem, hinstance.trans (congrArg _ hwaits.payload)⟩

end EditUi

/-- **Every pending remote edit is asked about exactly once** if and only if exactly one of the
listeners that are registered when it is emitted sees its session connected. As long as this is so
whenever the monitor detects a change of a connected session, and no dialog about a pending change
is closed without an answer, no change stays pending without a dialog or an upload. -/
theorem remoteEdit_asked (hash : Bytes → Text) (view : View) :
    (∀ w, (editUiMachine hash view).Reachable w → ∀ e ∈ w.emissions,
      e.payload.status = .pendingConfirm → w.IsHandled e →
        (w.asked.count e.number = 1 ↔
          e.reached.countP (·.connected e.payload.sessionId) = 1)) ∧
    ∀ w, ((editUiMachine hash view).restrict EditUi.Heard).Reachable w → w.Asked := by
  refine ⟨fun w h e he hstatus hhandled => ?_, fun w h => ?_⟩
  · rw [(EditUi.counted_of_reachable h).count_asked he hstatus hhandled]
  · exact (EditUi.waited_of_reachable h).asked (EditUi.counted_of_reachable h.of_restrict)

def sampleView (language : Text) : View where
  sessions := []
  profiles := []
  sessionStates sessionId := if sessionId = "s".toList then some .connected else none
  autoUpload _ := false
  language

def sampleChange : List UiEvent :=
  [.effects, .registered 0, .resolved 0, .store sampleEdit 0 [], .handle 0,
    .commit (sampleView "zh".toList), .effects, .removed 0]

/-- The monitor detects a change then: nobody is asked, and the change stays pending. -/
theorem sampleChange_not_asked :
    ∃ w, Machine.exec (EditUi.step sampleHash) (.start (sampleView "en".toList))
        (sampleChange ++ (sampleSave 2000 [97]).map (.work 0)) = some w ∧
      w.messages = [] ∧ w.dialogs = [] ∧ w.calls = [] ∧ w.asked = [] ∧
      (∃ e ∈ w.emissions, e.payload.status = .pendingConfirm ∧
        e.ui.connected e.payload.sessionId = true) ∧
      ∃ run, w.instances[0]? = some run ∧
        w.items run.edit.snapshot.instanceId = some 0 ∧ run.edit.status = .pendingConfirm := by
  exact ⟨_, rfl, rfl, rfl, rfl, rfl, ⟨_, List.mem_cons_self, rfl, rfl⟩, _, rfl, rfl, rfl⟩

end FluxTerm.RemoteEdit.Prompts
