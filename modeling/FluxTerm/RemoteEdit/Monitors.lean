import FluxTerm.Lib.Machine
import FluxTerm.Lib.Text
import FluxTerm.Lib.Watch
import FluxTerm.Lib.Workers

/-!
# FluxTerm — the monitors of remote editing

`RemoteEditState` of `src-tauri/src/remote_edit.rs`, with the calls that change it: `upsert` and
`spawn_remote_edit_monitor` as `remote_edit_open` makes them, and `remove_by_session`. Between two
steps of a call any other call and any monitor may take theirs.

* **`InOrder`** — a signal comes after the monitor that is meant, and what is removed has been
  signalled; **`isTidy_of_inOrder`** — then the state is tidy.
* **`sampleReplace_stray`** — the monitor of an instance that is replaced too early runs on.

An instance keeps its number, which stands for the `Arc`.
-/

namespace FluxTerm.RemoteEdit

open FluxTerm.Lib

/-! ## The state -/

/-- An instance, as far as its monitor is concerned. The receivers of `stop` are its monitors. -/
structure MonitoredInstance where
  instanceId : Text
  sessionId : Text
  stop : Watch Bool
deriving DecidableEq

inductive MonitorCall where
  /-- `upsert` has to lock the replaced instance. -/
  | replacing (inst previous : ℕ)
  /-- `spawn_remote_edit_monitor` has to lock the instance. -/
  | spawning (inst : ℕ)
  /-- `remove_by_session`: the instances to look at, and those whose ids are in `removed_ids`. -/
  | removing (sessionId : Text) (left removed : List ℕ)
  | returned
deriving DecidableEq

structure MonitorState where
  instances : List MonitoredInstance
  items : Text → Option ℕ
  calls : List MonitorCall
  removals : List (Text × ℕ)

/-- What happens. -/
inductive MonitorsEvent where
  /-- `remote_edit_open` stores the instance that it has prepared. -/
  | store (instanceId sessionId : Text)
  | goOn (call : ℕ)
  /-- `remove_by_session` collects what is stored. -/
  | collect (sessionId : Text)
  | visit (call entry : ℕ)
  | delete (call : ℕ)
  | changed (inst monitor : ℕ)
deriving DecidableEq

namespace MonitorState

variable (s : MonitorState)

def stored : List ℕ := (List.range s.instances.length).filter fun inst =>
  (s.instances[inst]?).any fun i => s.items i.instanceId = some inst

def onStop (inst : ℕ) (change : Watch Bool → Watch Bool) : MonitorState :=
  { s with instances := s.instances.modify inst fun i => { i with stop := change i.stop } }

def setCall (call : ℕ) (stage : MonitorCall) : MonitorState :=
  { s with calls := s.calls.set call stage }

def idsOf (insts : List ℕ) : List Text :=
  insts.filterMap fun inst => (s.instances[inst]?).map (·.instanceId)

/-- One step. -/
def next : MonitorsEvent → Option MonitorState
  | .store instanceId sessionId =>
    let inst := s.instances.length
    some { s with
      instances := s.instances ++ [⟨instanceId, sessionId, .new false⟩]
      items := Function.update s.items instanceId (some inst)
      calls := s.calls ++ [match s.items instanceId with
        | some previous => .replacing inst previous
        | none => .spawning inst] }
  | .goOn call =>
    match s.calls[call]? with
    | some (.replacing inst previous) =>
      some ((s.onStop previous (·.send true)).setCall call (.spawning inst))
    | some (.spawning inst) => some ((s.onStop inst (·.subscribe)).setCall call .returned)
    | _ => none
  | .collect sessionId => some { s with calls := s.calls ++ [.removing sessionId s.stored []] }
  | .visit call entry =>
    match s.calls[call]? with
    | some (.removing sessionId left removed) =>
      (left[entry]?).bind fun inst => (s.instances[inst]?).map fun i =>
        let left := left.eraseIdx entry
        if i.sessionId = sessionId then
          (s.onStop inst (·.send true)).setCall call
            (.removing sessionId left (removed ++ [inst]))
        else s.setCall call (.removing sessionId left removed)
    | _ => none
  | .delete call =>
    match s.calls[call]? with
    | some (.removing sessionId [] removed) =>
      let ids := s.idsOf removed
      some { s.setCall call .returned with
        items := fun instanceId => if instanceId ∈ ids then none else s.items instanceId
        removals := s.removals ++ ids.filterMap fun instanceId =>
          (s.items instanceId).map (sessionId, ·) }
    | _ => none
  | .changed inst monitor =>
    (s.instances[inst]?).bind fun i => (i.stop.changed monitor).map fun stop =>
      if stop then s.onStop inst (·.drop monitor) else s.onStop inst (·.mark monitor)

end MonitorState

/-- `RemoteEditState` as a machine. -/
def remoteEditState : Machine MonitorState MonitorsEvent :=
  .ofStep ⟨[], fun _ => none, [], []⟩ MonitorState.next

/-! ## What is wanted -/

namespace MonitorState

/-- No call is under way, and no monitor has a signal to see. -/
def IsQuiescent (s : MonitorState) : Prop :=
  (∀ call ∈ s.calls, call = .returned) ∧
    ∀ i ∈ s.instances, ∀ seen ∈ i.stop.receivers, seen = i.stop.version

/-- Every monitor that runs belongs to a stored instance, no two run for one id, and what is removed
is of the session that was asked for. -/
structure IsTidy (s : MonitorState) : Prop where
  stored : s.IsQuiescent → ∀ inst i, s.instances[inst]? = some i → i.stop.receivers ≠ [] →
    s.items i.instanceId = some inst
  unique : s.IsQuiescent → ∀ (inst inst' : ℕ) (i i' : MonitoredInstance),
    s.instances[inst]? = some i → s.instances[inst']? = some i' → i.instanceId = i'.instanceId →
    i.stop.receivers ≠ [] → i'.stop.receivers ≠ [] → inst = inst'
  single : ∀ i ∈ s.instances, i.stop.receivers.length ≤ 1
  removals : ∀ sessionId inst, (sessionId, inst) ∈ s.removals →
    ∃ i, s.instances[inst]? = some i ∧ i.sessionId = sessionId

end MonitorState

/-! ## The condition -/

def MonitorCall.awaits (inst : ℕ) : MonitorCall → Bool
  | replacing i _ | spawning i => i == inst
  | removing .. | returned => false

namespace MonitorState

variable (s : MonitorState)

def awaited (inst : ℕ) : ℕ := s.calls.countP (·.awaits inst)

/-- The instance to which a step sends the signal. -/
def target : MonitorsEvent → Option ℕ
  | .goOn call =>
    match s.calls[call]? with
    | some (.replacing _ previous) => some previous
    | _ => none
  | .visit call entry =>
    match s.calls[call]? with
    | some (.removing sessionId left _) => (left[entry]?).filter fun inst =>
      (s.instances[inst]?).any (·.sessionId = sessionId)
    | _ => none
  | _ => none

def deleted : MonitorsEvent → List ℕ
  | .delete call =>
    match s.calls[call]? with
    | some (.removing _ _ removed) => removed
    | _ => []
  | _ => []

/-- The id of the instance stands for it, or for nothing. -/
def IsCurrent (inst : ℕ) : Prop :=
  (s.instances[inst]?).all (fun i => s.items i.instanceId = some inst ∨
    s.items i.instanceId = none) = true

end MonitorState

def InOrder (s : MonitorState) (event : MonitorsEvent) : Prop :=
  (∀ inst ∈ s.target event, s.awaited inst = 0) ∧ ∀ inst ∈ s.deleted event, s.IsCurrent inst

instance (s : MonitorState) (event : MonitorsEvent) : Decidable (InOrder s event) :=
  inferInstanceAs (Decidable (_ ∧ ∀ inst ∈ s.deleted event, (s.instances[inst]?).all _ = true))

/-! ## The invariant -/

namespace MonitorState

/-- The monitor of the instance has been spawned, and has the signal to see if it still runs. -/
structure Stopped (s : MonitorState) (inst : ℕ) (i : MonitoredInstance) : Prop where
  awaited : s.awaited inst = 0
  told : i.stop.Told true

def Knows (s : MonitorState) : MonitorCall → Prop
  | .replacing inst previous => inst < s.instances.length ∧ previous < s.instances.length
  | .spawning inst => inst < s.instances.length
  | .removing sessionId left removed => (∀ inst ∈ left, inst < s.instances.length) ∧
    ∀ inst ∈ removed, ∃ i, s.instances[inst]? = some i ∧ i.sessionId = sessionId ∧
      s.Stopped inst i
  | .returned => True

def Kept (s : MonitorState) (inst : ℕ) (i : MonitoredInstance) : Prop :=
  s.items i.instanceId = some inst ∨ (∃ other, .replacing other inst ∈ s.calls) ∨ s.Stopped inst i

structure Orderly (s : MonitorState) : Prop where
  items : ∀ instanceId inst, s.items instanceId = some inst →
    ∃ i, s.instances[inst]? = some i ∧ i.instanceId = instanceId
  calls : ∀ call ∈ s.calls, s.Knows call
  fresh : ∀ i ∈ s.instances, i.stop.IsFresh
  single : ∀ inst i, s.instances[inst]? = some i →
    s.awaited inst + i.stop.receivers.length ≤ 1
  kept : ∀ inst i, s.instances[inst]? = some i → s.Kept inst i
  removals : ∀ sessionId inst, (sessionId, inst) ∈ s.removals →
    ∃ i, s.instances[inst]? = some i ∧ i.sessionId = sessionId

variable {s t : MonitorState} {inst : ℕ} {i : MonitoredInstance}

theorem Orderly.isTidy (h : s.Orderly) : s.IsTidy := by
  have hstored : s.IsQuiescent → ∀ inst i, s.instances[inst]? = some i → i.stop.receivers ≠ [] →
      s.items i.instanceId = some inst := by
    intro ⟨hreturned, hseen⟩ inst i hinst hruns
    rcases h.kept inst i hinst with hitems | ⟨other, hother⟩ | hstopped
    · exact hitems
    · cases hreturned _ hother
    · -- a monitor would have the signal to see
      obtain ⟨seen, hmem⟩ := List.exists_mem_of_ne_nil _ hruns
      exact absurd (hseen i (List.mem_of_getElem? hinst) seen hmem) (hstopped.told seen hmem).1
  refine ⟨hstored, fun hquiescent inst inst' i i' hinst hinst' hid hruns hruns' => ?_,
    fun i hi => ?_, h.removals⟩
  · have hitems := hstored hquiescent inst i hinst hruns
    rw [hid, hstored hquiescent inst' i' hinst' hruns', Option.some.injEq] at hitems
    exact hitems.symm
  · obtain ⟨inst, hinst⟩ := List.getElem?_of_mem hi
    have := h.single inst i hinst
    omega

/-- The instances go on: they keep their names, and what is stopped stays so. -/
structure GoesOn (s t : MonitorState) : Prop where
  instances : ∀ inst i, s.instances[inst]? = some i → ∃ j, t.instances[inst]? = some j ∧
    j.instanceId = i.instanceId ∧ j.sessionId = i.sessionId ∧ (s.Stopped inst i → t.Stopped inst j)

theorem GoesOn.session (h : GoesOn s t) {sessionId : Text}
    (hinst : ∃ i, s.instances[inst]? = some i ∧ i.sessionId = sessionId) :
    ∃ i, t.instances[inst]? = some i ∧ i.sessionId = sessionId := by
  obtain ⟨i, hget, hsession⟩ := hinst
  obtain ⟨j, hget', -, hsession', -⟩ := h.instances inst i hget
  exact ⟨j, hget', hsession'.trans hsession⟩

theorem GoesOn.lt (h : GoesOn s t) (hlt : inst < s.instances.length) :
    inst < t.instances.length := by
  obtain ⟨j, hget, -⟩ := h.instances inst _ (List.getElem?_eq_getElem hlt)
  exact (List.getElem?_eq_some_iff.mp hget).1

theorem GoesOn.knows (h : GoesOn s t) {call : MonitorCall} (hcall : s.Knows call) :
    t.Knows call := by
  cases call with
  | replacing inst previous => exact ⟨h.lt hcall.1, h.lt hcall.2⟩
  | spawning inst => exact h.lt hcall
  | returned => exact trivial
  | removing sessionId left removed =>
    refine ⟨fun inst hinst => h.lt (hcall.1 inst hinst), fun inst hinst => ?_⟩
    obtain ⟨i, hget, hsession, hstopped⟩ := hcall.2 inst hinst
    obtain ⟨j, hget', -, hsession', hkeep⟩ := h.instances inst i hget
    exact ⟨j, hget', hsession'.trans hsession, hkeep hstopped⟩

theorem instances_onStop (change : Watch Bool → Watch Bool) (inst j : ℕ) :
    (s.onStop inst change).instances[j]? = (s.instances[j]?).map fun i =>
      if inst = j then { i with stop := change i.stop } else i := by
  show (s.instances.modify inst _)[j]? = _
  rw [List.getElem?_modify]
  rfl

theorem Orderly.turn (h : s.Orderly) {change : Watch Bool → Watch Bool}
    (hinstances : t.instances = (s.onStop inst change).instances) (hitems : t.items = s.items)
    (hremovals : t.removals = s.removals) (hfresh : ∀ w : Watch Bool, w.IsFresh → (change w).IsFresh)
    (htold : ∀ i, s.instances[inst]? = some i → s.Stopped inst i → i.stop.IsFresh →
      (change i.stop).Told true)
    (hawaited : ∀ j, t.awaited j ≤ s.awaited j)
    (hlength : ∀ i, s.instances[inst]? = some i →
      t.awaited inst + (change i.stop).receivers.length ≤ 1)
    (hpending : ∀ other j, .replacing other j ∈ s.calls → .replacing other j ∈ t.calls ∨
      j = inst ∧ s.awaited j = 0 ∧ ∀ w : Watch Bool, w.IsFresh → (change w).Told true)
    (hcalls : GoesOn s t → ∀ call ∈ t.calls, t.Knows call) : t.Orderly := by
  have hget : ∀ {j : ℕ} {i : MonitoredInstance}, t.instances[j]? = some i →
      ∃ i₀, s.instances[j]? = some i₀ ∧
        (if inst = j then { i₀ with stop := change i₀.stop } else i₀) = i := by
    intro j i hi
    rw [hinstances, instances_onStop] at hi
    exact Option.map_eq_some_iff.mp hi
  have hto : ∀ {j : ℕ} {i₀ : MonitoredInstance}, s.instances[j]? = some i₀ →
      t.instances[j]? = some (if inst = j then { i₀ with stop := change i₀.stop } else i₀) := by
    intro j i₀ hi₀
    rw [hinstances, instances_onStop, hi₀]
    rfl
  have hstop : ∀ {j : ℕ} {i₀ : MonitoredInstance}, s.instances[j]? = some i₀ →
      s.Stopped j i₀ →
      t.Stopped j (if inst = j then { i₀ with stop := change i₀.stop } else i₀) := by
    intro j i₀ hi₀ hstopped
    refine ⟨Nat.le_zero.mp ((hawaited j).trans_eq hstopped.awaited), ?_⟩
    split
    · rename_i heq
      exact htold i₀ (heq ▸ hi₀) (heq ▸ hstopped) (h.fresh i₀ (List.mem_of_getElem? hi₀))
    · exact hstopped.told
  have hgoesOn : GoesOn s t := by
    refine ⟨fun j i₀ hi₀ => ⟨_, hto hi₀, ?_, ?_, hstop hi₀⟩⟩
    · split <;> rfl
    · split <;> rfl
  refine ⟨fun instanceId j hj => ?_, hcalls hgoesOn, fun i hi => ?_, fun j i hi => ?_,
    fun j i hi => ?_, fun sessionId j hj => hgoesOn.session (h.removals sessionId j ?_)⟩
  · obtain ⟨i₀, hi₀, hid⟩ := h.items instanceId j (hitems ▸ hj)
    obtain ⟨i, hi, hid', -⟩ := hgoesOn.instances j i₀ hi₀
    exact ⟨i, hi, hid'.trans hid⟩
  · obtain ⟨j, hj⟩ := List.getElem?_of_mem hi
    obtain ⟨i₀, hi₀, rfl⟩ := hget hj
    have hfresh₀ := h.fresh i₀ (List.mem_of_getElem? hi₀)
    split
    · exact hfresh _ hfresh₀
    · exact hfresh₀
  · obtain ⟨i₀, hi₀, rfl⟩ := hget hi
    split
    · rename_i heq
      rw [← heq]
      exact hlength i₀ (heq ▸ hi₀)
    · exact (Nat.add_le_add_right (hawaited j) _).trans (h.single j i₀ hi₀)
  · obtain ⟨i₀, hi₀, rfl⟩ := hget hi
    rcases h.kept j i₀ hi₀ with hstored | ⟨other, hother⟩ | hstopped
    · left
      rw [hitems]
      split
      · exact hstored
      · exact hstored
    · rcases hpending other j hother with hmem | ⟨rfl, hzero, hchange⟩
      · exact .inr (.inl ⟨other, hmem⟩)
      · refine .inr (.inr ⟨Nat.le_zero.mp ((hawaited j).trans_eq hzero), ?_⟩)
        rw [if_pos rfl]
        exact hchange _ (h.fresh i₀ (List.mem_of_getElem? hi₀))
    · exact .inr (.inr (hstop hi₀ hstopped))
  · rwa [hremovals] at hj

/-! ## The steps -/

variable {call : ℕ} {stage stage' : MonitorCall}

theorem awaited_setCall (hget : s.calls[call]? = some stage)
    (hawaits : ∀ j, stage.awaits j = stage'.awaits j) (j : ℕ) :
    (s.setCall call stage').awaited j = s.awaited j :=
  countP_set_of_eq hget (hawaits j)

theorem replacing_mem_setCall (hget : s.calls[call]? = some stage)
    (hstage : ∀ other j, stage ≠ .replacing other j) {other j : ℕ}
    (hmem : .replacing other j ∈ s.calls) : .replacing other j ∈ s.calls.set call stage' :=
  (mem_set_of_mem hget hmem).resolve_left fun heq => hstage other j heq.symm

theorem knows_setCall (h : s.Orderly) (hgoesOn : GoesOn s t) (hstage' : t.Knows stage') :
    ∀ c ∈ s.calls.set call stage', t.Knows c := by
  intro c hc
  rcases List.mem_or_eq_of_mem_set hc with hc | rfl
  · exact hgoesOn.knows (h.calls c hc)
  · exact hstage'

theorem Orderly.goOn (h : s.Orderly) (hguard : InOrder s (.goOn call))
    (hstep : s.next (.goOn call) = some t) : t.Orderly := by
  unfold next at hstep
  dsimp only at hstep
  split at hstep
  · -- the replaced instance is signalled
    rename_i inst previous hget
    cases hstep
    have hknows := h.calls _ (List.mem_of_getElem? hget)
    have hspawned : s.awaited previous = 0 := by
      refine hguard.1 previous ?_
      unfold target
      dsimp only
      rw [hget]
      rfl
    have hawaited : ∀ j, ((s.onStop previous (·.send true)).setCall call (.spawning inst)).awaited j =
        s.awaited j := awaited_setCall (s := s.onStop previous (·.send true)) hget fun _ => rfl
    refine h.turn rfl rfl rfl (fun _ => Watch.isFresh_send)
      (fun _ _ _ => Watch.told_send) (fun j => (hawaited j).le) (fun i hi => ?_)
      (fun other j hmem => ?_) fun hgoesOn => knows_setCall (s := s) h hgoesOn (hgoesOn.lt hknows.1)
    · rw [hawaited, Watch.receivers_send]
      exact h.single previous i hi
    · rcases mem_set_of_mem hget hmem with heq | hmem
      · cases heq
        exact .inr ⟨rfl, hspawned, fun _ => Watch.told_send⟩
      · exact .inl hmem
  · -- the monitor is spawned
    rename_i inst hget
    cases hstep
    have hadd : ∀ j, ((s.onStop inst (·.subscribe)).setCall call .returned).awaited j +
        (if MonitorCall.awaits j (.spawning inst) then 1 else 0) = s.awaited j :=
      fun j => countP_set_add hget (·.awaits j) .returned
    have hself := hadd inst
    rw [if_pos (show MonitorCall.awaits inst (.spawning inst) = true from beq_self_eq_true inst)]
      at hself
    refine h.turn rfl rfl rfl (fun _ => Watch.isFresh_subscribe) (fun _ _ hstopped _ => by have := hstopped.awaited; omega)
      (fun j => (Nat.le_add_right _ _).trans_eq (hadd j)) (fun i hi => ?_)
      (fun other j hmem => .inl (replacing_mem_setCall hget nofun hmem))
      fun hgoesOn => knows_setCall (s := s) h hgoesOn trivial
    have hsingle := h.single inst i hi
    show _ + (i.stop.receivers ++ [i.stop.version]).length ≤ 1
    rw [List.length_append, List.length_singleton]
    omega
  · cases hstep

theorem onStop_id (s : MonitorState) : s.instances = (s.onStop 0 id).instances := by
  show _ = s.instances.modify 0 id
  rw [List.modify_id]

theorem Orderly.collect {sessionId : Text} (h : s.Orderly)
    (hstep : s.next (.collect sessionId) = some t) : t.Orderly := by
  cases hstep
  have hawaited : ∀ j, MonitorState.awaited
      { s with calls := s.calls ++ [.removing sessionId s.stored []] } j = s.awaited j := by
    intro j
    show (s.calls ++ [_]).countP _ = _
    rw [List.countP_append]
    rfl
  refine h.turn s.onStop_id rfl rfl (fun _ => id) (fun _ _ hstopped _ => hstopped.told) (fun j => (hawaited j).le)
    (fun i hi => ?_) (fun other j hmem => .inl (List.mem_append_left _ hmem))
    fun hgoesOn call hcall => ?_
  · rw [hawaited]
    exact h.single 0 i hi
  · rcases List.mem_append.mp hcall with hcall | hcall
    · exact hgoesOn.knows (h.calls call hcall)
    · rw [List.mem_singleton.mp hcall]
      exact ⟨fun inst hinst => List.mem_range.mp (List.mem_filter.mp hinst).1, nofun⟩

theorem Orderly.visit {entry : ℕ} (h : s.Orderly) (hguard : InOrder s (.visit call entry))
    (hstep : s.next (.visit call entry) = some t) : t.Orderly := by
  unfold next at hstep
  dsimp only at hstep
  split at hstep
  · rename_i sessionId left removed hget
    obtain ⟨inst, hleft, hinst⟩ := Option.bind_eq_some_iff.mp hstep
    obtain ⟨i, hi, rfl⟩ := Option.map_eq_some_iff.mp hinst
    obtain ⟨hknown, hremoved⟩ := h.calls _ (List.mem_of_getElem? hget)
    have hleft' : ∀ j ∈ left.eraseIdx entry, j < s.instances.length :=
      fun j hj => hknown j (List.mem_of_mem_eraseIdx hj)
    split
    · -- it is of the session
      rename_i hsession
      have hspawned : s.awaited inst = 0 := by
        refine hguard.1 inst ?_
        unfold target
        dsimp only
        rw [hget]
        show (left[entry]?).filter _ = some inst
        rw [hleft, Option.filter_some_pos]
        rw [hi]
        exact decide_eq_true hsession
      have hawaited : ∀ j, ((s.onStop inst (·.send true)).setCall call
          (.removing sessionId (left.eraseIdx entry) (removed ++ [inst]))).awaited j =
          s.awaited j := awaited_setCall (s := s.onStop inst (·.send true)) hget fun _ => rfl
      refine h.turn rfl rfl rfl (fun _ => Watch.isFresh_send)
        (fun _ _ _ => Watch.told_send) (fun j => (hawaited j).le) (fun i hi => ?_)
        (fun other j hmem => .inl (replacing_mem_setCall hget nofun hmem))
        fun hgoesOn => knows_setCall (s := s) h hgoesOn ⟨fun j hj => hgoesOn.lt (hleft' j hj), ?_⟩
      · rw [hawaited, Watch.receivers_send]
        exact h.single inst i hi
      · intro j hj
        rcases List.mem_append.mp hj with hj | hj
        · obtain ⟨k, hk, hksession, hstopped⟩ := hremoved j hj
          obtain ⟨k', hk', -, hksession', hkeep⟩ := hgoesOn.instances j k hk
          exact ⟨k', hk', hksession'.trans hksession, hkeep hstopped⟩
        · rw [List.mem_singleton.mp hj]
          refine ⟨{ i with stop := i.stop.send true }, ?_, hsession, ?_, ?_⟩
          · show (s.onStop inst (·.send true)).instances[inst]? = _
            rw [instances_onStop, hi, Option.map_some, if_pos rfl]
          · rw [hawaited, hspawned]
          · exact Watch.told_send (h.fresh i (List.mem_of_getElem? hi))
    · have hawaited : ∀ j, (s.setCall call
          (.removing sessionId (left.eraseIdx entry) removed)).awaited j = s.awaited j :=
        awaited_setCall hget fun _ => rfl
      refine h.turn s.onStop_id rfl rfl (fun _ => id) (fun _ _ hstopped _ => hstopped.told)
        (fun j => (hawaited j).le) (fun i hi => ?_)
        (fun other j hmem => .inl (replacing_mem_setCall hget nofun hmem))
        fun hgoesOn => knows_setCall (s := s) h hgoesOn (hgoesOn.knows ⟨hleft', hremoved⟩)
      rw [hawaited]
      exact h.single 0 i hi
  · cases hstep

theorem Orderly.changed {monitor : ℕ} (h : s.Orderly)
    (hstep : s.next (.changed inst monitor) = some t) : t.Orderly := by
  obtain ⟨i, hi, hmap⟩ := Option.bind_eq_some_iff.mp hstep
  obtain ⟨stop, hchanged, rfl⟩ := Option.map_eq_some_iff.mp hmap
  have hsame : ∀ change : Watch Bool → Watch Bool, ∀ j,
      (s.onStop inst change).awaited j = s.awaited j := fun _ _ => rfl
  split
  · -- the monitor ends
    refine h.turn rfl rfl rfl (fun _ => Watch.isFresh_drop) (fun _ _ hstopped _ => hstopped.told.drop monitor)
      (fun j => (hsame _ j).le) (fun i hi => ?_) (fun other j hmem => .inl hmem)
      fun hgoesOn call hcall => hgoesOn.knows (h.calls call hcall)
    refine (Nat.add_le_add_left (List.length_eraseIdx_le _ _) _).trans (h.single inst i hi)
  · -- there is nothing but the signal to see
    rename_i hfalse
    have hindex : monitor < i.stop.receivers.length := by
      obtain ⟨seen, hseen, -⟩ := Option.bind_eq_some_iff.mp hchanged
      exact (List.getElem?_eq_some_iff.mp hseen).1
    refine h.turn rfl rfl rfl (fun _ => Watch.isFresh_mark) (fun i' hi' hstopped _ => ?_)
      (fun j => (hsame _ j).le) (fun i hi => ?_) (fun other j hmem => .inl hmem)
      fun hgoesOn call hcall => hgoesOn.knows (h.calls call hcall)
    · rw [hi, Option.some.injEq] at hi'
      have htrue := (hi' ▸ hstopped.told).changed hindex
      rw [hchanged, Option.some.injEq] at htrue
      exact absurd htrue hfalse
    · show s.awaited inst + (i.stop.receivers.set monitor _).length ≤ 1
      rw [List.length_set]
      exact h.single inst i hi

theorem Orderly.store {instanceId sessionId : Text} (h : s.Orderly)
    (hstep : s.next (.store instanceId sessionId) = some t) : t.Orderly := by
  -- the call that has stored the new instance
  obtain ⟨call, hcall, hcalls⟩ : ∃ call : MonitorCall,
      (call = .spawning s.instances.length ∧ s.items instanceId = none ∨
        ∃ previous, call = .replacing s.instances.length previous ∧
          s.items instanceId = some previous) ∧
      t = { s with
        instances := s.instances ++ [⟨instanceId, sessionId, .new false⟩]
        items := Function.update s.items instanceId (some s.instances.length)
        calls := s.calls ++ [call] } := by
    unfold next at hstep
    dsimp only at hstep
    split at hstep
    · rename_i previous hprevious
      cases hstep
      exact ⟨_, .inr ⟨previous, rfl, hprevious⟩, rfl⟩
    · rename_i hnone
      cases hstep
      exact ⟨_, .inl ⟨rfl, hnone⟩, rfl⟩
  subst hcalls
  have hawaits : ∀ j, j < s.instances.length → call.awaits j = false := by
    intro j hj
    rcases hcall with ⟨rfl, -⟩ | ⟨previous, rfl, -⟩
    · exact beq_eq_false_iff_ne.mpr (Nat.ne_of_gt hj)
    · exact beq_eq_false_iff_ne.mpr (Nat.ne_of_gt hj)
  have hawaited : ∀ j, j < s.instances.length →
      (s.calls ++ [call]).countP (·.awaits j) = s.awaited j := by
    intro j hj
    rw [List.countP_append, List.countP_singleton, hawaits j hj]
    rfl
  -- the calls that were there await older instances
  have hnone : s.awaited s.instances.length = 0 := by
    refine List.countP_eq_zero.mpr fun c hc hawait => ?_
    have hknows := h.calls c hc
    cases c with
    | replacing inst previous => exact absurd hknows.1 (by rw [beq_iff_eq.mp hawait]; omega)
    | spawning inst =>
      have hlt : inst < s.instances.length := hknows
      rw [beq_iff_eq.mp hawait] at hlt
      omega
    | removing session left removed => cases hawait
    | returned => cases hawait
  have hgoesOn : GoesOn s { s with
      instances := s.instances ++ [⟨instanceId, sessionId, .new false⟩]
      items := Function.update s.items instanceId (some s.instances.length)
      calls := s.calls ++ [call] } := by
    refine ⟨fun j i hi => ⟨i, ?_, rfl, rfl, fun hstopped => ⟨?_, hstopped.told⟩⟩⟩
    · exact (List.getElem?_append_left (List.getElem?_eq_some_iff.mp hi).1).trans hi
    · exact (hawaited j (List.getElem?_eq_some_iff.mp hi).1).trans hstopped.awaited
  have hlast : (s.instances ++ [⟨instanceId, sessionId, .new false⟩])[s.instances.length]? =
      some ⟨instanceId, sessionId, .new false⟩ := by
    rw [List.getElem?_append_right (Nat.le_refl _), Nat.sub_self]
    rfl
  -- an instance is the new one or an old one
  have hcases : ∀ {j : ℕ} {i : MonitoredInstance},
      (s.instances ++ [⟨instanceId, sessionId, .new false⟩])[j]? = some i →
      s.instances[j]? = some i ∨
        j = s.instances.length ∧ i = ⟨instanceId, sessionId, .new false⟩ := by
    intro j i hi
    rcases Nat.lt_trichotomy j s.instances.length with hlt | rfl | hgt
    · rw [List.getElem?_append_left hlt] at hi
      exact .inl hi
    · rw [hlast, Option.some.injEq] at hi
      exact .inr ⟨rfl, hi.symm⟩
    · have hlength := (List.getElem?_eq_some_iff.mp hi).1
      rw [List.length_append, List.length_singleton] at hlength
      omega
  refine ⟨fun name j hj => ?_, fun c hc => ?_, fun i hi => ?_, fun j i hi => ?_, fun j i hi => ?_,
    fun session j hj => hgoesOn.session (h.removals session j hj)⟩
  · by_cases hname : name = instanceId
    · subst hname
      change Function.update s.items name (some s.instances.length) name = some j at hj
      rw [Function.update_self, Option.some.injEq] at hj
      subst hj
      exact ⟨_, hlast, rfl⟩
    · change Function.update s.items instanceId (some s.instances.length) name = some j at hj
      rw [Function.update_of_ne hname] at hj
      obtain ⟨i, hi, hid⟩ := h.items name j hj
      obtain ⟨i', hi', hid', -⟩ := hgoesOn.instances j i hi
      exact ⟨i', hi', hid'.trans hid⟩
  · rcases List.mem_append.mp hc with hc | hc
    · exact hgoesOn.knows (h.calls c hc)
    · have hlength := (List.getElem?_eq_some_iff.mp hlast).1
      rw [List.mem_singleton.mp hc]
      rcases hcall with ⟨rfl, -⟩ | ⟨previous, rfl, hprevious⟩
      · exact hlength
      · obtain ⟨i, hi, -⟩ := h.items instanceId previous hprevious
        exact ⟨hlength, hgoesOn.lt (List.getElem?_eq_some_iff.mp hi).1⟩
  · rcases List.mem_append.mp hi with hi | hi
    · exact h.fresh i hi
    · rw [List.mem_singleton.mp hi]
      exact nofun
  · show (s.calls ++ [call]).countP (·.awaits j) + _ ≤ 1
    rcases hcases hi with hi | ⟨rfl, rfl⟩
    · rw [hawaited j (List.getElem?_eq_some_iff.mp hi).1]
      exact h.single j i hi
    · rw [List.countP_append, List.countP_singleton]
      show s.awaited _ + _ + 0 ≤ 1
      rw [hnone]
      split <;> omega
  · rcases hcases hi with hi | ⟨rfl, rfl⟩
    · rcases h.kept j i hi with hstored | ⟨other, hother⟩ | hstopped
      · by_cases hname : i.instanceId = instanceId
        · -- the new instance takes its place
          rw [hname] at hstored
          rcases hcall with ⟨-, hnothing⟩ | ⟨previous, rfl, hprevious⟩
          · rw [hnothing] at hstored
            cases hstored
          · rw [hprevious, Option.some.injEq] at hstored
            subst hstored
            exact .inr (.inl ⟨_, List.mem_append_right _ (List.mem_singleton_self _)⟩)
        · exact .inl ((Function.update_of_ne hname ..).trans hstored)
      · exact .inr (.inl ⟨other, List.mem_append_left _ hother⟩)
      · obtain ⟨i', hi', -, -, hkeep⟩ := hgoesOn.instances j i hi
        have hi'' := hi'.symm.trans
          (List.getElem?_append_left (List.getElem?_eq_some_iff.mp hi).1)
        rw [hi, Option.some.injEq] at hi''
        exact .inr (.inr (hi'' ▸ hkeep hstopped))
    · exact .inl (Function.update_self ..)

theorem Orderly.delete (h : s.Orderly) (hguard : InOrder s (.delete call))
    (hstep : s.next (.delete call) = some t) : t.Orderly := by
  unfold next at hstep
  dsimp only at hstep
  split at hstep
  · rename_i sessionId removed hget
    cases hstep
    have hremoved := (h.calls _ (List.mem_of_getElem? hget)).2
    have hcurrent : ∀ inst ∈ removed, s.IsCurrent inst := by
      intro inst hinst
      refine hguard.2 inst ?_
      unfold deleted
      dsimp only
      rw [hget]
      exact hinst
    -- what is stored under a removed id has been signalled
    have hids : ∀ instanceId ∈ s.idsOf removed, ∀ inst, s.items instanceId = some inst →
        inst ∈ removed := by
      intro instanceId hid inst hitems
      obtain ⟨other, hother, hname⟩ := List.mem_filterMap.mp hid
      obtain ⟨i, hi, rfl⟩ := Option.map_eq_some_iff.mp hname
      have hall := hcurrent other hother
      unfold IsCurrent at hall
      rw [hi, Option.all_some, decide_eq_true_eq, hitems] at hall
      rcases hall with heq | heq
      · cases heq
        exact hother
      · cases heq
    have hawaited : ∀ j, (s.setCall call .returned).awaited j = s.awaited j :=
      awaited_setCall hget fun _ => rfl
    have hgoesOn : GoesOn s { s.setCall call .returned with
        items := fun instanceId => if instanceId ∈ s.idsOf removed then none
          else s.items instanceId
        removals := s.removals ++ (s.idsOf removed).filterMap fun instanceId =>
          (s.items instanceId).map (sessionId, ·) } :=
      ⟨fun j i hi => ⟨i, hi, rfl, rfl, fun hstopped =>
        ⟨(hawaited j).trans hstopped.awaited, hstopped.told⟩⟩⟩
    refine ⟨fun name j hj => ?_, knows_setCall (s := s) h hgoesOn trivial, h.fresh,
      fun j i hi => ?_, fun j i hi => ?_, fun session j hj => ?_⟩
    · change (if name ∈ s.idsOf removed then none else s.items name) = some j at hj
      split at hj
      · cases hj
      · exact h.items name j hj
    · show (s.setCall call .returned).awaited j + _ ≤ 1
      rw [hawaited]
      exact h.single j i hi
    · rcases h.kept j i hi with hstored | ⟨other, hother⟩ | hstopped
      · by_cases hid : i.instanceId ∈ s.idsOf removed
        · obtain ⟨i', hi', -, hstopped⟩ := hremoved j (hids _ hid j hstored)
          have heq : i = i' := Option.some.inj (hi.symm.trans hi')
          exact .inr (.inr ⟨(hawaited j).trans hstopped.awaited, heq ▸ hstopped.told⟩)
        · exact .inl ((if_neg hid).trans hstored)
      · exact .inr (.inl ⟨other, replacing_mem_setCall hget nofun hother⟩)
      · exact .inr (.inr ⟨(hawaited j).trans hstopped.awaited, hstopped.told⟩)
    · rcases List.mem_append.mp hj with hj | hj
      · exact h.removals session j hj
      · obtain ⟨name, hname, hmap⟩ := List.mem_filterMap.mp hj
        obtain ⟨other, hitems, heq⟩ := Option.map_eq_some_iff.mp hmap
        cases heq
        obtain ⟨i, hi, hsession, -⟩ := hremoved j (hids name hname j hitems)
        exact ⟨i, hi, hsession⟩
  · cases hstep

theorem Orderly.next {event : MonitorsEvent} (h : s.Orderly) (hguard : InOrder s event)
    (hstep : s.next event = some t) : t.Orderly := by
  cases event with
  | store instanceId sessionId => exact h.store hstep
  | goOn call => exact h.goOn hguard hstep
  | collect sessionId => exact h.collect hstep
  | visit call entry => exact h.visit hguard hstep
  | delete call => exact h.delete hguard hstep
  | changed inst monitor => exact h.changed hstep

end MonitorState

/-- **One live monitor per instance**, in every run in which an instance is signalled after its
monitor has been spawned, and no removal deletes what has taken the place of what it signalled. -/
theorem isTidy_of_inOrder (s : MonitorState)
    (h : (remoteEditState.restrict InOrder).Reachable s) : s.IsTidy := by
  have horderly : s.Orderly := by
    refine Machine.Reachable.induct ?_ (fun _ _ _ _ horderly hstep => ?_) h
    · rintro _ rfl
      exact ⟨nofun, nofun, nofun, nofun, nofun, nofun⟩
    · exact horderly.next hstep.1 hstep.2
  exact horderly.isTidy

def sampleReopen : List MonitorsEvent :=
  [.store "i".toList "s".toList, .goOn 0, .store "i".toList "t".toList, .goOn 1, .goOn 1,
    .changed 0 0, .collect "s".toList, .visit 2 0, .delete 2]

theorem sampleReopen_tidy : ∃ s, MonitorState.IsTidy s ∧ s.IsQuiescent ∧
    s.items "i".toList = some 1 ∧
    s.instances = [⟨"i".toList, "s".toList, ⟨true, 1, []⟩⟩,
      ⟨"i".toList, "t".toList, ⟨false, 0, [0]⟩⟩] := by
  have hrun : ∃ s, Machine.exec (fun s event => if InOrder s event then s.next event else none)
        ⟨[], fun _ => none, [], []⟩ sampleReopen = some s ∧ s.items "i".toList = some 1 ∧
      s.instances = [⟨"i".toList, "s".toList, ⟨true, 1, []⟩⟩,
        ⟨"i".toList, "t".toList, ⟨false, 0, [0]⟩⟩] ∧ s.calls = [.returned, .returned, .returned] :=
    ⟨_, rfl, rfl, rfl, rfl⟩
  obtain ⟨s, hexec, hitems, hinstances, hcalls⟩ := hrun
  have hreach := Machine.reachable_restrict (Machine.reachable_exec hexec)
  refine ⟨s, isTidy_of_inOrder s hreach, ⟨?_, ?_⟩, hitems, hinstances⟩
  · rw [hcalls]
    simp
  · rw [hinstances]
    simp

/-- A file is opened twice, and the second opening replaces the instance of the first before its
monitor has been spawned. -/
theorem sampleReplace_stray : ¬∀ s, remoteEditState.Reachable s → s.IsTidy := by
  intro h
  have hrun : ∃ s, Machine.exec MonitorState.next ⟨[], fun _ => none, [], []⟩
        [.store "i".toList "s".toList, .store "i".toList "t".toList, .goOn 1, .goOn 0, .goOn 1] =
        some s ∧ s.items "i".toList = some 1 ∧
      s.instances = [⟨"i".toList, "s".toList, ⟨false, 0, [0]⟩⟩,
        ⟨"i".toList, "t".toList, ⟨false, 0, [0]⟩⟩] ∧ s.calls = [.returned, .returned] :=
    ⟨_, rfl, rfl, rfl, rfl⟩
  obtain ⟨s, hexec, hitems, hinstances, hcalls⟩ := hrun
  have hquiescent : s.IsQuiescent := by
    refine ⟨?_, ?_⟩
    · rw [hcalls]
      simp
    · rw [hinstances]
      simp
  have hstored := (h s (Machine.reachable_exec hexec)).stored hquiescent 0 _
    (by rw [hinstances]; rfl) (List.cons_ne_nil _ _)
  rw [hitems] at hstored
  cases hstored

end FluxTerm.RemoteEdit
