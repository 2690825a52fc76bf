import FluxTerm.Lib.Machine
import FluxTerm.Lib.Workers

/-!
# FluxTerm — the resource monitors of a session

`ResourceMonitorState` of `src-tauri/src/resource_monitor.rs` for one session id, the commands that
change it, and the tasks that they spawn: `run_local_resource_monitor` and
`run_ssh_resource_monitor`. Between two steps of a call any other call and any task may take theirs.

* **`InTime`** — the condition; **`followsCalls_of_inTime`** — the result on runs.
* **`sampleLateStart_alive`** — a stop comes while the host key is probed.
-/

namespace FluxTerm.Resource

open FluxTerm.Lib

/-! ## The tasks -/

inductive MonitorSource where
  | localHost
  | ssh
deriving DecidableEq

/-- Where a task is. -/
inductive TaskStage where
  | created
  | connecting
  /-- The `select!` before the first sample. -/
  | window
  | firstSample
  /-- The `select!` of the loop. -/
  | waiting
  | sample
  | emit (last : Bool)
  | ended
deriving DecidableEq

structure MonitorTask where
  source : MonitorSource
  call : ℕ
  stage : TaskStage
  /-- `*stop_rx.borrow()`. -/
  told : Bool
  /-- `stop_tx` has been dropped. -/
  dropped : Bool
deriving DecidableEq

/-- What happens to a task. -/
inductive TaskStep where
  /-- `stop_rx.changed()` is ready. -/
  | changed
  /-- The `sleep` or the `tick` is ready. -/
  | elapsed
  | succeeds
  /-- One of them fails, with the code `resource_monitor_unsupported` or with another one. -/
  | fails (unsupported : Bool)
  | emits
deriving DecidableEq

namespace MonitorTask

variable (task : MonitorTask)

def IsAlive : Prop := task.stage ≠ .created ∧ task.stage ≠ .ended

instance : Decidable task.IsAlive := inferInstanceAs (Decidable (_ ∧ _))

/-- `changed()` is ready with a value that has not been seen, or because there is no sender. Without
a stop the task goes on in `stage`. -/
def onChanged (stage : TaskStage) : Option TaskStage :=
  if task.told then some .ended else if task.dropped then some stage else none

/-- One step of a task. -/
def next : TaskStep → Option TaskStage
  | .changed =>
    match task.stage with
    | .window => task.onChanged .firstSample
    | .waiting => task.onChanged .waiting
    | _ => none
  | .elapsed =>
    match task.stage with
    | .window => some .firstSample
    | .waiting => some .sample
    | _ => none
  | .succeeds =>
    match task.stage with
    | .connecting => some .window
    | .firstSample => some (if task.told then .ended else .emit false)
    | .sample => some (.emit false)
    | _ => none
  | .fails unsupported =>
    match task.source, task.stage with
    -- the error is returned, and its event is emitted by the caller
    | .ssh, .connecting | .ssh, .firstSample => some (.emit true)
    | .ssh, .sample => some (if unsupported then .emit true else .waiting)
    | _, _ => none
  | .emits =>
    match task.stage with
    | .emit last => some (if last then .ended else .waiting)
    | _ => none

end MonitorTask

/-! ## The calls -/

inductive MonitorCommandKind where
  | startLocal
  | startSsh
  | stop
  | disconnect
deriving DecidableEq

def MonitorCommandKind.source : MonitorCommandKind → Option MonitorSource
  | startLocal => some .localHost
  | startSsh => some .ssh
  | stop | disconnect => none

/-- Where a call is. -/
inductive CallStage where
  /-- `resolve_ssh_connect_plan`. -/
  | probing
  /-- `stop` has to remove the handle. -/
  | remove
  | signal (task : ℕ)
  | insert
  | spawn (task : ℕ)
  | leaving
  | returned
deriving DecidableEq

structure MonitorCall where
  kind : MonitorCommandKind
  stage : CallStage
deriving DecidableEq

def MonitorCommandKind.issued (kind : MonitorCommandKind) : MonitorCall :=
  ⟨kind, if kind = .startSsh then .probing else .remove⟩

/-- Behind `stop`. -/
def MonitorCommandKind.afterStop (kind : MonitorCommandKind) : CallStage :=
  if kind.source.isSome then .insert else .leaving

structure ResourceMonitors where
  monitors : Option ℕ
  tasks : List MonitorTask
  calls : List MonitorCall
  events : List (ℕ × Bool)

inductive MonitorEvent where
  | issue (kind : MonitorCommandKind)
  | probed (call : ℕ) (ok : Bool)
  | goOn (call : ℕ)
  | task (task : ℕ) (step : TaskStep)
deriving DecidableEq

namespace ResourceMonitors

variable (s : ResourceMonitors)

def setCall (call : ℕ) (c : MonitorCall) (stage : CallStage) : ResourceMonitors :=
  { s with calls := s.calls.set call { c with stage } }

def onTask (task : ℕ) (change : MonitorTask → MonitorTask) : ResourceMonitors :=
  { s with tasks := s.tasks.modify task change }

def register (call : ℕ) (source : MonitorSource) : ResourceMonitors :=
  let tasks := s.monitors.elim s.tasks fun old =>
    s.tasks.modify old fun m => { m with dropped := true }
  { s with
    monitors := some s.tasks.length
    tasks := tasks ++ [⟨source, call, .created, false, false⟩] }

/-- The next step of a call. -/
def goOn (call : ℕ) (c : MonitorCall) : Option ResourceMonitors :=
  match c.stage with
  | .remove => some { s.setCall call c (s.monitors.elim c.kind.afterStop .signal) with
      monitors := none }
  | .signal task => some ((s.onTask task fun m => { m with told := true, dropped := true }).setCall
      call c c.kind.afterStop)
  | .insert => c.kind.source.map fun source =>
    (s.register call source).setCall call c (.spawn s.tasks.length)
  | .spawn task => some ((s.onTask task fun m => { m with
      stage := if m.source = .ssh then .connecting else .window }).setCall call c .leaving)
  | .leaving => some (s.setCall call c .returned)
  | .probing | .returned => none

/-- One step. -/
def next : MonitorEvent → Option ResourceMonitors
  | .issue kind => some { s with calls := s.calls ++ [kind.issued] }
  | .probed call ok => (s.calls[call]?).bind fun c =>
    if c.stage = .probing then some (s.setCall call c (if ok then .remove else .leaving)) else none
  | .goOn call => (s.calls[call]?).bind (s.goOn call)
  | .task task step => (s.tasks[task]?).bind fun m => (m.next step).map fun stage =>
    { s.onTask task fun m => { m with stage } with
      events := if step = .emits then s.events ++ [(task, m.told || m.dropped)] else s.events }

end ResourceMonitors

/-- `ResourceMonitorState` as a machine. -/
def resourceMonitorState : Machine ResourceMonitors MonitorEvent :=
  .ofStep ⟨none, [], [], []⟩ ResourceMonitors.next

/-! ## What is wanted -/

namespace ResourceMonitors

def AllReturned (s : ResourceMonitors) : Prop := ∀ call ∈ s.calls, call.stage = .returned

/-- The tasks follow the calls, and a task that has been stopped or replaced is silent. -/
structure FollowsCalls (s : ResourceMonitors) : Prop where
  registered : s.AllReturned → ∀ (k : ℕ) (task : MonitorTask), s.tasks[k]? = some task →
    task.IsAlive → s.monitors = some k
  unique : s.AllReturned → ∀ (j k : ℕ) (task task' : MonitorTask), s.tasks[j]? = some task →
    s.tasks[k]? = some task' → task.IsAlive → task'.IsAlive → j = k
  stopped : s.AllReturned → ∀ call, s.calls.getLast? = some call → call.kind.source = none →
    ∀ task ∈ s.tasks, ¬task.IsAlive
  silent : ∀ event ∈ s.events, event.2 = false

end ResourceMonitors

/-! ## The condition -/

def MonitorCall.hasRemoved (call : MonitorCall) : Bool :=
  call.kind.source.isNone && call.stage ≠ .remove

def TaskStage.overlooks : TaskStage → TaskStep → Bool
  | .connecting, .fails _ | .firstSample, .fails _ => true
  | .sample, .succeeds | .sample, .fails true => true
  | _, _ => false

def TaskStage.emitting : TaskStage → Bool
  | .emit _ => true
  | _ => false

namespace ResourceMonitors

/-- Where a call may take its next step. -/
def MayGoOn (s : ResourceMonitors) (call : ℕ) (c : MonitorCall) : Prop :=
  match c.stage with
  -- no sender is replaced whose task has not ended, and no later stop has had the lock
  | .insert => (∀ old ∈ s.monitors, ∀ task ∈ s.tasks[old]?, task.stage = .ended) ∧
    ∀ later ∈ s.calls.drop (call + 1), later.hasRemoved = false
  | .signal task => ∀ m ∈ s.tasks[task]?, m.stage.emitting = false
  -- the last call in flight returns when the tasks that it has told have ended
  | .leaving => (∀ other ∈ s.calls.eraseIdx call, other.stage = .returned) →
    ∀ task ∈ s.tasks, task.told = true → ¬task.IsAlive
  | _ => True

instance (s : ResourceMonitors) (call : ℕ) (c : MonitorCall) : Decidable (s.MayGoOn call c) := by
  unfold MayGoOn
  split <;> infer_instance

end ResourceMonitors

def InTime (s : ResourceMonitors) : MonitorEvent → Prop
  | .goOn call => ∀ c ∈ s.calls[call]?, s.MayGoOn call c
  | .task task step => ∀ m ∈ s.tasks[task]?, m.told = true → m.stage.overlooks step = false
  | _ => True

instance (s : ResourceMonitors) (event : MonitorEvent) : Decidable (InTime s event) := by
  unfold InTime
  split <;> infer_instance

/-! ## The invariant -/

namespace ResourceMonitors

structure Orderly (s : ResourceMonitors) : Prop where
  entry : ∀ n, s.monitors = some n → n < s.tasks.length
  call : ∀ task ∈ s.tasks, task.call < s.calls.length
  kept : ∀ (k : ℕ) (task : MonitorTask), s.tasks[k]? = some task → task.stage = .ended ∨
    s.monitors = some k ∨ task.told = true ∨ ∃ call ∈ s.calls, call.stage = .signal k
  told : ∀ task ∈ s.tasks, task.told = true → task.IsAlive → ¬s.AllReturned
  quiet : ∀ task ∈ s.tasks, (task.told || task.dropped) = true → task.stage.emitting = false
  dropped : ∀ task ∈ s.tasks, task.dropped = true → task.told = true ∨ task.stage = .ended
  later : ∀ (n : ℕ) (task : MonitorTask), s.monitors = some n → s.tasks[n]? = some task →
    ∀ (j : ℕ) (call : MonitorCall), s.calls[j]? = some call → call.hasRemoved = true →
      j < task.call
  spawning : ∀ (j : ℕ) (call : MonitorCall) (n : ℕ), s.calls[j]? = some call →
    call.stage = .spawn n → ∃ task, s.tasks[n]? = some task ∧ task.call = j ∧ task.stage = .created
  silent : ∀ event ∈ s.events, event.2 = false

variable {s t : ResourceMonitors} {call : ℕ} {c : MonitorCall}

theorem Orderly.followsCalls (h : s.Orderly) : s.FollowsCalls := by
  have hregistered : s.AllReturned → ∀ (k : ℕ) (task : MonitorTask), s.tasks[k]? = some task →
      task.IsAlive → s.monitors = some k := by
    intro hreturned k task htask halive
    rcases h.kept k task htask with hended | hentry | htold | ⟨call, hcall, hsignal⟩
    · exact absurd hended halive.2
    · exact hentry
    · exact absurd hreturned (h.told task (List.mem_of_getElem? htask) htold halive)
    · rw [hreturned call hcall] at hsignal
      cases hsignal
  refine ⟨hregistered, fun hreturned j k task task' htask htask' halive halive' => ?_,
    fun hreturned call hlast hstop task hmem halive => ?_, h.silent⟩
  · have hj := hregistered hreturned j task htask halive
    rw [hregistered hreturned k task' htask' halive', Option.some.injEq] at hj
    exact hj.symm
  · obtain ⟨k, htask⟩ := List.getElem?_of_mem hmem
    have hentry := hregistered hreturned k task htask halive
    rw [List.getLast?_eq_getElem?] at hlast
    have hremoved : call.hasRemoved = true := by
      have hstage := hreturned call (List.mem_of_getElem? hlast)
      unfold MonitorCall.hasRemoved
      rw [hstop, hstage]
      rfl
    have hlater := h.later k task hentry htask _ call hlast hremoved
    have hlt := h.call task hmem
    omega

/-! ### Steps of the tasks -/

theorem getElem?_onTask (n : ℕ) (change : MonitorTask → MonitorTask) (k : ℕ) :
    (s.onTask n change).tasks[k]? =
      (s.tasks[k]?).map fun m => if n = k then change m else m := by
  show (s.tasks.modify n change)[k]? = _
  rw [List.getElem?_modify]
  rfl

theorem mem_onTask {n : ℕ} {change : MonitorTask → MonitorTask} {task : MonitorTask}
    (h : task ∈ (s.onTask n change).tasks) :
    task ∈ s.tasks ∨ ∃ m, s.tasks[n]? = some m ∧ task = change m := by
  obtain ⟨k, hk⟩ := List.getElem?_of_mem h
  rw [getElem?_onTask] at hk
  obtain ⟨m, hm, heq⟩ := Option.map_eq_some_iff.mp hk
  split at heq
  · rename_i hnk
    exact .inr ⟨m, hnk ▸ hm, heq.symm⟩
  · exact .inl (heq ▸ List.mem_of_getElem? hm)

theorem MonitorTask.next_spec {m : MonitorTask} {step : TaskStep} {stage : TaskStage}
    (hstep : m.next step = some stage) (hlooks : m.told = true → m.stage.overlooks step = false) :
    m.stage ≠ .created ∧ m.stage ≠ .ended ∧ (step = .emits → m.stage.emitting = true) ∧
      stage ≠ .created ∧ (m.told = true → m.stage.emitting = false → stage.emitting = false) := by
  unfold MonitorTask.next at hstep
  cases step with
  | changed =>
    dsimp only at hstep
    split at hstep
    all_goals first | cases hstep | rename_i hstage
    all_goals
      unfold MonitorTask.onChanged at hstep
      rw [hstage]
      split at hstep
      · cases hstep
        exact ⟨nofun, nofun, nofun, nofun, fun _ _ => rfl⟩
      · split at hstep
        · cases hstep
          exact ⟨nofun, nofun, nofun, nofun, fun _ _ => rfl⟩
        · cases hstep
  | elapsed =>
    dsimp only at hstep
    split at hstep
    all_goals
      rename_i hstage
      cases hstep
    all_goals
      rw [hstage]
      exact ⟨nofun, nofun, nofun, nofun, fun _ _ => rfl⟩
  | succeeds =>
    dsimp only at hstep
    split at hstep
    all_goals rename_i hstage
    · cases hstep
      rw [hstage]
      exact ⟨nofun, nofun, nofun, nofun, fun _ _ => rfl⟩
    · -- the signal is looked at behind the first sample
      cases hstep
      rw [hstage]
      refine ⟨nofun, nofun, nofun, ?_, fun htold _ => ?_⟩
      · split <;> nofun
      · rw [if_pos htold]
        rfl
    · cases hstep
      rw [hstage] at hlooks ⊢
      exact ⟨nofun, nofun, nofun, nofun, fun htold _ => absurd (hlooks htold) nofun⟩
    · cases hstep
  | fails unsupported =>
    dsimp only at hstep
    split at hstep
    all_goals rename_i hstage
    · cases hstep
      rw [hstage] at hlooks ⊢
      exact ⟨nofun, nofun, nofun, nofun, fun htold _ => absurd (hlooks htold) nofun⟩
    · cases hstep
      rw [hstage] at hlooks ⊢
      exact ⟨nofun, nofun, nofun, nofun, fun htold _ => absurd (hlooks htold) nofun⟩
    · cases hstep
      rw [hstage] at hlooks ⊢
      cases unsupported with
      | false => exact ⟨nofun, nofun, nofun, nofun, fun _ _ => rfl⟩
      | true => exact ⟨nofun, nofun, nofun, nofun, fun htold _ => absurd (hlooks htold) nofun⟩
    · cases hstep
  | emits =>
    dsimp only at hstep
    split at hstep
    · rename_i last hstage
      cases hstep
      rw [hstage]
      refine ⟨nofun, nofun, fun _ => rfl, ?_, fun _ hemit => absurd hemit nofun⟩
      split <;> nofun
    · cases hstep

theorem Orderly.task {n : ℕ} {step : TaskStep} (h : s.Orderly)
    (hguard : InTime s (.task n step)) (hstep : s.next (.task n step) = some t) : t.Orderly := by
  unfold ResourceMonitors.next at hstep
  dsimp only at hstep
  obtain ⟨m, hm, hstep⟩ := Option.bind_eq_some_iff.mp hstep
  obtain ⟨stage, hstage, rfl⟩ := Option.map_eq_some_iff.mp hstep
  have hmem := List.mem_of_getElem? hm
  obtain ⟨hcreated, hended, hemits, hcreated', hquiet⟩ :=
    MonitorTask.next_spec hstage (hguard m hm)
  have hcases : ∀ {k : ℕ} {task : MonitorTask},
      (s.onTask n fun m => { m with stage }).tasks[k]? = some task →
      (s.tasks[k]? = some task ∧ n ≠ k) ∨ (n = k ∧ task = { m with stage }) := by
    intro k task htask
    rw [getElem?_onTask] at htask
    obtain ⟨m', hm', heq⟩ := Option.map_eq_some_iff.mp htask
    split at heq
    · rename_i hnk
      rw [← hnk, hm, Option.some.injEq] at hm'
      exact .inr ⟨hnk, by rw [← heq, ← hm']⟩
    · exact .inl ⟨heq ▸ hm', ‹_›⟩
  have hall : ∀ {p : MonitorTask → Prop}, (∀ task ∈ s.tasks, p task) → p { m with stage } →
      ∀ task ∈ (s.onTask n fun m => { m with stage }).tasks, p task := by
    intro p hold hnew task htask
    rcases mem_onTask htask with hin | ⟨m', hm', rfl⟩
    · exact hold task hin
    · rw [hm, Option.some.injEq] at hm'
      exact hm' ▸ hnew
  refine ⟨fun k hk => ?_, hall h.call (h.call m hmem), fun k task htask => ?_, hall h.told ?_,
    hall h.quiet ?_, hall h.dropped ?_, fun k task hk htask => ?_, fun j call k hj hspawn => ?_, ?_⟩
  · have hlength : (s.tasks.modify n fun m => { m with stage }).length = s.tasks.length :=
      List.length_modify ..
    show k < (s.tasks.modify n fun m => { m with stage }).length
    rw [hlength]
    exact h.entry k hk
  · rcases hcases htask with ⟨hold, -⟩ | ⟨rfl, rfl⟩
    · exact h.kept k task hold
    · exact (h.kept n m hm).resolve_left hended |> .inr
  · exact fun htold _ => h.told m hmem htold ⟨hcreated, hended⟩
  · intro hstopped
    have hemitting := h.quiet m hmem hstopped
    rw [Bool.or_eq_true] at hstopped
    rcases hstopped with htold | hdropped
    · exact hquiet htold hemitting
    · exact hquiet ((h.dropped m hmem hdropped).resolve_right hended) hemitting
  · intro hdropped
    exact .inl ((h.dropped m hmem hdropped).resolve_right hended)
  · rcases hcases htask with ⟨hold, -⟩ | ⟨rfl, rfl⟩
    · exact h.later k task hk hold
    · exact h.later n m hk hm
  · obtain ⟨task, htask, hcall, hstage'⟩ := h.spawning j call k hj hspawn
    refine ⟨task, ?_, hcall, hstage'⟩
    rw [getElem?_onTask, htask, Option.map_some]
    split
    · rename_i hnk
      rw [← hnk, hm, Option.some.injEq] at htask
      exact absurd (htask ▸ hstage') hcreated
    · rfl
  · intro event hevent
    dsimp only at hevent
    split at hevent
    · rename_i hemit
      rcases List.mem_append.mp hevent with hevent | hevent
      · exact h.silent event hevent
      · rw [List.mem_singleton.mp hevent]
        by_contra hstopped
        have hquiet' := h.quiet m hmem (Bool.not_eq_false _ ▸ hstopped)
        rw [hemits hemit] at hquiet'
        cases hquiet'
    · exact h.silent event hevent

/-! ### Steps of the calls -/

/-- What a step of a call leaves of a task. -/
structure TaskKept (old new : MonitorTask) : Prop where
  call : new.call = old.call
  ended : old.stage = .ended → new.stage = .ended
  told : old.told = true → new.told = true
  quiet : ((old.told || old.dropped) = true → old.stage.emitting = false) →
    (new.told || new.dropped) = true → new.stage.emitting = false
  dropped : (old.dropped = true → old.told = true ∨ old.stage = .ended) →
    new.dropped = true → new.told = true ∨ new.stage = .ended

theorem TaskKept.refl (task : MonitorTask) : TaskKept task task := ⟨rfl, id, id, id, id⟩

theorem getElem?_set_cases {stage : CallStage} {j : ℕ} {other : MonitorCall}
    (h : (s.calls.set call { c with stage })[j]? = some other) :
    (s.calls[j]? = some other ∧ j ≠ call) ∨ (j = call ∧ other = { c with stage }) := by
  by_cases hj : call = j
  · rw [hj, List.getElem?_set] at h
    rw [if_pos rfl] at h
    split at h
    · exact .inr ⟨hj.symm, (Option.some.inj h).symm⟩
    · cases h
  · rw [List.getElem?_set_ne hj] at h
    exact .inl ⟨h, Ne.symm hj⟩

theorem Orderly.move {stage : CallStage} (h : s.Orderly) (hc : s.calls[call]? = some c)
    (hcalls : t.calls = s.calls.set call { c with stage }) (hevents : t.events = s.events)
    (hlength : t.tasks.length = s.tasks.length)
    (htasks : ∀ (k : ℕ) (new : MonitorTask), t.tasks[k]? = some new →
      ∃ old, s.tasks[k]? = some old ∧ TaskKept old new)
    (hcreated : ∀ (k : ℕ) (old : MonitorTask), s.tasks[k]? = some old → old.call ≠ call →
      old.stage = .created → ∃ new, t.tasks[k]? = some new ∧ new.call = old.call ∧
        new.stage = .created)
    (hentry : ∀ k, s.monitors = some k → t.monitors = some k ∨ stage = .signal k)
    (hentry' : ∀ k, t.monitors = some k → s.monitors = some k)
    (hremoved : { c with stage }.hasRemoved = true → c.hasRemoved = true ∨ t.monitors = none)
    (hsignal : ∀ k, c.stage = .signal k → ∀ task, t.tasks[k]? = some task → task.told = true)
    (hspawn : ∀ k, stage ≠ .spawn k)
    (htold : t.AllReturned → ∀ task ∈ t.tasks, task.told = true → ¬task.IsAlive) :
    t.Orderly := by
  have hmem : ∀ {new : MonitorTask}, new ∈ t.tasks → ∃ old ∈ s.tasks, TaskKept old new := by
    intro new hnew
    obtain ⟨k, hk⟩ := List.getElem?_of_mem hnew
    obtain ⟨old, hold, hkept⟩ := htasks k new hk
    exact ⟨old, List.mem_of_getElem? hold, hkept⟩
  refine ⟨fun n hn => ?_, fun new hnew => ?_, fun k new hnew => ?_,
    fun task htask htold' halive hreturned => htold hreturned task htask htold' halive,
    fun new hnew => ?_, fun new hnew => ?_, fun n new hn hnew j other hj hother => ?_,
    fun j other n hj hother => ?_, ?_⟩
  · rw [hlength]
    exact h.entry n (hentry' n hn)
  · obtain ⟨old, hold, hkept⟩ := hmem hnew
    rw [hkept.call, hcalls, List.length_set]
    exact h.call old hold
  · obtain ⟨old, hold, hkept⟩ := htasks k new hnew
    have hlt := (List.getElem?_eq_some_iff.mp hc).1
    rcases h.kept k old hold with hended | hin | htold | ⟨other, hother, hsig⟩
    · exact .inl (hkept.ended hended)
    · rcases hentry k hin with hin | hstage
      · exact .inr (.inl hin)
      · refine .inr (.inr (.inr ⟨{ c with stage }, ?_, hstage⟩))
        rw [hcalls]
        exact List.mem_set hlt _
    · exact .inr (.inr (.inl (hkept.told htold)))
    · rcases mem_set_of_mem (b := { c with stage }) hc hother with rfl | hother
      · exact .inr (.inr (.inl (hsignal k hsig new hnew)))
      · exact .inr (.inr (.inr ⟨other, hcalls ▸ hother, hsig⟩))
  · obtain ⟨old, hold, hkept⟩ := hmem hnew
    exact hkept.quiet (h.quiet old hold)
  · obtain ⟨old, hold, hkept⟩ := hmem hnew
    exact hkept.dropped (h.dropped old hold)
  · obtain ⟨old, hold, hkept⟩ := htasks n new hnew
    rw [hkept.call]
    rw [hcalls] at hj
    rcases getElem?_set_cases hj with ⟨hj, -⟩ | ⟨rfl, rfl⟩
    · exact h.later n old (hentry' n hn) hold j other hj hother
    · rcases hremoved hother with hremoved | hnone
      · exact h.later n old (hentry' n hn) hold j c hc hremoved
      · rw [hnone] at hn
        cases hn
  · rw [hcalls] at hj
    rcases getElem?_set_cases hj with ⟨hj, hne⟩ | ⟨-, rfl⟩
    · obtain ⟨old, hold, hcall, hstage⟩ := h.spawning j other n hj hother
      obtain ⟨new, hnew, hcall', hstage'⟩ := hcreated n old hold (hcall ▸ hne) hstage
      exact ⟨new, hnew, hcall'.trans hcall, hstage'⟩
    · exact absurd hother (hspawn n)
  · rw [hevents]
    exact h.silent

theorem Orderly.moveAlone {stage : CallStage} (h : s.Orderly) (hc : s.calls[call]? = some c)
    (hcalls : t.calls = s.calls.set call { c with stage }) (hevents : t.events = s.events)
    (htasks : t.tasks = s.tasks)
    (hentry : ∀ k, s.monitors = some k → t.monitors = some k ∨ stage = .signal k)
    (hentry' : ∀ k, t.monitors = some k → s.monitors = some k)
    (hremoved : { c with stage }.hasRemoved = true → c.hasRemoved = true ∨ t.monitors = none)
    (hsignal : ∀ k, c.stage ≠ .signal k) (hspawn : ∀ k, stage ≠ .spawn k)
    (htold : t.AllReturned → ∀ task ∈ s.tasks, task.told = true → ¬task.IsAlive) : t.Orderly := by
  apply h.move hc hcalls hevents
  · rw [htasks]
  · intro k new hnew
    exact ⟨new, htasks ▸ hnew, .refl new⟩
  · intro k old hold _ hstage
    exact ⟨old, htasks ▸ hold, rfl, hstage⟩
  · exact hentry
  · exact hentry'
  · exact hremoved
  · intro k hsig
    exact absurd hsig (hsignal k)
  · exact hspawn
  · rw [htasks]
    exact htold

theorem not_allReturned {stage : CallStage} (hc : s.calls[call]? = some c)
    (hcalls : t.calls = s.calls.set call { c with stage }) (hstage : stage ≠ .returned) :
    ¬t.AllReturned := by
  intro hreturned
  refine hstage (hreturned { c with stage } ?_)
  rw [hcalls]
  exact List.mem_set (List.getElem?_eq_some_iff.mp hc).1 _

theorem afterStop_cases (kind : MonitorCommandKind) :
    kind.afterStop = .insert ∨ kind.afterStop = .leaving := by
  unfold MonitorCommandKind.afterStop
  split
  · exact .inl rfl
  · exact .inr rfl

theorem hasRemoved_of_stage {stage : CallStage} (hstage : c.stage ≠ .remove)
    (h : { c with stage }.hasRemoved = true) : c.hasRemoved = true := by
  unfold MonitorCall.hasRemoved at *
  rw [Bool.and_eq_true] at *
  exact ⟨h.1, decide_eq_true hstage⟩

theorem Orderly.remove (h : s.Orderly) (hc : s.calls[call]? = some c) (hstage : c.stage = .remove) :
    { s.setCall call c (s.monitors.elim c.kind.afterStop .signal) with
      monitors := none }.Orderly := by
  have hnext : (∀ k, s.monitors.elim c.kind.afterStop CallStage.signal ≠ .spawn k) ∧
      s.monitors.elim c.kind.afterStop CallStage.signal ≠ .returned := by
    cases s.monitors with
    | none =>
      show (∀ k, c.kind.afterStop ≠ .spawn k) ∧ c.kind.afterStop ≠ .returned
      rcases afterStop_cases c.kind with heq | heq <;> rw [heq] <;> exact ⟨nofun, nofun⟩
    | some n => exact ⟨nofun, nofun⟩
  refine h.moveAlone hc rfl rfl rfl (fun k hk => .inr ?_) nofun (fun _ => .inr rfl) ?_ hnext.1
    (fun hreturned => absurd hreturned (not_allReturned hc rfl hnext.2))
  · rw [hk]
    rfl
  · rw [hstage]
    exact nofun

theorem Orderly.signal {n : ℕ} (h : s.Orderly) (hc : s.calls[call]? = some c)
    (hstage : c.stage = .signal n) (hguard : ∀ m ∈ s.tasks[n]?, m.stage.emitting = false) :
    ((s.onTask n fun m => { m with told := true, dropped := true }).setCall call c
      c.kind.afterStop).Orderly := by
  have hnext : (∀ k, c.kind.afterStop ≠ .spawn k) ∧ (∀ k, c.kind.afterStop ≠ .signal k) ∧
      c.kind.afterStop ≠ .returned := by
    rcases afterStop_cases c.kind with heq | heq <;> rw [heq] <;> exact ⟨nofun, nofun, nofun⟩
  have hget : ∀ k, ((s.onTask n fun m => { m with told := true, dropped := true }).setCall call c
      c.kind.afterStop).tasks[k]? = (s.tasks[k]?).map fun m =>
        if n = k then { m with told := true, dropped := true } else m := getElem?_onTask n _
  refine h.move hc rfl rfl ?_ ?_ ?_ ?_ ?_ ?_ ?_ ?_ ?_
  · exact List.length_modify ..
  · intro k new hnew
    rw [hget] at hnew
    obtain ⟨old, hold, rfl⟩ := Option.map_eq_some_iff.mp hnew
    refine ⟨old, hold, ?_⟩
    split
    · rename_i hnk
      exact ⟨rfl, id, fun _ => rfl, fun _ _ => hguard old (hnk ▸ hold), fun _ _ => .inl rfl⟩
    · exact .refl old
  · intro k old hold _ hcreated
    refine ⟨_, (hget k).trans (congrArg _ hold), ?_, ?_⟩
    · dsimp only
      split <;> rfl
    · dsimp only
      split <;> exact hcreated
  · exact fun k hk => .inl hk
  · exact fun k hk => hk
  · refine fun hother => .inl (hasRemoved_of_stage ?_ hother)
    rw [hstage]
    nofun
  · intro k hk task htask
    rw [hstage] at hk
    cases hk
    rw [hget] at htask
    obtain ⟨old, -, rfl⟩ := Option.map_eq_some_iff.mp htask
    rw [if_pos rfl]
  · exact hnext.1
  · exact fun hreturned => absurd hreturned (not_allReturned hc rfl hnext.2.2)

theorem Orderly.spawn {n : ℕ} (h : s.Orderly) (hc : s.calls[call]? = some c)
    (hstage : c.stage = .spawn n) :
    ((s.onTask n fun m => { m with
      stage := if m.source = .ssh then .connecting else .window }).setCall call c
      .leaving).Orderly := by
  obtain ⟨task, htask, hcall, hcreated⟩ := h.spawning call c n hc hstage
  have hget : ∀ k, ((s.onTask n fun m => { m with
      stage := if m.source = .ssh then .connecting else .window }).setCall call c
      .leaving).tasks[k]? = (s.tasks[k]?).map fun m =>
        if n = k then { m with stage := if m.source = .ssh then .connecting else .window }
        else m := getElem?_onTask n _
  have hstages :
      (if task.source = .ssh then TaskStage.connecting else .window).emitting = false := by
    split <;> rfl
  refine h.move hc rfl rfl ?_ ?_ ?_ ?_ ?_ ?_ ?_ ?_ ?_
  · exact List.length_modify ..
  · intro k new hnew
    rw [hget] at hnew
    obtain ⟨old, hold, rfl⟩ := Option.map_eq_some_iff.mp hnew
    refine ⟨old, hold, ?_⟩
    split
    · rename_i hnk
      rw [← hnk, htask, Option.some.injEq] at hold
      subst hold
      refine ⟨rfl, fun hended => ?_, id, fun _ _ => hstages, fun hdropped hold => ?_⟩
      · rw [hcreated] at hended
        cases hended
      · refine (hdropped hold).imp_right fun hended => ?_
        rw [hcreated] at hended
        cases hended
    · exact .refl old
  · intro k old hold hne hstage'
    refine ⟨old, ?_, rfl, hstage'⟩
    rw [hget, hold, Option.map_some, if_neg]
    rintro rfl
    rw [htask, Option.some.injEq] at hold
    exact hne (hold ▸ hcall)
  · exact fun k hk => .inl hk
  · exact fun k hk => hk
  · refine fun hother => .inl (hasRemoved_of_stage ?_ hother)
    rw [hstage]
    nofun
  · intro k hk
    rw [hstage] at hk
    cases hk
  · exact nofun
  · exact fun hreturned => absurd hreturned (not_allReturned hc rfl nofun)

theorem Orderly.leave (h : s.Orderly) (hc : s.calls[call]? = some c) (hstage : c.stage = .leaving)
    (hguard : (∀ other ∈ s.calls.eraseIdx call, other.stage = .returned) →
      ∀ task ∈ s.tasks, task.told = true → ¬task.IsAlive) :
    (s.setCall call c .returned).Orderly := by
  refine h.moveAlone hc rfl rfl rfl (fun k hk => .inl hk) (fun k hk => hk) (fun hother => .inl ?_)
    ?_ nofun (fun hreturned => hguard fun other hother => ?_)
  · apply hasRemoved_of_stage _ hother
    rw [hstage]
    nofun
  · rw [hstage]
    exact nofun
  · obtain ⟨j, hne, hj⟩ := List.mem_eraseIdx_iff_getElem?.mp hother
    apply hreturned other
    apply List.mem_of_getElem? (i := j)
    show (s.calls.set call _)[j]? = some other
    rw [List.getElem?_set_ne (Ne.symm hne)]
    exact hj

theorem Orderly.insert {source : MonitorSource} (h : s.Orderly) (hc : s.calls[call]? = some c)
    (hstage : c.stage = .insert) (hsource : c.kind.source = some source)
    (hold : ∀ old ∈ s.monitors, ∀ task ∈ s.tasks[old]?, task.stage = .ended)
    (hlater : ∀ later ∈ s.calls.drop (call + 1), later.hasRemoved = false) :
    ((s.register call source).setCall call c (.spawn s.tasks.length)).Orderly := by
  have hlt := (List.getElem?_eq_some_iff.mp hc).1
  unfold register
  -- the old tasks, as they are now
  obtain ⟨tasks, htasks⟩ : ∃ tasks, tasks = s.monitors.elim s.tasks fun old =>
      s.tasks.modify old fun m => { m with dropped := true } := ⟨_, rfl⟩
  dsimp only
  rw [← htasks]
  have hget : ∀ (k : ℕ) (new : MonitorTask), tasks[k]? = some new → ∃ old,
      s.tasks[k]? = some old ∧ TaskKept old new ∧ new.stage = old.stage ∧ new.told = old.told ∧
        (s.monitors = some k → old.stage = .ended) := by
    intro k new hnew
    rw [htasks] at hnew
    cases hentry : s.monitors with
    | none =>
      rw [hentry] at hnew
      exact ⟨new, hnew, .refl new, rfl, rfl, nofun⟩
    | some n =>
      rw [hentry] at hnew
      change (s.tasks.modify n _)[k]? = some new at hnew
      rw [List.getElem?_modify] at hnew
      obtain ⟨old, hk, rfl⟩ := Option.map_eq_some_iff.mp hnew
      refine ⟨old, hk, ?_⟩
      split
      · rename_i hnk
        have hended := hold n hentry old (hnk ▸ hk)
        have hemitting : old.stage.emitting = false := by
          rw [hended]
          rfl
        exact ⟨⟨rfl, id, id, fun _ _ => hemitting, fun _ _ => .inr hended⟩, rfl, rfl,
          fun _ => hended⟩
      · rename_i hnk
        exact ⟨.refl old, rfl, rfl, fun heq => absurd (Option.some.inj heq) hnk⟩
  have hlength : tasks.length = s.tasks.length := by
    rw [htasks]
    cases s.monitors with
    | none => rfl
    | some n => exact List.length_modify ..
  have hcases : ∀ {k : ℕ} {new : MonitorTask},
      (tasks ++ [⟨source, call, .created, false, false⟩])[k]? = some new →
      tasks[k]? = some new ∨
        (k = s.tasks.length ∧ new = ⟨source, call, .created, false, false⟩) := by
    intro k new hnew
    rw [List.getElem?_append, hlength] at hnew
    split at hnew
    · exact .inl hnew
    · have hnew' := List.mem_singleton.mp (List.mem_of_getElem? hnew)
      have hzero := (List.getElem?_eq_some_iff.mp hnew).1
      rw [List.length_singleton] at hzero
      exact .inr ⟨by omega, hnew'⟩
  have hmem : ∀ {p : MonitorTask → Prop},
      (∀ (k : ℕ) (new : MonitorTask), tasks[k]? = some new → p new) →
      p ⟨source, call, .created, false, false⟩ →
      ∀ new ∈ tasks ++ [⟨source, call, .created, false, false⟩], p new := by
    intro p hp hnew new hin
    obtain ⟨k, hk⟩ := List.getElem?_of_mem hin
    rcases hcases hk with hk | ⟨-, rfl⟩
    · exact hp k new hk
    · exact hnew
  refine ⟨?_, ?_, ?_, ?_, ?_, ?_, fun n new hn hnew j other hj hother => ?_,
    fun j other n hj hother => ?_, h.silent⟩
  · intro n hn
    cases hn
    show s.tasks.length < (tasks ++ [_]).length
    rw [List.length_append, hlength, List.length_singleton]
    omega
  · apply hmem
    · intro k new hk
      obtain ⟨old, hk, hkept, -⟩ := hget k new hk
      show new.call < (s.calls.set call _).length
      rw [hkept.call, List.length_set]
      exact h.call old (List.mem_of_getElem? hk)
    · show call < (s.calls.set call _).length
      rw [List.length_set]
      exact hlt
  · intro k new hnew
    rcases hcases hnew with hk | ⟨rfl, rfl⟩
    · obtain ⟨old, hk, hkept, -, -, hended⟩ := hget k new hk
      rcases h.kept k old hk with hend | hentry | htold | ⟨other, hother, hsignal⟩
      · exact .inl (hkept.ended hend)
      · exact .inl (hkept.ended (hended hentry))
      · exact .inr (.inr (.inl (hkept.told htold)))
      · rcases mem_set_of_mem (b := { c with stage := .spawn s.tasks.length }) hc hother with
          rfl | hother
        · rw [hstage] at hsignal
          cases hsignal
        · exact .inr (.inr (.inr ⟨other, hother, hsignal⟩))
    · exact .inr (.inl rfl)
  · intro new _ _ _ hreturned
    have hcalls : { s with
        calls := s.calls.set call { c with stage := .spawn s.tasks.length } }.calls =
          s.calls.set call { c with stage := .spawn s.tasks.length } := rfl
    exact not_allReturned hc hcalls nofun hreturned
  · apply hmem
    · intro k new hk
      obtain ⟨old, hk, hkept, -⟩ := hget k new hk
      exact hkept.quiet (h.quiet old (List.mem_of_getElem? hk))
    · exact fun _ => rfl
  · apply hmem
    · intro k new hk
      obtain ⟨old, hk, hkept, -⟩ := hget k new hk
      exact hkept.dropped (h.dropped old (List.mem_of_getElem? hk))
    · exact nofun
  · -- the call of the new task comes after the stops that have had the lock
    cases hn
    rcases hcases hnew with hk | ⟨-, rfl⟩
    · obtain ⟨old, hk, -⟩ := hget _ new hk
      have := (List.getElem?_eq_some_iff.mp hk).1
      omega
    · rcases getElem?_set_cases hj with ⟨hj, hne⟩ | ⟨-, rfl⟩
      · by_contra hge
        have hdrop : other ∈ s.calls.drop (call + 1) := by
          refine List.mem_of_getElem? (i := j - (call + 1)) ?_
          rw [List.getElem?_drop]
          have : call + 1 + (j - (call + 1)) = j := by
            have : ¬j < call := hge
            omega
          rw [this]
          exact hj
        rw [hlater other hdrop] at hother
        cases hother
      · unfold MonitorCall.hasRemoved at hother
        rw [hsource] at hother
        cases hother
  · rcases getElem?_set_cases hj with ⟨hj, -⟩ | ⟨rfl, rfl⟩
    · obtain ⟨old, hk, hcall, hcreated⟩ := h.spawning j other n hj hother
      have hn := (List.getElem?_eq_some_iff.mp hk).1
      obtain ⟨new, hnew⟩ : ∃ new, tasks[n]? = some new :=
        ⟨_, List.getElem?_eq_getElem (hlength ▸ hn)⟩
      obtain ⟨old', hk', hkept, hstage', -⟩ := hget n new hnew
      rw [hk, Option.some.injEq] at hk'
      subst hk'
      refine ⟨new, ?_, hkept.call.trans hcall, hstage'.trans hcreated⟩
      exact (List.getElem?_append_left (hlength ▸ hn)).trans hnew
    · cases hother
      refine ⟨⟨source, j, .created, false, false⟩, ?_, rfl, rfl⟩
      show (tasks ++ [_])[s.tasks.length]? = _
      rw [← hlength, List.getElem?_concat_length]

theorem Orderly.goOn (h : s.Orderly) (hc : s.calls[call]? = some c) (hguard : s.MayGoOn call c)
    (hstep : s.goOn call c = some t) : t.Orderly := by
  unfold ResourceMonitors.goOn at hstep
  unfold MayGoOn at hguard
  cases hstage : c.stage with
  | remove =>
    rw [hstage] at hstep
    cases hstep
    exact h.remove hc hstage
  | signal n =>
    rw [hstage] at hstep hguard
    cases hstep
    exact h.signal hc hstage hguard
  | insert =>
    rw [hstage] at hstep hguard
    obtain ⟨source, hsource, rfl⟩ := Option.map_eq_some_iff.mp hstep
    exact h.insert hc hstage hsource hguard.1 hguard.2
  | spawn n =>
    rw [hstage] at hstep
    cases hstep
    exact h.spawn hc hstage
  | leaving =>
    rw [hstage] at hstep hguard
    cases hstep
    exact h.leave hc hstage hguard
  | probing => rw [hstage] at hstep; cases hstep
  | returned => rw [hstage] at hstep; cases hstep

theorem Orderly.probed {ok : Bool} (h : s.Orderly) (hc : s.calls[call]? = some c)
    (hstage : c.stage = .probing) :
    (s.setCall call c (if ok then .remove else .leaving)).Orderly := by
  have hnext : (∀ k, (if ok then CallStage.remove else .leaving) ≠ .spawn k) ∧
      (if ok then CallStage.remove else .leaving) ≠ .returned := by
    cases ok <;> exact ⟨nofun, nofun⟩
  refine h.moveAlone hc rfl rfl rfl (fun k hk => .inl hk) (fun k hk => hk) (fun hother => .inl ?_)
    ?_ hnext.1 (fun hreturned => absurd hreturned (not_allReturned hc rfl hnext.2))
  · apply hasRemoved_of_stage _ hother
    rw [hstage]
    nofun
  · rw [hstage]
    exact nofun

theorem Orderly.issue (h : s.Orderly) (kind : MonitorCommandKind) :
    { s with calls := s.calls ++ [kind.issued] }.Orderly := by
  have hcases : ∀ {j : ℕ} {other : MonitorCall}, (s.calls ++ [kind.issued])[j]? = some other →
      s.calls[j]? = some other ∨ other = kind.issued := by
    intro j other hj
    rw [List.getElem?_append] at hj
    split at hj
    · exact .inl hj
    · exact .inr (List.mem_singleton.mp (List.mem_of_getElem? hj))
  refine ⟨h.entry, fun task htask => ?_, fun k task htask => ?_, fun task _ _ _ hreturned => ?_,
    h.quiet, h.dropped, fun n task hn htask j other hj hother => ?_,
    fun j other n hj hother => ?_, h.silent⟩
  · show task.call < (s.calls ++ [_]).length
    rw [List.length_append]
    exact Nat.lt_add_right _ (h.call task htask)
  · rcases h.kept k task htask with hended | hentry | htold | ⟨other, hother, hsignal⟩
    · exact .inl hended
    · exact .inr (.inl hentry)
    · exact .inr (.inr (.inl htold))
    · exact .inr (.inr (.inr ⟨other, List.mem_append_left _ hother, hsignal⟩))
  · have hnew := hreturned _ (List.mem_append_right _ (List.mem_singleton_self _))
    cases kind <;> cases hnew
  · rcases hcases hj with hj | rfl
    · exact h.later n task hn htask j other hj hother
    · cases kind <;> cases hother
  · rcases hcases hj with hj | rfl
    · exact h.spawning j other n hj hother
    · cases kind <;> cases hother

theorem Orderly.next {event : MonitorEvent} (h : s.Orderly) (hguard : InTime s event)
    (hstep : s.next event = some t) : t.Orderly := by
  cases event with
  | issue kind =>
    cases hstep
    exact h.issue kind
  | probed call ok =>
    obtain ⟨c, hc, hstep⟩ := Option.bind_eq_some_iff.mp hstep
    split at hstep
    · rename_i hstage
      cases hstep
      exact h.probed hc hstage
    · cases hstep
  | goOn call =>
    obtain ⟨c, hc, hstep⟩ := Option.bind_eq_some_iff.mp hstep
    exact h.goOn hc (hguard c hc) hstep
  | task n step => exact h.task hguard hstep

end ResourceMonitors

/-! ## The result -/

/-- **Monitors follow start and stop**, in every run in which the calls go on where they may and no
task overlooks its signal. -/
theorem followsCalls_of_inTime {s : ResourceMonitors}
    (h : (resourceMonitorState.restrict InTime).Reachable s) : s.FollowsCalls := by
  have horderly : s.Orderly := by
    refine h.induct (fun s hs => ?_) fun s event t _ horderly hstep => ?_
    · rw [hs]
      exact ⟨nofun, List.forall_mem_nil _, nofun, List.forall_mem_nil _, List.forall_mem_nil _,
        List.forall_mem_nil _, nofun, nofun, List.forall_mem_nil _⟩
    · exact horderly.next hstep.1 hstep.2
  exact horderly.followsCalls

/-- A local monitor is started, emits an event, and is stopped. -/
theorem sampleStop_followsCalls : ∃ s : ResourceMonitors, s.FollowsCalls ∧ s.AllReturned ∧
    s.events = [(0, false)] ∧ s.tasks = [⟨.localHost, 0, .ended, true, true⟩] := by
  have hrun : ∃ s, Machine.exec
        (fun s event => if InTime s event then ResourceMonitors.next s event else none)
        ⟨none, [], [], []⟩
        [.issue .startLocal, .goOn 0, .goOn 0, .goOn 0, .goOn 0, .task 0 .elapsed,
          .task 0 .succeeds, .task 0 .emits, .issue .stop, .goOn 1, .goOn 1, .task 0 .changed,
          .goOn 1] = some s ∧
      s.calls = [⟨.startLocal, .returned⟩, ⟨.stop, .returned⟩] ∧ s.events = [(0, false)] ∧
      s.tasks = [⟨.localHost, 0, .ended, true, true⟩] := ⟨_, rfl, rfl, rfl, rfl⟩
  obtain ⟨s, hexec, hcalls, hevents, htasks⟩ := hrun
  refine ⟨s, followsCalls_of_inTime (Machine.reachable_restrict (Machine.reachable_exec hexec)),
    ?_, hevents, htasks⟩
  unfold ResourceMonitors.AllReturned
  rw [hcalls]
  simp

/-- A monitor is started over SSH, and is stopped while the host key is probed: it runs on, and
has no signal to find. -/
theorem sampleLateStart_alive : ¬∀ s, resourceMonitorState.Reachable s → s.FollowsCalls := by
  intro h
  have hrun : ∃ s, Machine.exec ResourceMonitors.next ⟨none, [], [], []⟩
        [.issue .startSsh, .issue .stop, .goOn 1, .goOn 1, .probed 0 true, .goOn 0, .goOn 0,
          .goOn 0, .goOn 0] = some s ∧
      s.calls = [⟨.startSsh, .returned⟩, ⟨.stop, .returned⟩] ∧
      s.tasks = [⟨.ssh, 0, .connecting, false, false⟩] := ⟨_, rfl, rfl, rfl⟩
  obtain ⟨s, hexec, hcalls, htasks⟩ := hrun
  have hreturned : s.AllReturned := by
    unfold ResourceMonitors.AllReturned
    rw [hcalls]
    simp
  refine (h s (Machine.reachable_exec hexec)).stopped hreturned ⟨.stop, .returned⟩ ?_ rfl
    ⟨.ssh, 0, .connecting, false, false⟩ ?_ ⟨nofun, nofun⟩
  · rw [hcalls]
    rfl
  · rw [htasks]
    exact List.mem_singleton_self _

end FluxTerm.Resource
