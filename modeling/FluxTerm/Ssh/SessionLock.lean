import FluxTerm.Ssh.SessionTunnels

/-!
# FluxTerm — who holds the connection

Who is in the queue of the lock, and when a transfer keeps the loop out of it. The loop asks for
the connection in two places: for the final disconnect, under a deadline, and for a remote tunnel,
without one.
-/

namespace FluxTerm.Ssh

open FluxTerm.Engine FluxTerm.Lib FluxTerm.Sftp

/-! ## Transfers and remote tunnels -/

namespace SessionCommand

def isTransfer : SessionCommand → Bool
  | transfer _ => true
  | _ => false

def isRemoteOpen : SessionCommand → Bool
  | tunnelOpen spec => spec.kind = .remote
  | _ => false

end SessionCommand

def LoopStage.isClosing : LoopStage → Bool
  | closing => true
  | _ => false

namespace SessionRun

variable (s : SessionRun)

/-- A transfer holds the connection. -/
def TransferHolds : Prop :=
  ∃ index task, s.lock.head? = some (.task index) ∧ s.tasks[index]? = some task ∧
    task.isTransfer = true

def TransfersDone : Prop := ∀ task ∈ s.tasks, task.isTransfer = true → task.stage = .finished

end SessionRun

def AsksAlone (s : SessionRun) : SessionEvent → Prop
  | .send command =>
    command.isRemoteOpen = true → s.stage.isGone = false → .disconnect ∉ s.rx →
      (∀ c ∈ s.rx, c.isTransfer = false) ∧ s.TransfersDone
  | .loop _ => s.stage.isClosing = true → s.TransfersDone
  | _ => True

instance (s : SessionRun) : Decidable s.TransfersDone :=
  inferInstanceAs (Decidable (∀ task ∈ s.tasks, task.isTransfer = true → task.stage = .finished))

instance (s : SessionRun) : ∀ event, Decidable (AsksAlone s event)
  | .send _ => inferInstanceAs (Decidable (_ → _ → _ → _ ∧ s.TransfersDone))
  | .loop _ => inferInstanceAs (Decidable (_ → s.TransfersDone))
  | .task _ _ | .tunnel _ _ | .channel _ | .forward _ _ => .isTrue trivial

/-! ## The places of the tasks in the queue -/

variable {request : SessionLoopRequest} {s s' : SessionRun}

def TaskLock (s : SessionRun) : Prop :=
  ∀ i, s.lock.count (.task i) = if (s.tasks[i]?).any (·.stage = .locked) then 1 else 0

theorem TaskLock.same (h : TaskLock s) (htasks : s'.tasks = s.tasks)
    (hlock : ∀ i, s'.lock.count (.task i) = s.lock.count (.task i)) : TaskLock s' := by
  intro i
  rw [hlock, htasks]
  exact h i

theorem TaskMove.count {index i : ℕ} {lock lock' : List LockUser} {stage stage' : TaskStage}
    (h : TaskMove index lock stage stage' lock') :
    (i ≠ index → lock'.count (.task i) = lock.count (.task i)) ∧
      (lock.count (.task index) = (if stage = .locked then 1 else 0) →
        lock'.count (.task index) = if stage' = .locked then 1 else 0) := by
  cases h with
  | request =>
    constructor
    · intro hi
      have hne : ¬LockUser.task index = LockUser.task i := by
        intro h
        exact hi (LockUser.task.inj h).symm
      rw [List.count_append, List.count_singleton]
      simp [hne]
    · intro hcount
      rw [List.count_append, hcount, List.count_singleton]
      simp
  | work => exact ⟨fun _ => rfl, id⟩
  | done =>
    constructor
    · intro hi
      have hne : LockUser.task i ≠ LockUser.task index := fun h => hi (LockUser.task.inj h)
      exact List.count_erase_of_ne hne
    · intro hcount
      rw [List.count_erase_self, hcount]
      rfl

theorem TaskMove.count_loop {index : ℕ} {lock lock' : List LockUser} {stage stage' : TaskStage}
    (h : TaskMove index lock stage stage' lock') : lock'.count .loop = lock.count .loop := by
  cases h with
  | request => simp
  | work => rfl
  | done =>
    have hne : LockUser.loop ≠ LockUser.task index := nofun
    exact List.count_erase_of_ne hne

theorem TaskLock.task {index : ℕ} {task : SftpTask} {event : TaskEvent} (h : TaskLock s)
    (hget : s.tasks[index]? = some task) (hstep : s.taskNext index task event = some s') :
    TaskLock s' := by
  obtain ⟨task', lock, new, rfl, hmove, -⟩ := SessionRun.taskNext_effect hstep
  have hindex : index < s.tasks.length := (List.getElem?_eq_some_iff.mp hget).1
  intro i
  show lock.count (.task i) =
    if ((s.tasks.set index task')[i]?).any (·.stage = .locked) then 1 else 0
  by_cases hi : i = index
  · -- the task itself
    subst hi
    have hown := h i
    rw [hget] at hown
    rw [List.getElem?_set_self hindex]
    have hcount := (hmove.count (i := i)).2
    simp only [Option.any_some, decide_eq_true_eq] at hown ⊢
    exact hcount hown
  · rw [List.getElem?_set_ne (Ne.symm hi), ← h i]
    exact hmove.count.1 hi

/-! ## Transfers that are over -/

theorem SessionRun.TransfersDone.task {index : ℕ} {task : SftpTask} {event : TaskEvent}
    (h : s.TransfersDone) (hget : s.tasks[index]? = some task)
    (hstep : s.taskNext index task event = some s') : s'.TransfersDone := by
  obtain ⟨task', lock, new, rfl, hmove, htransfer, -⟩ := SessionRun.taskNext_effect hstep
  intro other hother hisTransfer
  rcases List.mem_or_eq_of_mem_set hother with hold | rfl
  · exact h other hold hisTransfer
  · -- a transfer that takes a step is not over
    rw [htransfer] at hisTransfer
    have hfinished := h task (List.mem_of_getElem? hget) hisTransfer
    rw [hfinished] at hmove
    cases hmove

theorem SftpTask.cancel_stage (transferId : Text) (task : SftpTask) :
    (task.cancel transferId).stage = task.stage := by
  unfold cancel
  split
  · split <;> rfl
  · rfl

theorem SftpTask.cancel_isTransfer (transferId : Text) (task : SftpTask) :
    (task.cancel transferId).isTransfer = task.isTransfer := by
  obtain ⟨body, stage, listed⟩ := task
  cases body with
  | request sftpRequest => rfl
  | transfer id job =>
    unfold cancel
    dsimp only
    split <;> rfl

theorem SessionRun.TransfersDone.cancel (h : s.TransfersDone) (transferId : Text)
    (htasks : s'.tasks = s.tasks.map (·.cancel transferId)) : s'.TransfersDone := by
  intro task htask hisTransfer
  rw [htasks] at htask
  obtain ⟨before, hbefore, rfl⟩ := List.mem_map.mp htask
  rw [SftpTask.cancel_isTransfer] at hisTransfer
  rw [SftpTask.cancel_stage]
  exact h before hbefore hisTransfer

theorem SessionRun.TransfersDone.spawn (h : s.TransfersDone) {sftpRequest : SftpRequest}
    (htasks : s'.tasks = s.tasks ++ [⟨.request sftpRequest, .spawned, false⟩]) :
    s'.TransfersDone := by
  intro task htask hisTransfer
  rw [htasks] at htask
  rcases List.mem_append.mp htask with hold | hnew
  · exact h task hold hisTransfer
  · rw [List.mem_singleton.mp hnew] at hisTransfer
    cases hisTransfer

theorem SessionRun.TransfersDone.same (h : s.TransfersDone) (htasks : s'.tasks = s.tasks) :
    s'.TransfersDone := by
  unfold TransfersDone
  rw [htasks]
  exact h

theorem TaskLock.cancel (h : TaskLock s) (transferId : Text)
    (htasks : s'.tasks = s.tasks.map (·.cancel transferId)) (hlock : s'.lock = s.lock) :
    TaskLock s' := by
  intro i
  rw [hlock, htasks, h i, List.getElem?_map]
  cases s.tasks[i]? with
  | none => rfl
  | some task => simp [SftpTask.cancel_stage]

theorem TaskLock.spawn {body : TaskBody} {listed : Bool} (h : TaskLock s)
    (htasks : s'.tasks = s.tasks ++ [⟨body, .spawned, listed⟩]) (hlock : s'.lock = s.lock) :
    TaskLock s' := by
  intro i
  rw [hlock, htasks, h i]
  rcases Nat.lt_trichotomy i s.tasks.length with hlt | rfl | hgt
  · rw [List.getElem?_append_left hlt]
  · simp
  · rw [List.getElem?_append_right (Nat.le_of_lt hgt), List.getElem?_eq_none (Nat.le_of_lt hgt),
      List.getElem?_eq_none (by rw [List.length_singleton]; omega)]

/-! ## The loop asks alone -/

def SessionRun.live (s : SessionRun) : List SessionCommand :=
  if s.stage.isGone then [] else s.rx.takeWhile (· ≠ .disconnect)

/-- The loop never asks for the connection while a transfer runs. -/
structure Alone (s : SessionRun) : Prop where
  loopLock : SessionRun.LoopLock s
  taskLock : TaskLock s
  order : s.live.Pairwise fun c d => c.isTransfer = true → d.isRemoteOpen = false
  opens : ∀ c ∈ s.live, c.isRemoteOpen = true → s.TransfersDone
  asked : s.stage.wantsLock = true ∨ s.stage.isRouting = true → s.TransfersDone

theorem Alone.start : Alone .start where
  loopLock := rfl
  taskLock _ := rfl
  order := .nil
  opens _ hc := by cases hc
  asked h := by
    rcases h with h | h
    · cases h
    · cases h

theorem Alone.same (h : Alone s) (hstage : s'.stage = s.stage) (hrx : s'.rx = s.rx)
    (hloop : s'.lock.count .loop = s.lock.count .loop) (htaskLock : TaskLock s')
    (hdone : s.TransfersDone → s'.TransfersDone) : Alone s' := by
  have hlive : s'.live = s.live := by
    unfold SessionRun.live
    rw [hstage, hrx]
  refine ⟨?_, htaskLock, hlive ▸ h.order, ?_, ?_⟩
  · unfold SessionRun.LoopLock
    rw [hstage, hloop]
    exact h.loopLock
  · intro c hc hopen
    rw [hlive] at hc
    exact hdone (h.opens c hc hopen)
  · rw [hstage]
    exact fun hasked => hdone (h.asked hasked)

/-! ### A caller sends a command -/

theorem takeWhile_append_of_mem {rx : List SessionCommand} (h : .disconnect ∈ rx)
    (command : SessionCommand) :
    (rx ++ [command]).takeWhile (· ≠ .disconnect) = rx.takeWhile (· ≠ .disconnect) := by
  induction rx with
  | nil => cases h
  | cons c rx ih =>
    rw [List.cons_append, List.takeWhile_cons, List.takeWhile_cons]
    by_cases hc : c = .disconnect
    · simp [hc]
    · have hmem : .disconnect ∈ rx := (List.mem_cons.mp h).resolve_left (Ne.symm hc)
      rw [ih hmem]

theorem takeWhile_of_notMem {rx : List SessionCommand} (h : .disconnect ∉ rx) :
    rx.takeWhile (· ≠ .disconnect) = rx := by
  refine List.takeWhile_eq_self_iff.mpr fun c hc => decide_eq_true ?_
  rintro rfl
  exact h hc

theorem Alone.send (h : Alone s) {command : SessionCommand}
    (hguard : AsksAlone s (.send command)) :
    Alone { s with rx := s.rx ++ [command] } := by
  by_cases hskip : s.stage.isGone = true ∨ .disconnect ∈ s.rx ∨ command = .disconnect
  · -- the loop will not come to it
    have hlive : SessionRun.live { s with rx := s.rx ++ [command] } = s.live := by
      unfold SessionRun.live
      dsimp only
      rcases hskip with hgone | hmem | rfl
      · rw [hgone]
        rfl
      · rw [takeWhile_append_of_mem hmem]
      · by_cases hmem : .disconnect ∈ s.rx
        · rw [takeWhile_append_of_mem hmem]
        · rw [List.takeWhile_append_of_pos, takeWhile_of_notMem hmem]
          · simp
          · rintro c hc
            refine decide_eq_true ?_
            rintro rfl
            exact hmem hc
    exact ⟨h.loopLock, h.taskLock, hlive ▸ h.order, fun c hc => h.opens c (hlive ▸ hc), h.asked⟩
  · have hgone : s.stage.isGone = false := Bool.eq_false_iff.mpr fun h => hskip (.inl h)
    have hmem : .disconnect ∉ s.rx := fun h => hskip (.inr (.inl h))
    have hcommand : .disconnect ∉ s.rx ++ [command] := by
      rw [List.mem_append, List.mem_singleton]
      rintro (h | h)
      · exact hmem h
      · exact hskip (.inr (.inr h.symm))
    have hlive : s.live = s.rx := by
      unfold SessionRun.live
      rw [hgone, takeWhile_of_notMem hmem]
      rfl
    have hlive' : SessionRun.live { s with rx := s.rx ++ [command] } = s.rx ++ [command] := by
      unfold SessionRun.live
      dsimp only
      rw [hgone, takeWhile_of_notMem hcommand]
      rfl
    refine ⟨h.loopLock, h.taskLock, ?_, ?_, h.asked⟩
    · rw [hlive', List.pairwise_append]
      refine ⟨hlive ▸ h.order, List.pairwise_singleton _ _, fun c hc d hd htransfer => ?_⟩
      rw [List.mem_singleton.mp hd]
      -- a remote tunnel is not sent behind a transfer
      by_contra hopen
      have hfree := (hguard (by simpa using hopen) hgone hmem).1 c hc
      rw [htransfer] at hfree
      cases hfree
    · intro c hc hopen
      rw [hlive'] at hc
      rcases List.mem_append.mp hc with hc | hc
      · exact h.opens c (hlive ▸ hc) hopen
      · rw [List.mem_singleton.mp hc] at hopen
        exact (hguard hopen hgone hmem).2

/-! ### The loop -/

theorem LoopStage.wantsLock_of_isForwarding {stage : LoopStage} (h : stage.isForwarding = true) :
    stage.wantsLock = true := by
  cases stage with
  | forwarding spec => rfl
  | _ => cases h

theorem Alone.move (h : Alone s) (hmove : SessionRun.LoopMove s s')
    (hguard : s.stage.isClosing = true → s.TransfersDone) : Alone s' := by
  have hlive : s'.live = s.live ∨ s'.live = [] := by
    unfold SessionRun.live
    rw [hmove.rx]
    cases hgone : s'.stage.isGone with
    | true => exact .inr rfl
    | false =>
      left
      have hbefore : s.stage.isGone = false := by
        refine Bool.eq_false_iff.mpr fun h => ?_
        rw [hmove.gone h] at hgone
        cases hgone
      rw [hbefore]
  have hsubset : ∀ c ∈ s'.live, c ∈ s.live := by
    intro c hc
    rcases hlive with hsame | hnil
    · exact hsame ▸ hc
    · rw [hnil] at hc
      cases hc
  refine ⟨hmove.loopLock h.loopLock, h.taskLock.same hmove.tasks hmove.lock, ?_, ?_, ?_⟩
  · rcases hlive with hsame | hnil
    · exact hsame ▸ h.order
    · rw [hnil]
      exact .nil
  · exact fun c hc hopen => (h.opens c (hsubset c hc) hopen).same hmove.tasks
  · rintro (hwants | hrouting)
    · -- it is the final disconnect
      exact (hguard (hmove.asks hwants ▸ rfl)).same hmove.tasks
    · exact (h.asked (.inl (LoopStage.wantsLock_of_isForwarding (hmove.routing hrouting)))).same
        hmove.tasks

theorem SessionRun.live_cons {command : SessionCommand} {rx : List SessionCommand}
    (hstage : s.stage = .select) (hrx : s.rx = command :: rx) (hne : command ≠ .disconnect) :
    s.live = command :: rx.takeWhile (· ≠ .disconnect) := by
  unfold live
  rw [hstage, hrx]
  rw [List.takeWhile_cons, decide_eq_true hne]
  rfl

theorem Alone.take {command : SessionCommand} {rx : List SessionCommand} (h : Alone s)
    (hstage : s.stage = .select) (hrx : s.rx = command :: rx) (hne : command ≠ .disconnect)
    (hrx' : s'.rx = rx) (hloopLock : SessionRun.LoopLock s') (htaskLock : TaskLock s')
    (hdone : command.isTransfer = false → s.TransfersDone → s'.TransfersDone)
    (hasked : s'.stage.wantsLock = true ∨ s'.stage.isRouting = true → s'.TransfersDone) :
    Alone s' := by
  have hlive := s.live_cons hstage hrx hne
  have horder := h.order
  rw [hlive, List.pairwise_cons] at horder
  have hrest : ∀ c ∈ s'.live, c ∈ rx.takeWhile (· ≠ .disconnect) := by
    unfold SessionRun.live
    rw [hrx']
    intro c hc
    split at hc
    · cases hc
    · exact hc
  refine ⟨hloopLock, htaskLock, ?_, ?_, hasked⟩
  · unfold SessionRun.live
    rw [hrx']
    split
    · exact .nil
    · exact horder.2
  · intro c hc hopen
    have hmem := hrest c hc
    refine hdone ?_ (h.opens c (hlive ▸ List.mem_cons_of_mem _ hmem) hopen)
    -- a transfer is not followed by a remote tunnel
    by_contra htransfer
    have hnot := horder.1 c hmem (by simpa using htransfer)
    rw [hopen] at hnot
    cases hnot

theorem Alone.serve {command : SessionCommand} {rx : List SessionCommand} (h : Alone s)
    (hstage : s.stage = .select) (hrx : s.rx = command :: rx) :
    Alone (SessionRun.serve request { s with rx } command) := by
  have hwants : s.stage.wantsLock = false := hstage ▸ rfl
  have hfree : s.lock.count .loop = 0 := by
    have hlock := h.loopLock
    unfold SessionRun.LoopLock at hlock
    rw [hlock, hwants]
    rfl
  -- a command that leads to a stage without remote tunnels, and leaves the tasks alone
  have hplain : ∀ u : SessionRun, u.rx = rx → u.lock = s.lock → u.tasks = s.tasks →
      u.stage.wantsLock = false → u.stage.isRouting = false →
      command ≠ .disconnect → Alone u := by
    intro u hurx hlock htasks hwants hrouting hne
    refine h.take hstage hrx hne hurx ?_ (h.taskLock.same htasks fun i => hlock ▸ rfl)
      (fun _ hdone => hdone.same htasks) ?_
    · unfold SessionRun.LoopLock
      rw [hlock, hfree, hwants]
      rfl
    · rintro (hstage | hstage)
      · rw [hwants] at hstage
        cases hstage
      · rw [hrouting] at hstage
        cases hstage
  cases command with
  | write data => exact hplain _ rfl rfl rfl rfl rfl nofun
  | resize cols rows => exact hplain _ rfl rfl rfl rfl rfl nofun
  | sftp sftpRequest =>
    refine h.take hstage hrx nofun rfl h.loopLock (h.taskLock.spawn rfl rfl)
      (fun _ hdone => hdone.spawn rfl) ?_
    rintro (hasked | hasked)
    · exact (h.asked (.inl hasked)).spawn rfl
    · exact (h.asked (.inr hasked)).spawn rfl
  | transfer transferRequest =>
    refine h.take hstage hrx nofun rfl h.loopLock (h.taskLock.spawn rfl rfl)
      (fun hfalse => by cases hfalse) ?_
    show s.stage.wantsLock = true ∨ s.stage.isRouting = true → _
    rw [hstage]
    rintro (hasked | hasked)
    · cases hasked
    · cases hasked
  | sftpCancelTransfer transferId =>
    refine h.take hstage hrx nofun rfl h.loopLock (h.taskLock.cancel transferId rfl rfl)
      (fun _ hdone => hdone.cancel transferId rfl) ?_
    exact fun hasked => (h.asked hasked).cancel transferId rfl
  | tunnelOpen spec =>
    unfold SessionRun.serve
    dsimp only
    split
    · exact hplain _ rfl rfl rfl rfl rfl nofun
    · exact hplain _ rfl rfl rfl rfl rfl nofun
    · -- no transfer runs
      rename_i hkind
      have hdone : s.TransfersDone := by
        refine h.opens (.tunnelOpen spec) ?_ (decide_eq_true hkind)
        rw [s.live_cons hstage hrx nofun]
        exact List.mem_cons_self ..
      refine h.take hstage hrx nofun rfl ?_ (h.taskLock.same rfl ?_) (fun _ _ => hdone)
        (fun _ => hdone)
      · exact SessionRun.loopLock_request (s := { s with rx }) hwants rfl h.loopLock
      · exact SessionRun.count_request_loop s.lock
  | tunnelClose tunnelId =>
    show Alone (if tunnelId ∈ s.handles then _ else _)
    split
    · exact hplain _ rfl rfl rfl rfl rfl nofun
    · exact hplain _ rfl rfl rfl hwants (hstage ▸ rfl) nofun
  | tunnelList => exact hplain _ rfl rfl rfl hwants (hstage ▸ rfl) nofun
  | tunnelCloseAll => exact hplain _ rfl rfl rfl rfl rfl nofun
  | disconnect =>
    have hmove := SessionRun.leave_move { s with rx } request.sessionId hstage
    have hgone : (SessionRun.leave { s with rx } request.sessionId).stage.isGone = true := rfl
    have hlive : (SessionRun.leave { s with rx } request.sessionId).live = [] := by
      unfold SessionRun.live
      rw [hgone]
      rfl
    refine ⟨hmove.loopLock h.loopLock, h.taskLock.same hmove.tasks hmove.lock, ?_, ?_, ?_⟩
    · show List.Pairwise _ (SessionRun.leave { s with rx } request.sessionId).live
      rw [hlive]
      exact .nil
    · intro c hc
      have hc : c ∈ (SessionRun.leave { s with rx } request.sessionId).live := hc
      rw [hlive] at hc
      cases hc
    · rintro (hasked | hasked)
      · cases hasked
      · cases hasked

/-! ### Every step -/

theorem Alone.next {event : SessionEvent} (h : Alone s) (hguard : AsksAlone s event)
    (hstep : s.next request event = some s') : Alone s' := by
  cases event with
  | send command =>
    cases hstep
    exact h.send hguard
  | loop event =>
    rcases SessionRun.loopNext_cases hstep with ⟨command, rx, hstage, hrx, rfl⟩ | hmove
    · exact h.serve hstage hrx
    · exact h.move hmove hguard
  | task index event =>
    obtain ⟨task, hget, hnext⟩ := Option.bind_eq_some_iff.mp hstep
    have htaskLock := h.taskLock.task hget hnext
    have hdone : s.TransfersDone → s'.TransfersDone := fun hdone => hdone.task hget hnext
    obtain ⟨task', lock, new, rfl, hmove, -⟩ := SessionRun.taskNext_effect hnext
    exact h.same rfl rfl hmove.count_loop htaskLock hdone
  | tunnel number event =>
    obtain ⟨tunnel, hget, hnext⟩ := Option.bind_eq_some_iff.mp hstep
    have heffect := SessionRun.tunnelNext_effect hnext
    refine h.same heffect.stage heffect.rx (heffect.lock .loop id) ?_
      (fun hdone => hdone.same heffect.tasks)
    exact h.taskLock.same heffect.tasks fun i => heffect.lock (.task i) id
  | channel connectedPort =>
    obtain ⟨forwards, hopen⟩ := s.openChannel_effect connectedPort
    rw [← Option.some.inj hstep, hopen]
    exact h.same rfl rfl rfl (h.taskLock.same rfl fun _ => rfl) id
  | forward index event =>
    obtain ⟨forward, -, hnext⟩ := Option.bind_eq_some_iff.mp hstep
    obtain ⟨forwards, new, rfl, -⟩ := SessionRun.forwardNext_effect hnext
    exact h.same rfl rfl rfl (h.taskLock.same rfl fun _ => rfl) id

theorem alone_of_reachable (h : ((sessionLoop request).restrict AsksAlone).Reachable s) :
    Alone s := by
  refine Machine.Reachable.induct ?_ (fun _ _ _ _ halone hstep => halone.next hstep.1 hstep.2) h
  rintro _ rfl
  exact .start

end FluxTerm.Ssh
