import FluxTerm.Serial.Exclusive

/-!
# FluxTerm — waiting for a serial port

A call whose port is held by a cancelled owner waits on the owner's `Notify`. A release notifies
once, so one waiter goes on, and the others stay behind.

* **`OneWaiter`** — whoever a step hands a notification to is the only one that waits for it;
  **`noLostWakeup_of_reachable`** — in runs of such steps no wakeup is lost.
* **`wakeup_lost`** — two waiters, one notification.
-/

namespace FluxTerm.Serial

open FluxTerm.Engine FluxTerm.Lib SerialManager

variable {m m' : SerialManager} {i : ℕ} {c c' : Call} {action : Action}

/-! ## What is kept -/

/-- A waiting call has an owner that still holds the port, or a wakeup. -/
def HasWakeup (m : SerialManager) (portName : Text) (owner : ℕ) (wait : Wait) : Prop :=
  (m.claimedPorts portName).map (·.released) = some owner ∨ wait = .woken ∨
    (wait = .fresh ∧ m.permit owner = true)

/-- No call waits for an owner that has released the port. -/
def NoLostWakeup (m : SerialManager) : Prop :=
  ∀ (j : ℕ) (d : Call) (owner : ℕ) (wait : Wait), m.calls[j]? = some d →
    d.caller = .waiting owner wait → HasWakeup m d.portName owner wait

/-- Call `c` waits for a release by `owner`. -/
def waitsOn (owner : ℕ) (c : Call) : Bool :=
  match c.caller with
  | .waiting o _ => o == owner
  | _ => false

/-- The owner whose notification the step hands over, and the call that gets it: a claim is
dropped while the call is queued, or the call polls for the first time and takes the permit. -/
def handed (m : SerialManager) : SerialStep → Option (ℕ × ℕ)
  | .task owner (.clean (some waiter)) =>
    match (m.calls[owner]?).map Call.stage with
    | some (.leaving _ (.dropClaim :: _)) => some (owner, waiter)
    | _ => none
  | .caller waiter .poll =>
    match (m.calls[waiter]?).map Call.caller with
    | some (.waiting owner .fresh) => if m.permit owner then some (owner, waiter) else none
    | _ => none
  | _ => none

def OneWaiter (m : SerialManager) (s : SerialStep) : Prop :=
  ∀ p ∈ handed m s, ∀ j < m.calls.length, (m.calls[j]?).any (waitsOn p.1) = true → j = p.2

instance (m : SerialManager) (s : SerialStep) : Decidable (OneWaiter m s) :=
  inferInstanceAs (Decidable (∀ p ∈ handed m s, _))

theorem OneWaiter.eq {s : SerialStep} {owner waiter j : ℕ} {d : Call} {wait : Wait}
    (h : OneWaiter m s) (hhanded : handed m s = some (owner, waiter)) (hj : m.calls[j]? = some d)
    (hwait : d.caller = .waiting owner wait) : j = waiter := by
  refine h (owner, waiter) hhanded j (List.getElem?_eq_some_iff.mp hj).1 ?_
  rw [hj]
  show waitsOn owner d = true
  unfold waitsOn
  rw [hwait]
  exact beq_self_eq_true owner

/-! ## How a call comes to wait -/

theorem callerNext_waiting {event : CallerEvent} {owner : ℕ} {wait : Wait}
    (h : m.callerNext c event = some (c', action)) (hwait : c'.caller = .waiting owner wait) :
    (action = .keep ∧ (m.claimedPorts c.portName).map (·.released) = some owner) ∨
      (event = .poll ∧ c.caller = .waiting owner .fresh ∧
        ((m.permit owner = true ∧ wait = .woken ∧ action = .takePermit owner) ∨
          (m.permit owner = false ∧ action = .keep))) := by
  unfold SerialManager.callerNext at h
  split at h
  case h_2 =>
    split at h
    · cases h
      cases hwait
    · rename_i hclaimed
      split at h <;> cases h
      · cases hwait
        exact .inl ⟨rfl, by rw [hclaimed]; rfl⟩
      · cases hwait
  case h_3 hcaller =>
    split at h <;> cases h
    · cases hwait
      exact .inr ⟨rfl, hcaller, .inl ⟨by assumption, rfl, rfl⟩⟩
    · rename_i hpermit
      cases hwait
      exact .inr ⟨rfl, hcaller, .inr ⟨Bool.eq_false_iff.mpr hpermit, rfl⟩⟩
  case h_9 =>
    obtain ⟨result, -, hpair⟩ := Option.map_eq_some_iff.mp h
    cases hpair
    cases hwait
  all_goals first
    | (cases h; cases hwait)
    | (split at h <;> cases h <;> cases hwait)
    | cases h

theorem callerNext_released {event : CallerEvent}
    (h : m.callerNext c event = some (c', action)) : c'.released = c.released := by
  unfold SerialManager.callerNext at h
  split at h
  case h_2 =>
    split at h
    · cases h
      rfl
    · split at h <;> cases h <;> rfl
  case h_9 =>
    obtain ⟨result, -, hpair⟩ := Option.map_eq_some_iff.mp h
    cases hpair
    rfl
  all_goals first
    | (cases h; rfl)
    | (split at h <;> cases h <;> rfl)
    | cases h

theorem taskNext_frame {event : TaskEvent}
    (h : SerialManager.taskNext i c event = some (c', action)) :
    c'.released = c.released ∧ c'.caller = c.caller ∧ c.stage ≠ .notSpawned := by
  unfold SerialManager.taskNext at h
  split at h
  case h_12 exit cleanup todo waiter hstage =>
    rw [hstage]
    cases cleanup with
    | reply =>
      cases h
      unfold Call.replied
      split <;> exact ⟨rfl, rfl, nofun⟩
    | _ =>
      cases h
      exact ⟨rfl, rfl, nofun⟩
  all_goals first
    | (rename_i hstage; cases h; rw [hstage]; exact ⟨rfl, rfl, nofun⟩)
    | (rename_i hstage; rw [hstage]; split at h <;> cases h <;> exact ⟨rfl, rfl, nofun⟩)
    | cases h

theorem StepsCall.released {s : SerialStep} (h : StepsCall m s i c c' action) :
    c'.released = c.released := by
  cases s with
  | caller j event => exact callerNext_released h.2
  | task j event => exact (taskNext_frame h.2).1
  | cancelMark j =>
    obtain ⟨-, hnext⟩ := h
    unfold SerialManager.cancelNext at hnext
    split at hnext <;> cases hnext
    rfl
  | connect operationId profile => exact h.elim
  | cancelLookup operationId => exact h.elim

theorem StepsCall.waiting {s : SerialStep} {owner : ℕ} {wait : Wait} (hlocal : c.Local)
    (h : StepsCall m s i c c' action) (hwait : c'.caller = .waiting owner wait) :
    (action = .keep ∧ (c.caller = .waiting owner wait ∨
        (m.claimedPorts c.portName).map (·.released) = some owner ∨
        (c.caller = .waiting owner .fresh ∧ m.permit owner = false))) ∨
      (s = .caller i .poll ∧ c.caller = .waiting owner .fresh ∧ m.permit owner = true ∧
        wait = .woken ∧ action = .takePermit owner) := by
  cases s with
  | caller j event =>
    obtain ⟨rfl, hnext⟩ := h
    rcases callerNext_waiting hnext hwait with ⟨hkeep, howner⟩ | ⟨rfl, hcaller, hpoll⟩
    · exact .inl ⟨hkeep, .inr (.inl howner)⟩
    · rcases hpoll with ⟨hpermit, hwoken, htake⟩ | ⟨hpermit, hkeep⟩
      · exact .inr ⟨rfl, hcaller, hpermit, hwoken, htake⟩
      · exact .inl ⟨hkeep, .inr (.inr ⟨hcaller, hpermit⟩)⟩
  | task j event =>
    -- a call with a task does not wait
    obtain ⟨-, hcaller, hstage⟩ := taskNext_frame h.2
    have hlate := hlocal.late hstage
    rw [← hcaller, hwait] at hlate
    cases hlate
  | cancelMark j =>
    obtain ⟨-, hnext⟩ := h
    unfold SerialManager.cancelNext at hnext
    split at hnext <;> cases hnext
    exact .inl ⟨rfl, .inl hwait⟩
  | connect operationId profile => exact h.elim
  | cancelLookup operationId => exact h.elim

theorem callerNext_takePermit {event : CallerEvent} {owner : ℕ}
    (h : m.callerNext c event = some (c', .takePermit owner)) :
    event = .poll ∧ c.caller = .waiting owner .fresh ∧ m.permit owner = true ∧
      c'.caller = .waiting owner .woken := by
  unfold SerialManager.callerNext at h
  split at h
  case h_3 hcaller =>
    split at h
    · rename_i hpermit
      cases h
      exact ⟨rfl, hcaller, hpermit, rfl⟩
    · cases h
  case h_2 =>
    split at h
    · cases h
    · split at h <;> cases h
  case h_5 wait _ _ =>
    split at h
    · cases wait <;> cases h
    · cases h
  case h_6 wait _ _ =>
    split at h
    · cases h
    · cases wait <;> cases h
  case h_9 =>
    obtain ⟨result, -, hpair⟩ := Option.map_eq_some_iff.mp h
    cases hpair
  all_goals first
    | cases h
    | (split at h <;> cases h)

theorem StepsCall.poll_of_takePermit {s : SerialStep} {owner : ℕ}
    (h : StepsCall m s i c c' (.takePermit owner)) :
    s = .caller i .poll ∧ c.caller = .waiting owner .fresh ∧ m.permit owner = true ∧
      c'.caller = .waiting owner .woken := by
  cases s with
  | caller j event =>
    obtain ⟨rfl, hnext⟩ := h
    obtain ⟨rfl, hpoll⟩ := callerNext_takePermit hnext
    exact ⟨rfl, hpoll⟩
  | task j event =>
    obtain ⟨-, hnext⟩ := h
    unfold SerialManager.taskNext at hnext
    split at hnext
    case h_12 exit cleanup todo waiter hstage => cases cleanup <;> cases hnext
    all_goals first
      | cases hnext
      | (split at hnext <;> cases hnext)
  | cancelMark j =>
    obtain ⟨-, hnext⟩ := h
    unfold SerialManager.cancelNext at hnext
    split at hnext <;> cases hnext
  | connect operationId profile => exact h.elim
  | cancelLookup operationId => exact h.elim

/-! ## Permits -/

theorem permit_moved (hi : m.calls[i]? = some c) (hreleased : c'.released = c.released) :
    (m.moved i c').permit = m.permit := by
  funext owner
  have hlt : i < m.calls.length := (List.getElem?_eq_some_iff.mp hi).1
  show ((m.calls.set i c')[owner]?).any Call.released = (m.calls[owner]?).any Call.released
  by_cases howner : owner = i
  · subst howner
    rw [List.getElem?_set_self hlt, hi]
    exact hreleased
  · rw [List.getElem?_set_ne (Ne.symm howner)]

theorem permit_modify {owner other : ℕ} {f : Call → Call} (hother : other ≠ owner) :
    SerialManager.permit { m with calls := m.calls.modify owner f } other = m.permit other := by
  show ((m.calls.modify owner f)[other]?).any _ = (m.calls[other]?).any _
  rw [List.getElem?_modify_ne _ _ (Ne.symm hother)]

/-! ## Notifications -/

theorem notifyOne_calls {owner j : ℕ} {waiter : Option ℕ} {d' : Call}
    (h : m.notifyOne owner waiter = some m') (hj : m'.calls[j]? = some d') :
    (waiter = some j ∧ d'.caller = .waiting owner .woken) ∨
      (waiter ≠ some j ∧
        ∃ d, m.calls[j]? = some d ∧ d'.caller = d.caller ∧ d'.portName = d.portName) := by
  unfold SerialManager.notifyOne at h
  split at h
  · rename_i k
    split at h
    · rename_i c hk
      split at h
      · cases h
        rcases calls_moved hk hj with ⟨rfl, rfl⟩ | ⟨hne, hd⟩
        · exact .inl ⟨rfl, rfl⟩
        · refine .inr ⟨?_, d', hd, rfl, rfl⟩
          rw [ne_eq, Option.some.injEq]
          exact Ne.symm hne
      · cases h
    · cases h
  · split at h
    · cases h
    · cases h
      refine .inr ⟨nofun, ?_⟩
      change (m.calls.modify owner _)[j]? = some d' at hj
      rw [List.getElem?_modify] at hj
      obtain ⟨d, hd, hd'⟩ := Option.map_eq_some_iff.mp hj
      refine ⟨d, hd, ?_⟩
      rw [← hd']
      split <;> exact ⟨rfl, rfl⟩

theorem notifyOne_permit {owner other : ℕ} {waiter : Option ℕ}
    (h : m.notifyOne owner waiter = some m') (hpermit : m.permit other = true) :
    m'.permit other = true := by
  unfold SerialManager.notifyOne at h
  split at h
  · split at h
    · rename_i k _ c hk
      split at h
      · cases h
        have hmoved : (m.moved k { c with caller := .waiting owner .woken }).permit = m.permit :=
          permit_moved hk rfl
        exact (congrFun hmoved other).trans hpermit
      · cases h
    · cases h
  · split at h
    · cases h
    · cases h
      by_cases hother : other = owner
      · subst hother
        unfold SerialManager.permit at hpermit ⊢
        rw [List.getElem?_modify_eq]
        cases hk : m.calls[other]? with
        | none =>
          rw [hk] at hpermit
          cases hpermit
        | some d => rfl
      · rw [permit_modify hother]
        exact hpermit

theorem notifyOne_none {owner : ℕ} (h : m.notifyOne owner none = some m') :
    m.calls.any (isQueued owner) = false ∧
      (owner < m.calls.length → m'.permit owner = true) := by
  unfold SerialManager.notifyOne at h
  dsimp only at h
  split at h
  · cases h
  · rename_i hnone
    cases h
    refine ⟨Bool.eq_false_iff.mpr hnone, fun hlt => ?_⟩
    unfold SerialManager.permit
    rw [List.getElem?_modify_eq, List.getElem?_eq_getElem hlt]
    rfl

theorem HasWakeup.notifyOne {owner other : ℕ} {waiter : Option ℕ} {portName : Text} {wait : Wait}
    (hnotify : m.notifyOne owner waiter = some m') (h : HasWakeup m portName other wait) :
    HasWakeup m' portName other wait := by
  have hports : m'.claimedPorts = m.claimedPorts := by rw [notifyOne_frame hnotify]
  unfold HasWakeup at h ⊢
  rw [hports]
  rcases h with h | h | ⟨h, hpermit⟩
  · exact .inl h
  · exact .inr (.inl h)
  · exact .inr (.inr ⟨h, notifyOne_permit hnotify hpermit⟩)

theorem NoLostWakeup.notifyOne {owner : ℕ} {waiter : Option ℕ} (h : NoLostWakeup m)
    (hnotify : m.notifyOne owner waiter = some m') : NoLostWakeup m' := by
  intro j d' other wait hj hwait
  rcases notifyOne_calls hnotify hj with ⟨-, hwoken⟩ | ⟨-, d, hd, hcaller, hport⟩
  · rw [hwait] at hwoken
    cases hwoken
    exact .inr (.inl rfl)
  · rw [hport]
    exact (h j d other wait hd (hcaller ▸ hwait)).notifyOne hnotify

/-! ## One step -/

theorem NoLostWakeup.moved (h : NoLostWakeup m) (hi : m.calls[i]? = some c)
    (hreleased : c'.released = c.released)
    (hself : ∀ owner wait, c'.caller = .waiting owner wait →
      HasWakeup m c'.portName owner wait) : NoLostWakeup (m.moved i c') := by
  intro j d owner wait hj hwait
  have hwakeup : HasWakeup m d.portName owner wait := by
    rcases calls_moved hi hj with ⟨-, rfl⟩ | ⟨-, hd⟩
    · exact hself owner wait hwait
    · exact h j d owner wait hd hwait
  unfold HasWakeup
  rw [permit_moved hi hreleased]
  exact hwakeup

theorem NoLostWakeup.release {waiter : Option ℕ} (h : NoLostWakeup m)
    (hi : m.calls[i]? = some c) (hreleased : c'.released = c.released)
    (hidle : ∀ owner wait, c'.caller ≠ .waiting owner wait)
    (howner : m.claimedPorts c'.portName = some ⟨c'.operationId, i⟩)
    (hone : ∀ k, waiter = some k → ∀ (j : ℕ) (d : Call) (wait : Wait), m.calls[j]? = some d →
      d.caller = .waiting i wait → j = k)
    (hnotify : SerialManager.notifyOne { m.moved i c' with
      claimedPorts := Function.update m.claimedPorts c'.portName none } i waiter = some m') :
    NoLostWakeup m' := by
  have hports : m'.claimedPorts = Function.update m.claimedPorts c'.portName none := by
    rw [notifyOne_frame hnotify]
  intro j d' owner wait hj hwait
  rcases notifyOne_calls hnotify hj with ⟨-, hwoken⟩ | ⟨hother, d, hd, hcaller, hport⟩
  · rw [hwait] at hwoken
    cases hwoken
    exact .inr (.inl rfl)
  · have hwait' : d.caller = .waiting owner wait := hcaller ▸ hwait
    rcases calls_moved hi hd with ⟨-, rfl⟩ | ⟨hne, hbefore⟩
    · exact absurd hwait' (hidle owner wait)
    · by_cases howner' : owner = i
      · subst howner'
        -- nobody is queued, so the permit is stored for the call
        have hnone : waiter = none := by
          cases hwaiter : waiter with
          | none => rfl
          | some k =>
            rw [hwaiter, hone k hwaiter j d wait hbefore hwait'] at hother
            exact absurd rfl hother
        subst hnone
        obtain ⟨hqueue, hpermit⟩ := notifyOne_none hnotify
        have hlt : owner < (m.moved owner c').calls.length := by
          show owner < (m.calls.set owner c').length
          rw [List.length_set]
          exact (List.getElem?_eq_some_iff.mp hi).1
        cases wait with
        | fresh => exact .inr (.inr ⟨rfl, hpermit hlt⟩)
        | woken => exact .inr (.inl rfl)
        | queued =>
          have hqueued : isQueued owner d = true := by
            unfold isQueued
            rw [hwait']
            exact beq_self_eq_true owner
          have hmem : d ∈ (m.moved owner c').calls := by
            refine List.mem_of_getElem? (i := j) ?_
            show (m.calls.set owner c')[j]? = some d
            rw [List.getElem?_set_ne (Ne.symm hne)]
            exact hbefore
          rw [List.any_eq_false] at hqueue
          exact absurd hqueued (hqueue d hmem)
      · -- another owner's claim and permit are as they were
        rw [hport]
        rcases h j d owner wait hbefore hwait' with hclaim | hwoken | ⟨hfresh, hpermit⟩
        · refine .inl ?_
          rw [hports, Function.update_of_ne]
          · exact hclaim
          · intro hsame
            rw [hsame, howner, Option.map_some, Option.some.injEq] at hclaim
            exact howner' hclaim.symm
        · exact .inr (.inl hwoken)
        · refine .inr (.inr ⟨hfresh, notifyOne_permit hnotify ?_⟩)
          show (m.moved i c').permit owner = true
          rw [permit_moved hi hreleased]
          exact hpermit

theorem NoLostWakeup.takePermit {owner : ℕ} (h : NoLostWakeup m) (hi : m.calls[i]? = some c)
    (hreleased : c'.released = c.released) (hcaller : c'.caller = .waiting owner .woken)
    (hone : ∀ (j : ℕ) (d : Call) (wait : Wait), m.calls[j]? = some d →
      d.caller = .waiting owner wait → j = i) :
    NoLostWakeup { m.moved i c' with
      calls := (m.moved i c').calls.modify owner fun c => { c with released := false } } := by
  intro j d' other wait hj hwait
  change ((m.moved i c').calls.modify owner _)[j]? = some d' at hj
  rw [List.getElem?_modify] at hj
  obtain ⟨d, hd, hd'⟩ := Option.map_eq_some_iff.mp hj
  have hsame : d'.caller = d.caller ∧ d'.portName = d.portName := by
    rw [← hd']
    split <;> exact ⟨rfl, rfl⟩
  rw [hsame.2]
  rw [hsame.1] at hwait
  rcases calls_moved hi hd with ⟨-, rfl⟩ | ⟨hne, hbefore⟩
  · rw [hcaller] at hwait
    cases hwait
    exact .inr (.inl rfl)
  · by_cases hother : other = owner
    · subst hother
      exact absurd (hone j d wait hbefore hwait) hne
    · have hpermits : (m.moved i c').permit = m.permit := permit_moved hi hreleased
      rcases h j d other wait hbefore hwait with hclaim | hwoken | ⟨hfresh, hpermit⟩
      · exact .inl hclaim
      · exact .inr (.inl hwoken)
      · refine .inr (.inr ⟨hfresh, ?_⟩)
        rw [permit_modify hother, hpermits]
        exact hpermit

theorem noLostWakeup_apply {s : SerialStep} (h : NoLostWakeup m) (hm : m.Consistent)
    (hone : OneWaiter m s) (hi : m.calls[i]? = some c) (hcall : StepsCall m s i c c' action)
    (happly : (m.moved i c').apply i c' action = some m') : NoLostWakeup m' := by
  have hlocal := hm.isLocal i c hi
  have hspec := hcall.stepOf hlocal
  have hreleased := hcall.released
  -- only a step that does nothing else, or takes a permit, leaves its call waiting
  have hidle (hkeep : action ≠ .keep) (htake : ∀ owner, action ≠ .takePermit owner)
      (owner : ℕ) (wait : Wait) : c'.caller ≠ .waiting owner wait := by
    intro hwait
    rcases hcall.waiting hlocal hwait with ⟨hkeep', -⟩ | ⟨-, -, -, -, htake'⟩
    · exact hkeep hkeep'
    · exact htake owner htake'
  have hmoved (hkeep : action ≠ .keep) (htake : ∀ owner, action ≠ .takePermit owner) :
      NoLostWakeup (m.moved i c') :=
    h.moved hi hreleased fun owner wait hwait => absurd hwait (hidle hkeep htake owner wait)
  cases action with
  | keep =>
    cases happly
    refine h.moved hi hreleased fun owner wait hwait => ?_
    rw [hspec.portName]
    rcases hcall.waiting hlocal hwait with ⟨-, hbefore | howner | ⟨hfresh, hpermit⟩⟩ |
      ⟨-, -, -, -, htake⟩
    · exact h i c owner wait hi hbefore
    · exact .inl howner
    · -- without a permit the owner still holds the port
      rcases h i c owner .fresh hi hfresh with hclaim | hwoken | ⟨-, hstored⟩
      · exact .inl hclaim
      · cases hwoken
      · rw [hpermit] at hstored
        cases hstored
    · cases htake
  | claimPort =>
    cases happly
    intro j d owner wait hj hwait
    -- the port was free: nobody waits behind its owner
    rcases hmoved nofun nofun j d owner wait hj hwait with hclaim | hwakeup
    · refine .inl ?_
      show (Function.update m.claimedPorts c'.portName _ d.portName).map _ = some owner
      rw [Function.update_of_ne]
      · exact hclaim
      · intro hport
        change (m.claimedPorts d.portName).map _ = some owner at hclaim
        rw [hport, hspec.portName, hspec.free rfl] at hclaim
        cases hclaim
    · exact .inr hwakeup
  | dropClaim waiter =>
    have htask := hcall.clean_of_dropClaim
    subst htask
    have howner : m.claimedPorts c'.portName = some ⟨c'.operationId, i⟩ := by
      rw [hspec.portName, hspec.operationId]
      exact hm.claimedPorts_eq hi hspec.fits.1
    refine h.release hi hreleased (hidle nofun nofun) howner ?_
      (hm.apply_dropClaim hi hspec rfl happly)
    rintro k rfl j d wait hj hwait
    obtain ⟨exit, todo, hstage⟩ := (taskNext_dropClaim hcall.2).2
    refine hone.eq ?_ hj hwait
    unfold handed
    dsimp only
    rw [hi, Option.map_some, hstage]
  | removePending =>
    rw [hm.apply_removePending hi hspec rfl happly]
    exact hmoved nofun nofun
  | takePermit owner =>
    obtain ⟨rfl, hfresh, hpermit, hwoken⟩ := hcall.poll_of_takePermit
    cases happly
    refine h.takePermit hi hreleased hwoken fun j d wait hj hwait => hone.eq ?_ hj hwait
    unfold handed
    dsimp only
    rw [hi, Option.map_some, hfresh]
    exact if_pos hpermit
  | passOn owner waiter => exact (hmoved nofun nofun).notifyOne happly
  | insertSession =>
    cases happly
    exact hmoved nofun nofun
  | removeSession =>
    cases happly
    exact hmoved nofun nofun
  | emit e =>
    cases happly
    exact hmoved nofun nofun

theorem connect_calls (operationId : Text) (profile : SerialProfile) :
    ∃ c : Call, (m.connect operationId profile).calls = m.calls ++ [c] ∧ c.released = false ∧
      ∀ owner wait, c.caller ≠ .waiting owner wait := by
  unfold SerialManager.connect
  split
  · exact ⟨_, rfl, rfl, nofun⟩
  · split
    · exact ⟨_, rfl, rfl, nofun⟩
    · split <;> exact ⟨_, rfl, rfl, nofun⟩

theorem NoLostWakeup.connect (h : NoLostWakeup m) (operationId : Text) (profile : SerialProfile) :
    NoLostWakeup (m.connect operationId profile) := by
  obtain ⟨c, hcalls, hreleased, hidle⟩ := connect_calls (m := m) operationId profile
  have hpermit (owner : ℕ) : (m.connect operationId profile).permit owner = m.permit owner := by
    unfold SerialManager.permit
    rw [hcalls, List.getElem?_append]
    split
    · rfl
    · rename_i hge
      rw [List.getElem?_eq_none (Nat.le_of_not_lt hge), List.getElem?_singleton]
      split
      · exact hreleased
      · rfl
  intro j d owner wait hj hwait
  rw [hcalls, List.getElem?_append] at hj
  split at hj
  · unfold HasWakeup
    rw [(connect_frame operationId profile).1, hpermit]
    exact h j d owner wait hj hwait
  · have hmem : d ∈ [c] := List.mem_of_getElem? hj
    rw [List.mem_singleton] at hmem
    exact absurd hwait (hmem ▸ hidle owner wait)

theorem noLostWakeup_step {s : SerialStep} (h : NoLostWakeup m) (hm : m.Consistent)
    (hone : OneWaiter m s) (hstep : m.step s = some m') : NoLostWakeup m' := by
  cases s with
  | connect operationId profile =>
    cases hstep
    exact h.connect operationId profile
  | cancelLookup operationId =>
    unfold SerialManager.step at hstep
    dsimp only at hstep
    split at hstep
    · cases hstep
      exact h
    · rename_i k _
      cases hk : m.calls[k]? with
      | none =>
        rw [List.modify_eq_self (List.getElem?_eq_none_iff.mp hk)] at hstep
        cases hstep
        exact h
      | some c =>
        rw [List.modify_eq_set_getElem?, hk] at hstep
        cases hstep
        exact h.moved hk rfl fun owner wait hwait => h k c owner wait hk hwait
  | caller i event =>
    obtain ⟨c, c', action, hi, hnext, happly⟩ := perform_eq_some hstep
    exact noLostWakeup_apply h hm hone hi ⟨rfl, hnext⟩ happly
  | task i event =>
    obtain ⟨c, c', action, hi, hnext, happly⟩ := perform_eq_some hstep
    exact noLostWakeup_apply h hm hone hi ⟨rfl, hnext⟩ happly
  | cancelMark i =>
    obtain ⟨c, c', action, hi, hnext, happly⟩ := perform_eq_some hstep
    exact noLostWakeup_apply h hm hone hi ⟨rfl, hnext⟩ happly

/-- **No lost wakeup.** In every run in which a notification never goes to one of several waiters,
every call that waits for a release has an owner that still holds the port, or a wakeup. -/
theorem noLostWakeup_of_reachable (h : (serialManager.restrict OneWaiter).Reachable m) :
    NoLostWakeup m := by
  refine h.induct ?_ ?_
  · rintro _ rfl j d owner wait hj
    cases hj
  · intro m₁ s m₂ hreach hwakeups hstep
    exact noLostWakeup_step hwakeups (consistent_of_reachable hreach.of_restrict) hstep.1 hstep.2

/-! ## One waiter -/

def oneWaiter : List SerialStep :=
  [.connect "a".toList portProfile, .caller 0 .check, .caller 0 .claim, .caller 0 .spawn,
    .task 0 .workerStart, .cancelLookup "a".toList, .cancelMark 0,
    .connect "b".toList portProfile, .caller 1 .check, .caller 1 .claim, .caller 1 .poll,
    .task 0 (.openerReturns (.ok ())), .task 0 .checkOpened, .task 0 (.clean none),
    .task 0 (.clean (some 1))]

def oneWaiterManager : SerialManager :=
  (Machine.exec SerialManager.step newManager oneWaiter).getD newManager

theorem noLostWakeup_oneWaiter :
    (oneWaiterManager.calls[1]?).map (fun c => waitsOn 0 c) = some true ∧
      NoLostWakeup oneWaiterManager := by
  refine ⟨by decide, noLostWakeup_of_reachable (Machine.reachable_restrict ?_)⟩
  have hrun : Machine.exec (fun m s => if OneWaiter m s then SerialManager.step m s else none)
      newManager oneWaiter = some oneWaiterManager := rfl
  exact Machine.reachable_exec hrun

/-! ## Two waiters -/

def twoWaiters : List SerialStep :=
  [.connect "a".toList portProfile, .caller 0 .check, .caller 0 .claim, .caller 0 .spawn,
    .task 0 .workerStart, .cancelLookup "a".toList, .cancelMark 0,
    .connect "b".toList portProfile, .caller 1 .check, .caller 1 .claim, .caller 1 .poll,
    .connect "c".toList portProfile, .caller 2 .check, .caller 2 .claim, .caller 2 .poll]

def twoWaitersManager : SerialManager :=
  (Machine.exec SerialManager.step newManager twoWaiters).getD newManager

def releasedManager : SerialManager :=
  (Machine.exec SerialManager.step twoWaitersManager
    [.task 0 (.openerReturns (.ok ())), .task 0 .checkOpened, .task 0 (.clean none),
      .task 0 (.clean (some 1))]).getD newManager

theorem reachable_releasedManager : serialManager.Reachable releasedManager := by
  have hrun : Machine.exec SerialManager.step newManager (twoWaiters ++
      [.task 0 (.openerReturns (.ok ())), .task 0 .checkOpened, .task 0 (.clean none),
        .task 0 (.clean (some 1))]) = some releasedManager := rfl
  exact Machine.reachable_exec hrun

/-- Call 2 still waits for the owner that has released the port, and no wakeup is on its way. -/
theorem wakeup_lost : ¬∀ m, serialManager.Reachable m → NoLostWakeup m := by
  intro hall
  rcases hall releasedManager reachable_releasedManager 2 _ 0 .queued rfl rfl with
    hclaim | hwoken | ⟨hfresh, -⟩
  · revert hclaim
    decide
  · cases hwoken
  · cases hfresh

end FluxTerm.Serial
