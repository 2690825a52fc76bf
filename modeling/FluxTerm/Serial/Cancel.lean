import FluxTerm.Serial.Wakeups

/-!
# FluxTerm — cancelling a serial connect

`cancel_connect` sets the flag of a listed call, and the task looks at it twice, the last time
when the port is open. A flag that is set in time stops the call; one that is set later is never
seen.

* **`FlagInTime`** — flags are set before that; **`cancelWins_of_reachable`** — then a cancel that
  is acknowledged wins, and nobody is refused the port of a cancelled owner.
* **`cancel_loses`** — the flag is set between the look and the insertion of the session.
-/

namespace FluxTerm.Serial

open FluxTerm.Engine FluxTerm.Lib SerialManager

variable {m m' : SerialManager} {i j : ℕ} {c c' : Call} {action : Action}

/-! ## A call over one step -/

/-- A notification, a permit or a `cancel_connect` that begins has touched the call. -/
structure Touched (c c' : Call) : Prop where
  operationId : c'.operationId = c.operationId
  portName : c'.portName = c.portName
  stage : c'.stage = c.stage
  cancelled : c'.cancelled = c.cancelled
  ready : c'.ready = c.ready
  acknowledged : c'.acknowledged = c.acknowledged
  returned : ∀ result, c'.caller = .returned result → c.caller = .returned result

theorem Touched.refl (c : Call) : Touched c c := ⟨rfl, rfl, rfl, rfl, rfl, rfl, fun _ h => h⟩

def Successor (m : SerialManager) (s : SerialStep) (i : ℕ) (c c' : Call) : Prop :=
  ∃ d, (d = c ∨ ∃ action, StepsCall m s i c d action) ∧ Touched d c'

theorem modify_touched {k : ℕ} {f : Call → Call} (hf : ∀ c, Touched c (f c))
    (hj : m.calls[j]? = some c) :
    ∃ c', (m.calls.modify k f)[j]? = some c' ∧ Touched c c' := by
  rw [List.getElem?_modify, hj]
  refine ⟨_, rfl, ?_⟩
  split
  · exact hf c
  · exact .refl c

theorem notifyOne_touched {owner : ℕ} {waiter : Option ℕ}
    (h : m.notifyOne owner waiter = some m') (hj : m.calls[j]? = some c) :
    ∃ c', m'.calls[j]? = some c' ∧ Touched c c' := by
  unfold SerialManager.notifyOne at h
  split at h
  · rename_i k
    split at h
    · rename_i d hk
      split at h
      · cases h
        have hlt : k < m.calls.length := (List.getElem?_eq_some_iff.mp hk).1
        by_cases hjk : j = k
        · subst hjk
          rw [hk] at hj
          cases hj
          exact ⟨_, List.getElem?_set_self hlt, rfl, rfl, rfl, rfl, rfl, rfl, nofun⟩
        · exact ⟨c, (List.getElem?_set_ne (Ne.symm hjk)).trans hj, .refl c⟩
      · cases h
    · cases h
  · split at h
    · cases h
    · cases h
      exact modify_touched (fun c => ⟨rfl, rfl, rfl, rfl, rfl, rfl, fun _ h => h⟩) hj

theorem apply_touched (h : m.apply i c action = some m') {d : Call} (hj : m.calls[j]? = some d) :
    ∃ d', m'.calls[j]? = some d' ∧ Touched d d' := by
  cases action with
  | dropClaim waiter =>
    change m.dropClaim i c waiter = some m' at h
    unfold SerialManager.dropClaim at h
    split at h
    · exact notifyOne_touched h hj
    · cases h
      exact ⟨d, hj, .refl d⟩
  | passOn owner waiter => exact notifyOne_touched h hj
  | takePermit owner =>
    cases h
    exact modify_touched (fun c => ⟨rfl, rfl, rfl, rfl, rfl, rfl, fun _ h => h⟩) hj
  | removePending =>
    change (if _ then _ else _) = some m' at h
    split at h <;> cases h <;> exact ⟨d, hj, .refl d⟩
  | _ =>
    cases h
    exact ⟨d, hj, .refl d⟩

theorem perform_successor {next : Call → Option (Call × Action)} {s : SerialStep} {k : ℕ}
    (hcall : ∀ c c' action, next c = some (c', action) → StepsCall m s k c c' action)
    (h : m.perform k next = some m') (hj : m.calls[j]? = some c) :
    ∃ c', m'.calls[j]? = some c' ∧ Successor m s j c c' := by
  obtain ⟨d, d', action, hk, hnext, happly⟩ := perform_eq_some h
  have hlt : k < m.calls.length := (List.getElem?_eq_some_iff.mp hk).1
  by_cases hjk : j = k
  · subst hjk
    rw [hk] at hj
    cases hj
    obtain ⟨c', hc', htouched⟩ := apply_touched happly (List.getElem?_set_self hlt)
    exact ⟨c', hc', d', .inr ⟨action, hcall _ d' action hnext⟩, htouched⟩
  · obtain ⟨c', hc', htouched⟩ :=
      apply_touched happly ((List.getElem?_set_ne (Ne.symm hjk)).trans hj)
    exact ⟨c', hc', c, .inl rfl, htouched⟩

theorem step_successor {s : SerialStep} (h : m.step s = some m') (hj : m.calls[j]? = some c) :
    ∃ c', m'.calls[j]? = some c' ∧ Successor m s j c c' := by
  cases s with
  | connect operationId profile =>
    cases h
    obtain ⟨d, hcalls, -, -⟩ := connect_calls (m := m) operationId profile
    refine ⟨c, ?_, c, .inl rfl, .refl c⟩
    rw [hcalls, List.getElem?_append_left (List.getElem?_eq_some_iff.mp hj).1]
    exact hj
  | cancelLookup operationId =>
    unfold SerialManager.step at h
    dsimp only at h
    split at h
    · cases h
      exact ⟨c, hj, c, .inl rfl, .refl c⟩
    · cases h
      have htouch (d : Call) : Touched d { d with cancelling := d.cancelling + 1 } :=
        ⟨rfl, rfl, rfl, rfl, rfl, rfl, fun _ h => h⟩
      obtain ⟨c', hc', htouched⟩ := modify_touched htouch hj
      exact ⟨c', hc', c, .inl rfl, htouched⟩
  | caller k event => exact perform_successor (fun _ _ _ hnext => ⟨rfl, hnext⟩) h hj
  | task k event => exact perform_successor (fun _ _ _ hnext => ⟨rfl, hnext⟩) h hj
  | cancelMark k => exact perform_successor (fun _ _ _ hnext => ⟨rfl, hnext⟩) h hj

/-- A call that begins. -/
structure Call.IsNew (c : Call) : Prop where
  stage : c.stage = .notSpawned
  cancelled : c.cancelled = false
  ready : c.ready = none
  acknowledged : c.acknowledged = false
  returned : c.caller ≠ .returned (.ok ())

theorem connect_isNew {operationId : Text} {profile : SerialProfile}
    (hj : (m.connect operationId profile).calls[j]? = some c) :
    m.calls[j]? = some c ∨ c.IsNew := by
  have hnew (d : Call) (hd : d.IsNew) (hcalls : (m.calls ++ [d])[j]? = some c) :
      m.calls[j]? = some c ∨ c.IsNew := by
    rw [List.getElem?_append] at hcalls
    split at hcalls
    · exact .inl hcalls
    · have hmem : c ∈ [d] := List.mem_of_getElem? hcalls
      rw [List.mem_singleton] at hmem
      exact .inr (hmem ▸ hd)
  unfold SerialManager.connect at hj
  split at hj
  · refine hnew _ ?_ hj
    exact ⟨rfl, rfl, rfl, rfl, nofun⟩
  · split at hj
    · refine hnew _ ?_ hj
      exact ⟨rfl, rfl, rfl, rfl, nofun⟩
    · split at hj <;>
      · refine hnew _ ?_ hj
        exact ⟨rfl, rfl, rfl, rfl, nofun⟩

theorem notifyOne_length {owner : ℕ} {waiter : Option ℕ} (h : m.notifyOne owner waiter = some m') :
    m'.calls.length = m.calls.length := by
  unfold SerialManager.notifyOne at h
  split at h
  · split at h
    · split at h <;> cases h
      exact List.length_set
    · cases h
  · split at h <;> cases h
    exact List.length_modify ..

theorem apply_length (h : m.apply i c action = some m') : m'.calls.length = m.calls.length := by
  cases action with
  | dropClaim waiter =>
    change m.dropClaim i c waiter = some m' at h
    unfold SerialManager.dropClaim at h
    split at h
    · have hlength := notifyOne_length h
      exact hlength
    · cases h
      rfl
  | passOn owner waiter => exact notifyOne_length h
  | takePermit owner =>
    cases h
    exact List.length_modify ..
  | removePending =>
    change (if _ then _ else _) = some m' at h
    split at h <;> cases h <;> rfl
  | _ =>
    cases h
    rfl

theorem perform_length {next : Call → Option (Call × Action)} (h : m.perform i next = some m') :
    m'.calls.length = m.calls.length := by
  obtain ⟨d, d', action, -, -, happly⟩ := perform_eq_some h
  rw [apply_length happly]
  exact List.length_set

theorem step_origin {s : SerialStep} (h : m.step s = some m') (hj : m'.calls[j]? = some c') :
    c'.IsNew ∨ ∃ c, m.calls[j]? = some c ∧ Successor m s j c c' := by
  cases hbefore : m.calls[j]? with
  | some c =>
    obtain ⟨d, hd, hsuccessor⟩ := step_successor h hbefore
    rw [hj] at hd
    cases hd
    exact .inr ⟨c, rfl, hsuccessor⟩
  | none =>
    have hlt : j < m'.calls.length := (List.getElem?_eq_some_iff.mp hj).1
    have hge : m.calls.length ≤ j := List.getElem?_eq_none_iff.mp hbefore
    cases s with
    | connect operationId profile =>
      cases h
      rcases connect_isNew hj with hold | hnew
      · rw [hbefore] at hold
        cases hold
      · exact .inl hnew
    | cancelLookup operationId =>
      unfold SerialManager.step at h
      dsimp only at h
      split at h <;> cases h
      · omega
      · rw [show (_ : List Call).length = m.calls.length from List.length_modify ..] at hlt
        omega
    | caller k event =>
      have hlength := perform_length h
      omega
    | task k event =>
      have hlength := perform_length h
      omega
    | cancelMark k =>
      have hlength := perform_length h
      omega

/-! ## The flag and the task -/

def Exit.passed : Exit → Bool
  | openFailed _ | cancelled => false
  | insertFailed | refused | finished .. => true

def Stage.passed : Stage → Bool
  | notSpawned | starting | opening | opened => false
  | checked | inserted | unlisted | sent | running => true
  | leaving exit _ => exit.passed

/-- The flag is set, by a `cancel_connect` or at the deadline, before the task has looked for the
last time. -/
def FlagInTime (m : SerialManager) : SerialStep → Prop
  | .cancelMark i | .caller i .markTimeout =>
    (m.calls[i]?).all (fun c => !c.stage.passed) = true
  | _ => True

instance (m : SerialManager) (s : SerialStep) : Decidable (FlagInTime m s) := by
  unfold FlagInTime
  split <;> infer_instance

/-- A flag keeps the task from passing, and only a task that has passed lets the call succeed. -/
structure Call.Flagged (c : Call) : Prop where
  inTime : c.cancelled = true → c.stage.passed = false
  ready : c.ready = some (.ok ()) → c.stage.passed = true
  returned : c.caller = .returned (.ok ()) → c.stage.passed = true
  acknowledged : c.acknowledged = true → c.cancelled = true

theorem Call.IsNew.flagged (h : c.IsNew) : c.Flagged where
  inTime _ := by rw [h.stage]; rfl
  ready hready := by
    rw [h.ready] at hready
    cases hready
  returned hreturned := absurd hreturned h.returned
  acknowledged hack := by
    rw [h.acknowledged] at hack
    cases hack

theorem Touched.flagged (h : Touched c c') (hc : c.Flagged) : c'.Flagged where
  inTime := by rw [h.cancelled, h.stage]; exact hc.inTime
  ready := by rw [h.ready, h.stage]; exact hc.ready
  returned hreturned := by rw [h.stage]; exact hc.returned (h.returned _ hreturned)
  acknowledged := by rw [h.acknowledged, h.cancelled]; exact hc.acknowledged

theorem Call.Flagged.mark (h : c.Flagged) (hpassed : c.stage.passed = false) :
    c.markCancelled.Flagged where
  inTime _ := hpassed
  ready := h.ready
  returned := h.returned
  acknowledged _ := rfl

theorem callerNext_flagged {event : CallerEvent} (hlocal : c.Local) (h : c.Flagged)
    (hinTime : event = .markTimeout → c.stage.passed = false)
    (hnext : m.callerNext c event = some (c', action)) :
    c'.Flagged ∧ (c.stage.passed = true → c'.stage.passed = true) := by
  unfold SerialManager.callerNext at hnext
  split at hnext
  case h_2 =>
    split at hnext
    · cases hnext
      exact ⟨⟨h.inTime, h.ready, nofun, h.acknowledged⟩, fun hpassed => hpassed⟩
    · split at hnext <;> cases hnext <;>
        exact ⟨⟨h.inTime, h.ready, nofun, h.acknowledged⟩, fun hpassed => hpassed⟩
  case h_6 hcaller =>
    -- the deadline passes in `claim_port`: there is no task
    split at hnext
    · cases hnext
    · cases hnext
      have hstage : c.stage = .notSpawned := hlocal.spawned (by rw [hcaller]; rfl)
      have hmark := h.mark (by rw [hstage]; rfl)
      exact ⟨⟨hmark.inTime, hmark.ready, nofun, hmark.acknowledged⟩, fun hpassed => hpassed⟩
  case h_8 hcaller =>
    cases hnext
    have hstage : c.stage.passed = false := by rw [hlocal.spawned (by rw [hcaller]; rfl)]; rfl
    refine ⟨⟨fun _ => rfl, fun hready => ?_, nofun, h.acknowledged⟩, fun hpassed => ?_⟩
    · rw [h.ready hready] at hstage
      cases hstage
    · rw [hpassed] at hstage
      cases hstage
  case h_9 =>
    obtain ⟨result, hready, hpair⟩ := Option.map_eq_some_iff.mp hnext
    cases hpair
    refine ⟨⟨h.inTime, h.ready, fun hreturned => h.ready ?_, h.acknowledged⟩,
      fun hpassed => hpassed⟩
    rw [hready]
    cases hreturned
    rfl
  case h_11 =>
    cases hnext
    have hmark := h.mark (hinTime rfl)
    exact ⟨⟨hmark.inTime, hmark.ready, nofun, hmark.acknowledged⟩, fun hpassed => hpassed⟩
  all_goals first
    | (cases hnext
       exact ⟨⟨h.inTime, h.ready, nofun, h.acknowledged⟩, fun hpassed => hpassed⟩)
    | (split at hnext <;> cases hnext <;>
        exact ⟨⟨h.inTime, h.ready, nofun, h.acknowledged⟩, fun hpassed => hpassed⟩)
    | cases hnext

theorem exit_passed_loopEnd (loopEnd : LoopEnd) : loopEnd.exit.passed = true := by
  cases loopEnd <;> rfl

theorem Call.Flagged.onward {stage : Stage} (h : c.Flagged)
    (hpassed : stage.passed = c.stage.passed) :
    Call.Flagged { c with stage } ∧ (c.stage.passed = true → stage.passed = true) :=
  ⟨⟨fun hcancelled => hpassed.trans (h.inTime hcancelled),
    fun hready => hpassed.trans (h.ready hready),
    fun hreturned => hpassed.trans (h.returned hreturned), h.acknowledged⟩, hpassed.trans⟩

theorem taskNext_flagged {event : TaskEvent} (h : c.Flagged)
    (hnext : SerialManager.taskNext i c event = some (c', action)) :
    c'.Flagged ∧ (c.stage.passed = true → c'.stage.passed = true) := by
  unfold SerialManager.taskNext at hnext
  split at hnext
  case h_4 hstage =>
    -- the last look: it passes only where the flag is not set
    split at hnext
    · cases hnext
      exact h.onward (by rw [hstage]; rfl)
    · rename_i hclear
      cases hnext
      exact ⟨⟨fun hcancelled => absurd hcancelled hclear, fun _ => rfl, fun _ => rfl,
        h.acknowledged⟩, fun _ => rfl⟩
  case h_8 hstage =>
    split at hnext
    · cases hnext
      have hpassed : c.stage.passed = true := by rw [hstage]; rfl
      exact ⟨⟨fun hcancelled => hpassed.symm.trans (h.inTime hcancelled), fun _ => rfl,
        fun _ => rfl, h.acknowledged⟩, fun _ => rfl⟩
    · cases hnext
      exact h.onward (by rw [hstage]; rfl)
  case h_10 =>
    split at hnext <;> cases hnext
    exact ⟨h, fun hpassed => hpassed⟩
  case h_11 loopEnd hstage =>
    cases hnext
    refine h.onward ?_
    rw [hstage]
    exact exit_passed_loopEnd loopEnd
  case h_12 exit cleanup todo waiter hstage =>
    obtain ⟨honward, hkeeps⟩ : Call.Flagged { c with stage := .leaving exit todo } ∧
        (c.stage.passed = true → exit.passed = true) := h.onward (by rw [hstage]; rfl)
    cases cleanup with
    | reply =>
      cases hnext
      unfold Call.replied
      split
      · exact ⟨⟨honward.inTime, nofun, honward.returned, honward.acknowledged⟩, hkeeps⟩
      · exact ⟨honward, hkeeps⟩
    | _ =>
      cases hnext
      exact ⟨honward, hkeeps⟩
  all_goals first
    | (rename_i hstage; cases hnext; exact h.onward (by rw [hstage]; rfl))
    | (rename_i hstage; split at hnext <;> cases hnext <;> exact h.onward (by rw [hstage]; rfl))
    | cases hnext

theorem cancelNext_flagged (h : c.Flagged) (hpassed : c.stage.passed = false)
    (hnext : SerialManager.cancelNext c = some (c', action)) : c'.Flagged := by
  unfold SerialManager.cancelNext at hnext
  split at hnext
  · cases hnext
  · cases hnext
    have hmark := h.mark hpassed
    exact ⟨hmark.inTime, hmark.ready, hmark.returned, fun _ => rfl⟩

theorem StepsCall.flagged {s : SerialStep} (hcall : StepsCall m s i c c' action)
    (hi : m.calls[i]? = some c) (hlocal : c.Local) (hinTime : FlagInTime m s) (h : c.Flagged) :
    c'.Flagged ∧ (c.stage.passed = true → c'.stage.passed = true) := by
  have hearly (hall : (m.calls[i]?).all (fun c => !c.stage.passed) = true) :
      c.stage.passed = false := by
    rw [hi] at hall
    exact Bool.not_eq_true' _ ▸ hall
  cases s with
  | caller j event =>
    obtain ⟨rfl, hnext⟩ := hcall
    refine callerNext_flagged hlocal h ?_ hnext
    rintro rfl
    exact hearly hinTime
  | task j event => exact taskNext_flagged h hcall.2
  | cancelMark j =>
    obtain ⟨rfl, hnext⟩ := hcall
    have hpassed := hearly hinTime
    refine ⟨cancelNext_flagged h hpassed hnext, fun htrue => ?_⟩
    rw [htrue] at hpassed
    cases hpassed
  | connect operationId profile => exact hcall.elim
  | cancelLookup operationId => exact hcall.elim

/-! ## Every run -/

/-- What a flag that is set in time keeps. -/
structure CancelRespected (m : SerialManager) : Prop where
  calls : ∀ (i : ℕ) (c : Call), m.calls[i]? = some c → c.Flagged
  connected : ∀ i : ℕ, SerialEvent.sessionStatus i .connected none ∈ m.events →
    ∃ c, m.calls[i]? = some c ∧ c.stage.passed = true

theorem Successor.flagged {s : SerialStep} (hsuccessor : Successor m s i c c')
    (hi : m.calls[i]? = some c) (hlocal : c.Local) (hinTime : FlagInTime m s) (h : c.Flagged) :
    c'.Flagged ∧ (c.stage.passed = true → c'.stage.passed = true) := by
  obtain ⟨d, hd, htouched⟩ := hsuccessor
  have hflagged : d.Flagged ∧ (c.stage.passed = true → d.stage.passed = true) := by
    rcases hd with rfl | ⟨action, hcall⟩
    · exact ⟨h, fun hpassed => hpassed⟩
    · exact hcall.flagged hi hlocal hinTime h
  refine ⟨htouched.flagged hflagged.1, ?_⟩
  rw [htouched.stage]
  exact hflagged.2

theorem taskNext_connected {event : TaskEvent}
    (hnext : SerialManager.taskNext i c event =
      some (c', .emit (.sessionStatus j .connected none))) :
    j = i ∧ c.stage = .sent := by
  unfold SerialManager.taskNext at hnext
  split at hnext
  case h_9 hstage =>
    cases hnext
    exact ⟨rfl, hstage⟩
  case h_12 exit cleanup todo waiter hstage =>
    cases cleanup with
    | emitStatus =>
      have hfinal : exit.finalStatus i = .sessionStatus j .connected none := by
        injection hnext with hpair
        injection (Prod.mk.inj hpair).2
      unfold Exit.finalStatus at hfinal
      split at hfinal <;> cases hfinal
    | _ => cases hnext
  all_goals first
    | cases hnext
    | (split at hnext <;> cases hnext)

theorem cancelRespected_step {s : SerialStep} (h : CancelRespected m) (hm : m.Consistent)
    (hinTime : FlagInTime m s) (hstep : m.step s = some m') : CancelRespected m' := by
  refine ⟨fun i c' hi => ?_, fun i hevent => ?_⟩
  · rcases step_origin hstep hi with hnew | ⟨c, hc, hsuccessor⟩
    · exact hnew.flagged
    · exact (hsuccessor.flagged hc (hm.isLocal i c hc) hinTime (h.calls i c hc)).1
  · -- announced before, or in this step by a task that has passed
    have hpassed : ∃ c, m.calls[i]? = some c ∧ c.stage.passed = true := by
      rcases step_cases hstep with ⟨-, hsame⟩ | ⟨k, c, c', action, hk, hcall, happly⟩
      · rw [hsame] at hevent
        exact h.connected i hevent
      · rcases apply_events happly with hsame | ⟨e, rfl, hset⟩
        · rw [hsame] at hevent
          exact h.connected i hevent
        · rw [hset, List.mem_append, List.mem_singleton] at hevent
          rcases hevent with hbefore | rfl
          · exact h.connected i hbefore
          · obtain ⟨event, hnext⟩ := hcall.task_of_emit
            obtain ⟨rfl, hstage⟩ := taskNext_connected hnext
            refine ⟨c, hk, ?_⟩
            rw [hstage]
            rfl
    obtain ⟨c, hc, hpassed⟩ := hpassed
    obtain ⟨c', hc', hsuccessor⟩ := step_successor hstep hc
    exact ⟨c', hc', (hsuccessor.flagged hc (hm.isLocal i c hc) hinTime (h.calls i c hc)).2 hpassed⟩

theorem cancelRespected_of_reachable (h : (serialManager.restrict FlagInTime).Reachable m) :
    CancelRespected m := by
  refine h.induct ?_ ?_
  · rintro _ rfl
    refine ⟨fun i c hi => (by cases hi), fun i hevent => ?_⟩
    cases hevent
  · intro m₁ s m₂ hreach hrespected hstep
    exact cancelRespected_step hrespected (consistent_of_reachable hreach.of_restrict) hstep.1
      hstep.2

/-! ## The cancel wins -/

theorem Stage.listed_of_holdsClaim {stage : Stage} (hplan : stage.OnPlan)
    (hpassed : stage.passed = false) (hholds : stage.holdsClaim = true) : stage.listed = true := by
  cases stage with
  | leaving exit todo =>
    have hmem : todo ∈ exit.plan.tails := (List.mem_tails _ _).mpr hplan
    have horder : ∀ rest ∈ exit.plan.tails,
        Cleanup.dropClaim ∈ rest → Cleanup.removePending ∈ rest := by
      cases exit with
      | openFailed err => show ∀ rest ∈ [_, _, _].tails, _; decide
      | cancelled => decide
      | insertFailed => cases hpassed
      | refused => cases hpassed
      | finished finalError requested => cases hpassed
    exact decide_eq_true (horder todo hmem (of_decide_eq_true hholds))
  | notSpawned => cases hholds
  | starting => rfl
  | opening => rfl
  | opened => rfl
  | checked => cases hpassed
  | inserted => cases hpassed
  | unlisted => cases hpassed
  | sent => cases hpassed
  | running => cases hpassed

theorem Call.Flagged.listed (h : c.Flagged) (hlocal : c.Local) (hcancelled : c.cancelled = true)
    (hholds : c.holdsClaim = true) : c.listed = true := by
  unfold Call.listed
  rw [Bool.or_eq_true]
  cases hearly : c.caller.early with
  | true => exact .inl rfl
  | false =>
    have hclaim : c.holdsClaim = c.stage.holdsClaim :=
      congrArg Holdings.claim (holdings_of_late hearly)
    exact .inr (Stage.listed_of_holdsClaim hlocal.onPlan (h.inTime hcancelled) (hclaim ▸ hholds))

/-- A cancel that is acknowledged while the call is under way wins, and the port of a cancelled or
timed-out owner is waited for. -/
structure CancelWins (m : SerialManager) : Prop where
  stopped : ∀ (i : ℕ) (c : Call), m.calls[i]? = some c → c.acknowledged = true →
    c.caller ≠ .returned (.ok ()) ∧ SerialEvent.sessionStatus i .connected none ∉ m.events
  refusedByLive : ∀ (i : ℕ) (c c' : Call) (action : Action) (owner : SerialPortOwner) (d : Call),
    m.calls[i]? = some c → m.callerNext c .claim = some (c', action) →
    c'.caller = .failing (serialPortInUseError c.portName) →
    m.claimedPorts c.portName = some owner → m.calls[owner.released]? = some d →
    d.cancelled = false

theorem ownerCancelled_of_flagged (hm : m.Consistent) {portName : Text} {owner : SerialPortOwner}
    {d : Call} (hd : d.Flagged) (howner : m.claimedPorts portName = some owner)
    (hi : m.calls[owner.released]? = some d) (hcancelled : d.cancelled = true) :
    m.ownerCancelled owner = true := by
  have hheld := (hm.claims owner.released portName).mpr (by
    show (m.claimedPorts portName).map _ = _
    rw [howner]
    rfl)
  rw [claimOf_self hi] at hheld
  have hholds : d.holdsClaim = true := by
    unfold Call.claim at hheld
    split at hheld
    · assumption
    · cases hheld
  have hlisted := hd.listed (hm.isLocal owner.released d hi) hcancelled hholds
  unfold SerialManager.ownerCancelled
  rw [hm.claimOp portName owner d howner hi, hm.pendingConnects_eq hi hlisted]
  show (m.calls[owner.released]?).any Call.cancelled = true
  rw [hi]
  exact hcancelled

/-- **An acknowledged cancel wins.** In every run in which the flags are set before the task's last
look, an acknowledged cancel stops its call, and a port is refused only for an owner whose flag is
not set. -/
theorem cancelWins_of_reachable (h : (serialManager.restrict FlagInTime).Reachable m) :
    CancelWins m := by
  have hm := consistent_of_reachable h.of_restrict
  have hrespected := cancelRespected_of_reachable h
  refine ⟨fun i c hi hack => ?_, fun i c c' action owner d _ hnext hrefused howner hd => ?_⟩
  · have hflagged := hrespected.calls i c hi
    have hpassed := hflagged.inTime (hflagged.acknowledged hack)
    refine ⟨fun hreturned => ?_, fun hevent => ?_⟩
    · rw [hflagged.returned hreturned] at hpassed
      cases hpassed
    · obtain ⟨d, hd, hafter⟩ := hrespected.connected i hevent
      rw [hi] at hd
      cases hd
      rw [hpassed] at hafter
      cases hafter
  · rw [← Bool.not_eq_true]
    intro hcancelled
    have hfound := ownerCancelled_of_flagged hm (hrespected.calls _ d hd) howner hd hcancelled
    unfold SerialManager.callerNext at hnext
    split at hnext
    case h_2 =>
      rw [howner] at hnext
      dsimp only at hnext
      rw [if_pos hfound] at hnext
      cases hnext
      cases hrefused
    all_goals contradiction

/-! ## In time, and late -/

def cancelledInTime : List SerialStep :=
  [.connect "a".toList portProfile, .caller 0 .check, .caller 0 .claim, .caller 0 .spawn,
    .task 0 .workerStart, .cancelLookup "a".toList, .cancelMark 0,
    .connect "b".toList portProfile, .caller 1 .check]

def cancelledInTimeManager : SerialManager :=
  (Machine.exec SerialManager.step newManager cancelledInTime).getD newManager

theorem cancelWins_cancelledInTime :
    (cancelledInTimeManager.calls[0]?).map Call.acknowledged = some true ∧
      CancelWins cancelledInTimeManager := by
  refine ⟨by decide, cancelWins_of_reachable (Machine.reachable_restrict ?_)⟩
  have hrun : Machine.exec (fun m s => if FlagInTime m s then SerialManager.step m s else none)
      newManager cancelledInTime = some cancelledInTimeManager := rfl
  exact Machine.reachable_exec hrun

/-- The flag is set, and `Ok(true)` returned, between the last look and the insertion. -/
def cancelledLate : List SerialStep :=
  [.connect "a".toList portProfile, .caller 0 .check, .caller 0 .claim, .caller 0 .spawn,
    .task 0 .workerStart, .task 0 (.openerReturns (.ok ())), .task 0 .checkOpened,
    .cancelLookup "a".toList, .cancelMark 0, .task 0 (.insert true), .task 0 .unlist,
    .task 0 .sendReady, .task 0 .emitConnected, .caller 0 .receive]

def cancelledLateManager : SerialManager :=
  (Machine.exec SerialManager.step newManager cancelledLate).getD newManager

/-- The call succeeds all the same. -/
theorem cancel_loses : ¬∀ m, serialManager.Reachable m → CancelWins m := by
  intro hall
  have hrun : Machine.exec SerialManager.step newManager cancelledLate =
      some cancelledLateManager := rfl
  have hwins := (hall cancelledLateManager (Machine.reachable_exec hrun)).stopped 0 _ rfl rfl
  exact hwins.1 rfl

end FluxTerm.Serial
