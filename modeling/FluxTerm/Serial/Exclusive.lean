import FluxTerm.Serial.Consistent

/-!
# FluxTerm — who holds a serial port

* **`PortsExclusive`** — one holder a port, openers and open handles under a claim, claims removed
  by their holder alone, and final events after the release;
  **`portsExclusive_of_reachable`** — in every run.
-/

namespace FluxTerm.Serial

open FluxTerm.Engine FluxTerm.Lib SerialManager

variable {m : SerialManager} {i : ℕ} {c c' : Call} {action : Action}

/-! ## What changes the claims and what is emitted -/

theorem callerNext_claims {event : CallerEvent}
    (h : m.callerNext c event = some (c', action)) :
    (action = .claimPort → event = .claim) ∧ (∀ waiter, action ≠ .dropClaim waiter) ∧
      ∀ e, action ≠ .emit e := by
  unfold SerialManager.callerNext at h
  split at h
  case h_2 =>
    split at h
    · exact ⟨fun _ => rfl, by cases h; exact ⟨nofun, nofun⟩⟩
    · exact ⟨fun _ => rfl, by split at h <;> cases h <;> exact ⟨nofun, nofun⟩⟩
  case h_5 wait _ _ =>
    split at h
    · cases h
      cases wait <;> simp [SerialManager.dropWait]
    · cases h
  case h_6 wait _ _ =>
    split at h
    · cases h
    · cases h
      cases wait <;> simp [SerialManager.dropWait]
  case h_9 =>
    obtain ⟨result, -, hpair⟩ := Option.map_eq_some_iff.mp h
    cases hpair
    exact ⟨nofun, nofun, nofun⟩
  all_goals first
    | (cases h; exact ⟨nofun, nofun, nofun⟩)
    | (split at h <;> cases h <;> exact ⟨nofun, nofun, nofun⟩)
    | cases h

theorem taskNext_dropClaim {event : TaskEvent} {waiter : Option ℕ}
    (h : SerialManager.taskNext i c event = some (c', .dropClaim waiter)) :
    event = .clean waiter ∧ ∃ exit todo, c.stage = .leaving exit (.dropClaim :: todo) := by
  unfold SerialManager.taskNext at h
  split at h
  case h_12 exit cleanup todo waiter' hstage =>
    cases cleanup <;> cases h
    exact ⟨rfl, exit, todo, hstage⟩
  all_goals first
    | cases h
    | (split at h <;> cases h)

theorem taskNext_emit {event : TaskEvent} {e : SerialEvent}
    (h : SerialManager.taskNext i c event = some (c', .emit e)) :
    e = .sessionStatus i .connected none ∨ (∃ data, e = .serialOutput i data) ∨ e = .terminalExit i ∨
      ∃ exit todo, c.stage = .leaving exit (.emitStatus :: todo) ∧ e = exit.finalStatus i := by
  unfold SerialManager.taskNext at h
  split at h
  case h_12 exit cleanup todo waiter' hstage =>
    cases cleanup <;> cases h
    · exact .inr (.inr (.inr ⟨exit, todo, hstage, rfl⟩))
    · exact .inr (.inr (.inl rfl))
  case h_9 => 
    cases h
    exact .inl rfl
  case h_10 data _ =>
    split at h <;> cases h
    exact .inr (.inl ⟨data, rfl⟩)
  all_goals first
    | cases h
    | (split at h <;> cases h)
theorem taskNext_ne_claimPort {event : TaskEvent} :
    SerialManager.taskNext i c event ≠ some (c', .claimPort) := by
  intro h
  unfold SerialManager.taskNext at h
  split at h
  case h_12 exit cleanup todo waiter hstage => cases cleanup <;> cases h
  all_goals first
    | cases h
    | (split at h <;> cases h)

theorem notifyOne_frame {owner : ℕ} {waiter : Option ℕ} {m' : SerialManager}
    (h : m.notifyOne owner waiter = some m') : m' = { m with calls := m'.calls } := by
  unfold SerialManager.notifyOne at h
  split at h
  · split at h
    · split at h <;> cases h
      rfl
    · cases h
  · split at h <;> cases h
    rfl

theorem apply_claimedPorts {m' : SerialManager} (h : m.apply i c action = some m') :
    m'.claimedPorts = m.claimedPorts ∨
      (action = .claimPort ∧ m'.claimedPorts =
        Function.update m.claimedPorts c.portName (some ⟨c.operationId, i⟩)) ∨
      ∃ waiter, action = .dropClaim waiter ∧
        m'.claimedPorts = Function.update m.claimedPorts c.portName none := by
  cases action with
  | claimPort =>
    cases h
    exact .inr (.inl ⟨rfl, rfl⟩)
  | dropClaim waiter =>
    change m.dropClaim i c waiter = some m' at h
    unfold SerialManager.dropClaim at h
    split at h
    · rw [notifyOne_frame h]
      exact .inr (.inr ⟨waiter, rfl, rfl⟩)
    · cases h
      exact .inl rfl
  | passOn owner waiter =>
    rw [notifyOne_frame h]
    exact .inl rfl
  | removePending =>
    change (if _ then _ else _) = some m' at h
    split at h <;> cases h <;> exact .inl rfl
  | _ =>
    cases h
    exact .inl rfl

theorem apply_events {m' : SerialManager} (h : m.apply i c action = some m') :
    m'.events = m.events ∨ ∃ e, action = .emit e ∧ m'.events = m.events ++ [e] := by
  cases action with
  | emit e =>
    cases h
    exact .inr ⟨e, rfl, rfl⟩
  | dropClaim waiter =>
    change m.dropClaim i c waiter = some m' at h
    unfold SerialManager.dropClaim at h
    split at h
    · rw [notifyOne_frame h]
      exact .inl rfl
    · cases h
      exact .inl rfl
  | passOn owner waiter =>
    rw [notifyOne_frame h]
    exact .inl rfl
  | removePending =>
    change (if _ then _ else _) = some m' at h
    split at h <;> cases h <;> exact .inl rfl
  | _ =>
    cases h
    exact .inl rfl

theorem connect_frame (operationId : Text) (profile : SerialProfile) :
    (m.connect operationId profile).claimedPorts = m.claimedPorts ∧
      (m.connect operationId profile).events = m.events := by
  unfold SerialManager.connect
  split
  · exact ⟨rfl, rfl⟩
  · split
    · exact ⟨rfl, rfl⟩
    · split <;> exact ⟨rfl, rfl⟩

/-- The step of a call, and what it does. -/
def StepsCall (m : SerialManager) (s : SerialStep) (i : ℕ) (c c' : Call) (action : Action) : Prop :=
  match s with
  | .caller j event => j = i ∧ m.callerNext c event = some (c', action)
  | .task j event => j = i ∧ SerialManager.taskNext i c event = some (c', action)
  | .cancelMark j => j = i ∧ SerialManager.cancelNext c = some (c', action)
  | .connect .. | .cancelLookup _ => False

theorem StepsCall.stepOf {s : SerialStep} (h : StepsCall m s i c c' action) (hlocal : c.Local) :
    StepOf m c c' action := by
  cases s with
  | caller j event => exact callerNext_spec hlocal h.2
  | task j event => exact taskNext_spec hlocal h.2
  | cancelMark j => exact cancelNext_spec hlocal h.2
  | connect operationId profile => exact h.elim
  | cancelLookup operationId => exact h.elim

theorem step_cases {s : SerialStep} {m' : SerialManager} (h : m.step s = some m') :
    (m'.claimedPorts = m.claimedPorts ∧ m'.events = m.events) ∨
      ∃ i c c' action, m.calls[i]? = some c ∧ StepsCall m s i c c' action ∧
        (m.moved i c').apply i c' action = some m' := by
  cases s with
  | connect operationId profile =>
    cases h
    exact .inl (connect_frame operationId profile)
  | cancelLookup operationId =>
    unfold SerialManager.step at h
    dsimp only at h
    split at h <;> cases h <;> exact .inl ⟨rfl, rfl⟩
  | caller i event =>
    obtain ⟨c, c', action, hi, hnext, happly⟩ := perform_eq_some h
    exact .inr ⟨i, c, c', action, hi, ⟨rfl, hnext⟩, happly⟩
  | task i event =>
    obtain ⟨c, c', action, hi, hnext, happly⟩ := perform_eq_some h
    exact .inr ⟨i, c, c', action, hi, ⟨rfl, hnext⟩, happly⟩
  | cancelMark i =>
    obtain ⟨c, c', action, hi, hnext, happly⟩ := perform_eq_some h
    exact .inr ⟨i, c, c', action, hi, ⟨rfl, hnext⟩, happly⟩

theorem StepsCall.clean_of_dropClaim {s : SerialStep} {waiter : Option ℕ}
    (h : StepsCall m s i c c' (.dropClaim waiter)) : s = .task i (.clean waiter) := by
  cases s with
  | caller j event => exact absurd rfl ((callerNext_claims h.2).2.1 waiter)
  | task j event =>
    obtain ⟨rfl, hnext⟩ := h
    rw [(taskNext_dropClaim hnext).1]
  | cancelMark j =>
    obtain ⟨-, hnext⟩ := h
    unfold SerialManager.cancelNext at hnext
    split at hnext <;> cases hnext
  | connect operationId profile => exact h.elim
  | cancelLookup operationId => exact h.elim

theorem StepsCall.claim_of_claimPort {s : SerialStep} (h : StepsCall m s i c c' .claimPort) :
    s = .caller i .claim := by
  cases s with
  | caller j event =>
    obtain ⟨rfl, hnext⟩ := h
    rw [(callerNext_claims hnext).1 rfl]
  | task j event => exact absurd h.2 taskNext_ne_claimPort
  | cancelMark j =>
    obtain ⟨-, hnext⟩ := h
    unfold SerialManager.cancelNext at hnext
    split at hnext <;> cases hnext
  | connect operationId profile => exact h.elim
  | cancelLookup operationId => exact h.elim

theorem StepsCall.task_of_emit {s : SerialStep} {e : SerialEvent}
    (h : StepsCall m s i c c' (.emit e)) :
    ∃ event, SerialManager.taskNext i c event = some (c', .emit e) := by
  cases s with
  | caller j event => exact absurd rfl ((callerNext_claims h.2).2.2 e)
  | task j event => exact ⟨event, h.2⟩
  | cancelMark j =>
    obtain ⟨-, hnext⟩ := h
    unfold SerialManager.cancelNext at hnext
    split at hnext <;> cases hnext
  | connect operationId profile => exact h.elim
  | cancelLookup operationId => exact h.elim

/-! ## The exclusive use of a port -/

/-- The exclusive use of ports, in one state and over the steps out of it. -/
structure PortsExclusive (m : SerialManager) : Prop where
  oneHolder : ∀ (i j : ℕ) (c d : Call), m.calls[i]? = some c → m.calls[j]? = some d →
    c.holdsClaim = true → d.holdsClaim = true → c.portName = d.portName → i = j
  entryOfHolder : ∀ (i : ℕ) (c : Call), m.calls[i]? = some c →
    (c.holdsClaim = true ↔ m.claimedPorts c.portName = some ⟨c.operationId, i⟩)
  openUnderClaim : ∀ (i : ℕ) (c : Call), m.calls[i]? = some c →
    c.stage = .opening ∨ c.stage.hasHandle = true → c.holdsClaim = true
  /-- An entry comes from `claim_port` of the call it names. -/
  inserted : ∀ (s : SerialStep) (m' : SerialManager) (portName : Text) (owner : SerialPortOwner),
    m.step s = some m' → m.claimedPorts portName ≠ some owner →
    m'.claimedPorts portName = some owner →
      s = .caller owner.released .claim ∧ m.claimedPorts portName = none
  removed : ∀ (s : SerialStep) (m' : SerialManager) (portName : Text) (owner : SerialPortOwner),
    m.step s = some m' → m.claimedPorts portName = some owner →
    m'.claimedPorts portName ≠ some owner → ∃ waiter, s = .task owner.released (.clean waiter)
  finalStatus : ∀ (s : SerialStep) (m' : SerialManager) (session : ℕ) (state : SessionState)
    (error : Option EngineError), m.step s = some m' →
    m'.events = m.events ++ [.sessionStatus session state error] → state ≠ .connected →
      m.sessions session = false ∧ ∃ c, m.calls[session]? = some c ∧ c.stage.hasHandle = false ∧
        ∀ owner, m.claimedPorts c.portName = some owner → owner.released ≠ session

theorem SerialManager.Consistent.holdsClaim_iff (h : m.Consistent) (hi : m.calls[i]? = some c) :
    c.holdsClaim = true ↔ m.claimedPorts c.portName = some ⟨c.operationId, i⟩ := by
  refine ⟨h.claimedPorts_eq hi, fun howner => ?_⟩
  have hheld := (h.claims i c.portName).mpr (by
    show (m.claimedPorts c.portName).map _ = _
    rw [howner]
    rfl)
  rw [claimOf_self hi] at hheld
  unfold Call.claim at hheld
  split at hheld
  · assumption
  · cases hheld

theorem Call.Local.holdsClaim_of_open (h : c.Local)
    (hopen : c.stage = .opening ∨ c.stage.hasHandle = true) : c.holdsClaim = true := by
  have hspawned : c.stage ≠ .notSpawned := by
    intro hstage
    rw [hstage] at hopen
    rcases hopen with hopen | hopen <;> cases hopen
  have hclaim : c.holdsClaim = c.stage.holdsClaim :=
    congrArg Holdings.claim (holdings_of_late (h.late hspawned))
  rw [hclaim]
  rcases hopen with hopen | hopen
  · rw [hopen]
    rfl
  · have hplan := h.onPlan
    cases hstage : c.stage with
    | leaving exit todo =>
      -- the port is closed before the claim is dropped
      rw [hstage] at hplan hopen
      exact decide_eq_true ((tidy_of_suffix hplan).2.1 (of_decide_eq_true hopen))
    | notSpawned => exact absurd hstage hspawned
    | _ => rfl

theorem SerialManager.Consistent.final (h : m.Consistent) (hi : m.calls[i]? = some c)
    {exit : Exit} {todo : List Cleanup} (hstage : c.stage = .leaving exit (.emitStatus :: todo)) :
    m.sessions i = false ∧ c.stage.hasHandle = false ∧ c.holdsClaim = false := by
  have hlocal := h.isLocal i c hi
  have hplan := hlocal.onPlan
  rw [hstage] at hplan
  obtain ⟨hdropped, hremoved⟩ := (tidy_of_suffix hplan).2.2 rfl
  have hclosed : Cleanup.closePort ∉ Cleanup.emitStatus :: todo :=
    fun hmem => hdropped ((tidy_of_suffix hplan).2.1 hmem)
  have hlate : c.caller.early = false := hlocal.late (by rw [hstage]; nofun)
  refine ⟨?_, ?_, ?_⟩
  · rw [h.sessions]
    unfold SerialManager.sessionOf
    rw [hi]
    show c.stage.inSessions = false
    rw [hstage]
    exact decide_eq_false hremoved
  · rw [hstage]
    exact decide_eq_false hclosed
  · rw [show c.holdsClaim = c.stage.holdsClaim from
      congrArg Holdings.claim (holdings_of_late hlate), hstage]
    exact decide_eq_false hdropped

theorem exit_finalStatus_session {exit : Exit} {session j : ℕ} {state : SessionState}
    {error : Option EngineError} (h : .sessionStatus session state error = exit.finalStatus j) :
    session = j := by
  unfold Exit.finalStatus at h
  split at h <;> cases h <;> rfl

/-- **Exclusive ports.** In every state a run reaches, a port has one holder; openers run and
handles are open under the claim of their own task; an entry comes from the call it names and goes
by that call's task; and a final event comes after the session is out of the map and the claim of
its task is gone. -/
theorem portsExclusive_of_reachable (h : serialManager.Reachable m) : PortsExclusive m := by
  have hm := consistent_of_reachable h
  refine ⟨?_, ?_, ?_, ?_, ?_, ?_⟩
  · intro i j c d hi hj hc hd hport
    refine hm.claims.unique (k := c.portName) ?_ ?_
    · rw [claimOf_self hi]
      exact if_pos hc
    · rw [claimOf_self hj, hport]
      exact if_pos hd
  · intro i c hi
    exact hm.holdsClaim_iff hi
  · intro i c hi hopen
    exact (hm.isLocal i c hi).holdsClaim_of_open hopen
  · intro s m' portName owner hstep hbefore hafter
    rcases step_cases hstep with ⟨hsame, -⟩ | ⟨i, c, c', action, hi, hcall, happly⟩
    · exact absurd (hsame ▸ hafter) hbefore
    · have hspec := hcall.stepOf (hm.isLocal i c hi)
      rcases apply_claimedPorts happly with hsame | ⟨rfl, hset⟩ | ⟨waiter, rfl, hset⟩
      · exact absurd (hsame ▸ hafter) hbefore
      · rw [hset] at hafter
        by_cases hport : portName = c'.portName
        · subst hport
          rw [Function.update_self, Option.some.injEq] at hafter
          rw [← hafter, hspec.portName]
          exact ⟨hcall.claim_of_claimPort, hspec.free rfl⟩
        · rw [Function.update_of_ne hport] at hafter
          exact absurd hafter hbefore
      · rw [hset] at hafter
        by_cases hport : portName = c'.portName
        · subst hport
          rw [Function.update_self] at hafter
          cases hafter
        · rw [Function.update_of_ne hport] at hafter
          exact absurd hafter hbefore
  · intro s m' portName owner hstep hbefore hafter
    rcases step_cases hstep with ⟨hsame, -⟩ | ⟨i, c, c', action, hi, hcall, happly⟩
    · exact absurd (hsame ▸ hbefore) hafter
    · have hspec := hcall.stepOf (hm.isLocal i c hi)
      rcases apply_claimedPorts happly with hsame | ⟨rfl, hset⟩ | ⟨waiter, rfl, hset⟩
      · exact absurd (hsame ▸ hbefore) hafter
      · -- the port was free
        by_cases hport : portName = c'.portName
        · rw [hport, hspec.portName, hspec.free rfl] at hbefore
          cases hbefore
        · rw [hset, Function.update_of_ne hport] at hafter
          exact absurd hbefore hafter
      · by_cases hport : portName = c'.portName
        · rw [hport, hspec.portName, hm.claimedPorts_eq hi hspec.fits.1] at hbefore
          cases hbefore
          exact ⟨waiter, hcall.clean_of_dropClaim⟩
        · rw [hset, Function.update_of_ne hport] at hafter
          exact absurd hbefore hafter
  · intro s m' session state error hstep hevents hstate
    rcases step_cases hstep with ⟨-, hsame⟩ | ⟨i, c, c', action, hi, hcall, happly⟩
    · rw [hsame] at hevents
      cases List.self_eq_append_right.mp hevents
    · rcases apply_events happly with hsame | ⟨e, rfl, hset⟩
      · rw [hsame] at hevents
        cases List.self_eq_append_right.mp hevents
      · rw [hset] at hevents
        have he : e = .sessionStatus session state error := by
          have := List.append_cancel_left hevents
          rwa [List.cons.injEq, and_iff_left rfl] at this
        subst he
        obtain ⟨event, hnext⟩ := hcall.task_of_emit
        rcases taskNext_emit hnext with he | ⟨data, he⟩ | he | ⟨exit, todo, hstage, he⟩
        · cases he
          exact absurd rfl hstate
        · cases he
        · cases he
        · obtain rfl := exit_finalStatus_session he
          obtain ⟨hsession, hhandle, hclaim⟩ := hm.final hi hstage
          refine ⟨hsession, c, hi, hhandle, ?_⟩
          rintro owner howner rfl
          -- the owner would hold the claim
          have hheld := (hm.claims owner.released c.portName).mpr (by
            show (m.claimedPorts c.portName).map _ = _
            rw [howner]
            rfl)
          rw [claimOf_self hi] at hheld
          unfold Call.claim at hheld
          rw [hclaim] at hheld
          cases hheld

/-! ## A run -/

def portProfile : SerialProfile := ⟨"COM3".toList, 9600⟩

def opens (i : ℕ) (operationId : Text) : List SerialStep :=
  [.connect operationId portProfile, .caller i .check, .caller i .claim, .caller i .spawn,
    .task i .workerStart, .task i (.openerReturns (.ok ())), .task i .checkOpened,
    .task i (.insert true), .task i .unlist, .task i .sendReady, .task i .emitConnected,
    .caller i .receive]

def handedOver : List SerialStep :=
  opens 0 "a".toList ++ [.task 0 (.loopEnds .disconnect), .task 0 (.clean none),
    .task 0 (.clean none), .task 0 (.clean none), .connect "b".toList portProfile,
    .caller 1 .check, .caller 1 .claim]

def handedOverManager : SerialManager :=
  (Machine.exec SerialManager.step newManager handedOver).getD newManager

theorem reachable_handedOver : serialManager.Reachable handedOverManager := by
  have hrun : Machine.exec SerialManager.step newManager handedOver = some handedOverManager := rfl
  exact Machine.reachable_exec hrun

theorem portsExclusive_handedOver :
    handedOverManager.claimedPorts "COM3".toList = some ⟨"b".toList, 1⟩ ∧
      PortsExclusive handedOverManager :=
  ⟨by decide, portsExclusive_of_reachable reachable_handedOver⟩

/-- At the final event of a session its port is unclaimed. -/
def PortFreeAtFinalStatus : Prop :=
  ∀ (m : SerialManager), serialManager.Reachable m →
    ∀ (s : SerialStep) (m' : SerialManager) (session : ℕ) (state : SessionState)
      (error : Option EngineError) (c : Call), m.step s = some m' →
      m'.events = m.events ++ [.sessionStatus session state error] → state ≠ .connected →
      m.calls[session]? = some c → m.claimedPorts c.portName = none

/-- Between the drop of the claim and the final event another call takes the port. -/
theorem port_taken_at_finalStatus : ¬PortFreeAtFinalStatus := by
  intro hfree
  have hnone := hfree handedOverManager reachable_handedOver (.task 0 (.clean none)) _ 0
    .disconnected none _ rfl rfl nofun rfl
  revert hnone
  decide

end FluxTerm.Serial
