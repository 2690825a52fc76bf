import FluxTerm.Reconnect.World

/-!
# FluxTerm — pending reconnects

`scheduleReconnectAttempt` records the handle of its timer in `reconnectTimersRef` and does not
look whether one is recorded already. A timer whose handle was overwritten can no longer be
cleared. `suppressSshSessionFeedback` and `clearReconnectStateById` clear the old timer first.

* **`onePending_of_schedulesOnce`** — the run lemma, with what a clear means for all later runs.
* **`reconnect_beside_timer_leaves_two`** — a manual reconnect that fails beside a timer.
-/

namespace FluxTerm.Reconnect

open FluxTerm.Lib

/-- At most one live timer can reconnect a session, and `reconnectTimersRef` has it. -/
structure OnePending (rt : Runtime) : Prop where
  atMostOne : ∀ sessionId,
    (rt.timers.filter fun timer => timer.sessionId == sessionId).length ≤ 1
  recorded : ∀ timer ∈ rt.timers, rt.reconnectTimersRef timer.sessionId = some timer.id

/-- The session that a step wants to reconnect later, and the reason. -/
def scheduled (config : Config) (w : World) : Event → Option (Text × DisconnectReason)
  | .scheduleReconnect sessionId reason => some (sessionId, reason)
  | .connectFailed sessionId code =>
    if Runtime.isHostKeyError code || w.runtime.exhausted sessionId then none
    else some (sessionId, w.runtime.getDisconnectReason sessionId)
  | .sessionEnded sessionId lastCommand terminalEofRequested =>
    let reason := inferDisconnectReason lastCommand (w.runtime.isLocalSession sessionId)
      terminalEofRequested
    if w.runtime.handlesEnd sessionId && Runtime.shouldAutoReconnect config reason then
      some (sessionId, reason)
    else none
  | _ => none

/-- A step that starts a timer for a session finds none recorded for it. -/
def SchedulesOnce (config : Config) (w : World) (event : Event) : Prop :=
  ∀ sessionId reason, scheduled config w event = some (sessionId, reason) →
    computeReconnectDelayMs reason ((w.runtime.reconnectAttemptsRef sessionId).getD 0 + 1) ≠ none →
      w.runtime.reconnectTimersRef sessionId = none

/-! ## The timers of the window -/

/-- The timers and the refs agree. -/
structure Ticking (rt : Runtime) : Prop where
  recorded : ∀ timer ∈ rt.timers, rt.reconnectTimersRef timer.sessionId = some timer.id
  ids_nodup : (rt.timers.map Timer.id).Nodup
  older : ∀ timer ∈ rt.timers, timer.id < rt.nextTimerId
  handles : ∀ sessionId id, rt.reconnectTimersRef sessionId = some id → id < rt.nextTimerId ∧
    ∀ timer ∈ rt.timers, timer.id = id → timer.sessionId = sessionId

namespace Runtime

def clock (rt : Runtime) : List Timer × (Text → Option ℕ) × ℕ :=
  (rt.timers, rt.reconnectTimersRef, rt.nextTimerId)

end Runtime

variable {config : Config} {rt rt' : Runtime}

theorem Ticking.of_clock (h : Ticking rt) (hclock : rt'.clock = rt.clock) : Ticking rt' := by
  obtain ⟨htimers, hrefs, hnext⟩ : rt'.timers = rt.timers ∧
      rt'.reconnectTimersRef = rt.reconnectTimersRef ∧ rt'.nextTimerId = rt.nextTimerId := by
    simpa [Runtime.clock] using hclock
  obtain ⟨hrecorded, hnodup, holder, hhandles⟩ := h
  refine ⟨?_, ?_, ?_, ?_⟩
  all_goals rw [htimers]
  · rwa [hrefs]
  · exact hnodup
  · rwa [hnext]
  · rwa [hrefs, hnext]

theorem Ticking.onePending (h : Ticking rt) : OnePending rt where
  recorded := h.recorded
  atMostOne sessionId := by
    have hnodup : ((rt.timers.filter fun timer => timer.sessionId == sessionId).map
        Timer.id).Nodup := h.ids_nodup.sublist (List.filter_sublist.map _)
    have hhandle : ∀ timer ∈ rt.timers.filter fun timer => timer.sessionId == sessionId,
        rt.reconnectTimersRef sessionId = some timer.id := by
      intro timer hmem
      obtain ⟨hin, hid⟩ := List.mem_filter.mp hmem
      rw [← eq_of_beq hid]
      exact h.recorded timer hin
    generalize rt.timers.filter (fun timer => timer.sessionId == sessionId) = own at *
    match own with
    | [] => simp
    | [timer] => simp
    | first :: second :: rest =>
      have hfirst := hhandle first (by simp)
      rw [hhandle second (by simp), Option.some.injEq] at hfirst
      simp [hfirst] at hnodup

/-! ## Clearing, firing and starting a timer -/

theorem Ticking.forget (h : Ticking rt) {sessionId : Text} {timers : List Timer}
    (hsub : timers.Sublist rt.timers)
    (hgone : ∀ timer ∈ timers, timer.sessionId ≠ sessionId)
    (htimers : rt'.timers = timers) (hnext : rt'.nextTimerId = rt.nextTimerId)
    (hrefs : rt'.reconnectTimersRef = Function.update rt.reconnectTimersRef sessionId none) :
    Ticking rt' := by
  refine ⟨?_, ?_, ?_, ?_⟩
  all_goals rw [htimers]
  · intro timer hmem
    rw [hrefs, Function.update_of_ne (hgone timer hmem)]
    exact h.recorded timer (hsub.subset hmem)
  · exact h.ids_nodup.sublist (hsub.map _)
  · rw [hnext]
    exact fun timer hmem => h.older timer (hsub.subset hmem)
  · intro item id hid
    rw [hrefs] at hid
    have hne : item ≠ sessionId := by
      rintro rfl
      simp at hid
    rw [Function.update_of_ne hne] at hid
    obtain ⟨hlt, hown⟩ := h.handles item id hid
    rw [hnext]
    exact ⟨hlt, fun timer hmem => hown timer (hsub.subset hmem)⟩

theorem clearRecordedTimer_gone (h : Ticking rt) (sessionId : Text) :
    ∀ timer ∈ (rt.clearRecordedTimer sessionId).timers, timer.sessionId ≠ sessionId := by
  intro timer hmem
  rintro rfl
  have hrecorded : timer ∈ rt.timers := by
    unfold Runtime.clearRecordedTimer at hmem
    dsimp only at hmem
    split at hmem
    · exact hmem
    · exact (List.mem_filter.mp hmem).1
  have hid := h.recorded timer hrecorded
  unfold Runtime.clearRecordedTimer at hmem
  rw [hid] at hmem
  simp at hmem

theorem Ticking.clearRecordedTimer (h : Ticking rt) (sessionId : Text) :
    Ticking (rt.clearRecordedTimer sessionId) := by
  have hsub : (rt.clearRecordedTimer sessionId).timers.Sublist rt.timers := by
    unfold Runtime.clearRecordedTimer
    dsimp only
    split
    · exact .refl _
    · exact List.filter_sublist
  exact h.forget hsub (clearRecordedTimer_gone h sessionId) rfl rfl rfl

theorem Ticking.startTimer (h : Ticking rt) {sessionId : Text}
    (hnone : rt.reconnectTimersRef sessionId = none) (delayMs : ℕ) :
    Ticking (rt.startTimer sessionId delayMs) := by
  have hother : ∀ timer ∈ rt.timers, timer.sessionId ≠ sessionId := by
    intro timer hmem
    rintro rfl
    simp [h.recorded timer hmem] at hnone
  refine ⟨?_, ?_, ?_, ?_⟩
  · intro timer hmem
    rcases List.mem_append.mp hmem with hold | hnew
    · exact (Function.update_of_ne (hother timer hold) _ _).trans (h.recorded timer hold)
    · cases List.mem_singleton.mp hnew
      exact Function.update_self _ _ _
  · change ((rt.timers ++ [_]).map Timer.id).Nodup
    rw [List.map_append, List.nodup_append']
    refine ⟨h.ids_nodup, List.nodup_singleton _, ?_⟩
    rw [List.map_singleton, List.disjoint_singleton]
    intro hmem
    obtain ⟨timer, htimer, hid⟩ := List.mem_map.mp hmem
    have hlt := h.older timer htimer
    dsimp only at hid
    omega
  · intro timer hmem
    change timer.id < rt.nextTimerId + 1
    rcases List.mem_append.mp hmem with hold | hnew
    · have hlt := h.older timer hold
      omega
    · cases List.mem_singleton.mp hnew
      exact Nat.lt_succ_self _
  · intro item id hid
    change Function.update _ _ _ _ = _ at hid
    change id < rt.nextTimerId + 1 ∧ ∀ timer ∈ rt.timers ++ [_], timer.id = id → _
    by_cases hitem : item = sessionId
    · subst hitem
      rw [Function.update_self, Option.some.injEq] at hid
      subst hid
      refine ⟨Nat.lt_succ_self _, fun timer hmem heq => ?_⟩
      rcases List.mem_append.mp hmem with hold | hnew
      · have hlt := h.older timer hold
        omega
      · cases List.mem_singleton.mp hnew
        rfl
    · rw [Function.update_of_ne hitem] at hid
      obtain ⟨hlt, hown⟩ := h.handles item id hid
      refine ⟨by omega, fun timer hmem heq => ?_⟩
      rcases List.mem_append.mp hmem with hold | hnew
      · exact hown timer hold heq
      · cases List.mem_singleton.mp hnew
        dsimp only at heq
        omega

/-! ## Timers of an earlier state -/

/-- Time went on from `rt` to `rt'`: a timer that is live now was live then, or is new. -/
structure Follows (rt rt' : Runtime) : Prop where
  next : rt.nextTimerId ≤ rt'.nextTimerId
  timers : ∀ timer ∈ rt'.timers, timer ∈ rt.timers ∨ rt.nextTimerId ≤ timer.id

theorem Follows.of_clock (hclock : rt'.clock = rt.clock) : Follows rt rt' := by
  obtain ⟨htimers, -, hnext⟩ : rt'.timers = rt.timers ∧
      rt'.reconnectTimersRef = rt.reconnectTimersRef ∧ rt'.nextTimerId = rt.nextTimerId := by
    simpa [Runtime.clock] using hclock
  exact ⟨hnext.ge, fun timer hmem => .inl (htimers ▸ hmem)⟩

theorem Follows.trans {rt'' : Runtime} (h : Follows rt rt') (h' : Follows rt' rt'') :
    Follows rt rt'' where
  next := h.next.trans h'.next
  timers timer hmem := by
    rcases h'.timers timer hmem with hold | hnew
    · exact h.timers timer hold
    · exact .inr (h.next.trans hnew)

theorem follows_clearRecordedTimer (rt : Runtime) (sessionId : Text) :
    Follows rt (rt.clearRecordedTimer sessionId) where
  next := le_rfl
  timers timer hmem := by
    unfold Runtime.clearRecordedTimer at hmem
    dsimp only at hmem
    split at hmem
    · exact .inl hmem
    · exact .inl (List.mem_filter.mp hmem).1

theorem follows_startTimer (rt : Runtime) (sessionId : Text) (delayMs : ℕ) :
    Follows rt (rt.startTimer sessionId delayMs) where
  next := Nat.le_succ _
  timers timer hmem := by
    rcases List.mem_append.mp hmem with hold | hnew
    · exact .inl hold
    · cases List.mem_singleton.mp hnew
      exact .inr le_rfl

/-! ## The functions of the runtime -/

/-- What a function of the runtime does with the timers: it keeps `Ticking`, if it finds no timer
recorded where it starts one, and time goes on. -/
structure Ticks (guard : Prop) (rt rt' : Runtime) : Prop where
  ticking : guard → Ticking rt → Ticking rt'
  follows : Follows rt rt'

theorem Ticks.of_clock {guard : Prop} (hclock : rt'.clock = rt.clock) : Ticks guard rt rt' :=
  ⟨fun _ h => h.of_clock hclock, .of_clock hclock⟩

theorem Ticks.trans {guard : Prop} {rt'' : Runtime} (h : Ticks guard rt rt')
    (h' : Ticks guard rt' rt'') : Ticks guard rt rt'' :=
  ⟨fun hguard hticking => h'.ticking hguard (h.ticking hguard hticking), h.follows.trans h'.follows⟩

theorem ticks_clearRecordedTimer (guard : Prop) (rt : Runtime) (sessionId : Text) :
    Ticks guard rt (rt.clearRecordedTimer sessionId) :=
  ⟨fun _ h => h.clearRecordedTimer sessionId, follows_clearRecordedTimer rt sessionId⟩

theorem ticks_clearReconnectStateById (guard : Prop) (rt : Runtime) (sessionId : Text) :
    Ticks guard rt (rt.clearReconnectStateById sessionId) :=
  (ticks_clearRecordedTimer guard rt sessionId).trans (.of_clock rfl)

theorem ticks_scheduleReconnectAttempt (rt : Runtime) (sessionId : Text)
    (reason : DisconnectReason) :
    Ticks (computeReconnectDelayMs reason ((rt.reconnectAttemptsRef sessionId).getD 0 + 1) ≠ none →
        rt.reconnectTimersRef sessionId = none)
      rt (rt.scheduleReconnectAttempt sessionId reason) := by
  unfold Runtime.scheduleReconnectAttempt
  dsimp only
  split
  · exact .of_clock rfl
  · rename_i delayMs hdelay
    rw [hdelay]
    refine ⟨fun hnone h => ?_, ?_⟩
    · apply Ticking.startTimer
      · exact h.of_clock rfl
      · exact hnone (Option.some_ne_none _)
    · refine Follows.trans ?_ (follows_startTimer _ sessionId delayMs)
      exact .of_clock rfl

theorem ticks_attemptReconnect (guard : Prop) (rt : Runtime) (sessionId : Text) :
    Ticks guard rt (rt.attemptReconnect sessionId).1 := by
  unfold Runtime.attemptReconnect
  split
  · exact ticks_clearReconnectStateById guard rt sessionId
  · split
    · exact .of_clock rfl
    · exact ticks_clearReconnectStateById guard rt sessionId

theorem ticks_replaceSessionConnectionState (guard : Prop) (rt : Runtime) (lower : Text → Text)
    (sessionId : Text) (nextSession : Session) (nextState : SessionStateUi) :
    Ticks guard rt (rt.replaceSessionConnectionState lower sessionId nextSession nextState) :=
  (ticks_clearReconnectStateById guard rt sessionId).trans (.of_clock rfl)

variable {w w' : World} {endCounts : Bool}

theorem ticks_attemptFailed (sessionId code : Text) :
    Ticks (SchedulesOnce config w (.connectFailed sessionId code)) w.runtime
      (w.runtime.attemptFailed sessionId code) := by
  unfold Runtime.attemptFailed
  split
  · exact .of_clock rfl
  · rename_i hcode
    split
    · exact (ticks_clearReconnectStateById _ w.runtime sessionId).trans (.of_clock rfl)
    · rename_i hleft
      have hticks := ticks_scheduleReconnectAttempt w.runtime sessionId
        (w.runtime.getDisconnectReason sessionId)
      refine ⟨fun hguard => hticks.ticking (hguard sessionId _ ?_), hticks.follows⟩
      simp [scheduled, hcode, hleft]

theorem ticks_handleSessionDisconnected (sessionId : Text) (lastCommand : Option Text)
    (terminalEofRequested : Bool) :
    Ticks (SchedulesOnce config w (.sessionEnded sessionId lastCommand terminalEofRequested))
      w.runtime
      (w.runtime.handleSessionDisconnected config sessionId lastCommand terminalEofRequested) := by
  unfold Runtime.handleSessionDisconnected
  split
  · exact .of_clock rfl
  · rename_i hgoes
    dsimp only
    split
    · rename_i hauto
      -- the flag, the reason and the state are set before the timer
      refine ⟨fun hguard h => ?_, ?_⟩
      · refine (ticks_scheduleReconnectAttempt _ sessionId _).ticking ?_ ?_
        · exact hguard sessionId _ (by simp_all [scheduled])
        · exact h.of_clock rfl
      · refine Follows.trans ?_ (ticks_scheduleReconnectAttempt _ sessionId _).follows
        exact .of_clock rfl
    · exact .of_clock rfl

/-! ## Events -/

theorem ticks_fired {guard : Prop} {due : Timer} {handle : ℕ}
    (hdue : w.runtime.timers.find? (fun item => item.id == handle) = some due) :
    Ticks guard w.runtime
      { w.runtime with
        timers := w.runtime.timers.filter fun item => item.id != handle
        reconnectTimersRef := Function.update w.runtime.reconnectTimersRef due.sessionId none } := by
  have hid : due.id = handle := by simpa using List.find?_some hdue
  refine ⟨fun _ h => ?_, le_rfl, fun timer hmem => .inl (List.mem_filter.mp hmem).1⟩
  refine h.forget List.filter_sublist (fun timer hmem hsame => ?_) rfl rfl rfl
  obtain ⟨hin, hne⟩ := List.mem_filter.mp hmem
  -- both are recorded for the one session, so they are one
  have hrecorded := h.recorded timer hin
  rw [hsame, h.recorded due (List.mem_of_find?_eq_some hdue), Option.some.injEq, hid] at hrecorded
  simp [hrecorded] at hne

theorem ticks_disconnectSession (guard : Prop) (w : World) (sessionId : Text) :
    Ticks guard w.runtime (w.disconnectSession config sessionId).runtime := by
  unfold World.disconnectSession
  split
  · exact .of_clock rfl
  · split
    · exact .of_clock rfl
    · exact .of_clock rfl

/-- **The step lemma.** -/
theorem ticks_step {event : Event} (hstep : w.step config endCounts event = some w') :
    Ticks (SchedulesOnce config w event) w.runtime w'.runtime := by
  cases event with
  | render | effects | profilesChanged ids =>
    cases hstep
    exact .of_clock rfl
  | timerFires handle =>
    rw [World.step] at hstep
    split at hstep
    · cases hstep
    · rename_i due hdue
      cases hstep
      exact (ticks_fired hdue).trans (ticks_attemptReconnect _ _ _)
  | reconnectSession sessionId =>
    rw [World.step] at hstep
    split at hstep
    · cases hstep
    · cases hstep
      refine Ticks.trans ?_ (ticks_attemptReconnect _ _ _)
      exact .of_clock rfl
  | triggerScheduledReconnectNow sessionId =>
    rw [World.step] at hstep
    split at hstep
    · cases hstep
    · split at hstep
      · cases hstep
        exact .of_clock rfl
      · cases hstep
        refine ((ticks_clearRecordedTimer _ w.runtime sessionId).trans ?_).trans
          (ticks_attemptReconnect _ _ _)
        exact .of_clock rfl
  | scheduleReconnect sessionId reason =>
    cases hstep
    have hticks := ticks_scheduleReconnectAttempt w.runtime sessionId reason
    exact ⟨fun hguard => hticks.ticking (hguard sessionId reason rfl), hticks.follows⟩
  | clearReconnectState sessionId =>
    cases hstep
    exact ticks_clearReconnectStateById _ w.runtime sessionId
  | connected sessionId nextSession =>
    rw [World.step] at hstep
    split at hstep
    · cases hstep
      exact ticks_replaceSessionConnectionState _ w.runtime _ sessionId nextSession _
    · cases hstep
  | connectFailed sessionId code =>
    rw [World.step] at hstep
    split at hstep
    · cases hstep
      exact ticks_attemptFailed sessionId code
    · cases hstep
  | disconnectSession sessionId =>
    cases hstep
    exact ticks_disconnectSession _ w sessionId
  | disconnectSent sessionId =>
    rw [World.step] at hstep
    split at hstep
    · cases hstep
      exact .of_clock rfl
    · cases hstep
  | sessionEnded sessionId lastCommand terminalEofRequested =>
    cases hstep
    exact ticks_handleSessionDisconnected sessionId lastCommand terminalEofRequested
  | sessionStatus sessionId state =>
    rw [World.step] at hstep
    split at hstep
    · cases hstep
    dsimp only at hstep
    split at hstep
    · split at hstep
      · cases hstep
        exact .of_clock rfl
      · cases hstep
        refine Ticks.trans ?_ (ticks_disconnectSession _ _ sessionId)
        exact .of_clock rfl
    · cases hstep
      exact .of_clock rfl

theorem timerFires_live {handle : ℕ}
    (hstep : w.step config endCounts (.timerFires handle) = some w') :
    ∃ timer ∈ w.runtime.timers, timer.id = handle := by
  rw [World.step] at hstep
  split at hstep
  · cases hstep
  · rename_i due hdue
    exact ⟨due, List.mem_of_find?_eq_some hdue, by simpa using List.find?_some hdue⟩

/-! ## Runs -/

theorem follows_run {events : List Event} (hrun : (world config endCounts).Run w events w') :
    Follows w.runtime w'.runtime := by
  induction hrun with
  | nil => exact .of_clock rfl
  | snoc _ hstep ih => exact ih.trans (ticks_step hstep).follows

theorem timerFires_run {events : List Event} (hrun : (world config endCounts).Run w events w')
    {handle : ℕ} (hfires : Event.timerFires handle ∈ events) :
    (∃ timer ∈ w.runtime.timers, timer.id = handle) ∨ w.runtime.nextTimerId ≤ handle := by
  induction hrun with
  | nil => cases hfires
  | snoc hrun hstep ih =>
    rcases List.mem_append.mp hfires with hbefore | hlast
    · exact ih hbefore
    · cases List.mem_singleton.mp hlast
      obtain ⟨timer, hmem, rfl⟩ := timerFires_live hstep
      rcases (follows_run hrun).timers timer hmem with hold | hnew
      · exact .inl ⟨timer, hold, rfl⟩
      · exact .inr hnew

theorem ticking_of_schedulesOnce
    (h : ((world config endCounts).restrict (SchedulesOnce config)).Reachable w) :
    Ticking w.runtime := by
  refine Machine.Reachable.induct (I := fun w => Ticking w.runtime) ?_ ?_ h
  · intro start hstarted
    refine ⟨?_, ?_, ?_, ?_⟩
    all_goals simp [hstarted.timers, hstarted.recorded]
  · rintro before event after - ih ⟨honce, hstep⟩
    exact (ticks_step hstep).ticking honce ih

/-- **One pending reconnect a session.** In every interleaving whose steps start a timer for a
session only where none is recorded, at most one live timer can reconnect a session and it is the
recorded one; and a timer from before a clear that fires later belongs to another session. -/
theorem onePending_of_schedulesOnce (config : Config) (endCounts : Bool) {w : World}
    (h : ((world config endCounts).restrict (SchedulesOnce config)).Reachable w) :
    OnePending w.runtime ∧
      ∀ sessionId cleared, w.step config endCounts (.clearReconnectState sessionId) = some cleared →
        ∀ events w', (world config endCounts).Run cleared events w' →
          ∀ handle < w.runtime.nextTimerId, Event.timerFires handle ∈ events →
            ∃ timer ∈ w.runtime.timers, timer.id = handle ∧ timer.sessionId ≠ sessionId := by
  have hticking := ticking_of_schedulesOnce h
  refine ⟨hticking.onePending, ?_⟩
  intro sessionId cleared hclear events w' hrun handle hold hfires
  cases hclear
  rcases timerFires_run hrun hfires with ⟨timer, hmem, hid⟩ | hnew
  · have hgone := clearRecordedTimer_gone hticking sessionId timer hmem
    rcases (follows_clearRecordedTimer w.runtime sessionId).timers timer hmem with hin | hnew
    · exact ⟨timer, hin, hid, hgone⟩
    · omega
  · exact absurd hnew (not_le.mpr hold)

/-- The machine reboots, and its tab waits for the first reconnect. -/
theorem onePending_of_schedulesOnce_reboot :
    ∃ w : World, w.runtime.timers = [⟨1, "s0".toList, 10000⟩] ∧ OnePending w.runtime := by
  refine ⟨_, ?_, (onePending_of_schedulesOnce autoReconnectConfig false
    (.step (a := .sessionEnded "s0".toList (some "sudo reboot".toList) false)
      (.init (started_oneTab .connected (List.Subset.refl _))) ⟨?_, rfl⟩)).1⟩
  · rfl
  · intro sessionId reason _ _
    rfl

/-- The tab waits for its first automatic reconnect while the user reconnects it by hand. That
attempt fails and starts the next timer, and the first one stays: two live timers, one recorded. -/
theorem reconnect_beside_timer_leaves_two :
    ∃ w, (world autoReconnectConfig false).Reachable w ∧
      w.runtime.timers = [⟨1, "s0".toList, 10000⟩, ⟨2, "s0".toList, 20000⟩] ∧
      ¬ OnePending w.runtime := by
  refine ⟨_, .step (a := .connectFailed "s0".toList "ssh_connect_failed".toList)
    (.step (a := .reconnectSession "s0".toList)
      (.step (a := .effects)
        (.step (a := .render)
          (.step (a := .sessionEnded "s0".toList (some "sudo reboot".toList) false)
            (.init (started_oneTab .connected (List.Subset.refl _))) rfl) rfl) rfl) rfl) rfl,
    rfl, ?_⟩
  intro honce
  have hone : ([⟨1, "s0".toList, 10000⟩, ⟨2, "s0".toList, 20000⟩].filter
      fun timer : Timer => timer.sessionId == "s0".toList).length ≤ 1 :=
    honce.atMostOne "s0".toList
  exact absurd hone (by decide)

end FluxTerm.Reconnect
