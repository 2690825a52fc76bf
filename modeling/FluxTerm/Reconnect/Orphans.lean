import FluxTerm.Reconnect.World

/-!
# FluxTerm — connections without a tab

`replaceSessionConnectionState` puts the answer of `ssh_connect` in the place of the old session.
If the old session has left the list by then, `setSessions` and the workspace change nothing, while
`setSessionStates` still gets the new key: the connection is open and has no tab.
`connectProfileCommand` has `onSessionCreated` for such late sessions, the reconnect has nothing.

* **`noOrphans_of_findsItsTab`** — the run lemma: steps that meet it leave no orphan.
* **`close_during_reconnect_orphans`** — a tab closed while its reconnect is under way.
-/

namespace FluxTerm.Reconnect

open FluxTerm.Lib FluxTerm.Workspace

/-- Every connection that was not disconnected is in the list and in the workspace, and so is
every key that `replaceSessionConnectionState` wrote in the list. -/
def NoOrphans (w : World) : Prop :=
  w.attempts = [] →
    (∀ sessionId ∈ w.live, sessionId ∈ sessionIdsOf w.runtime.now.sessions ∧
      sessionId ∈ collectWorkspaceSessionIds w.runtime.workspace) ∧
    ∀ sessionId ∈ w.written, sessionId ∈ sessionIdsOf w.runtime.now.sessions

def ClosesSilently (w : World) (sessionId : Text) : Prop :=
  w.runtime.getSessionKind sessionId ≠ none ∧ w.runtime.tellsBackend sessionId = false

/-- An answer of `ssh_connect` finds the tab it was asked for, whose own connection has ended; a
close that does not tell the backend meets no open connection. -/
def FindsItsTab (w : World) : Event → Prop
  | .connected sessionId _ =>
    sessionId ∈ sessionIdsOf w.runtime.now.sessions ∧
      sessionId ∈ collectWorkspaceSessionIds w.runtime.workspace ∧ sessionId ∉ w.live
  | .disconnectSession sessionId => ClosesSilently w sessionId → sessionId ∉ w.live
  | .sessionStatus sessionId state =>
    state = .error → w.runtime.isLocalSession sessionId = false →
      ClosesSilently w sessionId → sessionId ∉ w.live
  | _ => True

/-! ## What the functions of the runtime leave alone -/

namespace Runtime

def core (rt : Runtime) : List Session × List Session × List Session × SessionWorkspaceState :=
  (rt.now.sessions, rt.rendered.sessions, rt.refs.sessions, rt.workspace)

variable (rt : Runtime) (sessionId : Text)

@[simp] theorem core_setSessionState (state : Option SessionStateUi) :
    (rt.setSessionState sessionId state).core = rt.core := rfl

@[simp] theorem core_setSessionReason (reason : Option DisconnectReason) :
    (rt.setSessionReason sessionId reason).core = rt.core := rfl

@[simp] theorem core_setReconnectInfo (info : Option (ℕ × ℕ)) :
    (rt.setReconnectInfo sessionId info).core = rt.core := rfl

@[simp] theorem core_clearReconnectStateById :
    (rt.clearReconnectStateById sessionId).core = rt.core := rfl

@[simp] theorem core_clearScheduledReconnectCountdown :
    (rt.clearScheduledReconnectCountdown sessionId).core = rt.core := rfl

@[simp] theorem core_scheduleReconnectAttempt (reason : DisconnectReason) :
    (rt.scheduleReconnectAttempt sessionId reason).core = rt.core := by
  unfold scheduleReconnectAttempt
  dsimp only
  split <;> rfl

@[simp] theorem core_attemptReconnect : (rt.attemptReconnect sessionId).1.core = rt.core := by
  unfold attemptReconnect
  split
  · rfl
  · split <;> rfl

@[simp] theorem core_attemptFailed (code : Text) :
    (rt.attemptFailed sessionId code).core = rt.core := by
  unfold attemptFailed
  split
  · rfl
  · split
    · rfl
    · exact rt.core_scheduleReconnectAttempt sessionId _

@[simp] theorem core_handleSessionDisconnected (config : Config) (lastCommand : Option Text)
    (terminalEofRequested : Bool) :
    (rt.handleSessionDisconnected config sessionId lastCommand terminalEofRequested).core
      = rt.core := by
  unfold handleSessionDisconnected
  split
  · rfl
  · dsimp only
    split
    · exact core_scheduleReconnectAttempt _ sessionId _
    · rfl

end Runtime

theorem sessionIdsOf_map_substituted (oldSessionId : Text) (nextSession : Session)
    (sessions : List Session) :
    sessionIdsOf (sessions.map (Runtime.substituted oldSessionId nextSession))
      = (sessionIdsOf sessions).map (renamed oldSessionId nextSession.sessionId) := by
  rw [sessionIdsOf, sessionIdsOf, List.map_map, List.map_map]
  refine List.map_congr_left fun item _ => ?_
  unfold Runtime.substituted renamed
  by_cases h : item.sessionId = oldSessionId <;> simp [h]

theorem sessionIdsOf_filter (sessionId : Text) (sessions : List Session) :
    sessionIdsOf (sessions.filter fun item => item.sessionId != sessionId)
      = (sessionIdsOf sessions).filter (fun item => item != sessionId) := by
  rw [sessionIdsOf, sessionIdsOf, List.filter_map]
  rfl

theorem mem_without {sessionId item : Text} {l : List Text} :
    item ∈ World.without sessionId l ↔ item ∈ l ∧ item ≠ sessionId := by
  simp [World.without]

/-! ## The invariant -/

/-- Every live connection has its tab, also while connects are in flight; what closes is known and
no longer live. -/
structure Tabbed (w : World) : Prop where
  live : ∀ sessionId ∈ w.live, sessionId ∈ sessionIdsOf w.runtime.now.sessions ∧
    sessionId ∈ collectWorkspaceSessionIds w.runtime.workspace
  written : ∀ sessionId ∈ w.written, sessionId ∈ sessionIdsOf w.runtime.now.sessions
  closing : ∀ sessionId ∈ w.closes, sessionId ∈ w.issued ∧ sessionId ∉ w.live
  issued : ∀ sessions ∈ [w.runtime.now.sessions, w.runtime.rendered.sessions,
    w.runtime.refs.sessions], ∀ sessionId ∈ sessionIdsOf sessions, sessionId ∈ w.issued

variable {config : Config} {w : World}

theorem Tabbed.of_started (h : Started w) : Tabbed w where
  live := h.live
  written sessionId hmem := by simp [h.written] at hmem
  closing sessionId hmem := by simp [h.closes] at hmem
  issued := h.issued

theorem Tabbed.of_core (h : Tabbed w) {w' : World} (hcore : w'.runtime.core = w.runtime.core)
    (hlive : ∀ sessionId ∈ w'.live, sessionId ∈ w.live) (hcloses : w'.closes = w.closes)
    (hissued : w'.issued = w.issued) (hwritten : w'.written = w.written) : Tabbed w' := by
  obtain ⟨hnow, hrendered, hrefs, hworkspace⟩ :
      w'.runtime.now.sessions = w.runtime.now.sessions ∧
        w'.runtime.rendered.sessions = w.runtime.rendered.sessions ∧
        w'.runtime.refs.sessions = w.runtime.refs.sessions ∧
        w'.runtime.workspace = w.runtime.workspace := by
    simpa [Runtime.core] using hcore
  refine ⟨?_, ?_, ?_, ?_⟩
  · intro sessionId hmem
    rw [hnow, hworkspace]
    exact h.live sessionId (hlive sessionId hmem)
  · rw [hwritten, hnow]
    exact h.written
  · rw [hcloses, hissued]
    exact fun sessionId hmem =>
      ⟨(h.closing sessionId hmem).1, fun hin => (h.closing sessionId hmem).2 (hlive _ hin)⟩
  · rw [hnow, hrendered, hrefs, hissued]
    exact h.issued

theorem Tabbed.attempt (h : Tabbed w) (sessionId : Text) : Tabbed (w.attempt sessionId) :=
  h.of_core (w.runtime.core_attemptReconnect sessionId) (fun _ hmem => hmem) rfl rfl rfl

theorem Tabbed.remove (h : Tabbed w) {sessionId : Text} (hdead : sessionId ∉ w.live) :
    Tabbed (w.remove config sessionId) where
  live item hmem := by
    have hne : item ≠ sessionId := fun heq => hdead (heq ▸ hmem)
    obtain ⟨hlist, htree⟩ := h.live item hmem
    refine ⟨?_, ?_⟩
    · change item ∈ sessionIdsOf (List.filter _ _)
      rw [sessionIdsOf_filter]
      exact List.mem_filter.mpr ⟨hlist, by simpa using hne⟩
    · change item ∈ collectWorkspaceSessionIds (sessionWorkspaceReducer _ _ _)
      rw [collectWorkspaceSessionIds_detachSession]
      exact List.mem_filter.mpr ⟨htree, by simpa using hne⟩
  written item hmem := by
    obtain ⟨hin, hne⟩ := mem_without.mp hmem
    change item ∈ sessionIdsOf (List.filter _ _)
    rw [sessionIdsOf_filter]
    exact List.mem_filter.mpr ⟨h.written item hin, by simpa using hne⟩
  closing := h.closing
  issued sessions hsessions item hitem := by
    have hall := h.issued
    simp only [List.mem_cons, List.not_mem_nil, or_false, forall_eq_or_imp, forall_eq] at hall
    simp only [List.mem_cons, List.not_mem_nil, or_false] at hsessions
    rcases hsessions with rfl | rfl | rfl
    · refine hall.1 item ?_
      change item ∈ sessionIdsOf (List.filter _ _) at hitem
      rw [sessionIdsOf_filter] at hitem
      exact (List.mem_filter.mp hitem).1
    · exact hall.2.1 item hitem
    · exact hall.2.2 item hitem

theorem Tabbed.disconnectSession (h : Tabbed w) {sessionId : Text}
    (hsilent : ClosesSilently w sessionId → sessionId ∉ w.live) :
    Tabbed (w.disconnectSession config sessionId) := by
  unfold World.disconnectSession
  split
  · exact h
  · rename_i kind hkind
    split
    · -- the backend is told, so the connection is not live any more
      have hknown : sessionId ∈ w.issued := by
        obtain ⟨session, hfind, -⟩ := Option.map_eq_some_iff.mp hkind
        refine h.issued w.runtime.refs.sessions (by simp) sessionId ?_
        have hid : session.sessionId = sessionId := by simpa using List.find?_some hfind
        exact List.mem_map.mpr ⟨session, List.mem_of_find?_eq_some hfind, hid⟩
      exact
        { live := fun item hmem => h.live item (mem_without.mp hmem).1
          written := h.written
          closing := fun item hmem => by
            rcases List.mem_cons.mp hmem with rfl | hin
            · exact ⟨hknown, fun hin => (mem_without.mp hin).2 rfl⟩
            · exact ⟨(h.closing item hin).1,
                fun hlive => (h.closing item hin).2 (mem_without.mp hlive).1⟩
          issued := h.issued }
    · rename_i htells
      exact h.remove (hsilent ⟨by simp [hkind], by simpa using htells⟩)

theorem Tabbed.connected (h : Tabbed w) {sessionId : Text} {nextSession : Session}
    (hlist : sessionId ∈ sessionIdsOf w.runtime.now.sessions)
    (htree : sessionId ∈ collectWorkspaceSessionIds w.runtime.workspace)
    (hdead : sessionId ∉ w.live) (hnew : nextSession.sessionId ∉ w.issued) :
    Tabbed
      { w with
        runtime :=
          w.runtime.replaceSessionConnectionState config.lower sessionId nextSession .connecting
        attempts := w.attempts.erase sessionId
        issued := nextSession.sessionId :: w.issued
        live := nextSession.sessionId :: w.live
        written := nextSession.sessionId :: World.without sessionId w.written } where
  live item hmem := by
    change item ∈ sessionIdsOf (List.map _ _) ∧
      item ∈ collectWorkspaceSessionIds (sessionWorkspaceReducer _ _ _)
    rw [sessionIdsOf_map_substituted, collectWorkspaceSessionIds_replaceSession]
    rcases List.mem_cons.mp hmem with rfl | hold
    · exact ⟨mem_map_renamed_self hlist, mem_map_renamed_self htree⟩
    · have hne : item ≠ sessionId := fun heq => hdead (heq ▸ hold)
      obtain ⟨hitem, hitem'⟩ := h.live item hold
      exact ⟨mem_map_renamed_of_ne hitem hne, mem_map_renamed_of_ne hitem' hne⟩
  written item hmem := by
    change item ∈ sessionIdsOf (List.map _ _)
    rw [sessionIdsOf_map_substituted]
    rcases List.mem_cons.mp hmem with rfl | hold
    · exact mem_map_renamed_self hlist
    · obtain ⟨hin, hne⟩ := mem_without.mp hold
      exact mem_map_renamed_of_ne (h.written item hin) hne
  closing item hmem := by
    obtain ⟨hknown, hclosed⟩ := h.closing item hmem
    refine ⟨List.mem_cons_of_mem _ hknown, fun hin => ?_⟩
    rcases List.mem_cons.mp hin with rfl | hlive
    · exact hnew hknown
    · exact hclosed hlive
  issued sessions hsessions item hitem := by
    have hall := h.issued
    simp only [List.mem_cons, List.not_mem_nil, or_false, forall_eq_or_imp, forall_eq] at hall
    simp only [List.mem_cons, List.not_mem_nil, or_false] at hsessions
    rcases hsessions with rfl | rfl | rfl
    · change item ∈ sessionIdsOf (List.map _ _) at hitem
      rw [sessionIdsOf_map_substituted] at hitem
      obtain ⟨before, hbefore, rfl⟩ := List.mem_map.mp hitem
      unfold renamed
      split
      · exact List.mem_cons_self
      · exact List.mem_cons_of_mem _ (hall.1 before hbefore)
    · exact List.mem_cons_of_mem _ (hall.2.1 item hitem)
    · exact List.mem_cons_of_mem _ (hall.2.2 item hitem)

/-- **The step lemma.** -/
theorem Tabbed.step {endCounts : Bool} (h : Tabbed w) {event : Event} (hfinds : FindsItsTab w event)
    {w' : World} (hstep : w.step config endCounts event = some w') : Tabbed w' := by
  cases event with
  | render =>
    cases hstep
    refine ⟨h.live, h.written, h.closing, fun sessions hsessions => ?_⟩
    refine h.issued sessions ?_
    simp only [List.mem_cons, List.not_mem_nil, or_false] at hsessions ⊢
    tauto
  | effects =>
    cases hstep
    refine ⟨h.live, h.written, h.closing, fun sessions hsessions => ?_⟩
    refine h.issued sessions ?_
    simp only [List.mem_cons, List.not_mem_nil, or_false] at hsessions ⊢
    tauto
  | profilesChanged ids =>
    cases hstep
    exact h.of_core rfl (fun _ hmem => hmem) rfl rfl rfl
  | timerFires timer =>
    rw [World.step] at hstep
    split at hstep
    · cases hstep
    · cases hstep
      refine Tabbed.attempt ?_ _
      exact h.of_core rfl (fun _ hmem => hmem) rfl rfl rfl
  | reconnectSession sessionId =>
    rw [World.step] at hstep
    split at hstep
    · cases hstep
    · cases hstep
      refine Tabbed.attempt ?_ _
      exact h.of_core rfl (fun _ hmem => hmem) rfl rfl rfl
  | triggerScheduledReconnectNow sessionId =>
    rw [World.step] at hstep
    split at hstep
    · cases hstep
    · split at hstep
      · cases hstep
        exact h
      · cases hstep
        refine Tabbed.attempt ?_ _
        exact h.of_core rfl (fun _ hmem => hmem) rfl rfl rfl
  | scheduleReconnect sessionId reason =>
    cases hstep
    exact h.of_core (w.runtime.core_scheduleReconnectAttempt sessionId reason)
      (fun _ hmem => hmem) rfl rfl rfl
  | clearReconnectState sessionId =>
    cases hstep
    exact h.of_core rfl (fun _ hmem => hmem) rfl rfl rfl
  | connected sessionId nextSession =>
    rw [World.step] at hstep
    split at hstep
    · rename_i hanswer
      cases hstep
      obtain ⟨hlist, htree, hdead⟩ := hfinds
      exact h.connected hlist htree hdead hanswer.2
    · cases hstep
  | connectFailed sessionId code =>
    rw [World.step] at hstep
    split at hstep
    · cases hstep
      exact h.of_core (w.runtime.core_attemptFailed sessionId code) (fun _ hmem => hmem) rfl rfl rfl
    · cases hstep
  | disconnectSession sessionId =>
    cases hstep
    exact h.disconnectSession hfinds
  | disconnectSent sessionId =>
    rw [World.step] at hstep
    split at hstep
    · rename_i hclosing
      cases hstep
      have hfewer : Tabbed { w with closes := w.closes.erase sessionId } :=
        ⟨h.live, h.written, fun item hmem => h.closing item (List.mem_of_mem_erase hmem), h.issued⟩
      exact hfewer.remove (h.closing sessionId hclosing).2
    · cases hstep
  | sessionEnded sessionId lastCommand terminalEofRequested =>
    cases hstep
    refine h.of_core (w.runtime.core_handleSessionDisconnected sessionId config lastCommand
      terminalEofRequested) (fun item hmem => ?_) rfl rfl rfl
    dsimp only at hmem
    split at hmem
    · exact (mem_without.mp hmem).1
    · exact hmem
  | sessionStatus sessionId state =>
    rw [World.step] at hstep
    split at hstep
    · cases hstep
    dsimp only at hstep
    split at hstep
    · rename_i herror
      split at hstep
      · cases hstep
        exact h.of_core rfl (fun _ hmem => hmem) rfl rfl rfl
      · rename_i hlocal
        cases hstep
        refine Tabbed.disconnectSession ?_ (hfinds herror (Bool.eq_false_iff.mpr hlocal))
        exact h.of_core rfl (fun _ hmem => hmem) rfl rfl rfl
    · cases hstep
      exact h.of_core rfl (fun _ hmem => hmem) rfl rfl rfl

/-- **No orphans.** In every interleaving in which each answer of `ssh_connect` finds its tab, and
no close passes over an open connection, every connection has its tab. -/
theorem noOrphans_of_findsItsTab (config : Config) (endCounts : Bool) {w : World}
    (h : ((world config endCounts).restrict FindsItsTab).Reachable w) : NoOrphans w := by
  have htabbed : Tabbed w := by
    refine Machine.Reachable.induct ?_ ?_ h
    · exact fun _ hstarted => .of_started hstarted
    · rintro before event after - ih ⟨hfinds, hstep⟩
      exact ih.step hfinds hstep
  exact fun _ => ⟨htabbed.live, htabbed.written⟩

def nextSession : Session := ⟨"s1".toList, some "p".toList, .ssh⟩

/-- The tab is reconnected, and its new connection is there. -/
theorem noOrphans_of_findsItsTab_reconnected :
    ∃ w, w.live = ["s1".toList] ∧ NoOrphans w := by
  refine ⟨_, ?_, noOrphans_of_findsItsTab autoReconnectConfig false
    (.step (a := .connected "s0".toList nextSession)
      (.step (a := .reconnectSession "s0".toList) (.init (started_oneTab .disconnected (List.nil_subset _))) ⟨trivial, rfl⟩)
      ⟨⟨?_, ?_, ?_⟩, rfl⟩)⟩
  · rfl
  all_goals decide

theorem late_connection_orphaned (endCounts : Bool) :
    ∃ w, (world autoReconnectConfig endCounts).Reachable w ∧ w.live = ["s1".toList] ∧ ¬ NoOrphans w := by
  refine ⟨_, .step (a := .connected "s0".toList nextSession)
    (.step (a := .disconnectSession "s0".toList)
      (.step (a := .reconnectSession "s0".toList) (.init (started_oneTab .disconnected (List.nil_subset _))) rfl) rfl) rfl, rfl, ?_⟩
  intro hkept
  have htab := (hkept rfl).1 "s1".toList (List.mem_singleton.mpr rfl)
  exact absurd htab.1 (by decide)

/-- So it is whether or not a session whose end the backend has reported counts as closed. -/
theorem close_during_reconnect_orphans :
    (∃ w, (world autoReconnectConfig false).Reachable w ∧ w.live = ["s1".toList] ∧ ¬ NoOrphans w) ∧
      ∃ w, (world autoReconnectConfig true).Reachable w ∧ w.live = ["s1".toList] ∧
        ¬ NoOrphans w :=
  ⟨late_connection_orphaned false, late_connection_orphaned true⟩

end FluxTerm.Reconnect
