import FluxTerm.Workspace.Invariant

/-!
# FluxTerm — sessions that arrive at a stale pane

`attach-session` and `split-pane` carry a pane id that was chosen before an `await`. The groups
take the new session in any case, the tree only at a leaf with that id, and the active pane is
set without a look at the tree: `focus-pane` asks `containsPaneId` first, these two do not.

* **`newSession_kept_iff`** — exactly when the new session ends up in both records.
* **`first_connections_lose_session`** — two first connections, each with its own root pane.
-/

namespace FluxTerm.Workspace

open FluxTerm.Lib

variable {lower : Text → Text} {state : SessionWorkspaceState}

inductive Arrival where
  | attach (paneId : Option Text)
  | split (paneId nextPaneId : Text) (axis : SplitAxis)
deriving DecidableEq

def Arrival.action (sessionId : Text) : Arrival → SessionWorkspaceAction
  | .attach paneId => .attachSession sessionId paneId
  | .split paneId nextPaneId axis => .splitPane paneId nextPaneId sessionId axis

def Arrival.Lands (state : SessionWorkspaceState) : Arrival → Prop
  | .attach paneId =>
    state.root ≠ none → ∀ named ∈ paneId, named ≠ [] → named ∈ state.panes.map Pane.paneId
  | .split paneId _ _ => state.root ≠ none → paneId ∈ state.panes.map Pane.paneId

/-- Tree and groups agree on the session, and the active pane is a leaf. -/
def NewSessionKept (sessionId : Text) (state : SessionWorkspaceState) : Prop :=
  (sessionId ∈ collectWorkspaceSessionIds state ↔
    ∃ group ∈ state.groups, sessionId ∈ group.sessionIds) ∧ ActivePaneOk state

/-! ## Where the new session goes -/

theorem mem_appendSessionToPane {root : SessionPaneNode} {paneId sessionId : Text}
    (hfresh : sessionId ∉ collectNodeSessionIds root) :
    sessionId ∈ collectNodeSessionIds (appendSessionToPane root paneId sessionId) ↔
      paneId ∈ paneIds root := by
  rw [collectNodeSessionIds_appendSessionToPane, mem_flatMap_addAt]
  change sessionId ∈ collectNodeSessionIds root ∨ _ ↔ _
  simp [hfresh, paneIds]

theorem mem_leaves_replacePaneWithSplit {root : SessionPaneNode}
    {paneId nextPaneId nextSessionId : Text} {axis : SplitAxis} {pane : Pane} :
    pane ∈ (replacePaneWithSplit root paneId nextPaneId nextSessionId axis).leaves ↔
      pane ∈ root.leaves ∨
        (paneId ∈ paneIds root ∧ pane = ⟨nextPaneId, [nextSessionId], some nextSessionId⟩) := by
  rw [leaves_replacePaneWithSplit, mem_flatMap_addAt, List.flatMap_singleton',
    List.mem_singleton, paneIds]

theorem mem_replacePaneWithSplit {root : SessionPaneNode}
    {paneId nextPaneId nextSessionId : Text} {axis : SplitAxis}
    (hfresh : nextSessionId ∉ collectNodeSessionIds root) :
    nextSessionId ∈ collectNodeSessionIds
        (replacePaneWithSplit root paneId nextPaneId nextSessionId axis) ↔
      paneId ∈ paneIds root := by
  rw [mem_collectNodeSessionIds] at hfresh ⊢
  constructor
  · rintro ⟨pane, hpane, hmem⟩
    rcases mem_leaves_replacePaneWithSplit.mp hpane with hold | ⟨hin, -⟩
    · exact absurd ⟨pane, hold, hmem⟩ hfresh
    · exact hin
  · intro hin
    exact ⟨_, mem_leaves_replacePaneWithSplit.mpr (.inr ⟨hin, rfl⟩), List.mem_singleton.mpr rfl⟩

theorem Invariant.newSessionKept (h : Invariant state) (sessionId : Text) :
    NewSessionKept sessionId state :=
  ⟨h.grouped sessionId, h.activePane⟩

theorem newSessionKept_of_appended {root : SessionPaneNode} {paneId sessionId : Text}
    {groups : List SessionGroup} :
    NewSessionKept sessionId
        { root := some root, activePaneId := some paneId,
          groups := appendSessionToDefaultGroup groups sessionId } ↔
      sessionId ∈ collectNodeSessionIds root ∧ paneId ∈ paneIds root := by
  have hgroups := mem_groupSessionIds.mp (mem_appendSessionToDefaultGroup groups sessionId)
  have hactive : ActivePaneOk
      { root := some root, activePaneId := some paneId,
        groups := appendSessionToDefaultGroup groups sessionId } ↔ paneId ∈ paneIds root := by
    constructor
    · rintro ⟨active, hmem, hactive⟩
      cases hactive
      exact hmem
    · exact fun hmem => ⟨paneId, hmem, rfl⟩
  rw [NewSessionKept, hactive]
  exact and_congr_left' ⟨fun h => h.mpr hgroups, fun h => ⟨fun _ => hgroups, fun _ => h⟩⟩

/-! ## Exactly when it is kept -/

theorem attach_kept_iff (h : Invariant state) {sessionId : Text}
    (hfresh : sessionId ∉ collectWorkspaceSessionIds state) (paneId : Option Text) :
    NewSessionKept sessionId
        (sessionWorkspaceReducer lower state (.attachSession sessionId paneId)) ↔
      (Arrival.attach paneId).Lands state := by
  unfold sessionWorkspaceReducer
  dsimp only
  split
  · rename_i hroot
    have hlands : (Arrival.attach paneId).Lands state := fun hne => absurd hroot hne
    refine iff_of_true ?_ hlands
    split
    · exact h.newSessionKept sessionId
    · rw [newSessionKept_of_appended]
      exact ⟨List.mem_singleton.mpr rfl, List.mem_singleton.mpr rfl⟩
  · rename_i root hroot
    obtain ⟨active, hactive, hactiveId⟩ : ∃ p ∈ paneIds root, state.activePaneId = some p := by
      have hok := h.activePane
      rwa [ActivePaneOk, hroot] at hok
    have hlands : (Arrival.attach paneId).Lands state ↔
        ∀ named ∈ paneId, named ≠ [] → named ∈ paneIds root := by
      rw [Arrival.Lands, SessionWorkspaceState.panes, hroot]
      exact ⟨fun hl => hl (by simp), fun hl _ => hl⟩
    rw [collectWorkspaceSessionIds, SessionWorkspaceState.panes, hroot] at hfresh
    rw [hlands, hactiveId]
    cases paneId with
    | none =>
      -- no pane is named: the active one is taken, or nothing happens
      refine iff_of_true ?_ (by simp)
      split
      · exact h.newSessionKept sessionId
      · rename_i targetPaneId htarget
        cases (Option.filter_eq_some_iff.mp htarget).1
        rw [newSessionKept_of_appended, mem_appendSessionToPane hfresh, appendSessionToPane,
          paneIds_mapLeaf (Pane.appendSession_paneId _ _)]
        exact ⟨hactive, hactive⟩
    | some named =>
      rw [Option.some_or]
      split
      · rename_i htarget
        have hnil : named = [] := by simpa [truthy] using htarget
        exact iff_of_true (h.newSessionKept sessionId) (by simp [hnil])
      · rename_i targetPaneId htarget
        obtain ⟨heq, hne⟩ := Option.filter_eq_some_iff.mp htarget
        cases heq
        have hne' : named ≠ [] := by simpa using hne
        rw [newSessionKept_of_appended, mem_appendSessionToPane hfresh, appendSessionToPane,
          paneIds_mapLeaf (Pane.appendSession_paneId _ _), and_self]
        simp [hne']

theorem split_kept_iff (h : Invariant state) {sessionId : Text}
    (hfresh : sessionId ∉ collectWorkspaceSessionIds state) (paneId nextPaneId : Text)
    (axis : SplitAxis) :
    NewSessionKept sessionId
        (sessionWorkspaceReducer lower state (.splitPane paneId nextPaneId sessionId axis)) ↔
      (Arrival.split paneId nextPaneId axis).Lands state := by
  unfold sessionWorkspaceReducer
  dsimp only
  split
  · rename_i hroot
    have hlands : (Arrival.split paneId nextPaneId axis).Lands state :=
      fun hne => absurd hroot hne
    exact iff_of_true (h.newSessionKept sessionId) hlands
  · rename_i root hroot
    have hlands : (Arrival.split paneId nextPaneId axis).Lands state ↔ paneId ∈ paneIds root := by
      rw [Arrival.Lands, SessionWorkspaceState.panes, hroot]
      exact ⟨fun hl => hl (by simp), fun hl _ => hl⟩
    rw [collectWorkspaceSessionIds, SessionWorkspaceState.panes, hroot] at hfresh
    rw [hlands, newSessionKept_of_appended, mem_replacePaneWithSplit hfresh]
    refine and_iff_left_of_imp fun hin => ?_
    exact mem_paneIds.mpr ⟨_, mem_leaves_replacePaneWithSplit.mpr (.inr ⟨hin, rfl⟩), rfl⟩

/-- **No session is lost**, if and only if the pane its arrival names is a leaf. -/
theorem newSession_kept_iff (lower : Text → Text) {state : SessionWorkspaceState}
    (h : Invariant state) {sessionId : Text}
    (hfresh : sessionId ∉ collectWorkspaceSessionIds state) (arrival : Arrival) :
    NewSessionKept sessionId (sessionWorkspaceReducer lower state (arrival.action sessionId)) ↔
      arrival.Lands state := by
  cases arrival with
  | attach paneId => exact attach_kept_iff h hfresh paneId
  | split paneId nextPaneId axis => exact split_kept_iff h hfresh paneId nextPaneId axis

def firstConnected : SessionWorkspaceState :=
  sessionWorkspaceReducer id createEmptyWorkspaceState
    (.attachSession "s1".toList (some "p1".toList))

theorem invariant_firstConnected : Invariant firstConnected :=
  (coherent_createEmptyWorkspaceState.createSinglePaneRoot rfl "s1".toList "p1".toList).invariant

/-- A second connection that aims at the first one's pane. -/
theorem newSession_kept_iff_second :
    NewSessionKept "s2".toList
        (sessionWorkspaceReducer id firstConnected
          ((Arrival.attach (some "p1".toList)).action "s2".toList)) ↔
      (Arrival.attach (some "p1".toList)).Lands firstConnected :=
  newSession_kept_iff id invariant_firstConnected (by decide) _

/-- Two connections start on an empty workspace, each with an id for the root pane. The second
one to arrive is in the groups, but in no pane. -/
theorem first_connections_lose_session :
    Invariant firstConnected ∧ "s2".toList ∉ collectWorkspaceSessionIds firstConnected ∧
      ¬ NewSessionKept "s2".toList
        (sessionWorkspaceReducer id firstConnected
          ((Arrival.attach (some "p2".toList)).action "s2".toList)) := by
  refine ⟨invariant_firstConnected, by decide, fun hkept => ?_⟩
  have hmem := hkept.1.mpr (by decide)
  exact absurd hmem (by decide)

end FluxTerm.Workspace
