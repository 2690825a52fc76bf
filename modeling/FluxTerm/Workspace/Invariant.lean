import FluxTerm.Lib.Machine
import FluxTerm.Workspace.Reducer

/-!
# FluxTerm — the workspace invariant

The pane tree and the group list are two records of the same sessions, kept by separate helpers.
This module proves that they agree in every reached state.

* **`reducer_invariant`** — the run lemma, for all runs whose actions are `Allowed`.
-/

namespace FluxTerm.Workspace

open FluxTerm.Lib

variable {lower : Text → Text} {state : SessionWorkspaceState}

/-! ## The invariant -/

/-- `activePaneId` is a leaf of the tree, and null without one. -/
def ActivePaneOk (state : SessionWorkspaceState) : Prop :=
  match state.root with
  | none => state.activePaneId = none
  | some root => ∃ paneId ∈ paneIds root, state.activePaneId = some paneId

/-- What holds of the workspace between two actions. -/
structure Invariant (state : SessionWorkspaceState) : Prop where
  paneIds_nodup : (state.panes.map Pane.paneId).Nodup
  sessionIds_nodup : (collectWorkspaceSessionIds state).Nodup
  panes_ok : ∀ pane ∈ state.panes,
    pane.sessionIds ≠ [] ∧ ∃ s ∈ pane.sessionIds, pane.activeSessionId = some s
  activePane : ActivePaneOk state
  grouped : ∀ sessionId, sessionId ∈ collectWorkspaceSessionIds state ↔
    ∃ group ∈ state.groups, sessionId ∈ group.sessionIds
  grouped_once : ∀ sessionId ∈ collectWorkspaceSessionIds state,
    state.groups.countP (fun group => group.sessionIds.contains sessionId) = 1
  default_once : state.groups.countP (fun group => group.id == defaultSessionGroupId) = 1
  groups_nonempty : ∀ group ∈ state.groups,
    group.id ≠ defaultSessionGroupId → group.sessionIds ≠ []

/-- The invariant as the steps keep it. -/
structure Coherent (state : SessionWorkspaceState) : Prop where
  paneIds_nodup : (state.panes.map Pane.paneId).Nodup
  sessionIds_nodup : (collectWorkspaceSessionIds state).Nodup
  panes_ok : ∀ pane ∈ state.panes, pane.Ok
  activePane : ActivePaneOk state
  groups_ok : GroupsOk state.groups
  grouped : (groupSessionIds state.groups).Perm (collectWorkspaceSessionIds state)

theorem Coherent.invariant (h : Coherent state) : Invariant state where
  paneIds_nodup := h.paneIds_nodup
  sessionIds_nodup := h.sessionIds_nodup
  panes_ok pane hpane := ⟨(h.panes_ok pane hpane).sessionIds_ne_nil, h.panes_ok pane hpane⟩
  activePane := h.activePane
  grouped sessionId := by rw [← h.grouped.mem_iff, mem_groupSessionIds]
  grouped_once sessionId hmem :=
    count_owners_eq_one (fun group => List.contains_iff_mem)
      (h.grouped.nodup_iff.mpr h.sessionIds_nodup) (h.grouped.mem_iff.mpr hmem)
  default_once := by
    have hone := List.count_eq_one_of_mem h.groups_ok.ids_nodup h.groups_ok.default_mem
    simpa [List.count, groupIds, List.countP_map, Function.comp_def] using hone
  groups_nonempty := h.groups_ok.nonempty

theorem coherent_createEmptyWorkspaceState : Coherent createEmptyWorkspaceState where
  paneIds_nodup := .nil
  sessionIds_nodup := .nil
  panes_ok pane hpane := by cases hpane
  activePane := rfl
  groups_ok :=
    ⟨List.nodup_singleton _, List.mem_singleton.mpr rfl, fun group hgroup hne =>
      absurd (by rw [List.mem_singleton.mp hgroup]; rfl) hne⟩
  grouped := .rfl

/-! ## The two records of the sessions together -/

theorem Coherent.grouped_append (h : Coherent state) {sessionId : Text}
    (hfresh : sessionId ∉ collectWorkspaceSessionIds state) :
    (groupSessionIds (appendSessionToDefaultGroup state.groups sessionId)).Perm
      (collectWorkspaceSessionIds state ++ [sessionId]) := by
  have hperm := perm_moveSessionToGroup h.groups_ok h.groups_ok.default_mem sessionId
  have hsame : (groupSessionIds state.groups).filter (fun item => item != sessionId)
      = groupSessionIds state.groups := by
    rw [List.filter_eq_self]
    intro item hitem
    have hne : item ≠ sessionId := by
      rintro rfl
      exact hfresh (h.grouped.mem_iff.mp hitem)
    simpa using hne
  rw [hsame] at hperm
  exact hperm.trans (h.grouped.append_right [sessionId])

theorem Coherent.grouped_move (h : Coherent state) {sessionId : Text}
    (hmem : sessionId ∈ groupSessionIds state.groups) :
    ((groupSessionIds state.groups).filter (fun item => item != sessionId) ++ [sessionId]).Perm
      (collectWorkspaceSessionIds state) := by
  have hnodup := h.grouped.nodup_iff.mpr h.sessionIds_nodup
  rw [← List.Nodup.erase_eq_filter hnodup]
  exact (List.perm_append_singleton _ _).trans
    ((List.perm_cons_erase hmem).symm.trans h.grouped)

theorem Coherent.mapLeaf (h : Coherent state) {root : SessionPaneNode}
    (hroot : state.root = some root) {f : Pane → Pane}
    (hid : ∀ pane, (f pane).paneId = pane.paneId)
    (hsessions : ∀ pane, (f pane).sessionIds.Perm pane.sessionIds)
    (hok : ∀ pane : Pane, pane.Ok → (f pane).Ok) {paneId : Text} (hpane : paneId ∈ paneIds root) :
    Coherent { state with root := some (root.mapLeaf f), activePaneId := some paneId } := by
  obtain ⟨hpanes, hnodup, hpanesOk, -, hgroups, hgrouped⟩ := h
  simp only [SessionWorkspaceState.panes, collectWorkspaceSessionIds, hroot] at *
  have hperm := collectNodeSessionIds_mapLeaf_perm hsessions root
  have hids := paneIds_mapLeaf hid root
  exact
    { paneIds_nodup := by
        change (paneIds _).Nodup
        rw [hids]
        exact hpanes
      sessionIds_nodup := hperm.nodup_iff.mpr hnodup
      panes_ok := forall_mapLeaf hok hpanesOk
      activePane := ⟨paneId, hids ▸ hpane, rfl⟩
      groups_ok := hgroups
      grouped := hgrouped.trans hperm.symm }

theorem Coherent.active_mem (h : Coherent state) {root : SessionPaneNode}
    (hroot : state.root = some root) :
    ∃ paneId ∈ paneIds root, state.activePaneId = some paneId := by
  have hactive := h.activePane
  rwa [ActivePaneOk, hroot] at hactive

/-! ## One lemma an action -/

theorem Coherent.createSinglePaneRoot (h : Coherent state) (hroot : state.root = none)
    (sessionId paneId : Text) :
    Coherent
      { root := some (createSinglePaneRoot sessionId paneId)
        activePaneId := some paneId
        groups := appendSessionToDefaultGroup state.groups sessionId } where
  paneIds_nodup := List.nodup_singleton _
  sessionIds_nodup := List.nodup_singleton _
  panes_ok pane hpane := by
    cases List.mem_singleton.mp hpane
    exact ⟨sessionId, List.mem_singleton.mpr rfl, rfl⟩
  activePane := ⟨paneId, List.mem_singleton.mpr rfl, rfl⟩
  groups_ok := h.groups_ok.moveSessionToGroup _ _
  grouped := by
    have hnone : collectWorkspaceSessionIds state = [] := by
      simp [collectWorkspaceSessionIds, SessionWorkspaceState.panes, hroot]
    have hfresh : sessionId ∉ collectWorkspaceSessionIds state := by
      rw [hnone]
      exact List.not_mem_nil
    have hperm := h.grouped_append hfresh
    rw [hnone] at hperm
    exact hperm

theorem Coherent.appendSessionToPane (h : Coherent state) {root : SessionPaneNode}
    (hroot : state.root = some root) {paneId sessionId : Text} (hpane : paneId ∈ paneIds root)
    (hfresh : sessionId ∉ collectWorkspaceSessionIds state) :
    Coherent
      { root := some (appendSessionToPane root paneId sessionId)
        activePaneId := some paneId
        groups := appendSessionToDefaultGroup state.groups sessionId } := by
  have hgrouped := h.grouped_append hfresh
  obtain ⟨hpanes, hnodup, hpanesOk, -, hgroups, -⟩ := h
  simp only [SessionWorkspaceState.panes, collectWorkspaceSessionIds, hroot] at *
  have hids : paneIds (Workspace.appendSessionToPane root paneId sessionId) = paneIds root :=
    paneIds_mapLeaf (Pane.appendSession_paneId paneId sessionId) root
  have hperm : (collectNodeSessionIds (Workspace.appendSessionToPane root paneId sessionId)).Perm
      (collectNodeSessionIds root ++ [sessionId]) := by
    rw [collectNodeSessionIds_appendSessionToPane]
    exact flatMap_addAt_perm hpanes hpane
  have hnodup' : (collectNodeSessionIds root ++ [sessionId]).Nodup :=
    List.nodup_append'.mpr ⟨hnodup, List.nodup_singleton _, List.disjoint_singleton.mpr hfresh⟩
  exact
    { paneIds_nodup := by
        change (paneIds _).Nodup
        rw [hids]
        exact hpanes
      sessionIds_nodup := hperm.nodup_iff.mpr hnodup'
      panes_ok := forall_mapLeaf (fun pane hok => hok.appendSession paneId sessionId) hpanesOk
      activePane := ⟨paneId, hids ▸ hpane, rfl⟩
      groups_ok := hgroups.moveSessionToGroup _ _
      grouped := hgrouped.trans hperm.symm }

theorem Coherent.replacePaneWithSplit (h : Coherent state) {root : SessionPaneNode}
    (hroot : state.root = some root) {paneId nextPaneId nextSessionId : Text} (axis : SplitAxis)
    (hpane : paneId ∈ paneIds root) (hnext : nextPaneId ∉ paneIds root)
    (hfresh : nextSessionId ∉ collectWorkspaceSessionIds state) :
    Coherent
      { root := some (replacePaneWithSplit root paneId nextPaneId nextSessionId axis)
        activePaneId := some nextPaneId
        groups := appendSessionToDefaultGroup state.groups nextSessionId } := by
  have hgrouped := h.grouped_append hfresh
  obtain ⟨hpanes, hnodup, hpanesOk, -, hgroups, -⟩ := h
  simp only [SessionWorkspaceState.panes, collectWorkspaceSessionIds, hroot] at *
  -- the new pane is one more leaf, up to order
  have hleaves :
      (Workspace.replacePaneWithSplit root paneId nextPaneId nextSessionId axis).leaves.Perm
        (root.leaves ++ [⟨nextPaneId, [nextSessionId], some nextSessionId⟩]) := by
    rw [leaves_replacePaneWithSplit]
    refine (flatMap_addAt_perm hpanes hpane).trans (.of_eq ?_)
    rw [List.flatMap_singleton']
    rfl
  have hids := hleaves.map Pane.paneId
  have hsessions := hleaves.flatMap_right Pane.sessionIds
  rw [List.map_append] at hids
  rw [List.flatMap_append] at hsessions
  exact
    { paneIds_nodup := hids.nodup_iff.mpr (List.nodup_append'.mpr
        ⟨hpanes, List.nodup_singleton _, List.disjoint_singleton.mpr hnext⟩)
      sessionIds_nodup := hsessions.nodup_iff.mpr (List.nodup_append'.mpr
        ⟨hnodup, List.nodup_singleton _, List.disjoint_singleton.mpr hfresh⟩)
      panes_ok := by
        intro pane hmem
        rcases List.mem_append.mp (hleaves.mem_iff.mp hmem) with hold | hnew
        · exact hpanesOk pane hold
        · cases List.mem_singleton.mp hnew
          exact ⟨nextSessionId, List.mem_singleton.mpr rfl, rfl⟩
      activePane := by
        refine ⟨nextPaneId, ?_, rfl⟩
        exact hids.mem_iff.mpr (List.mem_append_right _ (List.mem_singleton.mpr rfl))
      groups_ok := hgroups.moveSessionToGroup _ _
      grouped := hgrouped.trans hsessions.symm }

theorem Coherent.replaceSessionId (h : Coherent state) {root : SessionPaneNode}
    (hroot : state.root = some root) (oldSessionId : Text) {nextSessionId : Text}
    (hfresh : nextSessionId ∉ collectWorkspaceSessionIds state) :
    Coherent
      { state with
        root := some (replaceSessionId root oldSessionId nextSessionId)
        groups := replaceSessionIdInGroups state.groups oldSessionId nextSessionId } := by
  obtain ⟨active, hactive, hactiveId⟩ := h.active_mem hroot
  obtain ⟨hpanes, hnodup, hpanesOk, -, hgroups, hgrouped⟩ := h
  simp only [SessionWorkspaceState.panes, collectWorkspaceSessionIds, hroot] at *
  have hids : paneIds (Workspace.replaceSessionId root oldSessionId nextSessionId) = paneIds root :=
    paneIds_mapLeaf (Pane.replaceSession_paneId oldSessionId nextSessionId) root
  have hsessions := collectNodeSessionIds_replaceSessionId root oldSessionId nextSessionId
  exact
    { paneIds_nodup := by
        change (paneIds _).Nodup
        rw [hids]
        exact hpanes
      sessionIds_nodup := by
        change (collectNodeSessionIds _).Nodup
        rw [hsessions]
        exact nodup_map_renamed hnodup hfresh
      panes_ok :=
        forall_mapLeaf (fun pane hok => hok.replaceSession oldSessionId nextSessionId) hpanesOk
      activePane := ⟨active, hids ▸ hactive, hactiveId⟩
      groups_ok := hgroups.replaceSessionIdInGroups _ _
      grouped := by
        change (groupSessionIds _).Perm (collectNodeSessionIds _)
        rw [groupSessionIds_replaceSessionIdInGroups, hsessions]
        exact hgrouped.map _ }

theorem Coherent.detachSession (h : Coherent state) (sessionId : Text) :
    Coherent (sessionWorkspaceReducer lower state (.detachSession sessionId)) := by
  unfold sessionWorkspaceReducer
  dsimp only
  split
  · exact h
  rename_i root hroot
  have hleaves := leaves_removeSessionFromNode root sessionId
  obtain ⟨hpanes, hnodup, hpanesOk, -, hgroups, hgrouped⟩ := h
  simp only [SessionWorkspaceState.panes, collectWorkspaceSessionIds, hroot] at *
  have hsessions := sessionIds_filterMap_removeSession root.leaves sessionId
  have hgrouped' : (groupSessionIds (removeSessionFromGroups state.groups sessionId)).Perm
      ((root.leaves.filterMap (Pane.removeSession sessionId)).flatMap Pane.sessionIds) := by
    rw [groupSessionIds_removeSessionFromGroups, hsessions]
    exact hgrouped.filter _
  have hgroups' := hgroups.removeSessionFromGroups sessionId
  split
  · -- it was the last session
    rename_i hremove
    rw [hremove] at hleaves
    rw [← hleaves] at hgrouped'
    exact
      { paneIds_nodup := .nil
        sessionIds_nodup := .nil
        panes_ok := fun pane hpane => by cases hpane
        activePane := rfl
        groups_ok := hgroups'
        grouped := hgrouped' }
  · rename_i nextRoot hremove
    rw [hremove] at hleaves
    change nextRoot.leaves = _ at hleaves
    rw [← hleaves] at hgrouped' hsessions
    have hpanes' : (nextRoot.leaves.map Pane.paneId).Nodup := by
      rw [hleaves]
      exact hpanes.sublist (paneIds_filterMap_removeSession root.leaves sessionId)
    refine
      { paneIds_nodup := hpanes'
        sessionIds_nodup := ?_
        panes_ok := ?_
        activePane := ?_
        groups_ok := hgroups'
        grouped := hgrouped' }
    · change (nextRoot.leaves.flatMap Pane.sessionIds).Nodup
      rw [hsessions]
      exact hnodup.filter _
    · intro pane hpane
      change pane ∈ nextRoot.leaves at hpane
      rw [hleaves] at hpane
      obtain ⟨before, hbefore, hsome⟩ := List.mem_filterMap.mp hpane
      exact (Pane.removeSession_some hsome).2.2 (hpanesOk before hbefore)
    · -- the active pane, if it is still there, or the first one
      obtain ⟨first, hfirst⟩ : ∃ first, (collectLeafPanes nextRoot)[0]? = some first := by
        have hne := SplitTree.leaves_ne_nil nextRoot
        exact ⟨_, List.getElem?_eq_getElem (List.length_pos_iff.mpr hne)⟩
      have hfirst_mem : first ∈ nextRoot.leaves := List.mem_of_getElem? hfirst
      change ∃ paneId ∈ paneIds nextRoot, _ = some paneId
      dsimp only
      rw [hfirst]
      cases hfind : (truthy state.activePaneId).bind (findLeafByPaneId nextRoot) with
      | none => exact ⟨first.paneId, List.mem_map_of_mem hfirst_mem, rfl⟩
      | some leaf =>
        obtain ⟨paneId, -, hleaf⟩ := Option.bind_eq_some_iff.mp hfind
        exact ⟨leaf.paneId, List.mem_map_of_mem (findLeafByPaneId_some hleaf).1, rfl⟩

theorem Coherent.activateSession (h : Coherent state) (sessionId : Text) :
    Coherent (sessionWorkspaceReducer lower state (.activateSession sessionId)) := by
  unfold sessionWorkspaceReducer
  dsimp only
  split
  · exact h
  rename_i root hroot
  split
  · exact h
  rename_i leaf hleaf
  have hmem := (findLeafBySessionId_some hleaf).1
  exact h.mapLeaf hroot (fun pane => (pane.setActiveSession_eq _ _).1)
    (fun pane => .of_eq (pane.setActiveSession_eq _ _).2)
    (fun pane hok => hok.setActiveSession _ _) (List.mem_map_of_mem hmem)

theorem Coherent.focusPane (h : Coherent state) (paneId : Text) :
    Coherent (sessionWorkspaceReducer lower state (.focusPane paneId)) := by
  unfold sessionWorkspaceReducer
  dsimp only
  split
  · exact h
  rename_i root hroot
  split
  · exact h
  rename_i hcontains
  have hmem : paneId ∈ paneIds root := by
    rw [← containsPaneId_iff]
    simpa using hcontains
  cases truthy (shownSession (findLeafByPaneId root paneId)) with
  | none =>
    obtain ⟨hpanes, hnodup, hpanesOk, -, hgroups, hgrouped⟩ := h
    simp only [SessionWorkspaceState.panes, collectWorkspaceSessionIds, hroot] at *
    exact ⟨hpanes, hnodup, hpanesOk, ⟨paneId, hmem, rfl⟩, hgroups, hgrouped⟩
  | some nextActiveSessionId =>
    exact h.mapLeaf hroot (fun pane => (pane.setActiveSession_eq _ _).1)
      (fun pane => .of_eq (pane.setActiveSession_eq _ _).2)
      (fun pane hok => hok.setActiveSession _ _) hmem

theorem Coherent.reorderPaneSessions (h : Coherent state)
    (paneId sourceSessionId targetSessionId : Text) :
    Coherent (sessionWorkspaceReducer lower state
      (.reorderPaneSessions paneId sourceSessionId targetSessionId)) := by
  unfold sessionWorkspaceReducer
  dsimp only
  split
  · exact h
  rename_i root hroot
  obtain ⟨active, hactive, hactiveId⟩ := h.active_mem hroot
  rw [hactiveId]
  exact h.mapLeaf hroot (fun pane => pane.reorderSessions_paneId _ _ _)
    (fun pane => pane.reorderSessions_perm _ _ _) (fun pane hok => hok.reorderSessions _ _ _)
    hactive

theorem Coherent.resizeSplit (h : Coherent state) (paneId : Text) (ratio : JsNumber) :
    Coherent (sessionWorkspaceReducer lower state (.resizeSplit paneId ratio)) := by
  unfold sessionWorkspaceReducer
  dsimp only
  split
  · exact h
  rename_i root hroot
  obtain ⟨active, hactive, hactiveId⟩ := h.active_mem hroot
  obtain ⟨hpanes, hnodup, hpanesOk, -, hgroups, hgrouped⟩ := h
  simp only [SessionWorkspaceState.panes, collectWorkspaceSessionIds, hroot,
    SplitTree.leaves?_some, paneIds] at *
  rw [← leaves_updateSplitRatio root paneId ratio] at hpanes hnodup hpanesOk hgrouped hactive
  exact ⟨hpanes, hnodup, hpanesOk, ⟨active, hactive, hactiveId⟩, hgroups, hgrouped⟩

theorem Coherent.createSessionGroup (h : Coherent state) {groupId : Text}
    (hfresh : groupId ∉ groupIds state.groups) (name sessionId : Text) :
    Coherent (sessionWorkspaceReducer lower state
      (.createSessionGroup groupId name sessionId)) := by
  unfold sessionWorkspaceReducer
  dsimp only
  split
  · exact h
  rename_i hgo
  split
  · exact h
  have hmem : sessionId ∈ groupSessionIds state.groups := by
    rw [← containsSessionIdInGroups_iff]
    simp_all
  exact
    { paneIds_nodup := h.paneIds_nodup
      sessionIds_nodup := h.sessionIds_nodup
      panes_ok := h.panes_ok
      activePane := h.activePane
      groups_ok := h.groups_ok.addSessionGroup hfresh _ _
      grouped := by
        dsimp only
        rw [groupSessionIds_addSessionGroup]
        exact h.grouped_move hmem }

theorem Coherent.moveSessionToGroup (h : Coherent state) (sessionId groupId : Text) :
    Coherent (sessionWorkspaceReducer lower state (.moveSessionToGroup sessionId groupId)) := by
  unfold sessionWorkspaceReducer
  dsimp only
  split
  · exact h
  rename_i hsession
  split
  · exact h
  rename_i hgroup
  have hmem : sessionId ∈ groupSessionIds state.groups := by
    rw [← containsSessionIdInGroups_iff]
    simpa using hsession
  have hid : groupId ∈ groupIds state.groups := by
    have hany : ∃ group ∈ state.groups, group.id = groupId := by simpa using hgroup
    exact List.mem_map.mpr hany
  exact
    { paneIds_nodup := h.paneIds_nodup
      sessionIds_nodup := h.sessionIds_nodup
      panes_ok := h.panes_ok
      activePane := h.activePane
      groups_ok := h.groups_ok.moveSessionToGroup _ _
      grouped := (perm_moveSessionToGroup h.groups_ok hid sessionId).trans (h.grouped_move hmem) }

/-! ## Runs -/

/-- What the callers of the reducer keep to: new sessions, panes and groups have fresh ids, and a
named pane is a leaf of the current tree. -/
def Allowed (state : SessionWorkspaceState) : SessionWorkspaceAction → Prop
  | .attachSession sessionId paneId =>
    sessionId ∉ collectWorkspaceSessionIds state ∧
      (state.root ≠ none → ∀ named ∈ paneId, named ∈ state.panes.map Pane.paneId)
  | .splitPane paneId nextPaneId nextSessionId _ =>
    paneId ∈ state.panes.map Pane.paneId ∧ nextPaneId ∉ state.panes.map Pane.paneId ∧
      nextSessionId ∉ collectWorkspaceSessionIds state
  | .replaceSession _ nextSessionId => nextSessionId ∉ collectWorkspaceSessionIds state
  | .createSessionGroup groupId _ _ => groupId ∉ groupIds state.groups
  | .activateSession _ | .focusPane _ | .detachSession _ | .reorderPaneSessions .. |
    .resizeSplit .. | .moveSessionToGroup .. => True

instance : DecidablePred (Allowed state)
  | .attachSession _ _ => inferInstanceAs (Decidable (_ ∧ _))
  | .splitPane _ _ _ _ => inferInstanceAs (Decidable (_ ∧ _))
  | .replaceSession _ _ => inferInstanceAs (Decidable (_ ∉ _))
  | .createSessionGroup _ _ _ => inferInstanceAs (Decidable (_ ∉ _))
  | .activateSession _ | .focusPane _ | .detachSession _ | .reorderPaneSessions _ _ _ |
    .resizeSplit _ _ | .moveSessionToGroup _ _ => .isTrue trivial

/-- **The step lemma.** Every allowed action keeps the two records of the sessions together. -/
theorem Coherent.reducer (h : Coherent state) {action : SessionWorkspaceAction}
    (hallowed : Allowed state action) :
    Coherent (sessionWorkspaceReducer lower state action) := by
  cases action with
  | attachSession sessionId paneId =>
    obtain ⟨hfresh, hnamed⟩ := hallowed
    unfold sessionWorkspaceReducer
    dsimp only
    split
    · rename_i hroot
      split
      · exact h
      · exact h.createSinglePaneRoot hroot _ _
    · rename_i root hroot
      split
      · exact h
      · rename_i targetPaneId htarget
        refine h.appendSessionToPane hroot ?_ hfresh
        obtain ⟨active, hactive, hactiveId⟩ := h.active_mem hroot
        have htarget' : paneId.or state.activePaneId = some targetPaneId :=
          (Option.filter_eq_some_iff.mp htarget).1
        rw [hactiveId] at htarget'
        cases paneId with
        | none =>
          cases htarget'
          exact hactive
        | some named =>
          cases htarget'
          have hmem := hnamed (by simp [hroot]) _ rfl
          rwa [SessionWorkspaceState.panes, hroot] at hmem
  | activateSession sessionId => exact h.activateSession sessionId
  | focusPane paneId => exact h.focusPane paneId
  | splitPane paneId nextPaneId nextSessionId axis =>
    obtain ⟨hpane, hnext, hfresh⟩ := hallowed
    unfold sessionWorkspaceReducer
    dsimp only
    split
    · exact h
    · rename_i root hroot
      rw [SessionWorkspaceState.panes, hroot] at hpane hnext
      exact h.replacePaneWithSplit hroot axis hpane hnext hfresh
  | replaceSession oldSessionId nextSessionId =>
    unfold sessionWorkspaceReducer
    dsimp only
    split
    · exact h
    · rename_i root hroot
      exact h.replaceSessionId hroot oldSessionId hallowed
  | detachSession sessionId => exact h.detachSession sessionId
  | reorderPaneSessions paneId sourceSessionId targetSessionId =>
    exact h.reorderPaneSessions paneId sourceSessionId targetSessionId
  | resizeSplit paneId ratio => exact h.resizeSplit paneId ratio
  | createSessionGroup groupId name sessionId => exact h.createSessionGroup hallowed name sessionId
  | moveSessionToGroup sessionId groupId => exact h.moveSessionToGroup sessionId groupId

def workspace (lower : Text → Text) : Machine SessionWorkspaceState SessionWorkspaceAction :=
  .ofStep createEmptyWorkspaceState fun state action =>
    some (sessionWorkspaceReducer lower state action)

theorem workspace_reachable_step {state : SessionWorkspaceState}
    (h : ((workspace lower).restrict Allowed).Reachable state) {action : SessionWorkspaceAction}
    (hallowed : Allowed state action) :
    ((workspace lower).restrict Allowed).Reachable (sessionWorkspaceReducer lower state action) :=
  .step h ⟨hallowed, rfl⟩

/-- **The workspace invariant.** It holds in every state that allowed actions reach. -/
theorem reducer_invariant (lower : Text → Text) {state : SessionWorkspaceState}
    (h : ((workspace lower).restrict Allowed).Reachable state) : Invariant state := by
  refine (Machine.Reachable.induct ?_ ?_ h : Coherent state).invariant
  · rintro start rfl
    exact coherent_createEmptyWorkspaceState
  · rintro before action after - ih ⟨hallowed, hstep⟩
    cases hstep
    exact ih.reducer hallowed

/-- Two sessions side by side, the second one in a group of its own, the first one closed. -/
theorem reducer_invariant_split_detach :
    Invariant
      ([.attachSession "s1".toList (some "p1".toList),
        .splitPane "p1".toList "p2".toList "s2".toList .horizontal,
        .createSessionGroup "g".toList "ops".toList "s2".toList,
        .detachSession "s1".toList].foldl (sessionWorkspaceReducer id)
          createEmptyWorkspaceState) := by
  refine reducer_invariant id ?_
  simp only [List.foldl_cons, List.foldl_nil]
  refine workspace_reachable_step (workspace_reachable_step (workspace_reachable_step
    (workspace_reachable_step (.init rfl) ?_) ?_) ?_) ?_
  all_goals decide

end FluxTerm.Workspace
