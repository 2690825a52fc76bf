import FluxTerm.Lib.SplitTree
import FluxTerm.Lib.JsNumber
import FluxTerm.Lib.KeyedList
import FluxTerm.Lib.Text

/-!
# FluxTerm — the pane tree of the session workspace

The tree of `features/session/core/workspaceReducer.ts`: a leaf is a pane with its sessions, a
split has an axis and a ratio. The recursive helpers of the source return the very node they were
given when nothing below it changes; values are all this model has, so that shortcut is not seen.
-/

namespace FluxTerm.Workspace

open FluxTerm.Lib

inductive SplitAxis where
  | horizontal
  | vertical
deriving DecidableEq

structure SplitInfo where
  axis : SplitAxis
  ratio : JsNumber
deriving DecidableEq

structure Pane where
  paneId : Text
  sessionIds : List Text
  activeSessionId : Option Text
deriving DecidableEq

abbrev SessionPaneNode := SplitTree SplitInfo Pane

/-- `createSinglePaneRoot`: one pane with one session, which is active. -/
def createSinglePaneRoot (sessionId paneId : Text) : SessionPaneNode :=
  .leaf { paneId, sessionIds := [sessionId], activeSessionId := some sessionId }

def collectLeafPanes (node : SessionPaneNode) : List Pane := node.leaves

def paneIds (node : SessionPaneNode) : List Text := node.leaves.map Pane.paneId

def collectNodeSessionIds (node : SessionPaneNode) : List Text :=
  node.leaves.flatMap Pane.sessionIds

def containsPaneId (node : SessionPaneNode) (paneId : Text) : Bool :=
  node.leaves.any fun pane => pane.paneId == paneId

def findLeafByPaneId (node : SessionPaneNode) (paneId : Text) : Option Pane :=
  node.leaves.find? fun pane => pane.paneId == paneId

def findLeafBySessionId (node : SessionPaneNode) (sessionId : Text) : Option Pane :=
  node.leaves.find? fun pane => pane.sessionIds.contains sessionId

def Pane.Ok (pane : Pane) : Prop := ∃ s ∈ pane.sessionIds, pane.activeSessionId = some s

theorem Pane.Ok.sessionIds_ne_nil {pane : Pane} (h : pane.Ok) : pane.sessionIds ≠ [] := by
  obtain ⟨s, hs, -⟩ := h
  exact List.ne_nil_of_mem hs

theorem mem_paneIds {node : SessionPaneNode} {paneId : Text} :
    paneId ∈ paneIds node ↔ ∃ pane ∈ node.leaves, pane.paneId = paneId := List.mem_map

theorem containsPaneId_iff {node : SessionPaneNode} {paneId : Text} :
    containsPaneId node paneId = true ↔ paneId ∈ paneIds node := by
  simp [containsPaneId, mem_paneIds]

theorem mem_collectNodeSessionIds {node : SessionPaneNode} {sessionId : Text} :
    sessionId ∈ collectNodeSessionIds node ↔ ∃ pane ∈ node.leaves, sessionId ∈ pane.sessionIds :=
  List.mem_flatMap

theorem findLeafByPaneId_some {node : SessionPaneNode} {paneId : Text} {pane : Pane}
    (h : findLeafByPaneId node paneId = some pane) : pane ∈ node.leaves ∧ pane.paneId = paneId :=
  ⟨List.mem_of_find?_eq_some h, by simpa using List.find?_some h⟩

theorem findLeafBySessionId_some {node : SessionPaneNode} {sessionId : Text} {pane : Pane}
    (h : findLeafBySessionId node sessionId = some pane) :
    pane ∈ node.leaves ∧ sessionId ∈ pane.sessionIds :=
  ⟨List.mem_of_find?_eq_some h, by simpa using List.find?_some h⟩

/-! ## Changes of the panes in place -/

theorem forall_mapLeaf {P : Pane → Prop} {f : Pane → Pane} (hf : ∀ pane, P pane → P (f pane))
    {node : SessionPaneNode} (h : ∀ pane ∈ node.leaves, P pane) :
    ∀ pane ∈ (node.mapLeaf f : SessionPaneNode).leaves, P pane := by
  intro pane hpane
  rw [SplitTree.leaves_mapLeaf] at hpane
  obtain ⟨pane, hmem, rfl⟩ := List.mem_map.mp hpane
  exact hf pane (h pane hmem)

theorem paneIds_mapLeaf {f : Pane → Pane} (hf : ∀ pane, (f pane).paneId = pane.paneId)
    (node : SessionPaneNode) : paneIds (node.mapLeaf f) = paneIds node := by
  rw [paneIds, paneIds, SplitTree.leaves_mapLeaf, List.map_map]
  exact List.map_congr_left fun pane _ => hf pane

theorem collectNodeSessionIds_mapLeaf_perm {f : Pane → Pane}
    (hf : ∀ pane, (f pane).sessionIds.Perm pane.sessionIds) (node : SessionPaneNode) :
    (collectNodeSessionIds (node.mapLeaf f)).Perm (collectNodeSessionIds node) := by
  rw [collectNodeSessionIds, collectNodeSessionIds, SplitTree.leaves_mapLeaf, List.flatMap_map]
  exact .flatMap_left _ fun pane _ => hf pane

/-! ## `appendSessionToPane` -/

/-- The leaf case of `appendSessionToPane`. -/
def Pane.appendSession (paneId sessionId : Text) (pane : Pane) : Pane :=
  if pane.paneId ≠ paneId then pane
  else { pane with
    sessionIds := pane.sessionIds ++ [sessionId], activeSessionId := some sessionId }

def appendSessionToPane (node : SessionPaneNode) (paneId sessionId : Text) : SessionPaneNode :=
  node.mapLeaf (Pane.appendSession paneId sessionId)

theorem Pane.appendSession_paneId (paneId sessionId : Text) (pane : Pane) :
    (pane.appendSession paneId sessionId).paneId = pane.paneId := by
  unfold Pane.appendSession
  split <;> rfl

theorem Pane.appendSession_sessionIds (paneId sessionId : Text) (pane : Pane) :
    (pane.appendSession paneId sessionId).sessionIds
      = addAt Pane.paneId paneId Pane.sessionIds [sessionId] pane := by
  unfold Pane.appendSession addAt
  by_cases h : pane.paneId = paneId <;> simp [h]

theorem Pane.Ok.appendSession {pane : Pane} (h : pane.Ok) (paneId sessionId : Text) :
    (pane.appendSession paneId sessionId).Ok := by
  unfold Pane.appendSession
  split
  · exact h
  · exact ⟨sessionId, by simp, rfl⟩

theorem collectNodeSessionIds_appendSessionToPane (node : SessionPaneNode)
    (paneId sessionId : Text) :
    collectNodeSessionIds (appendSessionToPane node paneId sessionId)
      = node.leaves.flatMap (addAt Pane.paneId paneId Pane.sessionIds [sessionId]) := by
  simp [collectNodeSessionIds, appendSessionToPane, List.flatMap_map,
    Pane.appendSession_sessionIds]

/-! ## `setPaneActiveSession` -/

/-- The leaf case of `setPaneActiveSession`. -/
def Pane.setActiveSession (paneId sessionId : Text) (pane : Pane) : Pane :=
  if pane.paneId ≠ paneId ∨ !pane.sessionIds.contains sessionId then pane
  else { pane with activeSessionId := some sessionId }

def setPaneActiveSession (node : SessionPaneNode) (paneId sessionId : Text) : SessionPaneNode :=
  node.mapLeaf (Pane.setActiveSession paneId sessionId)

theorem Pane.setActiveSession_eq (paneId sessionId : Text) (pane : Pane) :
    (pane.setActiveSession paneId sessionId).paneId = pane.paneId
      ∧ (pane.setActiveSession paneId sessionId).sessionIds = pane.sessionIds := by
  unfold Pane.setActiveSession
  split <;> exact ⟨rfl, rfl⟩

theorem Pane.Ok.setActiveSession {pane : Pane} (h : pane.Ok) (paneId sessionId : Text) :
    (pane.setActiveSession paneId sessionId).Ok := by
  unfold Pane.setActiveSession
  split
  · exact h
  · rename_i hin
    rw [not_or] at hin
    exact ⟨sessionId, by simpa using hin.2, rfl⟩

/-! ## `replacePaneWithSplit` -/

/-- The leaf case of `replacePaneWithSplit`. -/
def Pane.splitWith (paneId nextPaneId nextSessionId : Text) (axis : SplitAxis) (pane : Pane) :
    SessionPaneNode :=
  if pane.paneId ≠ paneId then .leaf pane
  else .split { axis, ratio := .finite (1 / 2) } (.leaf pane)
    (createSinglePaneRoot nextSessionId nextPaneId)

def replacePaneWithSplit (node : SessionPaneNode) (paneId nextPaneId nextSessionId : Text)
    (axis : SplitAxis) : SessionPaneNode :=
  node.expand (Pane.splitWith paneId nextPaneId nextSessionId axis)

theorem Pane.splitWith_leaves (paneId nextPaneId nextSessionId : Text) (axis : SplitAxis)
    (pane : Pane) :
    (pane.splitWith paneId nextPaneId nextSessionId axis).leaves
      = addAt Pane.paneId paneId (fun pane => [pane])
          [⟨nextPaneId, [nextSessionId], some nextSessionId⟩] pane := by
  unfold Pane.splitWith addAt
  by_cases h : pane.paneId = paneId <;> simp [h, createSinglePaneRoot]

theorem leaves_replacePaneWithSplit (node : SessionPaneNode)
    (paneId nextPaneId nextSessionId : Text) (axis : SplitAxis) :
    (replacePaneWithSplit node paneId nextPaneId nextSessionId axis).leaves
      = node.leaves.flatMap (addAt Pane.paneId paneId (fun pane => [pane])
          [⟨nextPaneId, [nextSessionId], some nextSessionId⟩]) := by
  rw [replacePaneWithSplit, SplitTree.leaves_expand]
  simp only [Pane.splitWith_leaves]

/-! ## `replaceSessionId` -/

/-- The leaf case of `replaceSessionId`. -/
def Pane.replaceSession (oldSessionId nextSessionId : Text) (pane : Pane) : Pane :=
  if !pane.sessionIds.contains oldSessionId then pane
  else { pane with
    sessionIds := pane.sessionIds.map (renamed oldSessionId nextSessionId)
    activeSessionId :=
      if pane.activeSessionId = some oldSessionId then some nextSessionId
      else pane.activeSessionId }

def replaceSessionId (node : SessionPaneNode) (oldSessionId nextSessionId : Text) :
    SessionPaneNode :=
  node.mapLeaf (Pane.replaceSession oldSessionId nextSessionId)

theorem Pane.replaceSession_paneId (oldSessionId nextSessionId : Text) (pane : Pane) :
    (pane.replaceSession oldSessionId nextSessionId).paneId = pane.paneId := by
  unfold Pane.replaceSession
  split <;> rfl

theorem Pane.replaceSession_sessionIds (oldSessionId nextSessionId : Text) (pane : Pane) :
    (pane.replaceSession oldSessionId nextSessionId).sessionIds
      = pane.sessionIds.map (renamed oldSessionId nextSessionId) := by
  unfold Pane.replaceSession
  split
  · rename_i h
    exact (map_renamed_of_not_mem (by simpa using h)).symm
  · rfl

theorem Pane.Ok.replaceSession {pane : Pane} (h : pane.Ok) (oldSessionId nextSessionId : Text) :
    (pane.replaceSession oldSessionId nextSessionId).Ok := by
  obtain ⟨s, hs, hactive⟩ := h
  refine ⟨renamed oldSessionId nextSessionId s, ?_, ?_⟩
  · rw [Pane.replaceSession_sessionIds]
    exact List.mem_map_of_mem hs
  · unfold Pane.replaceSession renamed
    by_cases hold : s = oldSessionId
    · subst hold
      simp [hs, hactive]
    · split <;> simp [hactive, hold]

theorem collectNodeSessionIds_replaceSessionId (node : SessionPaneNode)
    (oldSessionId nextSessionId : Text) :
    collectNodeSessionIds (replaceSessionId node oldSessionId nextSessionId)
      = (collectNodeSessionIds node).map (renamed oldSessionId nextSessionId) := by
  simp [collectNodeSessionIds, replaceSessionId, List.flatMap_map, List.map_flatMap,
    Pane.replaceSession_sessionIds]

/-! ## `removeSessionFromNode` -/

/-- The leaf case of `removeSessionFromNode`: no pane stays without a session. -/
def Pane.removeSession (sessionId : Text) (pane : Pane) : Option Pane :=
  if !pane.sessionIds.contains sessionId then some pane
  else
    let sessionIds := pane.sessionIds.filter fun item => item != sessionId
    if sessionIds = [] then none
    else
      let activeSessionId :=
        if sessionIds.contains (pane.activeSessionId.getD []) then pane.activeSessionId
        else sessionIds.getLast?
      some { pane with sessionIds, activeSessionId }

def removeSessionFromNode (node : SessionPaneNode) (sessionId : Text) : Option SessionPaneNode :=
  node.prune (Pane.removeSession sessionId)

theorem Pane.removeSession_some {sessionId : Text} {pane next : Pane}
    (h : pane.removeSession sessionId = some next) :
    next.paneId = pane.paneId
      ∧ next.sessionIds = pane.sessionIds.filter (fun item => item != sessionId)
      ∧ (pane.Ok → next.Ok) := by
  unfold Pane.removeSession at h
  split at h
  · -- the session is in another pane
    rename_i hin
    cases h
    refine ⟨rfl, ?_, id⟩
    rw [List.filter_eq_self.mpr]
    intro item hitem
    have hne : item ≠ sessionId := by
      rintro rfl
      simp [hitem] at hin
    simpa using hne
  · dsimp only at h
    split at h
    · cases h
    · rename_i hne
      cases h
      refine ⟨rfl, rfl, ?_⟩
      rintro ⟨s, -, hactive⟩
      rw [Pane.Ok]
      dsimp only
      rw [hactive, Option.getD_some]
      split
      · rename_i hcontains
        exact ⟨s, by simpa using hcontains, rfl⟩
      · exact ⟨_, List.getLast_mem hne, List.getLast?_eq_some_getLast hne⟩

theorem Pane.removeSession_none {sessionId : Text} {pane : Pane}
    (h : pane.removeSession sessionId = none) :
    pane.sessionIds.filter (fun item => item != sessionId) = [] := by
  unfold Pane.removeSession at h
  split at h
  · cases h
  · dsimp only at h
    split at h
    · assumption
    · cases h

theorem leaves_removeSessionFromNode (node : SessionPaneNode) (sessionId : Text) :
    SplitTree.leaves? (removeSessionFromNode node sessionId)
      = node.leaves.filterMap (Pane.removeSession sessionId) :=
  SplitTree.leaves_prune _ node

theorem paneIds_filterMap_removeSession (panes : List Pane) (sessionId : Text) :
    ((panes.filterMap (Pane.removeSession sessionId)).map Pane.paneId).Sublist
      (panes.map Pane.paneId) := by
  induction panes with
  | nil => exact .slnil
  | cons pane panes ih =>
    cases hremove : pane.removeSession sessionId with
    | none =>
      rw [List.filterMap_cons_none hremove]
      exact ih.cons _
    | some next =>
      rw [List.filterMap_cons_some hremove, List.map_cons, List.map_cons,
        (Pane.removeSession_some hremove).1]
      exact ih.cons_cons _

theorem sessionIds_filterMap_removeSession (panes : List Pane) (sessionId : Text) :
    (panes.filterMap (Pane.removeSession sessionId)).flatMap Pane.sessionIds
      = (panes.flatMap Pane.sessionIds).filter (fun item => item != sessionId) := by
  induction panes with
  | nil => rfl
  | cons pane panes ih =>
    rw [List.flatMap_cons, List.filter_append, ← ih]
    cases hremove : pane.removeSession sessionId with
    | none =>
      rw [List.filterMap_cons_none hremove, Pane.removeSession_none hremove, List.nil_append]
    | some next =>
      rw [List.filterMap_cons_some hremove, List.flatMap_cons,
        (Pane.removeSession_some hremove).2.1]

/-! ## `reorderPaneSessions` -/

/-- The leaf case of `reorderPaneSessions`: two splices, the second one at the index the target
had before the first. What the first one takes out is `sourceSessionId`, as it was looked up. -/
def Pane.reorderSessions (paneId sourceSessionId targetSessionId : Text) (pane : Pane) : Pane :=
  if pane.paneId ≠ paneId then pane
  else
    match pane.sessionIds.idxOf? sourceSessionId, pane.sessionIds.idxOf? targetSessionId with
    | some sourceIndex, some targetIndex =>
      if sourceIndex = targetIndex then pane
      else { pane with
        sessionIds := (pane.sessionIds.eraseIdx sourceIndex).insertIdx targetIndex
          sourceSessionId }
    | _, _ => pane

def reorderPaneSessions (node : SessionPaneNode)
    (paneId sourceSessionId targetSessionId : Text) : SessionPaneNode :=
  node.mapLeaf (Pane.reorderSessions paneId sourceSessionId targetSessionId)

theorem Pane.reorderSessions_paneId (paneId sourceSessionId targetSessionId : Text)
    (pane : Pane) :
    (pane.reorderSessions paneId sourceSessionId targetSessionId).paneId = pane.paneId := by
  unfold Pane.reorderSessions
  split
  · rfl
  · split
    · split <;> rfl
    · rfl

theorem Pane.reorderSessions_activeSessionId (paneId sourceSessionId targetSessionId : Text)
    (pane : Pane) :
    (pane.reorderSessions paneId sourceSessionId targetSessionId).activeSessionId
      = pane.activeSessionId := by
  unfold Pane.reorderSessions
  split
  · rfl
  · split
    · split <;> rfl
    · rfl

theorem Pane.reorderSessions_perm (paneId sourceSessionId targetSessionId : Text) (pane : Pane) :
    (pane.reorderSessions paneId sourceSessionId targetSessionId).sessionIds.Perm
      pane.sessionIds := by
  unfold Pane.reorderSessions
  split
  · exact .rfl
  · split
    · rename_i sourceIndex targetIndex hsource htarget
      split
      · exact .rfl
      · rename_i hne
        obtain ⟨hs, hsource', -⟩ := List.idxOf?_eq_some_iff.mp hsource
        obtain ⟨ht, -, -⟩ := List.idxOf?_eq_some_iff.mp htarget
        have hle : targetIndex ≤ (pane.sessionIds.eraseIdx sourceIndex).length := by
          rw [List.length_eraseIdx_of_lt hs]
          omega
        have hmoved := List.getElem_cons_eraseIdx_perm hs
        rw [hsource'] at hmoved
        exact (List.perm_insertIdx _ _ hle).trans hmoved
    · exact .rfl

theorem Pane.Ok.reorderSessions {pane : Pane} (h : pane.Ok)
    (paneId sourceSessionId targetSessionId : Text) :
    (pane.reorderSessions paneId sourceSessionId targetSessionId).Ok := by
  obtain ⟨s, hs, hactive⟩ := h
  exact ⟨s, (pane.reorderSessions_perm _ _ _).mem_iff.mpr hs,
    by rw [Pane.reorderSessions_activeSessionId, hactive]⟩

/-! ## `updateSplitRatio` -/

/-- The literal `0.2`, a double. -/
def lowestRatio : ℚ := 3602879701896397 / 2 ^ 54

/-- The literal `0.8`, a double. -/
def highestRatio : ℚ := 3602879701896397 / 2 ^ 52

def clampRatio (value : JsNumber) : JsNumber :=
  .min (.finite highestRatio) (.max (.finite lowestRatio) value)

/-- `updateSplitRatioInternal`: the node and whether the pane is in it. -/
def updateSplitRatioInternal (paneId : Text) (ratio : JsNumber) :
    SessionPaneNode → SessionPaneNode × Bool
  | .leaf pane => (.leaf pane, pane.paneId == paneId)
  | .split info first second =>
    let nextFirst := updateSplitRatioInternal paneId ratio first
    if nextFirst.2 then
      (if containsPaneId first paneId then
        .split { info with ratio := clampRatio ratio } nextFirst.1 second
      else .split info nextFirst.1 second, true)
    else
      let nextSecond := updateSplitRatioInternal paneId ratio second
      if nextSecond.2 then
        (if containsPaneId second paneId then
          .split { info with ratio := clampRatio ratio } first nextSecond.1
        else .split info first nextSecond.1, true)
      else (.split info first second, false)

def updateSplitRatio (node : SessionPaneNode) (paneId : Text) (ratio : JsNumber) :
    SessionPaneNode :=
  (updateSplitRatioInternal paneId ratio node).1

theorem updateSplitRatioInternal_matched (paneId : Text) (ratio : JsNumber)
    (node : SessionPaneNode) :
    (updateSplitRatioInternal paneId ratio node).2 = containsPaneId node paneId := by
  induction node with
  | leaf pane => simp [updateSplitRatioInternal, containsPaneId]
  | split info first second ih₁ ih₂ =>
    have hsplit : containsPaneId (.split info first second) paneId
        = (containsPaneId first paneId || containsPaneId second paneId) := by
      simp [containsPaneId]
    rw [hsplit, updateSplitRatioInternal]
    dsimp only
    rw [ih₁, ih₂]
    cases containsPaneId first paneId <;> cases containsPaneId second paneId <;> rfl

theorem updateSplitRatio_split (paneId : Text) (ratio : JsNumber) (info : SplitInfo)
    (first second : SessionPaneNode) :
    updateSplitRatio (.split info first second) paneId ratio =
      if paneId ∈ paneIds first then
        .split { info with ratio := clampRatio ratio } (updateSplitRatio first paneId ratio) second
      else if paneId ∈ paneIds second then
        .split { info with ratio := clampRatio ratio } first (updateSplitRatio second paneId ratio)
      else .split info first second := by
  rw [updateSplitRatio, updateSplitRatioInternal]
  dsimp only
  rw [updateSplitRatioInternal_matched, updateSplitRatioInternal_matched]
  simp only [containsPaneId_iff]
  split
  · rfl
  · split <;> rfl

theorem leaves_updateSplitRatio (node : SessionPaneNode) (paneId : Text) (ratio : JsNumber) :
    (updateSplitRatio node paneId ratio).leaves = node.leaves := by
  induction node with
  | leaf pane => rfl
  | split info first second ih₁ ih₂ =>
    rw [updateSplitRatio_split]
    split
    · simp [ih₁]
    · split <;> simp [ih₂]

end FluxTerm.Workspace
