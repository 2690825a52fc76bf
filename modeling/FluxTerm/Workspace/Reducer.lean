import FluxTerm.Workspace.Groups
import FluxTerm.Workspace.PaneTree

/-!
# FluxTerm — the workspace reducer

`sessionWorkspaceReducer` of `features/session/core/workspaceReducer.ts`: one step of the session
workspace. Ids and names are `Text`; `toLocaleLowerCase` depends on the locale of the host and is
the parameter `lower`.
-/

namespace FluxTerm.Workspace

open FluxTerm.Lib

structure SessionWorkspaceState where
  root : Option SessionPaneNode
  activePaneId : Option Text
  groups : List SessionGroup
deriving DecidableEq

/-- The actions of the reducer. -/
inductive SessionWorkspaceAction where
  | attachSession (sessionId : Text) (paneId : Option Text)
  | activateSession (sessionId : Text)
  | focusPane (paneId : Text)
  | splitPane (paneId nextPaneId nextSessionId : Text) (axis : SplitAxis)
  | replaceSession (oldSessionId nextSessionId : Text)
  | detachSession (sessionId : Text)
  | reorderPaneSessions (paneId sourceSessionId targetSessionId : Text)
  | resizeSplit (paneId : Text) (ratio : JsNumber)
  | createSessionGroup (groupId name sessionId : Text)
  | moveSessionToGroup (sessionId groupId : Text)
deriving DecidableEq

def createEmptyWorkspaceState : SessionWorkspaceState where
  root := none
  activePaneId := none
  groups := [createDefaultSessionGroup]

def SessionWorkspaceState.panes (state : SessionWorkspaceState) : List Pane :=
  SplitTree.leaves? state.root

def collectWorkspaceSessionIds (state : SessionWorkspaceState) : List Text :=
  state.panes.flatMap Pane.sessionIds

def trim (s : Text) : Text := trimBy isJsWhitespace s

/-- `leaf?.activeSessionId ?? leaf?.sessionIds[leaf.sessionIds.length - 1] ?? null`. -/
def shownSession (leaf : Option Pane) : Option Text :=
  leaf.bind fun leaf => leaf.activeSessionId.or leaf.sessionIds.getLast?

variable (lower : Text → Text)

def sessionWorkspaceReducer (state : SessionWorkspaceState) :
    SessionWorkspaceAction → SessionWorkspaceState
  | .attachSession sessionId paneId =>
    match state.root with
    | none =>
      -- the first session brings the id of the root pane
      match truthy paneId with
      | none => state
      | some paneId =>
        { root := some (createSinglePaneRoot sessionId paneId)
          activePaneId := some paneId
          groups := appendSessionToDefaultGroup state.groups sessionId }
    | some root =>
      match truthy (paneId.or state.activePaneId) with
      | none => state
      | some targetPaneId =>
        { root := some (appendSessionToPane root targetPaneId sessionId)
          activePaneId := some targetPaneId
          groups := appendSessionToDefaultGroup state.groups sessionId }
  | .activateSession sessionId =>
    match state.root with
    | none => state
    | some root =>
      match findLeafBySessionId root sessionId with
      | none => state
      | some leaf =>
        { state with
          root := some (setPaneActiveSession root leaf.paneId sessionId)
          activePaneId := some leaf.paneId }
  | .focusPane paneId =>
    match state.root with
    | none => state
    | some root =>
      if !containsPaneId root paneId then state
      else
        { state with
          root :=
            match truthy (shownSession (findLeafByPaneId root paneId)) with
            | none => some root
            | some nextActiveSessionId =>
              some (setPaneActiveSession root paneId nextActiveSessionId)
          activePaneId := some paneId }
  | .splitPane paneId nextPaneId nextSessionId axis =>
    match state.root with
    | none => state
    | some root =>
      { root := some (replacePaneWithSplit root paneId nextPaneId nextSessionId axis)
        activePaneId := some nextPaneId
        groups := appendSessionToDefaultGroup state.groups nextSessionId }
  | .replaceSession oldSessionId nextSessionId =>
    match state.root with
    | none => state
    | some root =>
      { state with
        root := some (replaceSessionId root oldSessionId nextSessionId)
        groups := replaceSessionIdInGroups state.groups oldSessionId nextSessionId }
  | .detachSession sessionId =>
    match state.root with
    | none => state
    | some root =>
      let nextGroups := removeSessionFromGroups state.groups sessionId
      match removeSessionFromNode root sessionId with
      | none => { createEmptyWorkspaceState with groups := nextGroups }
      | some nextRoot =>
        let activeLeaf :=
          ((truthy state.activePaneId).bind (findLeafByPaneId nextRoot)).or
            (collectLeafPanes nextRoot)[0]?
        { root := some nextRoot, activePaneId := activeLeaf.map Pane.paneId, groups := nextGroups }
  | .reorderPaneSessions paneId sourceSessionId targetSessionId =>
    match state.root with
    | none => state
    | some root =>
      { state with
        root := some (reorderPaneSessions root paneId sourceSessionId targetSessionId) }
  | .resizeSplit paneId ratio =>
    match state.root with
    | none => state
    | some root => { state with root := some (updateSplitRatio root paneId ratio) }
  | .createSessionGroup groupId name sessionId =>
    let trimmed := trim name
    if trimmed.isEmpty || !containsSessionIdInGroups state.groups sessionId then state
    else if state.groups.any fun group => lower (trim group.name) == lower trimmed then state
    else { state with groups := addSessionGroup state.groups groupId trimmed sessionId }
  | .moveSessionToGroup sessionId groupId =>
    if !containsSessionIdInGroups state.groups sessionId then state
    else if !state.groups.any fun group => group.id == groupId then state
    else { state with groups := moveSessionToGroup state.groups sessionId groupId }

/-! ## Sessions that leave or are replaced -/

theorem collectWorkspaceSessionIds_detachSession (state : SessionWorkspaceState)
    (sessionId : Text) :
    collectWorkspaceSessionIds (sessionWorkspaceReducer lower state (.detachSession sessionId))
      = (collectWorkspaceSessionIds state).filter (fun item => item != sessionId) := by
  unfold sessionWorkspaceReducer
  dsimp only
  split
  · rename_i hroot
    simp [collectWorkspaceSessionIds, SessionWorkspaceState.panes, hroot]
  · rename_i root hroot
    have hleaves := leaves_removeSessionFromNode root sessionId
    have hsessions := sessionIds_filterMap_removeSession root.leaves sessionId
    rw [← hleaves] at hsessions
    simp only [collectWorkspaceSessionIds, SessionWorkspaceState.panes, hroot]
    split
    · rename_i hremove
      rw [hremove] at hsessions
      exact hsessions
    · rename_i nextRoot hremove
      rw [hremove] at hsessions
      exact hsessions

theorem collectWorkspaceSessionIds_replaceSession (state : SessionWorkspaceState)
    (oldSessionId nextSessionId : Text) :
    collectWorkspaceSessionIds
        (sessionWorkspaceReducer lower state (.replaceSession oldSessionId nextSessionId))
      = (collectWorkspaceSessionIds state).map (renamed oldSessionId nextSessionId) := by
  unfold sessionWorkspaceReducer
  dsimp only
  split
  · rename_i hroot
    simp [collectWorkspaceSessionIds, SessionWorkspaceState.panes, hroot]
  · rename_i root hroot
    simp only [collectWorkspaceSessionIds, SessionWorkspaceState.panes, hroot]
    exact collectNodeSessionIds_replaceSessionId root oldSessionId nextSessionId

end FluxTerm.Workspace
