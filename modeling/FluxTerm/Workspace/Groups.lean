import FluxTerm.Lib.KeyedList
import FluxTerm.Lib.Text

/-!
# FluxTerm — session groups

The group half of `features/session/core/workspaceReducer.ts`. Next to the pane tree the
workspace keeps a list of groups; every operation goes through `ensureDefaultSessionGroup` and
`cleanupSessionGroups`, which keep the default group and drop the others when they are empty.
-/

namespace FluxTerm.Workspace

open FluxTerm.Lib

def defaultSessionGroupId : Text := "00000000-0000-4000-8000-000000000101".toList

structure SessionGroup where
  id : Text
  name : Text
  sessionIds : List Text
  color : Option Text := none
  builtIn : Bool := false
deriving DecidableEq

def sessionGroupPalette : List Text :=
  ["#38bdf8".toList, "#22c55e".toList, "#f59e0b".toList, "#a78bfa".toList, "#f472b6".toList,
    "#2dd4bf".toList, "#fb7185".toList, "#84cc16".toList]

/-- `resolveSessionGroupColor`: a 32-bit hash of the UTF-16 code units picks a colour. -/
def resolveSessionGroupColor (groupId : Text) : Option Text :=
  let hash := (groupId.flatMap utf16Units).foldl (fun hash unit => (hash * 31 + unit) % 2 ^ 32) 0
  sessionGroupPalette[hash % sessionGroupPalette.length]?

def createDefaultSessionGroup : SessionGroup where
  id := defaultSessionGroupId
  name := "Default".toList
  sessionIds := []
  builtIn := true

def groupIds (groups : List SessionGroup) : List Text := groups.map SessionGroup.id

def groupSessionIds (groups : List SessionGroup) : List Text :=
  groups.flatMap SessionGroup.sessionIds

def containsSessionIdInGroups (groups : List SessionGroup) (sessionId : Text) : Bool :=
  groups.any fun group => group.sessionIds.contains sessionId

/-- What the operations keep of a list of groups. -/
structure GroupsOk (groups : List SessionGroup) : Prop where
  ids_nodup : (groupIds groups).Nodup
  default_mem : defaultSessionGroupId ∈ groupIds groups
  nonempty : ∀ group ∈ groups, group.id ≠ defaultSessionGroupId → group.sessionIds ≠ []

theorem mem_groupSessionIds {groups : List SessionGroup} {sessionId : Text} :
    sessionId ∈ groupSessionIds groups ↔ ∃ group ∈ groups, sessionId ∈ group.sessionIds :=
  List.mem_flatMap

theorem containsSessionIdInGroups_iff {groups : List SessionGroup} {sessionId : Text} :
    containsSessionIdInGroups groups sessionId = true ↔ sessionId ∈ groupSessionIds groups := by
  simp [containsSessionIdInGroups, mem_groupSessionIds]

/-! ## `ensureDefaultSessionGroup` and `cleanupSessionGroups` -/

def ensureDefaultSessionGroup (groups : List SessionGroup) : List SessionGroup :=
  if groups.any fun group => group.id == defaultSessionGroupId then groups
  else createDefaultSessionGroup :: groups

def cleanupSessionGroups (groups : List SessionGroup) : List SessionGroup :=
  (ensureDefaultSessionGroup groups).filter fun group =>
    group.id == defaultSessionGroupId || !group.sessionIds.isEmpty

theorem ensureDefaultSessionGroup_of_mem {groups : List SessionGroup}
    (h : defaultSessionGroupId ∈ groupIds groups) : ensureDefaultSessionGroup groups = groups := by
  obtain ⟨group, hgroup, hid⟩ := List.mem_map.mp h
  exact if_pos (List.any_eq_true.mpr ⟨group, hgroup, by simp [hid]⟩)

theorem default_mem_ensureDefaultSessionGroup (groups : List SessionGroup) :
    defaultSessionGroupId ∈ groupIds (ensureDefaultSessionGroup groups) := by
  unfold ensureDefaultSessionGroup
  split
  · rename_i h
    obtain ⟨group, hgroup, hid⟩ := List.any_eq_true.mp h
    exact List.mem_map.mpr ⟨group, hgroup, by simpa using hid⟩
  · simp [groupIds, createDefaultSessionGroup]

theorem groupSessionIds_ensureDefaultSessionGroup (groups : List SessionGroup) :
    groupSessionIds (ensureDefaultSessionGroup groups) = groupSessionIds groups := by
  unfold ensureDefaultSessionGroup
  split
  · rfl
  · simp [groupSessionIds, createDefaultSessionGroup]

theorem groupSessionIds_cleanupSessionGroups (groups : List SessionGroup) :
    groupSessionIds (cleanupSessionGroups groups) = groupSessionIds groups := by
  rw [← groupSessionIds_ensureDefaultSessionGroup groups, cleanupSessionGroups]
  generalize ensureDefaultSessionGroup groups = groups'
  induction groups' with
  | nil => rfl
  | cons group groups' ih =>
    rw [List.filter_cons]
    split
    · simpa [groupSessionIds] using ih
    · rename_i hdrop
      have hempty : group.sessionIds = [] := by simp_all
      simpa [groupSessionIds, hempty] using ih

theorem GroupsOk.of_cleanup {groups : List SessionGroup} (hnodup : (groupIds groups).Nodup)
    (hdefault : defaultSessionGroupId ∈ groupIds groups) :
    GroupsOk (cleanupSessionGroups groups) := by
  rw [cleanupSessionGroups, ensureDefaultSessionGroup_of_mem hdefault]
  refine ⟨?_, ?_, ?_⟩
  · exact hnodup.sublist (List.filter_sublist.map _)
  · obtain ⟨group, hgroup, hid⟩ := List.mem_map.mp hdefault
    exact List.mem_map.mpr ⟨group, List.mem_filter.mpr ⟨hgroup, by simp [hid]⟩, hid⟩
  · intro group hgroup hne
    have hkept := (List.mem_filter.mp hgroup).2
    simpa [hne] using hkept

/-! ## `removeSessionFromAllGroups` and `removeSessionFromGroups` -/

/-- `removeSessionFromAllGroups`: empty groups stay for now. -/
def removeSessionFromAllGroups (groups : List SessionGroup) (sessionId : Text) :
    List SessionGroup :=
  (ensureDefaultSessionGroup groups).map fun group =>
    { group with sessionIds := group.sessionIds.filter fun item => item != sessionId }

def removeSessionFromGroups (groups : List SessionGroup) (sessionId : Text) : List SessionGroup :=
  cleanupSessionGroups (removeSessionFromAllGroups groups sessionId)

theorem groupIds_removeSessionFromAllGroups (groups : List SessionGroup) (sessionId : Text) :
    groupIds (removeSessionFromAllGroups groups sessionId)
      = groupIds (ensureDefaultSessionGroup groups) := by
  simp [groupIds, removeSessionFromAllGroups]

theorem groupSessionIds_removeSessionFromAllGroups (groups : List SessionGroup)
    (sessionId : Text) :
    groupSessionIds (removeSessionFromAllGroups groups sessionId)
      = (groupSessionIds groups).filter (fun item => item != sessionId) := by
  rw [← groupSessionIds_ensureDefaultSessionGroup groups]
  simp [groupSessionIds, removeSessionFromAllGroups, List.flatMap_map, List.filter_flatMap]

theorem groupSessionIds_removeSessionFromGroups (groups : List SessionGroup) (sessionId : Text) :
    groupSessionIds (removeSessionFromGroups groups sessionId)
      = (groupSessionIds groups).filter (fun item => item != sessionId) := by
  rw [removeSessionFromGroups, groupSessionIds_cleanupSessionGroups,
    groupSessionIds_removeSessionFromAllGroups]

theorem GroupsOk.removeSessionFromGroups {groups : List SessionGroup} (h : GroupsOk groups)
    (sessionId : Text) : GroupsOk (removeSessionFromGroups groups sessionId) := by
  refine .of_cleanup ?_ ?_ <;> rw [groupIds_removeSessionFromAllGroups]
  · rw [ensureDefaultSessionGroup_of_mem h.default_mem]
    exact h.ids_nodup
  · exact default_mem_ensureDefaultSessionGroup groups

/-! ## `moveSessionToGroup` and `appendSessionToDefaultGroup` -/

def moveSessionToGroup (groups : List SessionGroup) (sessionId groupId : Text) :
    List SessionGroup :=
  cleanupSessionGroups ((removeSessionFromAllGroups groups sessionId).map fun group =>
    if group.id = groupId then { group with sessionIds := group.sessionIds ++ [sessionId] }
    else group)

def appendSessionToDefaultGroup (groups : List SessionGroup) (sessionId : Text) :
    List SessionGroup :=
  moveSessionToGroup groups sessionId defaultSessionGroupId

theorem groupSessionIds_moveSessionToGroup (groups : List SessionGroup)
    (sessionId groupId : Text) :
    groupSessionIds (moveSessionToGroup groups sessionId groupId)
      = (removeSessionFromAllGroups groups sessionId).flatMap
          (addAt SessionGroup.id groupId SessionGroup.sessionIds [sessionId]) := by
  rw [moveSessionToGroup, groupSessionIds_cleanupSessionGroups, groupSessionIds,
    List.flatMap_map]
  congr 1
  funext group
  unfold addAt
  by_cases h : group.id = groupId <;> simp [h]

theorem mem_appendSessionToDefaultGroup (groups : List SessionGroup) (sessionId : Text) :
    sessionId ∈ groupSessionIds (appendSessionToDefaultGroup groups sessionId) := by
  rw [appendSessionToDefaultGroup, groupSessionIds_moveSessionToGroup, mem_flatMap_addAt]
  refine .inr ⟨?_, List.mem_singleton.mpr rfl⟩
  change _ ∈ groupIds _
  rw [groupIds_removeSessionFromAllGroups]
  exact default_mem_ensureDefaultSessionGroup groups

theorem perm_moveSessionToGroup {groups : List SessionGroup} (h : GroupsOk groups)
    {groupId : Text} (hid : groupId ∈ groupIds groups) (sessionId : Text) :
    (groupSessionIds (moveSessionToGroup groups sessionId groupId)).Perm
      ((groupSessionIds groups).filter (fun item => item != sessionId) ++ [sessionId]) := by
  have hids : (removeSessionFromAllGroups groups sessionId).map SessionGroup.id
      = groupIds groups := by
    rw [← groupIds, groupIds_removeSessionFromAllGroups,
      ensureDefaultSessionGroup_of_mem h.default_mem]
  rw [groupSessionIds_moveSessionToGroup, ← groupSessionIds_removeSessionFromAllGroups]
  exact flatMap_addAt_perm (hids ▸ h.ids_nodup) (hids ▸ hid)

theorem GroupsOk.moveSessionToGroup {groups : List SessionGroup} (h : GroupsOk groups)
    (sessionId groupId : Text) : GroupsOk (moveSessionToGroup groups sessionId groupId) := by
  have hids : groupIds ((removeSessionFromAllGroups groups sessionId).map fun group =>
      if group.id = groupId then { group with sessionIds := group.sessionIds ++ [sessionId] }
      else group) = groupIds groups := by
    conv_rhs => rw [← ensureDefaultSessionGroup_of_mem h.default_mem,
      ← groupIds_removeSessionFromAllGroups groups sessionId]
    rw [groupIds, groupIds, List.map_map]
    refine List.map_congr_left fun group _ => ?_
    by_cases hg : group.id = groupId <;> simp [hg]
  refine .of_cleanup ?_ ?_ <;> rw [hids]
  · exact h.ids_nodup
  · exact h.default_mem

/-! ## `replaceSessionIdInGroups` -/

def replaceSessionIdInGroups (groups : List SessionGroup) (oldSessionId nextSessionId : Text) :
    List SessionGroup :=
  cleanupSessionGroups ((ensureDefaultSessionGroup groups).map fun group =>
    { group with sessionIds := group.sessionIds.map (renamed oldSessionId nextSessionId) })

theorem groupSessionIds_replaceSessionIdInGroups (groups : List SessionGroup)
    (oldSessionId nextSessionId : Text) :
    groupSessionIds (replaceSessionIdInGroups groups oldSessionId nextSessionId)
      = (groupSessionIds groups).map (renamed oldSessionId nextSessionId) := by
  rw [← groupSessionIds_ensureDefaultSessionGroup groups, replaceSessionIdInGroups,
    groupSessionIds_cleanupSessionGroups]
  simp [groupSessionIds, List.flatMap_map, List.map_flatMap]

theorem GroupsOk.replaceSessionIdInGroups {groups : List SessionGroup} (h : GroupsOk groups)
    (oldSessionId nextSessionId : Text) :
    GroupsOk (replaceSessionIdInGroups groups oldSessionId nextSessionId) := by
  have hids : groupIds ((ensureDefaultSessionGroup groups).map fun group =>
      { group with sessionIds := group.sessionIds.map (renamed oldSessionId nextSessionId) })
        = groupIds groups := by
    rw [ensureDefaultSessionGroup_of_mem h.default_mem, groupIds, groupIds, List.map_map]
    rfl
  refine .of_cleanup ?_ ?_ <;> rw [hids]
  · exact h.ids_nodup
  · exact h.default_mem

/-! ## A new group -/

/-- The group list of `create-session-group`, when the action goes through. -/
def addSessionGroup (groups : List SessionGroup) (groupId name sessionId : Text) :
    List SessionGroup :=
  cleanupSessionGroups (removeSessionFromAllGroups groups sessionId ++
    [{ id := groupId, name, sessionIds := [sessionId],
       color := resolveSessionGroupColor groupId }])

theorem groupSessionIds_addSessionGroup (groups : List SessionGroup)
    (groupId name sessionId : Text) :
    groupSessionIds (addSessionGroup groups groupId name sessionId)
      = (groupSessionIds groups).filter (fun item => item != sessionId) ++ [sessionId] := by
  rw [addSessionGroup, groupSessionIds_cleanupSessionGroups,
    ← groupSessionIds_removeSessionFromAllGroups]
  simp [groupSessionIds]

theorem GroupsOk.addSessionGroup {groups : List SessionGroup} (h : GroupsOk groups)
    {groupId : Text} (hfresh : groupId ∉ groupIds groups) (name sessionId : Text) :
    GroupsOk (addSessionGroup groups groupId name sessionId) := by
  have hids : groupIds (removeSessionFromAllGroups groups sessionId ++
      [{ id := groupId, name, sessionIds := [sessionId],
         color := resolveSessionGroupColor groupId }]) = groupIds groups ++ [groupId] := by
    rw [groupIds, List.map_append, ← groupIds, groupIds_removeSessionFromAllGroups,
      ensureDefaultSessionGroup_of_mem h.default_mem]
    rfl
  refine .of_cleanup ?_ ?_ <;> rw [hids]
  · exact List.nodup_append'.mpr ⟨h.ids_nodup, List.nodup_singleton _,
      List.disjoint_singleton.mpr hfresh⟩
  · exact List.mem_append_left _ h.default_mem

end FluxTerm.Workspace
