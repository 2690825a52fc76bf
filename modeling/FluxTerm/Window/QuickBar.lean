import FluxTerm.Lib.Firsts
import FluxTerm.Lib.Json
import FluxTerm.Window.FailedLoad
import Mathlib.Data.List.Sort

/-!
# FluxTerm — the groups and commands of the quick bar

The operations of `useQuickBarState`. Their checks read the groups of the last render, and what they
set is computed from newer groups and commands; a load replaces both.

* **`intact_of_inOrder`** — in runs that keep to it nothing gets mixed up.
-/

namespace FluxTerm.Window.QuickBar

open Lib Start

/-- `LEGACY_DEFAULT_QUICKBAR_GROUP_ID`. -/
def legacyDefaultGroupId : Text := "default".toList

/-- `QuickCommandItem`, whose `type` is always `"sendText"`. -/
structure QuickCommandItem where
  id : Text
  label : Text
  command : Text
  groupId : Text
  others : List (Text × Json)

def trim (s : Text) : Text := trimBy isJsWhitespace s

/-! ## Documents -/

def createDefaultQuickBarConfig (defaultName : Text) : QuickBarConfig QuickCommandItem where
  showGroupTitle := true
  groups := [⟨defaultGroupId, defaultName, 0, true⟩]
  commands := []

structure RawGroup where
  id : Text
  name : Text
  order : JsNumber
  visible : Bool

def isValidGroup (value : Json) : Option RawGroup :=
  match value.get "id".toList, value.get "name".toList, value.get "order".toList,
      value.get "visible".toList with
  | some (.str id), some (.str name), some (.num order), some (.bool visible) =>
    some ⟨id, name, order, visible⟩
  | _, _, _, _ => none

def commandKeys : List Text :=
  ["id".toList, "label".toList, "command".toList, "groupId".toList, "type".toList]

/-- `item.type === undefined || item.type === "sendText"`. -/
def isSendText : Option Json → Bool
  | none => true
  | some (.str type) => type = "sendText".toList
  | some _ => false

def isValidCommand (value : Json) : Option QuickCommandItem :=
  match value.get "id".toList, value.get "label".toList, value.get "command".toList,
      value.get "groupId".toList with
  | some (.str id), some (.str label), some (.str command), some (.str groupId) =>
    if isSendText (value.get "type".toList) then
      some ⟨id, label, command, groupId, value.entries.filter (·.1 ∉ commandKeys)⟩
    else none
  | _, _, _, _ => none

/-- A group that the loop of `normalizeConfig` pushes. -/
structure Candidate where
  id : Text
  name : Text
  order : ℚ
  visible : Bool

def migrateId (id : Text) : Text := if id = legacyDefaultGroupId then defaultGroupId else id

/-- What the loop makes of a group, at its index. -/
def candidate (defaultName : Text) (index : ℕ) (group : RawGroup) : Candidate where
  id := migrateId (trim group.id)
  name :=
    if migrateId (trim group.id) = defaultGroupId then defaultName
    else if trim group.name = [] then "Group ".toList ++ (toString (index + 1)).toList
    else trim group.name
  order :=
    match group.order with
    | .finite order => order
    | _ => index
  visible := group.visible

def arrayOf : Option Json → List Json
  | some (.arr elements) => elements
  | _ => []

def candidates (defaultName : Text) (value : Json) : List Candidate :=
  ((arrayOf (value.get "groups".toList)).filterMap isValidGroup).mapIdx (candidate defaultName)

/-- `if (!id || seenGroup.has(id)) return;`. -/
def dedupedGroups (candidates : List Candidate) : List Candidate :=
  keepFirsts Candidate.id (!·.id.isEmpty) candidates

def withDefaultGroup (defaultName : Text) (groups : List Candidate) : List Candidate :=
  if groups.any (·.id = defaultGroupId) then groups
  else ⟨defaultGroupId, defaultName, -1, true⟩ :: groups

def Candidate.toGroup (index : ℕ) (group : Candidate) : QuickCommandGroup :=
  ⟨group.id, group.name, index, group.visible⟩

/-- `sort` keeps the order of what it does not tell apart, and then the places are the order. -/
def sortedGroups (groups : List Candidate) : List QuickCommandGroup :=
  (groups.insertionSort (·.order ≤ ·.order)).mapIdx Candidate.toGroup

def adoptCommand (allowedGroupIds : List Text) (item : QuickCommandItem) : QuickCommandItem :=
  { item with
    groupId :=
      if migrateId item.groupId ∈ allowedGroupIds then migrateId item.groupId else defaultGroupId }

/-- `typeof parsed.showGroupTitle === "boolean" ? parsed.showGroupTitle : true`. -/
def titleShown : Option Json → Bool
  | some (.bool shown) => shown
  | _ => true

def normalizedGroups (defaultName : Text) (value : Json) : List QuickCommandGroup :=
  sortedGroups (withDefaultGroup defaultName (dedupedGroups (candidates defaultName value)))

/-- `normalizeConfig`, with `t("quickbar.group.default")`. -/
def normalizeConfig (defaultName : Text) (value : Json) : QuickBarConfig QuickCommandItem :=
  if !value.isObject then createDefaultQuickBarConfig defaultName
  else
    let groups := normalizedGroups defaultName value
    { showGroupTitle := titleShown (value.get "showGroupTitle".toList)
      groups := groups
      commands := keepFirsts QuickCommandItem.id (fun _ => true)
        (((arrayOf (value.get "commands".toList)).filterMap isValidCommand).map
          (adoptCommand (groups.map (·.id)))) }

def groupJson (group : QuickCommandGroup) : Json :=
  .obj [("id".toList, .str group.id), ("name".toList, .str group.name),
    ("order".toList, .num (.finite group.order)), ("visible".toList, .bool group.visible)]

def commandJson (item : QuickCommandItem) : Json :=
  .obj ([("id".toList, .str item.id), ("label".toList, .str item.label),
    ("command".toList, .str item.command), ("groupId".toList, .str item.groupId),
    ("type".toList, .str "sendText".toList)] ++ item.others)

def toJson (config : QuickBarConfig QuickCommandItem) : Json :=
  .obj [("version".toList, .num (.finite 1)),
    ("showGroupTitle".toList, .bool config.showGroupTitle),
    ("groups".toList, .arr (config.groups.map groupJson)),
    ("commands".toList, .arr (config.commands.map commandJson))]

/-! ### What is normal -/

/-- What `normalizeConfig` leaves alone. -/
structure Normal (defaultName : Text) (config : QuickBarConfig QuickCommandItem) : Prop where
  groupIds : (config.groups.map (·.id)).Nodup
  default_mem : defaultGroupId ∈ config.groups.map (·.id)
  id : ∀ group ∈ config.groups, trim group.id = group.id ∧ group.id ≠ [] ∧
    group.id ≠ legacyDefaultGroupId
  name : ∀ group ∈ config.groups,
    if group.id = defaultGroupId then group.name = defaultName
    else trim group.name = group.name ∧ group.name ≠ []
  order : ∀ (index : ℕ) (group : QuickCommandGroup), config.groups[index]? = some group →
    group.order = index
  commandIds : (config.commands.map (·.id)).Nodup
  commandGroups : ∀ item ∈ config.commands, item.groupId ∈ config.groups.map (·.id)
  others : ∀ item ∈ config.commands, ∀ entry ∈ item.others, entry.1 ∉ commandKeys

theorem migrateId_ne (id : Text) : migrateId id ≠ legacyDefaultGroupId := by
  unfold migrateId
  split
  · decide
  · assumption

theorem defaultGroupId_normal : trim defaultGroupId = defaultGroupId ∧ defaultGroupId ≠ [] ∧
    defaultGroupId ≠ legacyDefaultGroupId := by decide

theorem migrateId_of_ne {id : Text} (h : id ≠ legacyDefaultGroupId) : migrateId id = id := if_neg h

theorem trim_migrateId {id : Text} (h : trim id = id) : trim (migrateId id) = migrateId id := by
  unfold migrateId
  split
  · decide
  · exact h

theorem trim_groupNumber (n : ℕ) :
    trim ("Group ".toList ++ (toString n).toList) = "Group ".toList ++ (toString n).toList := by
  have hne : (toString n).toList ≠ [] := by
    show (Nat.repr n).toList ≠ []
    rw [Nat.toList_repr]
    exact Nat.toDigits_ne_nil
  have hlast : ("Group ".toList ++ (toString n).toList).getLast? =
      some ((toString n).toList.getLast hne) := by
    rw [List.getLast?_append_of_ne_nil _ hne, List.getLast?_eq_some_getLast hne]
  refine trimBy_eq_self_of_ends rfl (by decide) hlast ?_
  have hdigit := isDigit_of_mem_toString (List.getLast_mem hne)
  rw [Char.isDigit_iff_toNat, show '0'.toNat = 48 from rfl, show '9'.toNat = 57 from rfl] at hdigit
  unfold isJsWhitespace isWhitespace
  simp only [Bool.or_eq_false_iff, Bool.and_eq_false_iff, beq_eq_false_iff_ne, bne_eq_false_iff_eq,
    decide_eq_false_iff_not]
  omega

/-- What the loop pushes is normal, apart from its place. -/
structure Candidate.Normal (defaultName : Text) (group : Candidate) : Prop where
  id : trim group.id = group.id ∧ group.id ≠ legacyDefaultGroupId
  name : if group.id = defaultGroupId then group.name = defaultName
    else trim group.name = group.name ∧ group.name ≠ []

theorem normal_candidate (defaultName : Text) (index : ℕ) (group : RawGroup) :
    (candidate defaultName index group).Normal defaultName := by
  refine ⟨⟨trim_migrateId trimBy_idem, migrateId_ne _⟩, ?_⟩
  show if migrateId (trim group.id) = defaultGroupId then
    (candidate defaultName index group).name = _ else _
  unfold candidate
  dsimp only
  split
  · rfl
  · split
    · exact ⟨trim_groupNumber _, List.cons_ne_nil _ _⟩
    · rename_i hname
      exact ⟨trimBy_idem, hname⟩

theorem normal_of_mem_candidates {defaultName : Text} {value : Json} {group : Candidate}
    (h : group ∈ candidates defaultName value) : group.Normal defaultName := by
  obtain ⟨index, hlt, rfl⟩ := List.mem_mapIdx.mp h
  exact normal_candidate _ _ _

theorem sortedGroups_getElem? (groups : List Candidate) (index : ℕ) :
    (sortedGroups groups)[index]? =
      ((groups.insertionSort (·.order ≤ ·.order))[index]?).map (Candidate.toGroup index) :=
  List.getElem?_mapIdx

theorem sortedGroups_ids (groups : List Candidate) :
    ((sortedGroups groups).map (·.id)).Perm (groups.map (·.id)) := by
  have heq : (sortedGroups groups).map (·.id) =
      (groups.insertionSort (·.order ≤ ·.order)).map (·.id) := by
    refine List.ext_getElem? fun index => ?_
    rw [List.getElem?_map, List.getElem?_map, sortedGroups_getElem?, Option.map_map]
    rfl
  rw [heq]
  exact (List.perm_insertionSort _ _).map _

theorem mem_sortedGroups {groups : List Candidate} {group : QuickCommandGroup}
    (h : group ∈ sortedGroups groups) :
    ∃ candidate ∈ groups, candidate.id = group.id ∧ candidate.name = group.name := by
  obtain ⟨index, hlt, rfl⟩ := List.mem_mapIdx.mp h
  exact ⟨_, (List.perm_insertionSort _ _).mem_iff.mp (List.getElem_mem _), rfl, rfl⟩

theorem default_mem_withDefaultGroup (defaultName : Text) (groups : List Candidate) :
    defaultGroupId ∈ (withDefaultGroup defaultName groups).map (·.id) := by
  unfold withDefaultGroup
  split
  · rename_i hany
    obtain ⟨group, hgroup, hid⟩ := List.any_eq_true.mp hany
    exact List.mem_map.mpr ⟨group, hgroup, of_decide_eq_true hid⟩
  · exact List.mem_cons_self

theorem withDefaultGroup_ids_nodup (defaultName : Text) {groups : List Candidate}
    (h : (groups.map (·.id)).Nodup) :
    ((withDefaultGroup defaultName groups).map (·.id)).Nodup := by
  unfold withDefaultGroup
  split
  · exact h
  · rename_i hany
    refine List.nodup_cons.mpr ⟨fun hmem => hany ?_, h⟩
    obtain ⟨group, hgroup, hid⟩ := List.mem_map.mp hmem
    exact List.any_eq_true.mpr ⟨group, hgroup, decide_eq_true hid⟩

theorem mem_withDefaultGroup {defaultName : Text} {groups : List Candidate} {group : Candidate}
    (h : group ∈ withDefaultGroup defaultName groups) :
    group ∈ groups ∨ group = ⟨defaultGroupId, defaultName, -1, true⟩ ∧
      ∀ other ∈ groups, other.id ≠ defaultGroupId := by
  unfold withDefaultGroup at h
  split at h
  · exact .inl h
  · rename_i hany
    rcases List.mem_cons.mp h with rfl | hold
    · refine .inr ⟨rfl, fun other hother hid => hany ?_⟩
      exact List.any_eq_true.mpr ⟨other, hother, decide_eq_true hid⟩
    · exact .inl hold

theorem normal_default (defaultName : Text) :
    Normal defaultName (createDefaultQuickBarConfig defaultName) := by
  have hid : ∀ group ∈ (createDefaultQuickBarConfig defaultName).groups,
      group = ⟨defaultGroupId, defaultName, 0, true⟩ := fun group hgroup =>
    List.mem_singleton.mp hgroup
  refine ⟨List.nodup_singleton _, List.mem_cons_self, ?_, ?_, ?_, List.nodup_nil, ?_, ?_⟩
  · intro group hgroup
    rw [hid group hgroup]
    exact defaultGroupId_normal
  · intro group hgroup
    rw [hid group hgroup, if_pos rfl]
  · intro index group hgroup
    cases index with
    | zero =>
      cases hgroup
      rfl
    | succ index => cases hgroup
  · exact fun item hitem => absurd hitem List.not_mem_nil
  · exact fun item hitem => absurd hitem List.not_mem_nil

theorem others_of_isValidCommand {value : Json} {item : QuickCommandItem}
    (h : isValidCommand value = some item) : ∀ entry ∈ item.others, entry.1 ∉ commandKeys := by
  unfold isValidCommand at h
  split at h
  · split at h
    · cases h
      intro entry hentry
      exact of_decide_eq_true (List.mem_filter.mp hentry).2
    · cases h
  · cases h

/-- **A load gives a normal configuration.** -/
theorem normal_normalizeConfig (defaultName : Text) (value : Json) :
    Normal defaultName (normalizeConfig defaultName value) := by
  unfold normalizeConfig
  split
  · exact normal_default defaultName
  dsimp only
  set kept := withDefaultGroup defaultName (dedupedGroups (candidates defaultName value)) with hkept
  have hperm : ((normalizedGroups defaultName value).map (·.id)).Perm (kept.map (·.id)) :=
    sortedGroups_ids kept
  have hnormal : ∀ group ∈ kept, group.Normal defaultName ∧ group.id ≠ [] := by
    intro group hgroup
    rcases mem_withDefaultGroup hgroup with hold | ⟨rfl, -⟩
    · have hmay := (isFirst_of_mem_keepFirsts hold).1
      exact ⟨normal_of_mem_candidates (mem_of_mem_keepFirsts hold), by simpa using hmay⟩
    · obtain ⟨htrim, hne, hlegacy⟩ := defaultGroupId_normal
      refine ⟨⟨⟨htrim, hlegacy⟩, ?_⟩, hne⟩
      rw [if_pos rfl]
  have hdefault : defaultGroupId ∈ (normalizedGroups defaultName value).map (·.id) :=
    hperm.mem_iff.mpr (default_mem_withDefaultGroup _ _)
  refine ⟨hperm.nodup_iff.mpr (withDefaultGroup_ids_nodup _ (keepFirsts_keys_nodup _)), hdefault,
    ?_, ?_, ?_, keepFirsts_keys_nodup _, ?_, ?_⟩
  · intro group hgroup
    obtain ⟨candidate, hcandidate, hid, -⟩ := mem_sortedGroups hgroup
    obtain ⟨hok, hne⟩ := hnormal candidate hcandidate
    rw [← hid]
    exact ⟨hok.id.1, hne, hok.id.2⟩
  · intro group hgroup
    obtain ⟨candidate, hcandidate, hid, hname⟩ := mem_sortedGroups hgroup
    rw [← hid, ← hname]
    exact (hnormal candidate hcandidate).1.name
  · intro index group hgroup
    have hgroup : (sortedGroups kept)[index]? = some group := hgroup
    rw [sortedGroups_getElem?] at hgroup
    obtain ⟨candidate, -, rfl⟩ := Option.map_eq_some_iff.mp hgroup
    rfl
  · intro item hitem
    obtain ⟨raw, -, rfl⟩ := List.mem_map.mp (mem_of_mem_keepFirsts hitem)
    unfold adoptCommand
    dsimp only
    split
    · assumption
    · exact hdefault
  · intro item hitem
    obtain ⟨raw, hraw, rfl⟩ := List.mem_map.mp (mem_of_mem_keepFirsts hitem)
    obtain ⟨json, -, hvalid⟩ := List.mem_filterMap.mp hraw
    show ∀ entry ∈ raw.others, _
    exact others_of_isValidCommand hvalid

/-! ### What is left alone -/

def groupCandidate (group : QuickCommandGroup) : Candidate :=
  ⟨group.id, group.name, group.order, group.visible⟩

theorem isValidCommand_commandJson {item : QuickCommandItem}
    (h : ∀ entry ∈ item.others, entry.1 ∉ commandKeys) :
    isValidCommand (commandJson item) = some item := by
  have hothers : (commandJson item).entries.filter (·.1 ∉ commandKeys) = item.others := by
    show (_ ++ item.others).filter _ = _
    rw [List.filter_append,
      List.filter_eq_self.mpr fun entry hentry => decide_eq_true (h entry hentry)]
    rfl
  show (if isSendText (some (.str "sendText".toList)) then
    some (⟨item.id, item.label, item.command, item.groupId,
      (commandJson item).entries.filter (·.1 ∉ commandKeys)⟩ : QuickCommandItem) else none) = _
  rw [hothers]
  rfl

variable {defaultName : Text} {config : QuickBarConfig QuickCommandItem}

theorem candidate_groupJson (h : Normal defaultName config) {index : ℕ}
    {group : QuickCommandGroup} (hgroup : config.groups[index]? = some group) :
    candidate defaultName index ⟨group.id, group.name, .finite group.order, group.visible⟩ =
      groupCandidate group := by
  have hmem : group ∈ config.groups := List.mem_of_getElem? hgroup
  obtain ⟨htrim, -, hlegacy⟩ := h.id group hmem
  have hname := h.name group hmem
  unfold candidate groupCandidate
  dsimp only
  rw [htrim, migrateId_of_ne hlegacy]
  split at hname
  · rename_i hdefault
    rw [if_pos hdefault, hname]
  · rename_i hother
    rw [if_neg hother, hname.1, if_neg hname.2]

theorem candidates_toJson (h : Normal defaultName config) :
    candidates defaultName (toJson config) = config.groups.map groupCandidate := by
  have hraw : (arrayOf ((toJson config).get "groups".toList)).filterMap isValidGroup =
      config.groups.map fun group =>
        ⟨group.id, group.name, .finite group.order, group.visible⟩ := by
    show (config.groups.map groupJson).filterMap isValidGroup = _
    rw [List.filterMap_map, ← List.filterMap_eq_map]
    rfl
  unfold candidates
  rw [hraw]
  refine List.ext_getElem? fun index => ?_
  rw [List.getElem?_mapIdx, List.getElem?_map, List.getElem?_map]
  cases hgroup : config.groups[index]? with
  | none => rfl
  | some group => exact congrArg some (candidate_groupJson h hgroup)

theorem normalizedGroups_toJson (h : Normal defaultName config) :
    normalizedGroups defaultName (toJson config) = config.groups := by
  have hids : (config.groups.map groupCandidate).map (·.id) = config.groups.map (·.id) := by
    rw [List.map_map]
    rfl
  have hdeduped : dedupedGroups (config.groups.map groupCandidate) =
      config.groups.map groupCandidate := by
    refine keepFirsts_eq_self (hids ▸ h.groupIds) fun candidate hcandidate => ?_
    obtain ⟨group, hgroup, rfl⟩ := List.mem_map.mp hcandidate
    simpa [groupCandidate] using (h.id group hgroup).2.1
  have hdefault : withDefaultGroup defaultName (config.groups.map groupCandidate) =
      config.groups.map groupCandidate := by
    obtain ⟨group, hgroup, hid⟩ := List.mem_map.mp h.default_mem
    exact if_pos (List.any_eq_true.mpr ⟨groupCandidate group, List.mem_map_of_mem hgroup,
      decide_eq_true (p := (groupCandidate group).id = defaultGroupId) hid⟩)
  have hsorted : (config.groups.map groupCandidate).insertionSort (·.order ≤ ·.order) =
      config.groups.map groupCandidate := by
    refine List.Pairwise.insertionSort_eq (List.pairwise_iff_getElem.mpr ?_)
    intro i j hi hj hij
    rw [List.length_map] at hi hj
    rw [List.getElem_map, List.getElem_map]
    show ((config.groups[i].order : ℕ) : ℚ) ≤ (config.groups[j].order : ℕ)
    rw [h.order i _ (List.getElem?_eq_getElem hi), h.order j _ (List.getElem?_eq_getElem hj)]
    exact_mod_cast hij.le
  unfold normalizedGroups
  rw [candidates_toJson h, hdeduped, hdefault]
  refine List.ext_getElem? fun index => ?_
  rw [sortedGroups_getElem?, hsorted, List.getElem?_map]
  cases hgroup : config.groups[index]? with
  | none => rfl
  | some group =>
    have horder := h.order index group hgroup
    subst horder
    rfl

/-- **A normal configuration is left alone.** -/
theorem Normal.normalizeConfig (h : Normal defaultName config) :
    normalizeConfig defaultName (toJson config) = config := by
  have hcommands : ((arrayOf ((toJson config).get "commands".toList)).filterMap isValidCommand).map
      (adoptCommand (config.groups.map (·.id))) = config.commands := by
    show ((config.commands.map commandJson).filterMap isValidCommand).map _ = _
    have hvalid : (config.commands.map commandJson).filterMap isValidCommand = config.commands := by
      rw [List.filterMap_map]
      conv_rhs => rw [← List.filterMap_some (l := config.commands)]
      refine List.filterMap_congr fun item hitem => ?_
      exact isValidCommand_commandJson (h.others item hitem)
    rw [hvalid]
    conv_rhs => rw [← List.map_id config.commands]
    refine List.map_congr_left fun item hitem => ?_
    have hgroup := h.commandGroups item hitem
    obtain ⟨group, hmem, hid⟩ := List.mem_map.mp hgroup
    have hlegacy : item.groupId ≠ legacyDefaultGroupId := hid ▸ (h.id group hmem).2.2
    unfold adoptCommand
    rw [migrateId_of_ne hlegacy, if_pos hgroup]
    rfl
  show ({ showGroupTitle := config.showGroupTitle
          groups := normalizedGroups defaultName (toJson config)
          commands := keepFirsts QuickCommandItem.id (fun _ => true)
            (((arrayOf ((toJson config).get "commands".toList)).filterMap isValidCommand).map
              (adoptCommand ((normalizedGroups defaultName (toJson config)).map (·.id)))) } :
      QuickBarConfig QuickCommandItem) = config
  rw [normalizedGroups_toJson h, hcommands,
    keepFirsts_eq_self h.commandIds fun item _ => rfl]

/-- **What `normalizeConfig` gives, it leaves alone.** -/
theorem normalizeConfig_toJson (defaultName : Text) (value : Json) :
    normalizeConfig defaultName (toJson (normalizeConfig defaultName value)) =
      normalizeConfig defaultName value :=
  (normal_normalizeConfig defaultName value).normalizeConfig

/-! ## Operations -/

inductive GroupMutationResult where
  | ok (id : Option Text)
  | error (errorKey : Text)

structure CommandPayload where
  label : Option Text
  command : Option Text
  groupId : Option Text

section Operations

variable (lower : Text → Text)

def normalizeGroupName (name : Text) : Text := lower (trim name)

def isDuplicateGroupName (groups : List QuickCommandGroup) (name : Text)
    (excludeGroupId : Option Text) : Bool :=
  groups.any fun group =>
    if truthy excludeGroupId = some group.id then false
    else normalizeGroupName lower group.name = normalizeGroupName lower name

/-- `addGroup`: its answer, and what `setGroups` is called with if it is. `groups` are those of the
render, and `id` comes from `createId`. -/
def addGroup (groups : List QuickCommandGroup) (name id : Text) :
    GroupMutationResult × Option (List QuickCommandGroup → List QuickCommandGroup) :=
  let trimmed := trim name
  if trimmed = [] then (.error "quickbar.manager.groupNameRequired".toList, none)
  else if isDuplicateGroupName lower groups trimmed none then
    (.error "quickbar.manager.groupNameDuplicate".toList, none)
  else (.ok (some id), some fun prev => prev ++ [⟨id, trimmed, prev.length, false⟩])

def renameGroup (groups : List QuickCommandGroup) (groupId name : Text) :
    GroupMutationResult × Option (List QuickCommandGroup → List QuickCommandGroup) :=
  let trimmed := trim name
  if trimmed = [] then (.error "quickbar.manager.groupNameRequired".toList, none)
  else if isDuplicateGroupName lower groups trimmed (some groupId) then
    (.error "quickbar.manager.groupNameDuplicate".toList, none)
  else (.ok none, some fun prev => prev.map fun group =>
    if group.id = groupId then { group with name := trimmed } else group)

/-- What `removeGroup` makes of the groups. -/
def withoutGroup (groupId : Text) (prev : List QuickCommandGroup) : List QuickCommandGroup :=
  (prev.filter (·.id ≠ groupId)).mapIdx fun index group => { group with order := index }

/-- What `removeGroup` makes of the commands. -/
def adoptFrom (groupId : Text) (prev : List QuickCommandItem) : List QuickCommandItem :=
  prev.map fun item =>
    if item.groupId = groupId then { item with groupId := defaultGroupId } else item

/-- What `toggleGroupVisible` makes of the groups. -/
def toggleVisible (groupId : Text) (prev : List QuickCommandGroup) : List QuickCommandGroup :=
  prev.map fun group =>
    if group.id = groupId then { group with visible := !group.visible } else group

def chosenGroup (groups : List QuickCommandGroup) (groupId : Option Text) : Text :=
  match truthy groupId with
  | some groupId => if groupId ∈ groups.map (·.id) then groupId else defaultGroupId
  | none => defaultGroupId

/-- `addCommand`: its answer is the id. -/
def addCommand (groups : List QuickCommandGroup) (label command : Text) (groupId : Option Text)
    (id : Text) : Option (Text × (List QuickCommandItem → List QuickCommandItem)) :=
  if trim label = [] then none
  else some (id, fun prev => prev ++ [⟨id, trim label, command, chosenGroup groups groupId, []⟩])

def nextGroup (groups : List QuickCommandGroup) (groupId : Option Text) (old : Text) : Text :=
  match truthy groupId with
  | some groupId => if groupId ∈ groups.map (·.id) then groupId else old
  | none => old

/-- What `updateCommand` makes of the commands. -/
def updateCommand (groups : List QuickCommandGroup) (commandId : Text) (payload : CommandPayload)
    (prev : List QuickCommandItem) : List QuickCommandItem :=
  prev.map fun item =>
    if item.id ≠ commandId then item
    else { item with
      label := payload.label.getD item.label
      command := payload.command.getD item.command
      groupId := nextGroup groups payload.groupId item.groupId }

def placeOrdered (groupId : Text) (ordered : List QuickCommandItem) :
    ℕ → List QuickCommandItem → List QuickCommandItem
  | _, [] => []
  | nextGroupIndex, item :: prev =>
    if item.groupId ≠ groupId then item :: placeOrdered groupId ordered nextGroupIndex prev
    else (ordered[nextGroupIndex]?).getD item ::
      placeOrdered groupId ordered (nextGroupIndex + 1) prev

/-- `commandById`: the last one with the id. -/
def commandById (commands : List QuickCommandItem) (commandId : Text) : Option QuickCommandItem :=
  commands.reverse.find? (·.id = commandId)

/-- What `reorderCommands` makes of the commands. -/
def reorderCommands (groupId : Text) (commandIds : List Text) (prev : List QuickCommandItem) :
    List QuickCommandItem :=
  let groupCommands := prev.filter (·.groupId = groupId)
  if groupCommands.length ≠ commandIds.length then prev
  else if (commandIds.any (· ∉ groupCommands.map (·.id))) ∨ ¬ commandIds.Nodup then prev
  else
    let orderedGroupCommands := commandIds.filterMap (commandById groupCommands)
    if orderedGroupCommands.length ≠ groupCommands.length then prev
    else placeOrdered groupId orderedGroupCommands 0 prev

end Operations

/-! ## The state -/

structure Bar where
  showGroupTitle : Bool
  groups : List QuickCommandGroup
  commands : List QuickCommandItem
  rendered : List QuickCommandGroup

inductive BarEvent where
  /-- The id is that of `createId`. -/
  | addGroup (name id : Text)
  | renameGroup (groupId name : Text)
  | removeGroup (groupId : Text)
  | toggleGroupVisible (groupId : Text)
  | addCommand (label command : Text) (groupId : Option Text) (id : Text)
  | updateCommand (commandId : Text) (payload : CommandPayload)
  | reorderCommands (groupId : Text) (commandIds : List Text)
  | removeCommand (commandId : Text)
  | setShowGroupTitle (shown : Bool)
  /-- `loadConfig` has read and parsed the document. -/
  | load (defaultName : Text) (value : Json)
  | followLocale (defaultName : Text)
  | render

namespace Bar

def groupIds (bar : Bar) : List Text := bar.groups.map (·.id)

def commandIds (bar : Bar) : List Text := bar.commands.map (·.id)

def start (defaultName : Text) : Bar :=
  let config := createDefaultQuickBarConfig defaultName
  ⟨config.showGroupTitle, config.groups, config.commands, config.groups⟩

/-- `createId` never gives an id that is there. -/
def next (lower : Text → Text) (bar : Bar) : BarEvent → Option Bar
  | .addGroup name id =>
    match (addGroup lower bar.rendered name id).2 with
    | none => some bar
    | some update =>
      if id ∈ bar.groupIds then none else some { bar with groups := update bar.groups }
  | .renameGroup groupId name =>
    match (renameGroup lower bar.rendered groupId name).2 with
    | none => some bar
    | some update => some { bar with groups := update bar.groups }
  | .removeGroup groupId =>
    if groupId = defaultGroupId then some bar
    else some { bar with
      groups := withoutGroup groupId bar.groups
      commands := adoptFrom groupId bar.commands }
  | .toggleGroupVisible groupId => some { bar with groups := toggleVisible groupId bar.groups }
  | .addCommand label command groupId id =>
    match addCommand bar.rendered label command groupId id with
    | none => some bar
    | some (id, update) =>
      if id ∈ bar.commandIds then none else some { bar with commands := update bar.commands }
  | .updateCommand commandId payload =>
    some { bar with
      commands := updateCommand bar.rendered commandId payload bar.commands }
  | .reorderCommands groupId commandIds =>
    some { bar with commands := reorderCommands groupId commandIds bar.commands }
  | .removeCommand commandId =>
    some { bar with commands := bar.commands.filter (·.id ≠ commandId) }
  | .setShowGroupTitle shown => some { bar with showGroupTitle := shown }
  | .load defaultName value =>
    let normalized := normalizeConfig defaultName value
    some { bar with
      showGroupTitle := normalized.showGroupTitle
      groups := normalized.groups
      commands := normalized.commands }
  | .followLocale defaultName =>
    some { bar with
      groups := bar.groups.map fun group =>
        if group.id = defaultGroupId then { group with name := defaultName } else group }
  | .render => some { bar with rendered := bar.groups }

end Bar

def quickBarMachine (lower : Text → Text) (defaultName : Text) : Machine Bar BarEvent :=
  Machine.ofStep (Bar.start defaultName) (Bar.next lower)

def BarEvent.removes : BarEvent → Bool
  | .removeCommand _ => true
  | .load _ _ => true
  | _ => false

/-! ## What is wanted -/

/-- What holds whatever is called in one render. -/
structure Sound (bar : Bar) : Prop where
  groupIds : bar.groupIds.Nodup
  default_once : bar.groupIds.count defaultGroupId = 1
  commandIds : bar.commandIds.Nodup

/-- Nothing is mixed up. -/
structure Intact (lower : Text → Text) (bar : Bar) : Prop where
  sound : Sound bar
  names : (bar.groups.map fun group => normalizeGroupName lower group.name).Nodup
  commandGroups : ∀ item ∈ bar.commands, item.groupId ∈ bar.groupIds

/-- The groups of a document that are kept have different names, also the default group if it has to
be added. -/
def NamesApart (lower : Text → Text) (defaultName : Text) (value : Json) : Prop :=
  let groups := candidates defaultName value
  let first := IsFirst Candidate.id (!·.id.isEmpty) groups
  (∀ group other, first group → first other → group.id ≠ other.id →
      normalizeGroupName lower group.name ≠ normalizeGroupName lower other.name) ∧
    ((∀ group ∈ groups, group.id ≠ defaultGroupId) → ∀ group, first group →
      normalizeGroupName lower group.name ≠ normalizeGroupName lower defaultName)

/-- The checks of an operation, made on the groups of the last render, are still right. -/
def BarInOrder (lower : Text → Text) (bar : Bar) : BarEvent → Prop
  | .addGroup name _ =>
    trim name ≠ [] → isDuplicateGroupName lower bar.rendered (trim name) none = false →
      isDuplicateGroupName lower bar.groups (trim name) none = false
  | .renameGroup groupId name =>
    trim name ≠ [] → groupId ∈ bar.groupIds →
      isDuplicateGroupName lower bar.rendered (trim name) (some groupId) = false →
        isDuplicateGroupName lower bar.groups (trim name) (some groupId) = false
  | .addCommand label _ groupId _ =>
    trim label ≠ [] → ∀ id, groupId = some id → id ∈ bar.rendered.map (·.id) → id ∈ bar.groupIds
  | .updateCommand commandId payload =>
    commandId ∈ bar.commandIds → ∀ id, payload.groupId = some id →
      id ∈ bar.rendered.map (·.id) → id ∈ bar.groupIds
  | .load defaultName value => NamesApart lower defaultName value
  | .followLocale defaultName =>
    ∀ group ∈ bar.groups, group.id ≠ defaultGroupId →
      normalizeGroupName lower group.name ≠ normalizeGroupName lower defaultName
  | _ => True

/-! ## What the updates keep -/

theorem ids_withoutGroup (groupId : Text) (prev : List QuickCommandGroup) :
    (withoutGroup groupId prev).map (·.id) = (prev.filter (·.id ≠ groupId)).map (·.id) := by
  refine List.ext_getElem? fun index => ?_
  rw [List.getElem?_map, List.getElem?_map, withoutGroup, List.getElem?_mapIdx, Option.map_map]
  rfl

theorem names_withoutGroup (f : Text → Text) (groupId : Text) (prev : List QuickCommandGroup) :
    (withoutGroup groupId prev).map (fun group => f group.name) =
      (prev.filter (·.id ≠ groupId)).map fun group => f group.name := by
  refine List.ext_getElem? fun index => ?_
  rw [List.getElem?_map, List.getElem?_map, withoutGroup, List.getElem?_mapIdx, Option.map_map]
  rfl

theorem names_set_nodup {groups : List QuickCommandGroup} {f : Text → Text} {groupId name : Text}
    (hids : (groups.map (·.id)).Nodup) (hnames : (groups.map fun group => f group.name).Nodup)
    (hname : ∀ group ∈ groups, group.id ≠ groupId → f group.name ≠ f name) :
    ((groups.map fun group => if group.id = groupId then { group with name := name } else group).map
      fun group => f group.name).Nodup := by
  rw [List.map_map]
  refine List.Nodup.map_on (fun group hgroup other hother heq => ?_) (hids.of_map _)
  have hsame : group.id = other.id → group = other := fun hid =>
    List.inj_on_of_nodup_map hids hgroup hother hid
  simp only [Function.comp_apply] at heq
  split at heq <;> rename_i hid <;> split at heq <;> rename_i hid'
  · exact hsame (hid.trans hid'.symm)
  · exact absurd heq.symm (hname other hother hid')
  · exact absurd heq (hname group hgroup hid)
  · exact List.inj_on_of_nodup_map hnames hgroup hother heq

theorem forall_of_not_duplicate {lower : Text → Text} {groups : List QuickCommandGroup}
    {name : Text} {excludeGroupId : Option Text}
    (h : isDuplicateGroupName lower groups name excludeGroupId = false) :
    ∀ group ∈ groups, truthy excludeGroupId ≠ some group.id →
      normalizeGroupName lower group.name ≠ normalizeGroupName lower name := by
  intro group hgroup hother heq
  have hany := List.any_eq_false.mp h group hgroup
  rw [if_neg hother, decide_eq_true heq] at hany
  exact hany rfl

/-! ### The order of commands -/

theorem mem_of_commandById {commands : List QuickCommandItem} {commandId : Text}
    {item : QuickCommandItem} (h : commandById commands commandId = some item) :
    item ∈ commands ∧ item.id = commandId :=
  ⟨List.mem_reverse.mp (List.mem_of_find?_eq_some h), of_decide_eq_true (List.find?_some h :)⟩

theorem ids_ordered {commands : List QuickCommandItem} {commandIds : List Text}
    (h : ∀ id ∈ commandIds, id ∈ commands.map (·.id)) :
    (commandIds.filterMap (commandById commands)).map (·.id) = commandIds := by
  induction commandIds with
  | nil => rfl
  | cons id commandIds ih =>
    obtain ⟨item, hitem, hid⟩ := List.mem_map.mp (h id List.mem_cons_self)
    cases hfound : commandById commands id with
    | none =>
      have hnone := List.find?_eq_none.mp hfound item (List.mem_reverse.mpr hitem)
      rw [hid] at hnone
      simp at hnone
    | some found =>
      rw [List.filterMap_cons_some hfound, List.map_cons, (mem_of_commandById hfound).2,
        ih fun id hid => h id (List.mem_cons_of_mem _ hid)]

theorem placeOrdered_perm (groupId : Text) (ordered : List QuickCommandItem) :
    ∀ (nextGroupIndex : ℕ) (prev : List QuickCommandItem),
      ordered.length = nextGroupIndex + (prev.filter (·.groupId = groupId)).length →
      (placeOrdered groupId ordered nextGroupIndex prev).Perm
        (prev.filter (·.groupId ≠ groupId) ++ ordered.drop nextGroupIndex)
  | nextGroupIndex, [], h => by
    rw [List.filter_nil, List.length_nil, Nat.add_zero] at h
    rw [List.filter_nil, List.nil_append, List.drop_eq_nil_of_le h.le]
    exact .nil
  | nextGroupIndex, item :: prev, h => by
    by_cases hgroup : item.groupId = groupId
    · rw [List.filter_cons_of_pos (by simpa using hgroup), List.length_cons] at h
      have hlt : nextGroupIndex < ordered.length := by omega
      have ih := placeOrdered_perm groupId ordered (nextGroupIndex + 1) prev (by omega)
      rw [placeOrdered, if_neg (not_not.mpr hgroup), List.getElem?_eq_getElem hlt, Option.getD_some,
        List.filter_cons_of_neg (by simpa using hgroup), List.drop_eq_getElem_cons hlt]
      exact (ih.cons _).trans List.perm_middle.symm
    · rw [List.filter_cons_of_neg (by simpa using hgroup)] at h
      have ih := placeOrdered_perm groupId ordered nextGroupIndex prev h
      rw [placeOrdered, if_pos hgroup, List.filter_cons_of_pos (by simpa using hgroup),
        List.cons_append]
      exact ih.cons _

/-- **Reordering only reorders.** -/
theorem reorderCommands_ids_perm (groupId : Text) (commandIds : List Text)
    (prev : List QuickCommandItem) :
    ((reorderCommands groupId commandIds prev).map (·.id)).Perm (prev.map (·.id)) ∧
      ∀ item ∈ reorderCommands groupId commandIds prev, item ∈ prev := by
  unfold reorderCommands
  dsimp only
  set groupCommands := prev.filter (·.groupId = groupId) with hgroupCommands
  split
  · exact ⟨.refl _, fun _ => id⟩
  rename_i hlength
  split
  · exact ⟨.refl _, fun _ => id⟩
  rename_i hknown
  split
  · exact ⟨.refl _, fun _ => id⟩
  rename_i hfound
  rw [not_or, not_not] at hknown
  rw [not_not] at hlength hfound
  obtain ⟨hany, hnodup⟩ := hknown
  have hmem : ∀ id ∈ commandIds, id ∈ groupCommands.map (·.id) := by
    intro id hid
    by_contra hnot
    exact hany (List.any_eq_true.mpr ⟨id, hid, decide_eq_true hnot⟩)
  have hsub : commandIds.Subperm (groupCommands.map (·.id)) := List.subperm_of_subset hnodup hmem
  have hids : commandIds.Perm (groupCommands.map (·.id)) :=
    hsub.perm_of_length_le (by rw [List.length_map, hlength])
  set ordered := commandIds.filterMap (commandById groupCommands) with hordered
  have hplaced := placeOrdered_perm groupId ordered 0 prev (by rw [hfound, Nat.zero_add])
  rw [List.drop_zero] at hplaced
  constructor
  · refine (hplaced.map _).trans ?_
    rw [List.map_append, hordered, ids_ordered hmem]
    refine ((hids.append_left _).trans ?_)
    rw [← List.map_append]
    refine List.Perm.map _ ?_
    have hsplit := List.filter_append_perm
      (fun item : QuickCommandItem => item.groupId = groupId) prev
    refine List.perm_append_comm.trans ?_
    simpa using hsplit
  · intro item hitem
    rcases List.mem_append.mp (hplaced.mem_iff.mp hitem) with hother | hmine
    · exact (List.mem_filter.mp hother).1
    · obtain ⟨id, -, hby⟩ := List.mem_filterMap.mp hmine
      exact (List.mem_filter.mp (mem_of_commandById hby).1).1

/-! ## What a step keeps -/

/-- The invariant that needs no condition. -/
structure Kept (bar : Bar) : Prop where
  groupIds : bar.groupIds.Nodup
  default_mem : defaultGroupId ∈ bar.groupIds
  commandIds : bar.commandIds.Nodup

theorem Kept.sound {bar : Bar} (h : Kept bar) : Sound bar :=
  ⟨h.groupIds, List.count_eq_one_of_mem h.groupIds h.default_mem, h.commandIds⟩

/-- The ids of the groups and those of the commands stay as they are. -/
structure SameIds (bar bar' : Bar) : Prop where
  groupIds : bar'.groupIds = bar.groupIds
  commandIds : bar'.commandIds = bar.commandIds

theorem Kept.of_sameIds {bar bar' : Bar} (h : Kept bar) (hsame : SameIds bar bar') : Kept bar' := by
  refine ⟨?_, ?_, ?_⟩
  · rw [hsame.groupIds]
    exact h.groupIds
  · rw [hsame.groupIds]
    exact h.default_mem
  · rw [hsame.commandIds]
    exact h.commandIds

theorem ids_map_groups {groups : List QuickCommandGroup} {f : QuickCommandGroup → QuickCommandGroup}
    (h : ∀ group, (f group).id = group.id) : (groups.map f).map (·.id) = groups.map (·.id) := by
  rw [List.map_map]
  exact List.map_congr_left fun group _ => h group

theorem ids_map_commands {commands : List QuickCommandItem}
    {f : QuickCommandItem → QuickCommandItem} (h : ∀ item, (f item).id = item.id) :
    (commands.map f).map (·.id) = commands.map (·.id) := by
  rw [List.map_map]
  exact List.map_congr_left fun item _ => h item

/-- What the steps do: they leave the ids alone, or they are one of five. -/
inductive Stepped (lower : Text → Text) (bar : Bar) : BarEvent → Bar → Prop where
  | refused {event : BarEvent} : Stepped lower bar event bar
  | groupAdded {name id : Text} (hname : trim name ≠ [])
      (hcheck : isDuplicateGroupName lower bar.rendered (trim name) none = false)
      (hid : id ∉ bar.groupIds) :
    Stepped lower bar (.addGroup name id)
      { bar with groups := bar.groups ++ [⟨id, trim name, bar.groups.length, false⟩] }
  | groupRenamed {groupId name : Text} (hname : trim name ≠ [])
      (hcheck : isDuplicateGroupName lower bar.rendered (trim name) (some groupId) = false) :
    Stepped lower bar (.renameGroup groupId name)
      { bar with groups := bar.groups.map fun group =>
          if group.id = groupId then { group with name := trim name } else group }
  | groupRemoved {groupId : Text} (hid : groupId ≠ defaultGroupId) :
    Stepped lower bar (.removeGroup groupId)
      { bar with
        groups := withoutGroup groupId bar.groups
        commands := adoptFrom groupId bar.commands }
  | toggled {groupId : Text} :
    Stepped lower bar (.toggleGroupVisible groupId)
      { bar with groups := toggleVisible groupId bar.groups }
  | commandAdded {label command : Text} {groupId : Option Text} {id : Text}
      (hlabel : trim label ≠ []) (hid : id ∉ bar.commandIds) :
    Stepped lower bar (.addCommand label command groupId id)
      { bar with commands := bar.commands ++
          [⟨id, trim label, command, chosenGroup bar.rendered groupId, []⟩] }
  | commandUpdated {commandId : Text} {payload : CommandPayload} :
    Stepped lower bar (.updateCommand commandId payload)
      { bar with commands := updateCommand bar.rendered commandId payload bar.commands }
  | reordered {groupId : Text} {commandIds : List Text} :
    Stepped lower bar (.reorderCommands groupId commandIds)
      { bar with commands := reorderCommands groupId commandIds bar.commands }
  | commandRemoved {commandId : Text} :
    Stepped lower bar (.removeCommand commandId)
      { bar with commands := bar.commands.filter (·.id ≠ commandId) }
  | titleSet {shown : Bool} :
    Stepped lower bar (.setShowGroupTitle shown) { bar with showGroupTitle := shown }
  | loaded {defaultName : Text} {value : Json} :
    Stepped lower bar (.load defaultName value)
      { bar with
        showGroupTitle := (normalizeConfig defaultName value).showGroupTitle
        groups := (normalizeConfig defaultName value).groups
        commands := (normalizeConfig defaultName value).commands }
  | followed {defaultName : Text} :
    Stepped lower bar (.followLocale defaultName)
      { bar with groups := bar.groups.map fun group =>
          if group.id = defaultGroupId then { group with name := defaultName } else group }
  | rendered : Stepped lower bar .render { bar with rendered := bar.groups }

theorem stepped_of_next {lower : Text → Text} {bar bar' : Bar} {event : BarEvent}
    (h : bar.next lower event = some bar') : Stepped lower bar event bar' := by
  cases event with
  | addGroup name id =>
    unfold Bar.next addGroup at h
    dsimp only at h
    by_cases hname : trim name = []
    · rw [if_pos hname] at h
      cases h
      exact .refused
    rw [if_neg hname] at h
    cases hcheck : isDuplicateGroupName lower bar.rendered (trim name) none with
    | true =>
      rw [if_pos hcheck] at h
      cases h
      exact .refused
    | false =>
      rw [if_neg (by rw [hcheck]; exact Bool.false_ne_true)] at h
      dsimp only at h
      split at h
      · cases h
      · rename_i hid
        cases h
        exact .groupAdded hname hcheck hid
  | renameGroup groupId name =>
    unfold Bar.next renameGroup at h
    dsimp only at h
    by_cases hname : trim name = []
    · rw [if_pos hname] at h
      cases h
      exact .refused
    rw [if_neg hname] at h
    cases hcheck : isDuplicateGroupName lower bar.rendered (trim name) (some groupId) with
    | true =>
      rw [if_pos hcheck] at h
      cases h
      exact .refused
    | false =>
      rw [if_neg (by rw [hcheck]; exact Bool.false_ne_true)] at h
      cases h
      exact .groupRenamed hname hcheck
  | removeGroup groupId =>
    rw [Bar.next] at h
    split at h
    · cases h
      exact .refused
    · rename_i hid
      cases h
      exact .groupRemoved hid
  | toggleGroupVisible groupId =>
    cases h
    exact .toggled
  | addCommand label command groupId id =>
    unfold Bar.next addCommand at h
    dsimp only at h
    by_cases hlabel : trim label = []
    · rw [if_pos hlabel] at h
      cases h
      exact .refused
    rw [if_neg hlabel] at h
    dsimp only at h
    split at h
    · cases h
    · rename_i hid
      cases h
      exact .commandAdded hlabel hid
  | updateCommand commandId payload =>
    cases h
    exact .commandUpdated
  | reorderCommands groupId commandIds =>
    cases h
    exact .reordered
  | removeCommand commandId =>
    cases h
    exact .commandRemoved
  | setShowGroupTitle shown =>
    cases h
    exact .titleSet
  | load defaultName value =>
    cases h
    exact .loaded
  | followLocale defaultName =>
    cases h
    exact .followed
  | render =>
    cases h
    exact .rendered

theorem updateCommand_ids (groups : List QuickCommandGroup) (commandId : Text)
    (payload : CommandPayload) (prev : List QuickCommandItem) :
    (updateCommand groups commandId payload prev).map (·.id) = prev.map (·.id) := by
  refine ids_map_commands fun item => ?_
  split <;> rfl

theorem adoptFrom_ids (groupId : Text) (prev : List QuickCommandItem) :
    (adoptFrom groupId prev).map (·.id) = prev.map (·.id) := by
  refine ids_map_commands fun item => ?_
  split <;> rfl

theorem setName_ids (groupId name : Text) (groups : List QuickCommandGroup) :
    (groups.map fun group => if group.id = groupId then { group with name := name } else group).map
      (·.id) = groups.map (·.id) := by
  refine ids_map_groups fun group => ?_
  split <;> rfl

theorem Kept.next {lower : Text → Text} {bar bar' : Bar} {event : BarEvent} (h : Kept bar)
    (hstep : Stepped lower bar event bar') :
    Kept bar' ∧ (event.removes = false → ∀ id ∈ bar.commandIds, id ∈ bar'.commandIds) := by
  have hsame : ∀ {bar' : Bar}, SameIds bar bar' →
      Kept bar' ∧ (event.removes = false → ∀ id ∈ bar.commandIds, id ∈ bar'.commandIds) :=
    fun hsame => ⟨h.of_sameIds hsame, fun _ id hid => hsame.commandIds ▸ hid⟩
  cases hstep with
  | refused => exact hsame ⟨rfl, rfl⟩
  | @groupAdded name id hname hcheck hid =>
    have hids : (Bar.groupIds { bar with groups := bar.groups ++
        [⟨id, trim name, bar.groups.length, false⟩] }) = bar.groupIds ++ [id] := List.map_append
    refine ⟨⟨?_, ?_, h.commandIds⟩, fun _ _ hmem => hmem⟩
    · rw [hids]
      refine List.nodup_append.mpr ⟨h.groupIds, List.nodup_singleton _, fun a ha b hb heq => ?_⟩
      exact hid (List.mem_singleton.mp hb ▸ heq ▸ ha)
    · rw [hids]
      exact List.mem_append_left _ h.default_mem
  | groupRenamed => exact hsame ⟨setName_ids _ _ _, rfl⟩
  | @groupRemoved groupId hid =>
    have hids : (Bar.groupIds { bar with
        groups := withoutGroup groupId bar.groups
        commands := adoptFrom groupId bar.commands }) =
          (bar.groups.filter (·.id ≠ groupId)).map (·.id) := ids_withoutGroup _ _
    have hcommands : (Bar.commandIds { bar with
        groups := withoutGroup groupId bar.groups
        commands := adoptFrom groupId bar.commands }) = bar.commandIds := adoptFrom_ids _ _
    refine ⟨⟨?_, ?_, hcommands ▸ h.commandIds⟩, fun _ id hmem => ?_⟩
    · rw [hids]
      exact h.groupIds.sublist (List.filter_sublist.map _)
    · rw [hids]
      obtain ⟨group, hgroup, hdefault⟩ := List.mem_map.mp h.default_mem
      refine List.mem_map.mpr ⟨group, List.mem_filter.mpr ⟨hgroup, ?_⟩, hdefault⟩
      rw [hdefault]
      exact decide_eq_true (Ne.symm hid)
    · rwa [hcommands]
  | toggled => exact hsame ⟨ids_map_groups fun group => by split <;> rfl, rfl⟩
  | @commandAdded label command groupId id hlabel hid =>
    have hids : (Bar.commandIds { bar with commands := bar.commands ++
        [⟨id, trim label, command, chosenGroup bar.rendered groupId, []⟩] }) =
          bar.commandIds ++ [id] := List.map_append
    refine ⟨⟨h.groupIds, h.default_mem, ?_⟩, fun _ other hother => ?_⟩
    · rw [hids]
      refine List.nodup_append.mpr ⟨h.commandIds, List.nodup_singleton _, fun a ha b hb heq => ?_⟩
      exact hid (List.mem_singleton.mp hb ▸ heq ▸ ha)
    · rw [hids]
      exact List.mem_append_left _ hother
  | commandUpdated => exact hsame ⟨rfl, updateCommand_ids _ _ _ _⟩
  | @reordered groupId commandIds =>
    have hperm := (reorderCommands_ids_perm groupId commandIds bar.commands).1
    exact ⟨⟨h.groupIds, h.default_mem, hperm.nodup_iff.mpr h.commandIds⟩,
      fun _ id hid => hperm.mem_iff.mpr hid⟩
  | commandRemoved =>
    exact ⟨⟨h.groupIds, h.default_mem, h.commandIds.sublist (List.filter_sublist.map _)⟩,
      fun hremoves => by cases hremoves⟩
  | titleSet => exact hsame ⟨rfl, rfl⟩
  | @loaded defaultName value =>
    have hnormal := normal_normalizeConfig defaultName value
    exact ⟨⟨hnormal.groupIds, hnormal.default_mem, hnormal.commandIds⟩,
      fun hremoves => by cases hremoves⟩
  | followed => exact hsame ⟨setName_ids _ _ _, rfl⟩
  | rendered => exact hsame ⟨rfl, rfl⟩

theorem kept_of_reachable {lower : Text → Text} {defaultName : Text} {bar : Bar}
    (h : (quickBarMachine lower defaultName).Reachable bar) : Kept bar := by
  refine h.induct ?_ fun bar event bar' _ hkept hnext => (hkept.next (stepped_of_next hnext)).1
  rintro bar rfl
  have hnormal := normal_default defaultName
  exact ⟨hnormal.groupIds, hnormal.default_mem, hnormal.commandIds⟩

/-! ## Names and groups -/

theorem NamesApart.nodup {lower : Text → Text} {defaultName : Text} {value : Json}
    (h : NamesApart lower defaultName value) :
    ((normalizeConfig defaultName value).groups.map fun group =>
      normalizeGroupName lower group.name).Nodup := by
  have hnormal := normal_normalizeConfig defaultName value
  refine List.Nodup.map_on (fun group hgroup other hother heq => ?_) (hnormal.groupIds.of_map _)
  refine List.inj_on_of_nodup_map hnormal.groupIds hgroup hother ?_
  by_contra hid
  change group ∈ (normalizeConfig defaultName value).groups at hgroup
  unfold normalizeConfig at hgroup hother
  split at hgroup
  · rename_i hobject
    rw [if_pos hobject] at hother
    exact hid ((List.mem_singleton.mp hgroup).trans (List.mem_singleton.mp hother).symm ▸ rfl)
  · rename_i hobject
    rw [if_neg hobject] at hother
    obtain ⟨a, ha, haid, haname⟩ := mem_sortedGroups hgroup
    obtain ⟨b, hb, hbid, hbname⟩ := mem_sortedGroups hother
    rw [← haname, ← hbname] at heq
    rw [← haid, ← hbid] at hid
    have hfirst : ∀ {c}, c ∈ dedupedGroups (candidates defaultName value) →
        IsFirst Candidate.id (!·.id.isEmpty) (candidates defaultName value) c :=
      isFirst_of_mem_keepFirsts
    have hnone : (∀ c ∈ dedupedGroups (candidates defaultName value), c.id ≠ defaultGroupId) →
        ∀ c ∈ candidates defaultName value, c.id ≠ defaultGroupId := by
      intro hkept c hc hdefault
      have hkey : c.id ∈ (dedupedGroups (candidates defaultName value)).map (·.id) :=
        mem_keys_keepFirsts hc (by rw [hdefault]; decide)
      obtain ⟨d, hd, hdid⟩ := List.mem_map.mp hkey
      exact hkept d hd (hdid.trans hdefault)
    rcases mem_withDefaultGroup ha with ha | ⟨rfl, hmissing⟩ <;>
      rcases mem_withDefaultGroup hb with hb | ⟨rfl, hmissing'⟩
    · exact h.1 a b (hfirst ha) (hfirst hb) hid heq
    · exact h.2 (hnone hmissing') a (hfirst ha) heq
    · exact h.2 (hnone hmissing) b (hfirst hb) heq.symm
    · exact hid rfl

theorem setName_of_notMem {groups : List QuickCommandGroup} {groupId name : Text}
    (h : groupId ∉ groups.map (·.id)) :
    (groups.map fun group => if group.id = groupId then { group with name := name } else group) =
      groups := by
  conv_rhs => rw [← List.map_id groups]
  refine List.map_congr_left fun group hgroup => if_neg fun hid => h ?_
  exact List.mem_map.mpr ⟨group, hgroup, hid⟩

theorem mem_groupIds_of_chosen {bar : Bar} {groupId : Option Text} {id : Text}
    (hcheck : ∀ id, groupId = some id → id ∈ bar.rendered.map (·.id) → id ∈ bar.groupIds)
    (hid : truthy groupId = some id) (hrendered : id ∈ bar.rendered.map (·.id)) :
    id ∈ bar.groupIds := by
  obtain ⟨rfl, -⟩ := Option.filter_eq_some_iff.mp hid
  exact hcheck id rfl hrendered

/-- **What a step in order keeps.** -/
theorem Intact.next {lower : Text → Text} {bar bar' : Bar} {event : BarEvent} (hkept : Kept bar)
    (h : Intact lower bar) (hevent : BarInOrder lower bar event)
    (hstep : Stepped lower bar event bar') : Intact lower bar' := by
  have hsound : Sound bar' := (hkept.next hstep).1.sound
  cases hstep with
  | refused => exact h
  | @groupAdded name id hname hcheck hid =>
    have hapart := forall_of_not_duplicate (hevent hname hcheck)
    refine ⟨hsound, ?_, fun item hitem => ?_⟩
    · show ((bar.groups ++ [(⟨id, trim name, bar.groups.length, false⟩ : QuickCommandGroup)]).map
        fun group => normalizeGroupName lower group.name).Nodup
      rw [List.map_append]
      refine List.nodup_append.mpr ⟨h.names, List.nodup_singleton _, fun a ha b hb heq => ?_⟩
      obtain ⟨group, hgroup, rfl⟩ := List.mem_map.mp ha
      rw [List.map_singleton, List.mem_singleton] at hb
      exact hapart group hgroup (fun hnone => by cases hnone) (heq.trans hb)
    · show item.groupId ∈ (bar.groups ++ _).map (·.id)
      rw [List.map_append]
      exact List.mem_append_left _ (h.commandGroups item hitem)
  | @groupRenamed groupId name hname hcheck =>
    refine ⟨hsound, ?_, fun item hitem => ?_⟩
    · by_cases hmem : groupId ∈ bar.groupIds
      · have hapart := forall_of_not_duplicate (hevent hname hmem hcheck)
        refine names_set_nodup hkept.groupIds h.names fun group hgroup hother => ?_
        refine hapart group hgroup fun hsome => hother ?_
        have hfilter := (Option.filter_eq_some_iff.mp hsome).1
        exact (Option.some.inj hfilter).symm
      · show ((bar.groups.map _).map _).Nodup
        rw [setName_of_notMem hmem]
        exact h.names
    · show item.groupId ∈ List.map _ (bar.groups.map _)
      rw [setName_ids]
      exact h.commandGroups item hitem
  | @groupRemoved groupId hid =>
    refine ⟨hsound, ?_, fun item hitem => ?_⟩
    · show ((withoutGroup groupId bar.groups).map fun group =>
        normalizeGroupName lower group.name).Nodup
      rw [names_withoutGroup (normalizeGroupName lower)]
      exact h.names.sublist (List.filter_sublist.map _)
    · show item.groupId ∈ (withoutGroup groupId bar.groups).map (·.id)
      have hother : ∀ id ∈ bar.groupIds, id ≠ groupId →
          id ∈ (withoutGroup groupId bar.groups).map (·.id) := by
        intro id hmem hne
        obtain ⟨group, hgroup, rfl⟩ := List.mem_map.mp hmem
        rw [ids_withoutGroup]
        exact List.mem_map.mpr ⟨group, List.mem_filter.mpr ⟨hgroup, decide_eq_true hne⟩, rfl⟩
      obtain ⟨old, hold, rfl⟩ := List.mem_map.mp hitem
      split
      · exact hother _ hkept.default_mem (Ne.symm hid)
      · rename_i hne
        exact hother _ (h.commandGroups old hold) hne
  | @toggled groupId =>
    have hnames : (toggleVisible groupId bar.groups).map (fun group =>
        normalizeGroupName lower group.name) = bar.groups.map fun group =>
          normalizeGroupName lower group.name := by
      rw [toggleVisible, List.map_map]
      refine List.map_congr_left fun group _ => ?_
      simp only [Function.comp_apply]
      split <;> rfl
    refine ⟨hsound, hnames ▸ h.names, fun item hitem => ?_⟩
    show item.groupId ∈ (toggleVisible groupId bar.groups).map (·.id)
    rw [toggleVisible, ids_map_groups fun group => by split <;> rfl]
    exact h.commandGroups item hitem
  | @commandAdded label command groupId id hlabel hid =>
    refine ⟨hsound, h.names, fun item hitem => ?_⟩
    rcases List.mem_append.mp hitem with hold | hnew
    · exact h.commandGroups item hold
    · obtain rfl := List.mem_singleton.mp hnew
      show chosenGroup bar.rendered groupId ∈ bar.groupIds
      unfold chosenGroup
      split
      · rename_i chosen htruthy
        split
        · rename_i hrendered
          exact mem_groupIds_of_chosen (hevent hlabel) htruthy hrendered
        · exact hkept.default_mem
      · exact hkept.default_mem
  | @commandUpdated commandId payload =>
    refine ⟨hsound, h.names, fun item hitem => ?_⟩
    obtain ⟨old, hold, rfl⟩ := List.mem_map.mp hitem
    split
    · exact h.commandGroups old hold
    · rename_i hid
      show nextGroup bar.rendered payload.groupId old.groupId ∈ bar.groupIds
      unfold nextGroup
      split
      · rename_i chosen htruthy
        split
        · rename_i hrendered
          have hmem : commandId ∈ bar.commandIds :=
            List.mem_map.mpr ⟨old, hold, not_not.mp hid⟩
          exact mem_groupIds_of_chosen (hevent hmem) htruthy hrendered
        · exact h.commandGroups old hold
      · exact h.commandGroups old hold
  | @reordered groupId commandIds =>
    refine ⟨hsound, h.names, fun item hitem => h.commandGroups item ?_⟩
    exact (reorderCommands_ids_perm groupId commandIds bar.commands).2 item hitem
  | commandRemoved =>
    exact ⟨hsound, h.names, fun item hitem => h.commandGroups item (List.mem_filter.mp hitem).1⟩
  | titleSet => exact ⟨hsound, h.names, h.commandGroups⟩
  | @loaded defaultName value =>
    exact ⟨hsound, hevent.nodup, (normal_normalizeConfig defaultName value).commandGroups⟩
  | @followed defaultName =>
    refine ⟨hsound, names_set_nodup hkept.groupIds h.names hevent, fun item hitem => ?_⟩
    show item.groupId ∈ List.map _ (bar.groups.map _)
    rw [setName_ids]
    exact h.commandGroups item hitem
  | rendered => exact ⟨hsound, h.names, h.commandGroups⟩

/-- **Quick bar integrity.** In every run ids are distinct, the default group is there once, and
only two events take commands away; in runs in order names are distinct too, and every command is in
a group that exists. What `normalizeConfig` gives, it leaves alone. -/
theorem intact_of_inOrder (lower : Text → Text) (defaultName : Text) :
    (∀ bar, (quickBarMachine lower defaultName).Reachable bar → Sound bar ∧
      ∀ event bar', bar.next lower event = some bar' → event.removes = false →
        ∀ id ∈ bar.commandIds, id ∈ bar'.commandIds) ∧
    (∀ bar, ((quickBarMachine lower defaultName).restrict (BarInOrder lower)).Reachable bar →
      Intact lower bar) ∧
    ∀ (name : Text) (value : Json), normalizeConfig name (toJson (normalizeConfig name value)) =
      normalizeConfig name value := by
  refine ⟨fun bar h => ⟨(kept_of_reachable h).sound, fun event bar' hnext => ?_⟩, fun bar h => ?_,
    normalizeConfig_toJson⟩
  · exact ((kept_of_reachable h).next (stepped_of_next hnext)).2
  · refine h.induct ?_ fun bar event bar' hbar hintact hnext => ?_
    · rintro bar rfl
      have hstart : Kept (Bar.start defaultName) :=
        have hreach : (quickBarMachine lower defaultName).Reachable (Bar.start defaultName) :=
          .init rfl
        kept_of_reachable hreach
      refine ⟨hstart.sound, List.nodup_singleton _, fun item hitem => ?_⟩
      cases hitem
    · exact hintact.next (kept_of_reachable hbar.of_restrict) hnext.1 (stepped_of_next hnext.2)

def sampleBar : Bar where
  showGroupTitle := true
  groups := [⟨defaultGroupId, "Default".toList, 0, true⟩, ⟨['g'], "Web".toList, 1, false⟩]
  commands := [⟨['c'], "ls".toList, "ls".toList, ['g'], []⟩]
  rendered := [⟨defaultGroupId, "Default".toList, 0, true⟩, ⟨['g'], "Web".toList, 1, false⟩]

theorem reachable_sampleBar :
    ((quickBarMachine asciiLower "Default".toList).restrict
      (BarInOrder asciiLower)).Reachable sampleBar := by
  have hadd : BarInOrder asciiLower (Bar.start "Default".toList) (.addGroup "Web ".toList ['g']) :=
    fun _ hcheck => hcheck
  have hstart : ((quickBarMachine asciiLower "Default".toList).restrict
      (BarInOrder asciiLower)).Reachable (Bar.start "Default".toList) := .init rfl
  refine Machine.Reachable.step (a := .addCommand " ls".toList "ls".toList (some ['g']) ['c'])
    (Machine.Reachable.step (a := .render) (Machine.Reachable.step hstart ⟨hadd, rfl⟩)
      ⟨trivial, rfl⟩) ⟨fun _ id _ hid => hid, rfl⟩

theorem intact_of_inOrder_sampleBar :
    Intact asciiLower sampleBar ∧
      normalizeConfig "Default".toList (toJson (normalizeConfig "Default".toList .null)) =
        normalizeConfig "Default".toList .null :=
  ⟨(intact_of_inOrder asciiLower "Default".toList).2.1 sampleBar reachable_sampleBar,
    (intact_of_inOrder asciiLower "Default".toList).2.2 "Default".toList .null⟩

def sampleDoubled : Bar where
  showGroupTitle := true
  groups := [⟨defaultGroupId, "Default".toList, 0, true⟩, ⟨['g'], "Web".toList, 1, false⟩,
    ⟨['h'], "Web".toList, 2, false⟩]
  commands := []
  rendered := [⟨defaultGroupId, "Default".toList, 0, true⟩]

/-- Both calls see the groups of the render, and both groups are added. -/
theorem sampleDoubled_names :
    (quickBarMachine asciiLower "Default".toList).Reachable sampleDoubled ∧
      ¬ (sampleDoubled.groups.map fun group =>
        normalizeGroupName asciiLower group.name).Nodup := by
  have hexec : Machine.exec (Bar.next asciiLower) (Bar.start "Default".toList)
      [.addGroup "Web".toList ['g'], .addGroup "Web".toList ['h']] = some sampleDoubled := rfl
  exact ⟨Machine.reachable_exec hexec, by decide⟩

end FluxTerm.Window.QuickBar
