import FluxTerm.Lib.Json
import Mathlib.Data.List.Nodup
import Mathlib.Data.List.Range

/-!
# FluxTerm — the layout of the widgets

`src/layout/model.ts`: the slots of the main window, the widgets in them, and the document that
keeps them.

A record is a function; the order of its entries is left out, except in the documents that are read.
-/

namespace FluxTerm.Layout

open FluxTerm.Lib

/-! ## Widgets and slots -/

def maxSideSlots : ℕ := 10

inductive WidgetKey where
  | profiles
  | serial
  | files
  | transfers
  | events
  | history
  | ai
  | tunnels
  | broadcast
deriving DecidableEq

namespace WidgetKey

def name : WidgetKey → Text
  | profiles => "profiles".toList
  | serial => "serial".toList
  | files => "files".toList
  | transfers => "transfers".toList
  | events => "events".toList
  | history => "history".toList
  | ai => "ai".toList
  | tunnels => "tunnels".toList
  | broadcast => "broadcast".toList

end WidgetKey

def widgetKeys : List WidgetKey :=
  [.profiles, .serial, .files, .transfers, .events, .history, .ai, .tunnels, .broadcast]

theorem mem_widgetKeys (widget : WidgetKey) : widget ∈ widgetKeys := by
  cases widget <;> decide

inductive WidgetSide where
  | left
  | right
deriving DecidableEq

inductive WidgetSlotId where
  | side (side : WidgetSide) (index : ℕ)
  | bottom
deriving DecidableEq

structure WidgetGroup where
  active : Option WidgetKey
deriving DecidableEq

def createEmptyGroup : WidgetGroup := ⟨none⟩

abbrev Slots := WidgetSlotId → Option WidgetGroup

abbrev FloatingWidgetLayout := WidgetKey → Option WidgetSlotId

structure SideSlotCounts where
  left : ℚ
  right : ℚ
deriving DecidableEq

def SideSlotCounts.get (counts : SideSlotCounts) : WidgetSide → ℚ
  | .left => counts.left
  | .right => counts.right

def SideSlotCounts.set (counts : SideSlotCounts) (count : ℚ) : WidgetSide → SideSlotCounts
  | .left => { counts with left := count }
  | .right => { counts with right := count }

structure WidgetSizes where
  left : ℚ
  right : ℚ
  bottom : ℚ
deriving DecidableEq

structure WidgetCollapsed where
  left : Bool
  right : Bool
  bottom : Bool
deriving DecidableEq

structure WidgetLayout where
  sizes : WidgetSizes
  collapsed : WidgetCollapsed
  sideSlotCounts : SideSlotCounts
  slots : Slots
  floating : FloatingWidgetLayout

def slotIds : List WidgetSlotId :=
  (List.range maxSideSlots).map (.side .left) ++ (List.range maxSideSlots).map (.side .right) ++
    [.bottom]

def defaultWidgetLayout : WidgetLayout where
  sizes := ⟨320, 360, 240⟩
  collapsed := ⟨false, false, false⟩
  sideSlotCounts := ⟨1, 1⟩
  slots
    | .side .left 0 => some ⟨some .profiles⟩
    | .side .right 0 => some ⟨some .files⟩
    | .bottom => some ⟨some .transfers⟩
    | _ => none
  floating _ := none

/-! ## The operations -/

def Shows (slots : Slots) (slot : WidgetSlotId) (widget : WidgetKey) : Prop :=
  slots slot = some ⟨some widget⟩

instance (slots : Slots) (slot : WidgetSlotId) (widget : WidgetKey) :
    Decidable (Shows slots slot widget) := inferInstanceAs (Decidable (_ = _))

/-- `moveWidgetToSlot`: the widget leaves the other slots. -/
def moveWidgetToSlot (slots : Slots) (widget : WidgetKey) (target : WidgetSlotId) : Slots :=
  Function.update
    (fun slot => if Shows slots slot widget then some createEmptyGroup else slots slot)
    target (some ⟨some widget⟩)

/-- `increaseSideSlots`, with the count that it returns. A count that is not whole gives a key that
names no slot. -/
def increaseSideSlots (slots : Slots) (side : WidgetSide) (currentCount : ℚ) : Slots × ℚ :=
  let nextCount := min (maxSideSlots : ℚ) (currentCount + 1)
  if nextCount = currentCount ∨ nextCount.den ≠ 1 then (slots, nextCount)
  else (Function.update slots (.side side (nextCount.num.toNat - 1)) (some createEmptyGroup),
    nextCount)

/-! ## Documents -/

def WidgetSide.name : WidgetSide → Text
  | .left => "left".toList
  | .right => "right".toList

def sideSlotKey (side : WidgetSide) (index : ℕ) : Text :=
  side.name ++ ':' :: Nat.toDigits 10 index

def WidgetSlotId.key : WidgetSlotId → Text
  | .side s index => sideSlotKey s index
  | .bottom => "bottom".toList

/-- `buildPersistentSlots`, and what `JSON.stringify` makes of it. -/
def slotsJson (slots : Slots) : Json :=
  .obj <| slotIds.filterMap fun slot => (slots slot).map fun group =>
    (slot.key, .obj [("active".toList, group.active.elim .null (.str ·.name))])

def floatingJson (floating : FloatingWidgetLayout) : Json :=
  .obj <| widgetKeys.filterMap fun widget => (floating widget).map fun origin =>
    (widget.name, .obj [("origin".toList, .str origin.key)])

/-- The document of a layout. -/
def WidgetLayout.toJson (layout : WidgetLayout) : Json :=
  .obj [("version".toList, .num (.finite 1)),
    ("collapsed".toList, .obj [("left".toList, .bool layout.collapsed.left),
      ("right".toList, .bool layout.collapsed.right),
      ("bottom".toList, .bool layout.collapsed.bottom)]),
    ("sideSlotCounts".toList, .obj [("left".toList, .num (.finite layout.sideSlotCounts.left)),
      ("right".toList, .num (.finite layout.sideSlotCounts.right))]),
    ("slots".toList, slotsJson layout.slots),
    ("floating".toList, floatingJson layout.floating),
    ("sizes".toList, .obj [("left".toList, .num (.finite layout.sizes.left)),
      ("right".toList, .num (.finite layout.sizes.right)),
      ("bottom".toList, .num (.finite layout.sizes.bottom))])]

/-! ## Normalisation -/

def normalizeWidgetKey : Json → Option WidgetKey
  | .str value =>
    if value = "logs".toList then some .events else widgetKeys.find? (·.name = value)
  | _ => none

def normalizeGroup (group : Json) : WidgetGroup :=
  ⟨(group.get "active".toList).bind normalizeWidgetKey⟩

/-- `\d+` and `Number`. -/
def parseIndex (digits : Text) : Option ℕ :=
  if digits ≠ [] ∧ digits.all Char.isDigit then
    some (digits.foldl (fun value digit => value * 10 + (digit.toNat - '0'.toNat)) 0)
  else none

def splitSide (value : Text) : Option (WidgetSide × Text) :=
  if "left:".toList <+: value then some (.left, value.drop 5)
  else if "right:".toList <+: value then some (.right, value.drop 6)
  else none

def parseSideSlotKey (value : Text) : Option WidgetSlotId :=
  match splitSide value with
  | none => none
  | some (side, digits) =>
    ((parseIndex digits).filter (· < maxSideSlots)).map (.side side)

def slotOfKey (key : Text) : Option WidgetSlotId :=
  if key = "bottom".toList then some .bottom else parseSideSlotKey key

def normalizeSlots (rawSlots : Json) : Slots :=
  rawSlots.entries.foldl (fun next entry =>
    match slotOfKey entry.1 with
    | none => next
    | some slot => Function.update next slot (some (normalizeGroup entry.2)))
    fun slot => if slot = .bottom then some createEmptyGroup else none

def clampNumber (value : Option Json) (lo hi fallback : ℚ) : ℚ :=
  match value with
  | some (.num (.finite value)) => min hi (max lo value)
  | _ => fallback

def clampCount (value : Option Json) : ℚ := clampNumber value 1 maxSideSlots 1

/-- `getSideSlotKeys`, of which the indices. -/
def getSideSlotKeys (slots : Slots) (side : WidgetSide) : List ℕ :=
  (List.range maxSideSlots).filter fun index => (slots (.side side index)).isSome

def structureSlots (slots : Slots) (normalizedCounts : SideSlotCounts) : Slots
  | .bottom => some ((slots .bottom).getD createEmptyGroup)
  | .side side index =>
    if (index : ℚ) < normalizedCounts.get side then
      some (((getSideSlotKeys slots side)[index]?.bind fun source =>
        slots (.side side source)).getD createEmptyGroup)
    else none

def normalizeSideSlotStructure (slots : Slots) (sideSlotCounts : SideSlotCounts) :
    Slots × SideSlotCounts :=
  let count (side : WidgetSide) := clampCount (some (.num (.finite (sideSlotCounts.get side))))
  let normalizedCounts : SideSlotCounts := ⟨count .left, count .right⟩
  (structureSlots slots normalizedCounts, normalizedCounts)

/-- `orderedKeys` in `dedupeActiveWidgets`. -/
def orderedKeys (slots : Slots) : List WidgetSlotId :=
  (getSideSlotKeys slots .left).map (.side .left) ++
    (getSideSlotKeys slots .right).map (.side .right) ++ [.bottom]

def dedupeSlot (state : Slots × List WidgetKey) (slot : WidgetSlotId) : Slots × List WidgetKey :=
  match state.1 slot with
  | some ⟨some widget⟩ =>
    if widget ∈ state.2 then (Function.update state.1 slot (some createEmptyGroup), state.2)
    else (state.1, widget :: state.2)
  | _ => state

def dedupeActiveWidgets (slots : Slots) : Slots :=
  ((orderedKeys slots).foldl dedupeSlot (slots, [])).1

/-- The widget is in `activeWidgets`. -/
def isActive (slots : Slots) (widget : WidgetKey) : Bool :=
  slotIds.any fun slot => Shows slots slot widget

def normalizeOrigin : Option Json → Option WidgetSlotId
  | some (.str origin) => slotOfKey origin
  | _ => none

def normalizeFloating (raw : Option Json) (slots : Slots) : FloatingWidgetLayout :=
  ((raw.map Json.entries).getD []).foldl (fun next entry =>
    match normalizeWidgetKey (.str entry.1) with
    | none => next
    | some widget =>
      if isActive slots widget then next
      else
        match normalizeOrigin (entry.2.get "origin".toList) with
        | none => next
        | some origin => Function.update next widget (some origin))
    fun _ => none

def normalizeFlag (value : Option Json) (fallback : Bool) : Bool :=
  match value with
  | some (.bool value) => value
  | _ => fallback

/-- `value.version === 1`. -/
def isVersionOne : Option Json → Bool
  | some (.num value) => value = .finite 1
  | _ => false

def normalizeWidgetLayout (raw : Json) : Option WidgetLayout :=
  let sizes := (raw.get "sizes".toList).getD .null
  let slots := (raw.get "slots".toList).getD .null
  if !raw.isObject || !isVersionOne (raw.get "version".toList) || !sizes.truthy ||
      !slots.truthy then
    none
  else
    let counts := raw.get "sideSlotCounts".toList
    let collapsed := raw.get "collapsed".toList
    let count (side : WidgetSide) := clampCount (counts.bind (·.get side.name))
    let flag (key : String) := normalizeFlag (collapsed.bind (·.get key.toList)) false
    let structured := normalizeSideSlotStructure (normalizeSlots slots) ⟨count .left, count .right⟩
    let dedupedSlots := dedupeActiveWidgets structured.1
    some {
      sizes := {
        left := clampNumber (sizes.get "left".toList) 220 520 320
        right := clampNumber (sizes.get "right".toList) 260 560 360
        bottom := clampNumber (sizes.get "bottom".toList) 160 420 240 }
      collapsed := ⟨flag "left", flag "right", flag "bottom"⟩
      sideSlotCounts := structured.2
      slots := dedupedSlots
      floating := normalizeFloating (raw.get "floating".toList) dedupedSlots }

/-! ## Consistency -/

/-- The slots of a side are numbered from zero up to its count, and no widget is in two slots. -/
structure SlotsOk (sideSlotCounts : SideSlotCounts) (slots : Slots) : Prop where
  keys : ∀ side, ∃ count : ℕ, 1 ≤ count ∧ count ≤ maxSideSlots ∧
    sideSlotCounts.get side = count ∧ ∀ index, (slots (.side side index)).isSome ↔ index < count
  bottom : (slots .bottom).isSome
  once : ∀ widget slot other, Shows slots slot widget → Shows slots other widget → slot = other

/-- A floating widget is in no slot, and it has an origin. -/
structure FloatingOk (slots : Slots) (floating : FloatingWidgetLayout) : Prop where
  apart : ∀ widget, (floating widget).isSome → ∀ slot, ¬Shows slots slot widget
  origin : ∀ widget slot, floating widget = some slot → slot ∈ slotIds

structure SizesOk (sizes : WidgetSizes) : Prop where
  left : 220 ≤ sizes.left ∧ sizes.left ≤ 520
  right : 260 ≤ sizes.right ∧ sizes.right ≤ 560
  bottom : 160 ≤ sizes.bottom ∧ sizes.bottom ≤ 420

/-- What a layout has to be. -/
structure Consistent (layout : WidgetLayout) : Prop where
  slots : SlotsOk layout.sideSlotCounts layout.slots
  floating : FloatingOk layout.slots layout.floating
  sizes : SizesOk layout.sizes

theorem mem_slotIds {slot : WidgetSlotId} :
    slot ∈ slotIds ↔ ∀ side index, slot = .side side index → index < maxSideSlots := by
  cases slot with
  | bottom =>
    exact ⟨fun _ _ _ h => (nomatch h), fun _ => List.mem_append_right _ List.mem_cons_self⟩
  | side side index =>
    have hiff : WidgetSlotId.side side index ∈ slotIds ↔ index < maxSideSlots := by
      cases side <;> simp [slotIds]
    rw [hiff]
    constructor
    · rintro hindex _ _ ⟨⟩
      exact hindex
    · exact fun h => h side index rfl

theorem SlotsOk.mem_slotIds {counts : SideSlotCounts} {slots : Slots} (h : SlotsOk counts slots)
    {slot : WidgetSlotId} (hslot : (slots slot).isSome) : slot ∈ slotIds := by
  rw [Layout.mem_slotIds]
  rintro side index rfl
  obtain ⟨count, -, hmax, -, hkeys⟩ := h.keys side
  exact ((hkeys index).mp hslot).trans_le hmax

theorem isSome_of_shows {slots : Slots} {slot : WidgetSlotId} {widget : WidgetKey}
    (h : Shows slots slot widget) : (slots slot).isSome := Option.isSome_of_mem h

/-! ### What a document gives back -/

theorem slotOfKey_key : ∀ slot ∈ slotIds, slotOfKey slot.key = some slot := by decide

theorem normalizeWidgetKey_name (widget : WidgetKey) :
    normalizeWidgetKey (.str widget.name) = some widget := by
  cases widget <;> decide

theorem normalizeGroup_json (group : WidgetGroup) :
    normalizeGroup (.obj [("active".toList, group.active.elim .null (.str ·.name))]) = group := by
  obtain ⟨active⟩ := group
  cases active with
  | none => rfl
  | some widget => exact congrArg WidgetGroup.mk (normalizeWidgetKey_name widget)

theorem normalizeSlots_json {counts : SideSlotCounts} {slots : Slots} (h : SlotsOk counts slots) :
    normalizeSlots (slotsJson slots) = slots := by
  unfold normalizeSlots slotsJson Json.entries
  dsimp only
  rw [foldl_entries fun slot hslot group _ next => ?_]
  · funext slot
    by_cases hslot : slot ∈ slotIds
    · rw [if_pos hslot]
      cases hgroup : slots slot with
      | some group => rfl
      | none =>
        have hne : slot ≠ .bottom := by
          rintro rfl
          exact absurd h.bottom (by rw [hgroup]; exact nofun)
        rw [Option.none_or, if_neg hne]
    · have hnone : slots slot = none := by
        by_contra hsome
        exact hslot (h.mem_slotIds (Option.isSome_iff_ne_none.mpr hsome))
      have hne : slot ≠ .bottom := by
        rintro rfl
        exact hslot (by decide)
      rw [if_neg hslot, if_neg hne, hnone]
  · rw [slotOfKey_key slot hslot, normalizeGroup_json]

theorem getSideSlotKeys_eq {slots : Slots} {side : WidgetSide} {count : ℕ}
    (hmax : count ≤ maxSideSlots)
    (hkeys : ∀ index, (slots (.side side index)).isSome ↔ index < count) :
    getSideSlotKeys slots side = List.range count := by
  have hranges : ∀ count ≤ maxSideSlots,
      (List.range maxSideSlots).filter (· < count) = List.range count := by decide
  unfold getSideSlotKeys
  rw [← hranges count hmax]
  exact List.filter_congr fun index _ => Bool.eq_iff_iff.mpr (by simp [hkeys])

theorem structureSlots_eq {counts : SideSlotCounts} {slots : Slots} (h : SlotsOk counts slots) :
    structureSlots slots counts = slots := by
  funext slot
  cases slot with
  | bottom =>
    obtain ⟨group, hgroup⟩ := Option.isSome_iff_exists.mp h.bottom
    unfold structureSlots
    rw [hgroup]
    rfl
  | side side index =>
    obtain ⟨count, -, hmax, hcount, hkeys⟩ := h.keys side
    unfold structureSlots
    dsimp only
    rw [hcount, getSideSlotKeys_eq hmax hkeys]
    by_cases hindex : index < count
    · obtain ⟨group, hgroup⟩ := Option.isSome_iff_exists.mp ((hkeys index).mpr hindex)
      rw [if_pos (Nat.cast_lt.mpr hindex), List.getElem?_range hindex, Option.bind_some, hgroup]
      rfl
    · rw [if_neg fun hlt => hindex (Nat.cast_lt.mp hlt)]
      exact (Option.not_isSome_iff_eq_none.mp fun hsome => hindex ((hkeys index).mp hsome)).symm

/-! ### Widgets that are used twice -/

section Dedupe

variable {slots : Slots} {used : List WidgetKey} {slot : WidgetSlotId} {widget : WidgetKey}

theorem dedupeSlot_shows (h : Shows slots slot widget) : dedupeSlot (slots, used) slot =
    if widget ∈ used then (Function.update slots slot (some createEmptyGroup), used)
    else (slots, widget :: used) := by
  unfold dedupeSlot
  unfold Shows at h
  dsimp only
  rw [h]

theorem dedupeSlot_empty (h : ∀ widget, ¬Shows slots slot widget) :
    dedupeSlot (slots, used) slot = (slots, used) := by
  unfold dedupeSlot
  dsimp only
  split
  · rename_i widget hslot
    exact absurd hslot (h widget)
  · rfl

theorem dedupeSlot_spec (slots : Slots) (used : List WidgetKey) (slot : WidgetSlotId) :
    ∃ slots' used', dedupeSlot (slots, used) slot = (slots', used') ∧
      (∀ other, other ≠ slot → slots' other = slots other) ∧
      (∀ other, (slots' other).isSome = (slots other).isSome) ∧
      (∀ widget ∈ used, widget ∈ used') ∧
      ∀ widget, Shows slots' slot widget → widget ∉ used ∧ widget ∈ used' := by
  by_cases hshows : ∃ widget, Shows slots slot widget
  · obtain ⟨widget, hwidget⟩ := hshows
    rw [dedupeSlot_shows hwidget]
    split
    · refine ⟨_, _, rfl, fun other hne => Function.update_of_ne hne _ _, fun other => ?_,
        fun _ h => h, fun other hother => ?_⟩
      · by_cases hother : other = slot
        · rw [hother, Function.update_self, isSome_of_shows hwidget]
          rfl
        · rw [Function.update_of_ne hother]
      · unfold Shows at hother
        rw [Function.update_self] at hother
        cases hother
    · rename_i hfresh
      refine ⟨_, _, rfl, fun _ _ => rfl, fun _ => rfl, fun _ h => List.mem_cons_of_mem _ h,
        fun other hother => ?_⟩
      cases hwidget.symm.trans hother
      exact ⟨hfresh, List.mem_cons_self⟩
  · have hempty : ∀ widget, ¬Shows slots slot widget := fun widget h => hshows ⟨widget, h⟩
    exact ⟨slots, used, dedupeSlot_empty hempty, fun _ _ => rfl, fun _ => rfl, fun _ h => h,
      fun widget h => absurd h (hempty widget)⟩

/-- **The step of `dedupeActiveWidgets`, slot after slot.** The slots of the list show different
widgets, none of them used before; no slot comes or goes. -/
theorem foldl_dedupeSlot (order : List WidgetSlotId) (hnodup : order.Nodup) (slots : Slots)
    (used : List WidgetKey) :
    (∀ slot ∉ order, (order.foldl dedupeSlot (slots, used)).1 slot = slots slot) ∧
    (∀ slot, ((order.foldl dedupeSlot (slots, used)).1 slot).isSome = (slots slot).isSome) ∧
    (∀ slot ∈ order, ∀ widget, Shows (order.foldl dedupeSlot (slots, used)).1 slot widget →
      widget ∉ used) ∧
    ∀ slot ∈ order, ∀ other ∈ order, ∀ widget,
      Shows (order.foldl dedupeSlot (slots, used)).1 slot widget →
      Shows (order.foldl dedupeSlot (slots, used)).1 other widget → slot = other := by
  induction order generalizing slots used with
  | nil =>
    exact ⟨fun _ _ => rfl, fun _ => rfl, fun _ h => absurd h List.not_mem_nil,
      fun _ h => absurd h List.not_mem_nil⟩
  | cons head order ih =>
    obtain ⟨hhead, hnodup⟩ := List.nodup_cons.mp hnodup
    obtain ⟨slots', used', heq, hothers, hkeys, hused, hshown⟩ := dedupeSlot_spec slots used head
    obtain ⟨ihothers, ihkeys, ihfresh, ihonce⟩ := ih hnodup slots' used'
    rw [List.foldl_cons, heq]
    generalize (order.foldl dedupeSlot (slots', used')).1 = result at ihothers ihkeys ihfresh ihonce
    -- the head keeps what its own step left it
    have hkept : result head = slots' head := ihothers head hhead
    have hnew : ∀ widget, Shows result head widget → widget ∉ used ∧ widget ∈ used' :=
      fun widget hwidget => hshown widget (hkept.symm.trans hwidget)
    refine ⟨fun slot hslot => ?_, fun slot => (ihkeys slot).trans (hkeys slot),
      fun slot hslot widget hwidget => ?_, fun slot hslot other hother widget hwidget hsame => ?_⟩
    · rw [List.mem_cons, not_or] at hslot
      exact (ihothers slot hslot.2).trans (hothers slot hslot.1)
    · rcases List.mem_cons.mp hslot with rfl | hrest
      · exact (hnew widget hwidget).1
      · exact fun hmem => ihfresh slot hrest widget hwidget (hused widget hmem)
    · rcases List.mem_cons.mp hslot with rfl | hrest
      · rcases List.mem_cons.mp hother with rfl | hlater
        · rfl
        · exact absurd (hnew widget hwidget).2 (ihfresh other hlater widget hsame)
      · rcases List.mem_cons.mp hother with rfl | hlater
        · exact absurd (hnew widget hsame).2 (ihfresh slot hrest widget hwidget)
        · exact ihonce slot hrest other hlater widget hwidget hsame

theorem foldl_dedupeSlot_eq (order : List WidgetSlotId) (hnodup : order.Nodup)
    (honce : ∀ widget slot other, Shows slots slot widget → Shows slots other widget →
      slot = other)
    (hfresh : ∀ slot ∈ order, ∀ widget ∈ used, ¬Shows slots slot widget) :
    (order.foldl dedupeSlot (slots, used)).1 = slots := by
  induction order generalizing used with
  | nil => rfl
  | cons head order ih =>
    obtain ⟨hhead, hnodup⟩ := List.nodup_cons.mp hnodup
    have hrest := fun slot hslot => hfresh slot (List.mem_cons_of_mem _ hslot)
    rw [List.foldl_cons]
    by_cases hshows : ∃ widget, Shows slots head widget
    · obtain ⟨widget, hwidget⟩ := hshows
      rw [dedupeSlot_shows hwidget,
        if_neg fun hmem => hfresh head List.mem_cons_self widget hmem hwidget]
      refine ih hnodup fun slot hslot other hother hsame => ?_
      rcases List.mem_cons.mp hother with rfl | hother
      · exact hhead (honce other head slot hwidget hsame ▸ hslot)
      · exact hrest slot hslot other hother hsame
    · rw [dedupeSlot_empty fun widget h => hshows ⟨widget, h⟩]
      exact ih hnodup hrest

theorem nodup_orderedKeys (slots : Slots) : (orderedKeys slots).Nodup := by
  have hside : ∀ side, ((getSideSlotKeys slots side).map (WidgetSlotId.side side)).Nodup :=
    fun side => (List.nodup_range.filter _).map fun _ _ h => (WidgetSlotId.side.inj h).2
  unfold orderedKeys
  rw [List.nodup_append', List.nodup_append']
  refine ⟨⟨hside .left, hside .right, ?_⟩, List.nodup_singleton _, ?_⟩
  · intro slot hleft hright
    obtain ⟨_, -, rfl⟩ := List.mem_map.mp hleft
    obtain ⟨_, -, hsame⟩ := List.mem_map.mp hright
    cases hsame
  · intro slot hsides hbottom
    rw [List.mem_singleton.mp hbottom] at hsides
    rcases List.mem_append.mp hsides with h | h
    · obtain ⟨_, -, hsame⟩ := List.mem_map.mp h
      cases hsame
    · obtain ⟨_, -, hsame⟩ := List.mem_map.mp h
      cases hsame

theorem mem_orderedKeys (hslot : (slots slot).isSome) (hmem : slot ∈ slotIds) :
    slot ∈ orderedKeys slots := by
  cases slot with
  | bottom => exact List.mem_append_right _ List.mem_cons_self
  | side side index =>
    have hindex := mem_slotIds.mp hmem side index rfl
    have hkey : index ∈ getSideSlotKeys slots side :=
      List.mem_filter.mpr ⟨List.mem_range.mpr hindex, hslot⟩
    refine List.mem_append_left _ ?_
    cases side with
    | left => exact List.mem_append_left _ (List.mem_map_of_mem hkey)
    | right => exact List.mem_append_right _ (List.mem_map_of_mem hkey)

end Dedupe

/-! ### Floating widgets -/

theorem isActive_iff {counts : SideSlotCounts} {slots : Slots} (h : SlotsOk counts slots)
    (widget : WidgetKey) : isActive slots widget = true ↔ ∃ slot, Shows slots slot widget := by
  unfold isActive
  rw [List.any_eq_true]
  constructor
  · rintro ⟨slot, -, hslot⟩
    exact ⟨slot, of_decide_eq_true hslot⟩
  · rintro ⟨slot, hslot⟩
    exact ⟨slot, h.mem_slotIds (isSome_of_shows hslot), decide_eq_true hslot⟩

theorem mem_slotIds_of_slotOfKey {key : Text} {slot : WidgetSlotId}
    (h : slotOfKey key = some slot) : slot ∈ slotIds := by
  unfold slotOfKey at h
  split at h
  · cases h
    decide
  · unfold parseSideSlotKey at h
    split at h
    · cases h
    · obtain ⟨index, hindex, rfl⟩ := Option.map_eq_some_iff.mp h
      have hlt := of_decide_eq_true (Option.filter_eq_some_iff.mp hindex).2
      rw [mem_slotIds]
      rintro _ _ ⟨⟩
      exact hlt

theorem normalizeFloating_ok {counts : SideSlotCounts} {slots : Slots} (h : SlotsOk counts slots)
    (raw : Option Json) : FloatingOk slots (normalizeFloating raw slots) := by
  unfold normalizeFloating
  generalize (raw.map Json.entries).getD [] = entries
  refine List.foldlRecOn entries _ ⟨fun _ => nofun, nofun⟩ fun next hnext entry _ => ?_
  split
  · exact hnext
  · rename_i widget _
    split
    · exact hnext
    · rename_i hinactive
      split
      · exact hnext
      · rename_i origin horigin
        have hmem : origin ∈ slotIds := by
          unfold normalizeOrigin at horigin
          split at horigin
          · exact mem_slotIds_of_slotOfKey horigin
          · cases horigin
        refine ⟨fun other hother slot hslot => ?_, fun other slot hother => ?_⟩
        · by_cases hsame : other = widget
          · subst hsame
            exact hinactive ((isActive_iff h other).mpr ⟨slot, hslot⟩)
          · rw [Function.update_of_ne hsame] at hother
            exact hnext.apart other hother slot hslot
        · by_cases hsame : other = widget
          · rw [hsame, Function.update_self] at hother
            cases hother
            exact hmem
          · rw [Function.update_of_ne hsame] at hother
            exact hnext.origin other slot hother

theorem normalizeFloating_json {counts : SideSlotCounts} {slots : Slots} (h : SlotsOk counts slots)
    {floating : FloatingWidgetLayout} (hfloating : FloatingOk slots floating) :
    normalizeFloating (some (floatingJson floating)) slots = floating := by
  unfold normalizeFloating floatingJson
  rw [Option.map_some, Option.getD_some]
  unfold Json.entries
  dsimp only
  rw [foldl_entries fun widget _ origin horigin next => ?_]
  · funext widget
    rw [if_pos (mem_widgetKeys widget), Option.or_none]
  · have hname : normalizeWidgetKey (.str widget.name) = some widget :=
      normalizeWidgetKey_name widget
    have hinactive : ¬isActive slots widget = true := fun hactive => by
      obtain ⟨slot, hslot⟩ := (isActive_iff h widget).mp hactive
      exact hfloating.apart widget (Option.isSome_of_mem horigin) slot hslot
    have hkey : normalizeOrigin ((Json.obj [("origin".toList, .str origin.key)]).get
        "origin".toList) = some origin :=
      slotOfKey_key origin (hfloating.origin widget origin horigin)
    dsimp only
    rw [hname]
    dsimp only
    rw [if_neg hinactive, hkey]

/-! ### The results -/

theorem clampNumber_mem {lo hi fallback : ℚ} (value : Option Json)
    (hfallback : lo ≤ fallback ∧ fallback ≤ hi) :
    lo ≤ clampNumber value lo hi fallback ∧ clampNumber value lo hi fallback ≤ hi := by
  unfold clampNumber
  split
  · exact ⟨le_min (hfallback.1.trans hfallback.2) (le_max_left _ _), min_le_left _ _⟩
  · exact hfallback

theorem clampNumber_eq {value lo hi : ℚ} (h : lo ≤ value ∧ value ≤ hi) (fallback : ℚ) :
    clampNumber (some (.num (.finite value))) lo hi fallback = value := by
  unfold clampNumber
  dsimp only
  rw [max_eq_right h.1, min_eq_right h.2]

theorem slotsOk_structured {slots : Slots} {counts : SideSlotCounts}
    (hwhole : ∀ side, ∃ count : ℕ, counts.get side = count)
    (hbounds : ∀ side, 1 ≤ counts.get side ∧ counts.get side ≤ maxSideSlots) :
    SlotsOk counts (dedupeActiveWidgets (structureSlots slots counts)) := by
  have hkeys : ∀ side index, (structureSlots slots counts (.side side index)).isSome ↔
      (index : ℚ) < counts.get side := by
    intro side index
    unfold structureSlots
    dsimp only
    split
    · rename_i hindex
      exact ⟨fun _ => hindex, fun _ => rfl⟩
    · rename_i hindex
      exact ⟨nofun, fun h => absurd h hindex⟩
  obtain ⟨-, hsame, -, honce⟩ := foldl_dedupeSlot (orderedKeys (structureSlots slots counts))
    (nodup_orderedKeys _) (structureSlots slots counts) []
  have hmem : ∀ slot, (dedupeActiveWidgets (structureSlots slots counts) slot).isSome →
      slot ∈ orderedKeys (structureSlots slots counts) := by
    intro slot hslot
    have hslot := (hsame slot).symm.trans hslot
    refine mem_orderedKeys hslot (mem_slotIds.mpr ?_)
    rintro side index rfl
    exact Nat.cast_lt.mp (((hkeys side index).mp hslot).trans_le (hbounds side).2)
  refine ⟨fun side => ?_, ?_, fun widget slot other hslot hother => ?_⟩
  · obtain ⟨count, hcount⟩ := hwhole side
    have hbound := hbounds side
    rw [hcount] at hbound
    refine ⟨count, Nat.one_le_cast.mp hbound.1, Nat.cast_le.mp hbound.2, hcount, fun index => ?_⟩
    rw [show (dedupeActiveWidgets (structureSlots slots counts) (.side side index)).isSome =
      (structureSlots slots counts (.side side index)).isSome from hsame _, hkeys, hcount,
      Nat.cast_lt]
  · exact (hsame .bottom).trans rfl
  · exact honce slot (hmem slot (isSome_of_shows hslot)) other (hmem other (isSome_of_shows hother))
      widget hslot hother

theorem clampCount_mem (value : Option Json) :
    1 ≤ clampCount value ∧ clampCount value ≤ maxSideSlots :=
  clampNumber_mem value ⟨le_refl _, by norm_num [maxSideSlots]⟩

theorem normalizedCounts_get (slots : Slots) (counts : SideSlotCounts) (side : WidgetSide) :
    (normalizeSideSlotStructure slots counts).2.get side =
      clampCount (some (.num (.finite (counts.get side)))) := by
  cases side <;> rfl

/-- **A layout from a document is consistent**, if its slot counts are whole. -/
theorem consistent_of_normalize {raw : Json} {layout : WidgetLayout}
    (h : normalizeWidgetLayout raw = some layout)
    (hwhole : ∀ side, ∃ count : ℕ, layout.sideSlotCounts.get side = count) :
    Consistent layout := by
  unfold normalizeWidgetLayout at h
  dsimp only at h
  split at h
  · cases h
  · obtain rfl := Option.some.inj h
    generalize normalizeSlots ((raw.get "slots".toList).getD .null) = slots at hwhole ⊢
    generalize SideSlotCounts.mk _ _ = counts at hwhole ⊢
    have hslots : SlotsOk (normalizeSideSlotStructure slots counts).2
        (dedupeActiveWidgets (normalizeSideSlotStructure slots counts).1) :=
      slotsOk_structured hwhole fun side =>
        normalizedCounts_get slots counts side ▸ clampCount_mem _
    refine ⟨hslots, normalizeFloating_ok hslots _, ⟨?_, ?_, ?_⟩⟩
    · exact clampNumber_mem _ ⟨by norm_num, by norm_num⟩
    · exact clampNumber_mem _ ⟨by norm_num, by norm_num⟩
    · exact clampNumber_mem _ ⟨by norm_num, by norm_num⟩

theorem clampCount_eq {slots : Slots} {counts : SideSlotCounts} (h : SlotsOk counts slots)
    (side : WidgetSide) :
    clampCount (some (.num (.finite (counts.get side)))) = counts.get side := by
  obtain ⟨count, hmin, hmax, hcount, -⟩ := h.keys side
  refine clampNumber_eq ?_ 1
  rw [hcount]
  exact ⟨Nat.one_le_cast.mpr hmin, Nat.cast_le.mpr hmax⟩

theorem normalizeSideSlotStructure_eq {slots : Slots} {counts : SideSlotCounts}
    (h : SlotsOk counts slots) : normalizeSideSlotStructure slots counts = (slots, counts) := by
  unfold normalizeSideSlotStructure
  dsimp only
  rw [clampCount_eq h .left, clampCount_eq h .right]
  exact congrArg (·, counts) (structureSlots_eq h)

/-- **A consistent layout is what its document gives.** -/
theorem normalizeWidgetLayout_toJson {layout : WidgetLayout} (h : Consistent layout) :
    normalizeWidgetLayout layout.toJson = some layout := by
  have hdeduped : dedupeActiveWidgets layout.slots = layout.slots :=
    foldl_dedupeSlot_eq _ (nodup_orderedKeys _) h.slots.once fun _ _ _ hused =>
      absurd hused List.not_mem_nil
  have hleft : clampCount (some (.num (.finite layout.sideSlotCounts.left))) =
      layout.sideSlotCounts.left := clampCount_eq h.slots .left
  have hright : clampCount (some (.num (.finite layout.sideSlotCounts.right))) =
      layout.sideSlotCounts.right := clampCount_eq h.slots .right
  have hcounts : (layout.toJson.get "sideSlotCounts".toList).bind (·.get WidgetSide.left.name) =
        some (.num (.finite layout.sideSlotCounts.left)) ∧
      (layout.toJson.get "sideSlotCounts".toList).bind (·.get WidgetSide.right.name) =
        some (.num (.finite layout.sideSlotCounts.right)) := ⟨rfl, rfl⟩
  have hsizes : ((layout.toJson.get "sizes".toList).getD .null).get "left".toList =
        some (.num (.finite layout.sizes.left)) ∧
      ((layout.toJson.get "sizes".toList).getD .null).get "right".toList =
        some (.num (.finite layout.sizes.right)) ∧
      ((layout.toJson.get "sizes".toList).getD .null).get "bottom".toList =
        some (.num (.finite layout.sizes.bottom)) := ⟨rfl, rfl, rfl⟩
  have hslots : (layout.toJson.get "slots".toList).getD .null = slotsJson layout.slots := rfl
  have hfloating : layout.toJson.get "floating".toList = some (floatingJson layout.floating) := rfl
  have hobject : (!layout.toJson.isObject || !isVersionOne (layout.toJson.get "version".toList) ||
      !((layout.toJson.get "sizes".toList).getD .null).truthy ||
      !((layout.toJson.get "slots".toList).getD .null).truthy) = false := rfl
  have hcollapsed : WidgetCollapsed.mk
      (normalizeFlag ((layout.toJson.get "collapsed".toList).bind (·.get "left".toList)) false)
      (normalizeFlag ((layout.toJson.get "collapsed".toList).bind (·.get "right".toList)) false)
      (normalizeFlag ((layout.toJson.get "collapsed".toList).bind (·.get "bottom".toList)) false) =
        layout.collapsed := rfl
  unfold normalizeWidgetLayout
  dsimp only
  rw [hobject, if_neg Bool.false_ne_true, hcollapsed, hcounts.1, hcounts.2, hleft, hright, hslots,
    normalizeSlots_json h.slots, normalizeSideSlotStructure_eq h.slots, hdeduped, hfloating,
    normalizeFloating_json h.slots h.floating, hsizes.1, hsizes.2.1, hsizes.2.2,
    clampNumber_eq h.sizes.left, clampNumber_eq h.sizes.right, clampNumber_eq h.sizes.bottom]

end FluxTerm.Layout
