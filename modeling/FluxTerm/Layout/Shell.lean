import FluxTerm.Layout.Model
import FluxTerm.Lib.Machine

/-!
# FluxTerm — the live layout of the main window

The calls that move widgets: `handleSlotReplace`, `handleOpenTransfersWidget` and
`handleSendSelectionToAi` of `AppShell.tsx`, `handleToggleSplit` and `handleCloseSlot` of
`useLayoutState.ts`, and the floating windows of `useFloatingWidgets.ts`. A call sees what has been
rendered; what it sets is there at the next render.

* **`layoutSound_of_inOrder`** — the result on runs.
* **`sampleMove_names`** — a widget that moves empties the slot where it was.
-/

namespace FluxTerm.Layout

open FluxTerm.Lib

/-! ## Saving and loading -/

namespace WidgetLayout

variable (layout : WidgetLayout)

/-- What the save effect writes: every side has its slots. -/
def persisted : WidgetLayout :=
  let normalizedCounts : SideSlotCounts :=
    ⟨max 1 layout.sideSlotCounts.left, max 1 layout.sideSlotCounts.right⟩
  { layout with
    sideSlotCounts := normalizedCounts
    slots := fun slot => (layout.slots slot).or <|
      match slot with
      | .bottom => some createEmptyGroup
      | .side side index =>
        if (index : ℚ) < normalizedCounts.get side then some createEmptyGroup else none }

def isEmpty : Bool :=
  (slotIds.all fun slot => ((layout.slots slot).bind (·.active)).isNone) &&
    widgetKeys.all fun widget => (layout.floating widget).isNone

end WidgetLayout

/-- `loadLayoutConfig`, from a document that has been read and parsed. -/
def loadLayoutConfig (raw : Json) : Option WidgetLayout :=
  match normalizeWidgetLayout raw with
  | none => none
  | some normalized => some (if normalized.isEmpty then defaultWidgetLayout else normalized)

/-! ## The window -/

structure Shell where
  now : WidgetLayout
  rendered : WidgetLayout
  floatingWidgets : WidgetKey → Bool
  /-- `floatingWidgets` at the last render. -/
  renderedFloating : WidgetKey → Bool
  /-- The slots that updaters of `handleToggleSplit` set, with the sides that they split. -/
  late : List (WidgetSide × Slots)
  /-- `floatingWindowRef`. -/
  windows : WidgetKey → Bool
  onError : List (WidgetSlotId × WidgetKey)
  onDestroyed : List WidgetKey
  sends : List Slots
  shuttingDown : Bool

def clearSlot (slots : Slots) (slot : WidgetSlotId) : Slots :=
  if (slots slot).isSome then Function.update slots slot (some createEmptyGroup) else slots

def showInSlot (slots : Slots) (slot : WidgetSlotId) (widget : WidgetKey) : Slots :=
  if (slots slot).isSome then Function.update slots slot (some ⟨some widget⟩) else slots

def removeSlot (slots : Slots) (side : WidgetSide) (index : ℕ) : Slots
  | .bottom => slots .bottom
  | .side itemSide itemIndex =>
    if itemSide = side ∧ index ≤ itemIndex then slots (.side itemSide (itemIndex + 1))
    else slots (.side itemSide itemIndex)

def findAiSlot (slots : Slots) : Option WidgetSlotId :=
  slotIds.find? fun slot => Shows slots slot .ai

/-- `setWidgetCollapsed(side, false)`. -/
def WidgetCollapsed.open (collapsed : WidgetCollapsed) : WidgetSlotId → WidgetCollapsed
  | .side .left _ => { collapsed with left := false }
  | .side .right _ => { collapsed with right := false }
  | .bottom => { collapsed with bottom := false }

namespace Shell

/-- After the first render. -/
def start (layout : WidgetLayout) : Shell where
  now := layout
  rendered := layout
  floatingWidgets _ := false
  renderedFloating _ := false
  late := []
  windows _ := false
  onError := []
  onDestroyed := []
  sends := []
  shuttingDown := false

variable (s : Shell)

def setSlots (slots : Slots) : Shell := { s with now := { s.now with slots } }

def dropFloating (widget : WidgetKey) : Shell :=
  { s with now := { s.now with floating := Function.update s.now.floating widget none } }

/-! ### The calls -/

def handleSlotReplace (slot : WidgetSlotId) (key : WidgetKey) : Shell :=
  if (s.rendered.floating key).isSome then s
  else s.setSlots (moveWidgetToSlot s.now.slots key slot)

/-- `handleToggleSplit`: the updater of the counts sets the slots too, from what was rendered. -/
def handleToggleSplit (side : WidgetSide) : Shell :=
  let result := increaseSideSlots s.rendered.slots side (s.now.sideSlotCounts.get side)
  { s with
    now := { s.now with sideSlotCounts := s.now.sideSlotCounts.set result.2 side }
    late := s.late ++ [(side, result.1)] }

def handleCloseSlot : WidgetSlotId → Shell
  | .bottom => s.setSlots (clearSlot s.now.slots .bottom)
  | .side side index =>
    let currentCount := s.rendered.sideSlotCounts.get side
    if currentCount ≤ index then s
    else if currentCount ≤ 1 then s.setSlots (clearSlot s.now.slots (.side side index))
    else { s with
      now := { s.now with
        slots := removeSlot s.now.slots side index
        sideSlotCounts := s.now.sideSlotCounts.set
          (max 1 (s.now.sideSlotCounts.get side - 1)) side } }

def cleanupFloatingRuntime (widget : WidgetKey) : Shell := { s with
  windows := Function.update s.windows widget false
  floatingWidgets := Function.update s.floatingWidgets widget false }

def dismissFloatingWidget (widget : WidgetKey) : Shell :=
  (s.cleanupFloatingRuntime widget).dropFloating widget

def failOpening (slot : WidgetSlotId) (widget : WidgetKey) : Shell :=
  (s.dismissFloatingWidget widget).setSlots (showInSlot s.now.slots slot widget)

def openFloatingWindow (slot : WidgetSlotId) (widget : WidgetKey) (opens : Bool) : Shell :=
  if s.windows widget then s
  else
    let opening := { s with floatingWidgets := Function.update s.floatingWidgets widget true }
    if opens then { opening with
      windows := Function.update s.windows widget true
      onError := (slot, widget) :: s.onError
      onDestroyed := widget :: s.onDestroyed }
    else opening.failOpening slot widget

def handleFloat (slot : WidgetSlotId) (opens : Bool) : Shell :=
  match (s.rendered.slots slot).bind (·.active) with
  | none => s
  | some widget =>
    let floating := { s with now := { s.now with
      floating := Function.update s.now.floating widget (some slot)
      slots := if Shows s.now.slots slot widget then clearSlot s.now.slots slot else s.now.slots } }
    floating.openFloatingWindow slot widget opens

def handleOpenTransfersWidget : Shell :=
  if s.renderedFloating .transfers ∨ (s.rendered.floating .transfers).isSome then s
  else
    { s with now := { s.now with
      collapsed := s.now.collapsed.open .bottom
      slots := showInSlot s.now.slots .bottom .transfers } }

/-- What `handleSendSelectionToAi` does when the selection has been sent. -/
def showAi (captured : Slots) : Shell :=
  match findAiSlot captured with
  | some slot => { s with now := { s.now with collapsed := s.now.collapsed.open slot } }
  | none => { s with now := { s.now with
    collapsed := s.now.collapsed.open (.side .right 0)
    slots := moveWidgetToSlot s.now.slots .ai (.side .right 0) } }

end Shell

/-! ## Steps -/

inductive ShellStep where
  | slotReplace (slot : WidgetSlotId) (key : WidgetKey)
  | toggleSplit (side : WidgetSide)
  | setLate
  | closeSlot (slot : WidgetSlotId)
  | float (slot : WidgetSlotId) (opens : Bool)
  | restoreFloating (widget : WidgetKey) (opens : Bool)
  | openFailed (slot : WidgetSlotId) (widget : WidgetKey)
  | destroyed (widget : WidgetKey)
  | restoreMessage (widget : WidgetKey)
  | openTransfers
  | sendSelection
  | selectionSent (send : ℕ)
  | closeRequested
  | render

def Shell.gone (s : Shell) (widget : WidgetKey) : Shell :=
  if s.shuttingDown then s.cleanupFloatingRuntime widget else s.dismissFloatingWidget widget

def Shell.next (s : Shell) : ShellStep → Option Shell
  | .slotReplace slot key => some (s.handleSlotReplace slot key)
  | .toggleSplit side => some (s.handleToggleSplit side)
  | .setLate =>
    match s.late with
    | [] => none
    | (_, slots) :: late => some { s.setSlots slots with late }
  | .closeSlot slot => some (s.handleCloseSlot slot)
  | .float slot opens => some (s.handleFloat slot opens)
  | .restoreFloating widget opens =>
    if s.shuttingDown ∨ s.renderedFloating widget then none
    else (s.rendered.floating widget).map (s.openFloatingWindow · widget opens)
  | .openFailed slot widget =>
    if (slot, widget) ∈ s.onError then
      some { s.failOpening slot widget with onError := s.onError.erase (slot, widget) }
    else none
  | .destroyed widget =>
    if widget ∈ s.onDestroyed then
      some { s.gone widget with onDestroyed := s.onDestroyed.erase widget }
    else none
  | .restoreMessage widget => some (s.gone widget)
  | .openTransfers => some s.handleOpenTransfersWidget
  | .sendSelection => some { s with sends := s.sends ++ [s.rendered.slots] }
  | .selectionSent send =>
    (s.sends[send]?).map fun captured => { s.showAi captured with sends := s.sends.eraseIdx send }
  | .closeRequested => some { s with shuttingDown := true }
  | .render =>
    if s.late = [] then
      some { s with rendered := s.now, renderedFloating := s.floatingWidgets }
    else none

def layoutShell (layout : WidgetLayout) : Machine Shell ShellStep :=
  .ofStep (.start layout) Shell.next

/-! ## What is wanted -/

def IsStartLayout (layout : WidgetLayout) : Prop :=
  layout = defaultWidgetLayout ∨ ∃ raw, normalizeWidgetLayout raw = some layout

def WidgetLayout.HasWholeCounts (layout : WidgetLayout) : Prop :=
  ∀ side, ∃ count : ℕ, layout.sideSlotCounts.get side = count

/-- The slots that a step may change: the ones that it is about, the slot that its widget leaves,
and the ones that move up when a slot is closed. -/
def Names (s : Shell) : ShellStep → WidgetSlotId → Prop
  | .slotReplace target key, slot => slot = target ∨ Shows s.now.slots slot key
  | .setLate, slot => ∃ entry ∈ s.late, ∃ count : ℕ,
      s.now.sideSlotCounts.get entry.1 = count ∧ slot = .side entry.1 (count - 1)
  | .closeSlot .bottom, slot => slot = .bottom
  | .closeSlot (.side side index), slot => ∃ later, index ≤ later ∧ slot = .side side later
  | .float target _, slot => slot = target
  | .restoreFloating widget _, slot => s.rendered.floating widget = some slot
  | .openFailed target _, slot => slot = target
  | .openTransfers, slot => slot = .bottom
  | .selectionSent _, slot => slot = .side .right 0 ∨ Shows s.now.slots slot .ai
  | _, _ => False

def OnlyIn (slots : Slots) (widget : WidgetKey) (slot : WidgetSlotId) : Prop :=
  ∀ other, Shows slots other widget → other = slot

/-- **The condition.** A call decides by values that are still right when it is made, and a split is
finished before the next call; a widget is docked only while it does not float and is in no other
slot. -/
def ShellStep.InOrder (s : Shell) : ShellStep → Prop
  | .slotReplace slot key => s.late = [] ∧ (s.rendered.floating key = none →
      s.now.floating key = none ∧ (s.now.slots slot).isSome)
  | .toggleSplit _ => s.late = [] ∧ s.rendered.slots = s.now.slots
  | .closeSlot .bottom => s.late = []
  | .closeSlot (.side side _) => s.late = [] ∧
      s.rendered.sideSlotCounts.get side = s.now.sideSlotCounts.get side
  | .float slot _ => s.late = [] ∧ ∀ widget, Shows s.rendered.slots slot widget →
      OnlyIn s.now.slots widget slot
  | .restoreFloating widget _ => s.late = [] ∧ ∀ slot, s.rendered.floating widget = some slot →
      OnlyIn s.now.slots widget slot
  | .openFailed slot widget => s.late = [] ∧ OnlyIn s.now.slots widget slot
  | .openTransfers => s.late = [] ∧ (s.rendered.floating .transfers = none →
      s.now.floating .transfers = none ∧ OnlyIn s.now.slots .transfers .bottom)
  | .selectionSent send => s.late = [] ∧ ∀ captured, s.sends[send]? = some captured →
      findAiSlot captured = none → s.now.floating .ai = none
  | _ => True

/-- The layout is consistent and survives a restart, and a step changes the slots that it names. -/
structure LayoutSound (s : Shell) : Prop where
  consistent : Consistent s.rendered
  normalizes : normalizeWidgetLayout s.rendered.persisted.toJson = some s.rendered
  restarts : loadLayoutConfig s.rendered.persisted.toJson =
    some (if s.rendered.isEmpty then defaultWidgetLayout else s.rendered)
  frame : ∀ step t, s.next step = some t →
    ∀ slot, ¬Names s step slot → t.now.slots slot = s.now.slots slot

/-! ## Slots -/

section Slots

variable {counts : SideSlotCounts} {slots slots' : Slots} {slot target other : WidgetSlotId}
  {widget key : WidgetKey}

theorem shows_moveWidgetToSlot : Shows (moveWidgetToSlot slots key target) slot widget ↔
    (slot = target ∧ widget = key) ∨ (slot ≠ target ∧ widget ≠ key ∧ Shows slots slot widget) := by
  unfold moveWidgetToSlot
  by_cases hslot : slot = target
  · unfold Shows
    rw [hslot, Function.update_self]
    simp [eq_comm]
  · have hne : Shows (Function.update
        (fun slot => if Shows slots slot key then some createEmptyGroup else slots slot)
        target (some ⟨some key⟩)) slot widget ↔
          (if Shows slots slot key then some createEmptyGroup else slots slot) =
            some ⟨some widget⟩ := by
      unfold Shows
      rw [Function.update_of_ne hslot]
    rw [hne]
    constructor
    · intro h
      split at h
      · cases h
      · rename_i hkey
        refine .inr ⟨hslot, ?_, h⟩
        rintro rfl
        exact hkey h
    · rintro (⟨h, -⟩ | ⟨-, hwidget, h⟩)
      · exact absurd h hslot
      · rw [if_neg fun hkey => hwidget ?_]
        · exact h
        · cases h.symm.trans hkey
          rfl

theorem isSome_moveWidgetToSlot (h : (slots target).isSome) :
    (moveWidgetToSlot slots key target slot).isSome = (slots slot).isSome := by
  unfold moveWidgetToSlot
  by_cases hslot : slot = target
  · rw [hslot, Function.update_self, h]
    rfl
  · rw [Function.update_of_ne hslot]
    split
    · rename_i hkey
      exact (isSome_of_shows hkey).symm
    · rfl

theorem shows_clearSlot :
    Shows (clearSlot slots target) slot widget ↔ slot ≠ target ∧ Shows slots slot widget := by
  unfold clearSlot
  split
  · by_cases hslot : slot = target
    · unfold Shows
      rw [hslot, Function.update_self]
      exact ⟨nofun, fun h => absurd rfl h.1⟩
    · unfold Shows
      rw [Function.update_of_ne hslot]
      exact ⟨fun h => ⟨hslot, h⟩, fun h => h.2⟩
  · rename_i hnone
    refine ⟨fun h => ⟨?_, h⟩, fun h => h.2⟩
    rintro rfl
    exact hnone (isSome_of_shows h)

theorem isSome_clearSlot : (clearSlot slots target slot).isSome = (slots slot).isSome := by
  unfold clearSlot
  split
  · rename_i hsome
    by_cases hslot : slot = target
    · rw [hslot, Function.update_self, hsome]
      rfl
    · rw [Function.update_of_ne hslot]
  · rfl

theorem shows_showInSlot (h : Shows (showInSlot slots target key) slot widget) :
    (slot = target ∧ widget = key) ∨ (slot ≠ target ∧ Shows slots slot widget) := by
  unfold showInSlot at h
  split at h
  · unfold Shows at h
    by_cases hslot : slot = target
    · rw [hslot, Function.update_self] at h
      cases h
      exact .inl ⟨hslot, rfl⟩
    · rw [Function.update_of_ne hslot] at h
      exact .inr ⟨hslot, h⟩
  · rename_i hnone
    refine .inr ⟨?_, h⟩
    rintro rfl
    exact hnone (isSome_of_shows h)

theorem isSome_showInSlot : (showInSlot slots target key slot).isSome = (slots slot).isSome := by
  unfold showInSlot
  split
  · rename_i hsome
    by_cases hslot : slot = target
    · rw [hslot, Function.update_self, hsome]
      rfl
    · rw [Function.update_of_ne hslot]
  · rfl

theorem SlotsOk.of_isSome (h : SlotsOk counts slots)
    (hsame : ∀ slot, (slots' slot).isSome = (slots slot).isSome)
    (honce : ∀ widget slot other, Shows slots' slot widget → Shows slots' other widget →
      slot = other) : SlotsOk counts slots' := by
  refine ⟨fun side => ?_, (hsame .bottom).trans h.bottom, honce⟩
  obtain ⟨count, hmin, hmax, hcount, hkeys⟩ := h.keys side
  exact ⟨count, hmin, hmax, hcount, fun index => (hsame _) ▸ hkeys index⟩

theorem SlotsOk.moveWidgetToSlot (h : SlotsOk counts slots) (htarget : (slots target).isSome) :
    SlotsOk counts (moveWidgetToSlot slots key target) := by
  refine h.of_isSome (fun slot => isSome_moveWidgetToSlot htarget)
    fun widget slot other hslot hother => ?_
  rcases shows_moveWidgetToSlot.mp hslot with ⟨rfl, rfl⟩ | ⟨-, hne, hslot⟩
  · rcases shows_moveWidgetToSlot.mp hother with ⟨rfl, -⟩ | ⟨-, hne, -⟩
    · rfl
    · exact absurd rfl hne
  · rcases shows_moveWidgetToSlot.mp hother with ⟨-, rfl⟩ | ⟨-, -, hother⟩
    · exact absurd rfl hne
    · exact h.once widget slot other hslot hother

theorem SlotsOk.clearSlot (h : SlotsOk counts slots) : SlotsOk counts (clearSlot slots target) :=
  h.of_isSome (fun _ => isSome_clearSlot) fun widget slot other hslot hother =>
    h.once widget slot other (shows_clearSlot.mp hslot).2 (shows_clearSlot.mp hother).2

theorem SlotsOk.showInSlot (h : SlotsOk counts slots) (honly : OnlyIn slots key target) :
    SlotsOk counts (showInSlot slots target key) := by
  refine h.of_isSome (fun _ => isSome_showInSlot) fun widget slot other hslot hother => ?_
  rcases shows_showInSlot hslot with ⟨rfl, rfl⟩ | ⟨-, hbefore⟩
  · rcases shows_showInSlot hother with ⟨rfl, -⟩ | ⟨-, hafter⟩
    · rfl
    · exact (honly other hafter).symm
  · rcases shows_showInSlot hother with ⟨rfl, rfl⟩ | ⟨-, hafter⟩
    · exact honly slot hbefore
    · exact h.once widget slot other hbefore hafter

theorem FloatingOk.of_shows {floating : FloatingWidgetLayout} (h : FloatingOk slots floating)
    (hshows : ∀ slot widget, Shows slots' slot widget →
      (∃ other, Shows slots other widget) ∨ floating widget = none) :
    FloatingOk slots' floating := by
  refine ⟨fun widget hfloating slot hslot => ?_, h.origin⟩
  rcases hshows slot widget hslot with ⟨other, hother⟩ | hnone
  · exact h.apart widget hfloating other hother
  · rw [hnone] at hfloating
    cases hfloating

@[simp] theorem get_set (count : ℚ) (side : WidgetSide) :
    (counts.set count side).get side = count := by
  cases side <;> rfl

theorem get_set_of_ne {side itemSide : WidgetSide} (hne : itemSide ≠ side) (count : ℚ) :
    (counts.set count side).get itemSide = counts.get itemSide := by
  cases side <;> cases itemSide <;> first | rfl | exact absurd rfl hne

theorem increaseSideSlots_eq (slots : Slots) (side : WidgetSide) {count : ℕ} (hmax : count ≤ maxSideSlots) :
    increaseSideSlots slots side count =
      if count = maxSideSlots then (slots, (count : ℚ))
      else (Function.update slots (.side side count) (some createEmptyGroup),
        ((count + 1 : ℕ) : ℚ)) := by
  have hnext : min (maxSideSlots : ℚ) ((count : ℚ) + 1) = (min maxSideSlots (count + 1) : ℕ) := by
    rw [Nat.cast_min, Nat.cast_add, Nat.cast_one]
  unfold increaseSideSlots
  rw [hnext]
  dsimp only
  by_cases hcount : count = maxSideSlots
  · rw [if_pos hcount, hcount, min_eq_left (Nat.le_succ _), if_pos (.inl rfl)]
  · rw [if_neg hcount, min_eq_right (Nat.lt_of_le_of_ne hmax hcount), Rat.num_natCast,
      Rat.den_natCast, if_neg]
    · rfl
    · rintro (hsame | hden)
      · exact absurd (Nat.cast_injective hsame) (Nat.succ_ne_self count)
      · exact hden rfl

theorem shows_of_update_empty
    (h : Shows (Function.update slots target (some createEmptyGroup)) slot widget) :
    slot ≠ target ∧ Shows slots slot widget := by
  unfold Shows at h
  by_cases hslot : slot = target
  · rw [hslot, Function.update_self] at h
    cases h
  · rw [Function.update_of_ne hslot] at h
    exact ⟨hslot, h⟩

theorem SlotsOk.increaseSideSlots (h : SlotsOk counts slots) (side : WidgetSide) :
    SlotsOk (counts.set (increaseSideSlots slots side (counts.get side)).2 side)
      (increaseSideSlots slots side (counts.get side)).1 := by
  obtain ⟨count, hmin, hmax, hcount, hkeys⟩ := h.keys side
  rw [hcount, increaseSideSlots_eq slots side hmax]
  split
  · -- the side has all slots
    have hsame : counts.set count side = counts := by
      rw [← hcount]
      cases side <;> rfl
    rw [hsame]
    exact h
  · rename_i hne
    dsimp only
    refine ⟨fun itemSide => ?_, ?_, fun widget slot other hslot hother => ?_⟩
    · by_cases hside : itemSide = side
      · subst hside
        refine ⟨count + 1, Nat.le_add_left _ _, Nat.lt_of_le_of_ne hmax hne, get_set _ _,
          fun index => ?_⟩
        by_cases hindex : index = count
        · rw [hindex, Function.update_self]
          exact ⟨fun _ => Nat.lt_succ_self _, fun _ => rfl⟩
        · rw [Function.update_of_ne fun heq => hindex (WidgetSlotId.side.inj heq).2, hkeys]
          omega
      · obtain ⟨count', hmin', hmax', hcount', hkeys'⟩ := h.keys itemSide
        refine ⟨count', hmin', hmax', (get_set_of_ne hside _).trans hcount', fun index => ?_⟩
        rw [Function.update_of_ne fun heq => hside (WidgetSlotId.side.inj heq).1]
        exact hkeys' index
    · have hbottom : WidgetSlotId.bottom ≠ .side side count := nofun
      rw [Function.update_of_ne hbottom]
      exact h.bottom
    · exact h.once widget slot other (shows_of_update_empty hslot).2
        (shows_of_update_empty hother).2

def slotBefore (side : WidgetSide) (index : ℕ) : WidgetSlotId → WidgetSlotId
  | .bottom => .bottom
  | .side itemSide itemIndex =>
    if itemSide = side ∧ index ≤ itemIndex then .side itemSide (itemIndex + 1)
    else .side itemSide itemIndex

theorem removeSlot_apply (slots : Slots) (side : WidgetSide) (index : ℕ) (slot : WidgetSlotId) :
    removeSlot slots side index slot = slots (slotBefore side index slot) := by
  cases slot with
  | bottom => rfl
  | side itemSide itemIndex =>
    unfold removeSlot slotBefore
    dsimp only
    split <;> rfl

theorem slotBefore_injective (side : WidgetSide) (index : ℕ) :
    Function.Injective (slotBefore side index) := by
  intro slot other h
  cases slot <;> cases other <;> simp only [slotBefore] at h <;> grind

theorem SlotsOk.removeSlot (h : SlotsOk counts slots) {side : WidgetSide} {index : ℕ}
    (hindex : (index : ℚ) < counts.get side) (hmany : 1 < counts.get side) :
    SlotsOk (counts.set (max 1 (counts.get side - 1)) side) (removeSlot slots side index) := by
  obtain ⟨count, hmin, hmax, hcount, hkeys⟩ := h.keys side
  rw [hcount] at hindex hmany ⊢
  have hindex : index < count := Nat.cast_lt.mp hindex
  have hmany : 1 < count := Nat.one_lt_cast.mp hmany
  have hrest : max 1 ((count : ℚ) - 1) = ((count - 1 : ℕ) : ℚ) := by
    rw [Nat.cast_sub hmin, Nat.cast_one, max_eq_right]
    have : ((2 : ℕ) : ℚ) ≤ count := Nat.cast_le.mpr hmany
    push_cast at this
    linarith
  rw [hrest]
  refine ⟨fun itemSide => ?_, ?_, fun widget slot other hslot hother => ?_⟩
  · by_cases hside : itemSide = side
    · subst hside
      refine ⟨count - 1, by omega, by omega, get_set _ _, fun itemIndex => ?_⟩
      unfold Layout.removeSlot
      dsimp only
      split
      · rw [hkeys]
        omega
      · rename_i hbefore
        have hlt : itemIndex < index := not_le.mp fun hle => hbefore ⟨rfl, hle⟩
        rw [hkeys]
        omega
    · obtain ⟨count', hmin', hmax', hcount', hkeys'⟩ := h.keys itemSide
      refine ⟨count', hmin', hmax', (get_set_of_ne hside _).trans hcount', fun itemIndex => ?_⟩
      unfold Layout.removeSlot
      dsimp only
      rw [if_neg fun hsame => hside hsame.1]
      exact hkeys' itemIndex
  · exact h.bottom
  · unfold Shows at hslot hother
    rw [removeSlot_apply] at hslot hother
    exact slotBefore_injective side index (h.once widget _ _ hslot hother)

end Slots

/-! ## The invariant -/

namespace Shell

variable {s t : Shell}

def settled (s : Shell) : WidgetLayout :=
  match s.late with
  | [] => s.now
  | (_, slots) :: _ => { s.now with slots }

/-- **The invariant.** -/
structure Steady (s : Shell) : Prop where
  rendered : Consistent s.rendered
  settled : Consistent s.settled
  late : s.late = [] ∨ ∃ side slots, ∃ count : ℕ, s.late = [(side, slots)] ∧
    s.now.sideSlotCounts.get side = count ∧
    ∀ slot, slot ≠ .side side (count - 1) → slots slot = s.now.slots slot

theorem Steady.now (h : s.Steady) (hlate : s.late = []) : Consistent s.now := by
  have hsettled := h.settled
  unfold Shell.settled at hsettled
  rw [hlate] at hsettled
  exact hsettled

theorem Steady.of_now (h : s.Steady) (hrendered : t.rendered = s.rendered) (hlate : t.late = [])
    (hnow : Consistent t.now) : t.Steady := by
  refine ⟨hrendered ▸ h.rendered, ?_, .inl hlate⟩
  unfold Shell.settled
  rw [hlate]
  exact hnow

theorem floatingOk_drop {slots : Slots} {floating : FloatingWidgetLayout}
    (h : FloatingOk slots floating) (widget : WidgetKey) :
    FloatingOk slots (Function.update floating widget none) := by
  refine ⟨fun other hother => h.apart other ?_, fun other slot hother => h.origin other slot ?_⟩
  · by_cases hsame : other = widget
    · rw [hsame, Function.update_self] at hother
      cases hother
    · rwa [Function.update_of_ne hsame] at hother
  · by_cases hsame : other = widget
    · rw [hsame, Function.update_self] at hother
      cases hother
    · rwa [Function.update_of_ne hsame] at hother

theorem Steady.handleSlotReplace (h : s.Steady) {slot : WidgetSlotId} {key : WidgetKey}
    (horder : (ShellStep.slotReplace slot key).InOrder s) :
    (s.handleSlotReplace slot key).Steady := by
  obtain ⟨hlate, horder⟩ := horder
  have hnow := h.now hlate
  unfold Shell.handleSlotReplace
  split
  · exact h
  · rename_i hfree
    obtain ⟨hfloating, hslot⟩ := horder (Option.not_isSome_iff_eq_none.mp hfree)
    refine h.of_now rfl hlate ⟨hnow.slots.moveWidgetToSlot hslot, ?_, hnow.sizes⟩
    refine hnow.floating.of_shows fun shown widget hshows => ?_
    rcases shows_moveWidgetToSlot.mp hshows with ⟨-, rfl⟩ | ⟨-, -, hbefore⟩
    · exact .inr hfloating
    · exact .inl ⟨shown, hbefore⟩

theorem Steady.handleToggleSplit (h : s.Steady) {side : WidgetSide}
    (horder : (ShellStep.toggleSplit side).InOrder s) : (s.handleToggleSplit side).Steady := by
  obtain ⟨hlate, hcaptured⟩ := horder
  have hnow := h.now hlate
  have hslots := hnow.slots.increaseSideSlots side
  obtain ⟨count, hmin, hmax, hcount, -⟩ := hnow.slots.keys side
  have hresult := increaseSideSlots_eq s.now.slots side hmax
  unfold Shell.handleToggleSplit
  rw [hcaptured, hlate]
  refine ⟨h.rendered, ⟨hslots, ?_, hnow.sizes⟩,
    .inr ⟨side, (increaseSideSlots s.now.slots side (s.now.sideSlotCounts.get side)).1, ?_⟩⟩
  · refine hnow.floating.of_shows fun shown widget hshows => .inl ⟨shown, ?_⟩
    unfold Shell.settled at hshows
    dsimp only [List.nil_append] at hshows
    rw [hcount, hresult] at hshows
    split at hshows
    · exact hshows
    · exact (shows_of_update_empty hshows).2
  · dsimp only
    rw [hcount, hresult, get_set]
    split
    · exact ⟨count, rfl, rfl, fun _ _ => rfl⟩
    · exact ⟨count + 1, rfl, rfl, fun slot hne => Function.update_of_ne hne _ _⟩

theorem Steady.handleCloseSlot (h : s.Steady) {slot : WidgetSlotId}
    (horder : (ShellStep.closeSlot slot).InOrder s) : (s.handleCloseSlot slot).Steady := by
  have hclear : s.late = [] → ∀ target, (s.setSlots (clearSlot s.now.slots target)).Steady := by
    intro hlate target
    have hnow := h.now hlate
    refine h.of_now rfl hlate ⟨hnow.slots.clearSlot, ?_, hnow.sizes⟩
    exact hnow.floating.of_shows fun shown widget hshows =>
      .inl ⟨shown, (shows_clearSlot.mp hshows).2⟩
  unfold Shell.handleCloseSlot
  split
  · exact hclear horder .bottom
  · rename_i side index
    obtain ⟨hlate, hcount⟩ := horder
    have hnow := h.now hlate
    dsimp only
    rw [hcount]
    split
    · exact h
    · rename_i hindex
      split
      · exact hclear hlate _
      · rename_i hmany
        refine h.of_now rfl hlate
          ⟨hnow.slots.removeSlot (not_le.mp hindex) (not_le.mp hmany), ?_, hnow.sizes⟩
        refine hnow.floating.of_shows fun shown widget hshows =>
          .inl ⟨slotBefore side index shown, ?_⟩
        exact (removeSlot_apply s.now.slots side index shown).symm.trans hshows

/-! ### Floating windows -/

theorem Steady.failOpening (h : s.Steady) (hlate : s.late = []) {slot : WidgetSlotId}
    {widget : WidgetKey} (honly : OnlyIn s.now.slots widget slot) :
    (s.failOpening slot widget).Steady := by
  have hnow := h.now hlate
  refine h.of_now rfl hlate ⟨hnow.slots.showInSlot honly, ?_, hnow.sizes⟩
  refine (floatingOk_drop hnow.floating widget).of_shows fun shown other hshows => ?_
  rcases shows_showInSlot hshows with ⟨-, rfl⟩ | ⟨-, hbefore⟩
  · exact .inr (Function.update_self _ _ _)
  · exact .inl ⟨shown, hbefore⟩

theorem Steady.openFloatingWindow (h : s.Steady) (hlate : s.late = []) {slot : WidgetSlotId}
    {widget : WidgetKey} (honly : OnlyIn s.now.slots widget slot) (opens : Bool) :
    (s.openFloatingWindow slot widget opens).Steady := by
  unfold Shell.openFloatingWindow
  split
  · exact h
  · have hopening : Steady { s with
        floatingWidgets := Function.update s.floatingWidgets widget true } :=
      h.of_now rfl hlate (h.now hlate)
    dsimp only
    split
    · exact h.of_now rfl hlate (h.now hlate)
    · exact hopening.failOpening hlate honly

theorem Steady.handleFloat (h : s.Steady) {slot : WidgetSlotId} {opens : Bool}
    (horder : (ShellStep.float slot opens).InOrder s) : (s.handleFloat slot opens).Steady := by
  obtain ⟨hlate, honly⟩ := horder
  have hnow := h.now hlate
  unfold Shell.handleFloat
  split
  · exact h
  · rename_i widget hactive
    obtain ⟨⟨active⟩, hgroup, hwidget⟩ := Option.bind_eq_some_iff.mp hactive
    cases hwidget
    have honly := honly widget hgroup
    -- the widget is in no slot any more
    have hgone : ∀ other, ¬Shows (if Shows s.now.slots slot widget then clearSlot s.now.slots slot
        else s.now.slots) other widget := by
      intro other hother
      split at hother
      · obtain ⟨hne, hbefore⟩ := shows_clearSlot.mp hother
        exact hne (honly other hbefore)
      · rename_i hnot
        exact hnot (honly other hother ▸ hother)
    have hbefore : ∀ other shown, Shows (if Shows s.now.slots slot widget then
        clearSlot s.now.slots slot else s.now.slots) other shown →
          Shows s.now.slots other shown := by
      intro other shown hother
      split at hother
      · exact (shows_clearSlot.mp hother).2
      · exact hother
    have hslots : SlotsOk s.now.sideSlotCounts (if Shows s.now.slots slot widget then
        clearSlot s.now.slots slot else s.now.slots) := by
      split
      · exact hnow.slots.clearSlot
      · exact hnow.slots
    have hfloats : Steady { s with now := { s.now with
        floating := Function.update s.now.floating widget (some slot)
        slots := if Shows s.now.slots slot widget then clearSlot s.now.slots slot
          else s.now.slots } } := by
      refine h.of_now rfl hlate ⟨hslots, ⟨fun other hother shown hshown => ?_,
        fun other origin horigin => ?_⟩, hnow.sizes⟩
      · by_cases hsame : other = widget
        · exact hgone shown (hsame ▸ hshown)
        · dsimp only at hother
          rw [Function.update_of_ne hsame] at hother
          exact hnow.floating.apart other hother shown (hbefore shown other hshown)
      · by_cases hsame : other = widget
        · dsimp only at horigin
          rw [hsame, Function.update_self] at horigin
          cases horigin
          exact h.rendered.slots.mem_slotIds (isSome_of_shows hgroup)
        · dsimp only at horigin
          rw [Function.update_of_ne hsame] at horigin
          exact hnow.floating.origin other origin horigin
    exact hfloats.openFloatingWindow hlate (fun other hother => absurd hother (hgone other)) opens

theorem Steady.gone (h : s.Steady) (widget : WidgetKey) : (s.gone widget).Steady := by
  unfold Shell.gone
  split
  · exact ⟨h.rendered, h.settled, h.late⟩
  · refine ⟨h.rendered, ?_, h.late⟩
    have hsettled : ∀ layout, Consistent layout → Consistent { layout with
        floating := Function.update layout.floating widget none } :=
      fun layout hlayout =>
        ⟨hlayout.slots, floatingOk_drop hlayout.floating widget, hlayout.sizes⟩
    have hbefore := h.settled
    unfold Shell.settled at hbefore ⊢
    unfold dismissFloatingWidget dropFloating cleanupFloatingRuntime
    dsimp only
    split at hbefore
    · exact hsettled _ hbefore
    · exact hsettled _ hbefore

theorem Steady.handleOpenTransfersWidget (h : s.Steady)
    (horder : ShellStep.openTransfers.InOrder s) : s.handleOpenTransfersWidget.Steady := by
  obtain ⟨hlate, horder⟩ := horder
  have hnow := h.now hlate
  unfold Shell.handleOpenTransfersWidget
  split
  · exact h
  · rename_i hfree
    rw [not_or] at hfree
    obtain ⟨hfloating, honly⟩ := horder (Option.not_isSome_iff_eq_none.mp hfree.2)
    refine h.of_now rfl hlate ⟨hnow.slots.showInSlot honly, ?_, hnow.sizes⟩
    refine hnow.floating.of_shows fun shown widget hshows => ?_
    rcases shows_showInSlot hshows with ⟨-, rfl⟩ | ⟨-, hbefore⟩
    · exact .inr hfloating
    · exact .inl ⟨shown, hbefore⟩

theorem Steady.showAi (h : s.Steady) (hlate : s.late = []) {captured : Slots}
    (hfloating : findAiSlot captured = none → s.now.floating .ai = none) :
    (s.showAi captured).Steady := by
  have hnow := h.now hlate
  unfold Shell.showAi
  split
  · exact h.of_now rfl hlate ⟨hnow.slots, hnow.floating, hnow.sizes⟩
  · rename_i hnone
    obtain ⟨count, hmin, -, -, hkeys⟩ := hnow.slots.keys .right
    refine h.of_now rfl hlate
      ⟨hnow.slots.moveWidgetToSlot ((hkeys 0).mpr hmin), ?_, hnow.sizes⟩
    refine hnow.floating.of_shows fun shown widget hshows => ?_
    rcases shows_moveWidgetToSlot.mp hshows with ⟨-, rfl⟩ | ⟨-, -, hbefore⟩
    · exact .inr (hfloating hnone)
    · exact .inl ⟨shown, hbefore⟩

/-- **The step lemma.** -/
theorem Steady.next {step : ShellStep} (h : s.Steady) (horder : step.InOrder s)
    (hstep : s.next step = some t) : t.Steady := by
  cases step with
  | slotReplace slot key =>
    cases hstep
    exact h.handleSlotReplace horder
  | toggleSplit side =>
    cases hstep
    exact h.handleToggleSplit horder
  | setLate =>
    unfold Shell.next at hstep
    rcases h.late with hlate | ⟨side, slots, count, hlate, -, -⟩
    · rw [hlate] at hstep
      cases hstep
    · have hsettled := h.settled
      unfold Shell.settled at hsettled
      rw [hlate] at hstep hsettled
      cases hstep
      exact h.of_now rfl rfl hsettled
  | closeSlot slot =>
    cases hstep
    exact h.handleCloseSlot horder
  | float slot opens =>
    cases hstep
    exact h.handleFloat horder
  | restoreFloating widget opens =>
    obtain ⟨hlate, honly⟩ := horder
    unfold Shell.next at hstep
    dsimp only at hstep
    split at hstep
    · cases hstep
    · obtain ⟨slot, hslot, rfl⟩ := Option.map_eq_some_iff.mp hstep
      exact h.openFloatingWindow hlate (honly slot hslot) opens
  | openFailed slot widget =>
    obtain ⟨hlate, honly⟩ := horder
    unfold Shell.next at hstep
    dsimp only at hstep
    split at hstep
    · cases hstep
      have hfailed := h.failOpening hlate honly
      exact ⟨hfailed.rendered, hfailed.settled, hfailed.late⟩
    · cases hstep
  | destroyed widget =>
    unfold Shell.next at hstep
    dsimp only at hstep
    split at hstep
    · cases hstep
      have hgone := h.gone widget
      exact ⟨hgone.rendered, hgone.settled, hgone.late⟩
    · cases hstep
  | restoreMessage widget =>
    cases hstep
    exact h.gone widget
  | openTransfers =>
    cases hstep
    exact h.handleOpenTransfersWidget horder
  | sendSelection =>
    cases hstep
    exact ⟨h.rendered, h.settled, h.late⟩
  | selectionSent send =>
    obtain ⟨hlate, hfree⟩ := horder
    obtain ⟨captured, hcaptured, rfl⟩ := Option.map_eq_some_iff.mp hstep
    have hshown := h.showAi hlate (hfree captured hcaptured)
    exact ⟨hshown.rendered, hshown.settled, hshown.late⟩
  | closeRequested =>
    cases hstep
    exact ⟨h.rendered, h.settled, h.late⟩
  | render =>
    unfold Shell.next at hstep
    dsimp only at hstep
    split at hstep
    · rename_i hlate
      cases hstep
      exact ⟨h.now hlate, h.settled, h.late⟩
    · cases hstep

/-! ### What a step changes -/

theorem moveWidgetToSlot_of_ne {slots : Slots} {key : WidgetKey} {target slot : WidgetSlotId}
    (hne : slot ≠ target) (hother : ¬Shows slots slot key) :
    moveWidgetToSlot slots key target slot = slots slot := by
  unfold moveWidgetToSlot
  rw [Function.update_of_ne hne, if_neg hother]

theorem clearSlot_of_ne {slots : Slots} {target slot : WidgetSlotId} (hne : slot ≠ target) :
    clearSlot slots target slot = slots slot := by
  unfold clearSlot
  split
  · exact Function.update_of_ne hne _ _
  · rfl

theorem showInSlot_of_ne {slots : Slots} {widget : WidgetKey} {target slot : WidgetSlotId}
    (hne : slot ≠ target) : showInSlot slots target widget slot = slots slot := by
  unfold showInSlot
  split
  · exact Function.update_of_ne hne _ _
  · rfl

theorem openFloatingWindow_of_ne {target slot : WidgetSlotId} (hne : slot ≠ target)
    (widget : WidgetKey) (opens : Bool) :
    (s.openFloatingWindow target widget opens).now.slots slot = s.now.slots slot := by
  unfold Shell.openFloatingWindow
  dsimp only
  split
  · rfl
  · split
    · rfl
    · exact showInSlot_of_ne hne

theorem gone_slots (s : Shell) (widget : WidgetKey) : (s.gone widget).now.slots = s.now.slots := by
  unfold Shell.gone
  split <;> rfl

theorem handleCloseSlot_of_not_names {target slot : WidgetSlotId}
    (hslot : ¬Names s (.closeSlot target) slot) :
    (s.handleCloseSlot target).now.slots slot = s.now.slots slot := by
  unfold Shell.handleCloseSlot
  split
  · exact clearSlot_of_ne hslot
  · rename_i side index
    have hne : slot ≠ .side side index := fun heq => hslot ⟨index, le_refl _, heq⟩
    dsimp only
    split
    · rfl
    · split
      · exact clearSlot_of_ne hne
      · show removeSlot s.now.slots side index slot = s.now.slots slot
        cases slot with
        | bottom => rfl
        | side itemSide itemIndex =>
          unfold removeSlot
          refine if_neg fun hlater => hslot ⟨itemIndex, hlater.2, ?_⟩
          rw [hlater.1]

theorem handleFloat_of_ne {target slot : WidgetSlotId} (hne : slot ≠ target) (opens : Bool) :
    (s.handleFloat target opens).now.slots slot = s.now.slots slot := by
  unfold Shell.handleFloat
  split
  · rfl
  · dsimp only
    rw [openFloatingWindow_of_ne hne]
    dsimp only
    split
    · exact clearSlot_of_ne hne
    · rfl

/-- **A step changes the slots that it names**, and no other. -/
theorem slots_of_not_names {step : ShellStep} (h : s.Steady) (hstep : s.next step = some t)
    {slot : WidgetSlotId} (hslot : ¬Names s step slot) : t.now.slots slot = s.now.slots slot := by
  cases step with
  | slotReplace target key =>
    cases hstep
    obtain ⟨hne, hother⟩ := not_or.mp hslot
    unfold Shell.handleSlotReplace
    split
    · rfl
    · exact moveWidgetToSlot_of_ne hne hother
  | toggleSplit side =>
    cases hstep
    rfl
  | setLate =>
    unfold Shell.next at hstep
    rcases h.late with hlate | ⟨side, slots, count, hlate, hcount, hsame⟩
    · rw [hlate] at hstep
      cases hstep
    · have hne : slot ≠ .side side (count - 1) := fun heq =>
        hslot ⟨(side, slots), hlate ▸ List.mem_cons_self, count, hcount, heq⟩
      rw [hlate] at hstep
      cases hstep
      exact hsame slot hne
  | closeSlot target =>
    cases hstep
    exact handleCloseSlot_of_not_names hslot
  | float target opens =>
    cases hstep
    exact handleFloat_of_ne hslot opens
  | restoreFloating widget opens =>
    unfold Shell.next at hstep
    dsimp only at hstep
    split at hstep
    · cases hstep
    · obtain ⟨target, htarget, rfl⟩ := Option.map_eq_some_iff.mp hstep
      have hne : slot ≠ target := by
        rintro rfl
        exact hslot htarget
      exact openFloatingWindow_of_ne hne widget opens
  | openFailed target widget =>
    unfold Shell.next at hstep
    dsimp only at hstep
    split at hstep
    · cases hstep
      exact showInSlot_of_ne hslot
    · cases hstep
  | destroyed widget =>
    unfold Shell.next at hstep
    dsimp only at hstep
    split at hstep
    · cases hstep
      exact congrFun (gone_slots s widget) slot
    · cases hstep
  | restoreMessage widget =>
    cases hstep
    exact congrFun (gone_slots s widget) slot
  | openTransfers =>
    cases hstep
    unfold Shell.handleOpenTransfersWidget
    split
    · rfl
    · exact showInSlot_of_ne hslot
  | sendSelection =>
    cases hstep
    rfl
  | selectionSent send =>
    obtain ⟨captured, -, rfl⟩ := Option.map_eq_some_iff.mp hstep
    obtain ⟨hne, hother⟩ := not_or.mp hslot
    unfold Shell.showAi
    dsimp only
    split
    · rfl
    · exact moveWidgetToSlot_of_ne hne hother
  | closeRequested =>
    cases hstep
    rfl
  | render =>
    unfold Shell.next at hstep
    dsimp only at hstep
    split at hstep
    · cases hstep
      rfl
    · cases hstep

end Shell

/-! ## The result -/

theorem persisted_eq {layout : WidgetLayout} (h : Consistent layout) :
    layout.persisted = layout := by
  have hcount : ∀ side,
      max 1 (layout.sideSlotCounts.get side) = layout.sideSlotCounts.get side := by
    intro side
    obtain ⟨count, hmin, -, hcount, -⟩ := h.slots.keys side
    rw [hcount]
    exact max_eq_right (Nat.one_le_cast.mpr hmin)
  have hcounts : SideSlotCounts.mk (max 1 layout.sideSlotCounts.left)
      (max 1 layout.sideSlotCounts.right) = layout.sideSlotCounts :=
    congrArg₂ SideSlotCounts.mk (hcount .left) (hcount .right)
  have hslots : (fun slot => (layout.slots slot).or <|
      match slot with
      | .bottom => some createEmptyGroup
      | .side side index =>
        if (index : ℚ) < layout.sideSlotCounts.get side then some createEmptyGroup else none) =
      layout.slots := by
    funext slot
    cases hslot : layout.slots slot with
    | some group => rfl
    | none =>
      rw [Option.none_or]
      cases slot with
      | bottom => exact absurd h.slots.bottom (by rw [hslot]; exact nofun)
      | side side index =>
        obtain ⟨count, -, -, hcount, hkeys⟩ := h.slots.keys side
        refine if_neg fun hindex => ?_
        rw [hcount] at hindex
        have hsome := (hkeys index).mpr (Nat.cast_lt.mp hindex)
        rw [hslot] at hsome
        cases hsome
  unfold WidgetLayout.persisted
  dsimp only
  rw [hcounts, hslots]

theorem slotsOk_default : SlotsOk defaultWidgetLayout.sideSlotCounts defaultWidgetLayout.slots := by
  refine ⟨fun side => ⟨1, le_refl _, by decide, by cases side <;> norm_num [defaultWidgetLayout,
    SideSlotCounts.get], fun index => ?_⟩, rfl, fun widget slot other hslot hother => ?_⟩
  · cases side <;> cases index <;> simp [defaultWidgetLayout]
  · rcases slot with ⟨⟨⟩ | ⟨⟩, _ | _⟩ | ⟨⟩ <;> cases hslot <;>
      rcases other with ⟨⟨⟩ | ⟨⟩, _ | _⟩ | ⟨⟩ <;> first | rfl | cases hother

theorem consistent_default : Consistent defaultWidgetLayout where
  slots := slotsOk_default
  floating := ⟨fun _ => nofun, nofun⟩
  sizes := ⟨by norm_num [defaultWidgetLayout], by norm_num [defaultWidgetLayout],
    by norm_num [defaultWidgetLayout]⟩

theorem consistent_of_isStartLayout {layout : WidgetLayout} (h : IsStartLayout layout)
    (hwhole : layout.HasWholeCounts) : Consistent layout := by
  rcases h with rfl | ⟨raw, hraw⟩
  · exact consistent_default
  · exact consistent_of_normalize hraw hwhole

/-- **The layout stays consistent and survives a restart**, in any run whose steps meet the
condition. -/
theorem layoutSound_of_inOrder {layout : WidgetLayout} (hstart : IsStartLayout layout)
    (hwhole : layout.HasWholeCounts) (s : Shell)
    (h : ((layoutShell layout).restrict fun s step => step.InOrder s).Reachable s) :
    LayoutSound s := by
  have hsteady : s.Steady := by
    refine h.induct (I := Shell.Steady) ?_ ?_
    · rintro s rfl
      have hconsistent := consistent_of_isStartLayout hstart hwhole
      exact ⟨hconsistent, hconsistent, .inl rfl⟩
    · rintro s step t - hs ⟨horder, hstep⟩
      exact hs.next horder hstep
  have hnormalizes : normalizeWidgetLayout s.rendered.persisted.toJson = some s.rendered := by
    rw [persisted_eq hsteady.rendered]
    exact normalizeWidgetLayout_toJson hsteady.rendered
  refine ⟨hsteady.rendered, hnormalizes, ?_, fun step t hstep slot hslot =>
    Shell.slots_of_not_names hsteady hstep hslot⟩
  unfold loadLayoutConfig
  rw [hnormalizes]

/-! ## Widgets that move -/

/-- A widget floats, another one takes its slot, and a third one is closed. -/
theorem layoutSound_of_inOrder_sampleFloat : ∃ s : Shell, LayoutSound s ∧
    s.rendered.floating .transfers = some .bottom ∧
    s.rendered.slots .bottom = some ⟨some .history⟩ ∧
    s.rendered.slots (.side .left 0) = some ⟨none⟩ := by
  have hstart : ((layoutShell defaultWidgetLayout).restrict fun s step =>
      step.InOrder s).Reachable (.start defaultWidgetLayout) := .init rfl
  have hfloats := hstart.step ⟨show ShellStep.InOrder _ (.float .bottom true) from
    ⟨rfl, fun widget hshows other hother => slotsOk_default.once widget _ _ hother hshows⟩, rfl⟩
  have hreplaced := (hfloats.step ⟨show ShellStep.InOrder _ .render from trivial, rfl⟩).step
    ⟨show ShellStep.InOrder _ (.slotReplace .bottom .history) from
      ⟨rfl, fun _ => ⟨rfl, rfl⟩⟩, rfl⟩
  have hclosed := ((hreplaced.step ⟨show ShellStep.InOrder _ .render from trivial, rfl⟩).step
    ⟨show ShellStep.InOrder _ (.closeSlot (.side .left 0)) from ⟨rfl, rfl⟩, rfl⟩).step
    ⟨show ShellStep.InOrder _ .render from trivial, rfl⟩
  exact ⟨_, layoutSound_of_inOrder (.inl rfl) (fun side => ⟨1, by cases side <;> rfl⟩) _ hclosed,
    by decide, by decide, by decide⟩

/-- A widget that is put into a slot leaves the slot where it was; nothing is left of a layout
without widgets after a restart; and the transfers are docked twice. -/
theorem sampleMove_names :
    (¬∀ s, (layoutShell defaultWidgetLayout).Reachable s → ∀ target key t,
      s.next (.slotReplace target key) = some t →
        ∀ slot, slot ≠ target → t.now.slots slot = s.now.slots slot) ∧
    (¬∀ s, (layoutShell defaultWidgetLayout).Reachable s →
      loadLayoutConfig s.rendered.persisted.toJson = some s.rendered) ∧
    ¬∀ s, (layoutShell defaultWidgetLayout).Reachable s → Consistent s.rendered := by
  refine ⟨fun h => ?_, fun h => ?_, fun h => ?_⟩
  · have hkept := h _ (.init rfl) (.side .left 0) .files _ rfl (.side .right 0) nofun
    revert hkept
    decide
  · have hrun : ∃ s, Machine.exec Shell.next (.start defaultWidgetLayout)
          [.closeSlot (.side .left 0), .closeSlot (.side .right 0), .closeSlot .bottom,
            .render] = some s ∧
        s.rendered.slots .bottom = some ⟨none⟩ ∧
        (loadLayoutConfig s.rendered.persisted.toJson).map (·.slots .bottom) =
          some (some ⟨some .transfers⟩) := ⟨_, rfl, by decide, by decide⟩
    obtain ⟨s, hexec, hbottom, hload⟩ := hrun
    rw [h s (Machine.reachable_exec hexec), Option.map_some, hbottom] at hload
    revert hload
    decide
  · have hrun : ∃ s, Machine.exec Shell.next (.start defaultWidgetLayout)
          [.slotReplace (.side .right 0) .transfers, .render, .openTransfers, .render] = some s ∧
        Shows s.rendered.slots (.side .right 0) .transfers ∧
        Shows s.rendered.slots .bottom .transfers := ⟨_, rfl, by decide, by decide⟩
    obtain ⟨s, hexec, hright, hbottom⟩ := hrun
    have hsame := (h s (Machine.reachable_exec hexec)).slots.once _ _ _ hright hbottom
    cases hsame

end FluxTerm.Layout
