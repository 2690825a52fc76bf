import FluxTerm.Layout.Model

/-!
# FluxTerm — what the normalisation of a layout gives

`normalizeWidgetLayout` in `src/layout/model.ts` numbers the slots of each side and keeps a widget
in one place. The counts of the slots are clamped and never rounded.

* **`normalised_iff`** — the expectation is met by the documents without such a count.
-/

namespace FluxTerm.Layout

open FluxTerm.Lib

/-- The slots are numbered up to the counts, a widget is in one place, and the document of the
layout gives the layout. -/
structure Normalised (layout : WidgetLayout) : Prop where
  numbered : ∀ side, ∃ count : ℕ, layout.sideSlotCounts.get side = count ∧
    ∀ index, (layout.slots (.side side index)).isSome ↔ index < count
  once : ∀ widget slot other,
    Shows layout.slots slot widget → Shows layout.slots other widget → slot = other
  apart : ∀ widget, (layout.floating widget).isSome → ∀ slot, ¬Shows layout.slots slot widget
  again : normalizeWidgetLayout layout.toJson = some layout

def rawCount (raw : Json) (side : WidgetSide) : Option Json :=
  (raw.get "sideSlotCounts".toList).bind (·.get side.name)

/-- The document asks for a fraction of slots, within the bounds. -/
def FractionalCount (raw : Json) (side : WidgetSide) : Prop :=
  ∃ count : ℚ, rawCount raw side = some (.num (.finite count)) ∧
    1 < count ∧ count < maxSideSlots ∧ ∀ whole : ℕ, count ≠ whole

theorem clampCount_whole_iff (value : Option Json) :
    (∃ whole : ℕ, clampCount value = whole) ↔
      ¬∃ count : ℚ, value = some (.num (.finite count)) ∧
        1 < count ∧ count < maxSideSlots ∧ ∀ whole : ℕ, count ≠ whole := by
  constructor
  · rintro ⟨whole, hwhole⟩ ⟨count, rfl, hmin, hmax, hfraction⟩
    exact hfraction whole ((clampNumber_eq ⟨hmin.le, hmax.le⟩ 1).symm.trans hwhole)
  · intro hnot
    unfold clampCount clampNumber
    split
    · rename_i count
      by_cases hmin : count ≤ 1
      · refine ⟨1, ?_⟩
        rw [max_eq_left hmin, Nat.cast_one]
        exact min_eq_right (by norm_num [maxSideSlots])
      · have hmin := lt_of_not_ge hmin
        rw [max_eq_right hmin.le]
        by_cases hmax : maxSideSlots ≤ count
        · exact ⟨maxSideSlots, min_eq_left hmax⟩
        · have hmax := lt_of_not_ge hmax
          rw [min_eq_right hmax.le]
          by_contra hfraction
          exact hnot ⟨count, rfl, hmin, hmax, fun whole h => hfraction ⟨whole, h⟩⟩
    · exact ⟨1, Nat.cast_one.symm⟩

theorem sideSlotCounts_of_normalize {raw : Json} {layout : WidgetLayout}
    (h : normalizeWidgetLayout raw = some layout) (side : WidgetSide) :
    layout.sideSlotCounts.get side = clampCount (rawCount raw side) := by
  unfold normalizeWidgetLayout at h
  dsimp only at h
  split at h
  · cases h
  · obtain rfl := Option.some.inj h
    have hclamped := clampNumber_eq (clampCount_mem (rawCount raw side)) 1
    cases side <;> exact hclamped

/-- **The layout is normalised exactly for documents that ask for whole slots.** -/
theorem normalised_iff {raw : Json} {layout : WidgetLayout}
    (h : normalizeWidgetLayout raw = some layout) :
    Normalised layout ↔ ∀ side, ¬FractionalCount raw side := by
  have hwhole (side : WidgetSide) : (∃ whole : ℕ, layout.sideSlotCounts.get side = whole) ↔
      ¬FractionalCount raw side := by
    rw [sideSlotCounts_of_normalize h side]
    exact clampCount_whole_iff _
  constructor
  · intro hnormalised side
    obtain ⟨count, hcount, -⟩ := hnormalised.numbered side
    exact (hwhole side).mp ⟨count, hcount⟩
  · intro hnone
    have hconsistent := consistent_of_normalize h fun side => (hwhole side).mpr (hnone side)
    refine ⟨fun side => ?_, hconsistent.slots.once, hconsistent.floating.apart,
      normalizeWidgetLayout_toJson hconsistent⟩
    obtain ⟨count, -, -, hcount, hkeys⟩ := hconsistent.slots.keys side
    exact ⟨count, hcount, hkeys⟩

def sampleHalf : Json :=
  .obj [("version".toList, .num (.finite 1)), ("sizes".toList, .obj []), ("slots".toList, .obj []),
    ("sideSlotCounts".toList, .obj [("left".toList, .num (.finite (3 / 2)))])]

theorem normalised_iff_sampleHalf : ∃ layout, normalizeWidgetLayout sampleHalf = some layout ∧
    (Normalised layout ↔ ∀ side, ¬FractionalCount sampleHalf side) :=
  ⟨_, rfl, normalised_iff rfl⟩

theorem sampleHalf_count {layout : WidgetLayout}
    (h : normalizeWidgetLayout sampleHalf = some layout) : layout.sideSlotCounts.left = 3 / 2 := by
  have hclamped : clampCount (rawCount sampleHalf .left) = 3 / 2 :=
    clampNumber_eq (by norm_num [maxSideSlots]) 1
  exact (sideSlotCounts_of_normalize h .left).trans hclamped

/-- It gets two slots, and the count says one and a half. -/
theorem sampleHalf_not_normalised : ∃ layout, normalizeWidgetLayout sampleHalf = some layout ∧
    (layout.slots (.side .left 1)).isSome ∧ layout.sideSlotCounts.left = 3 / 2 ∧
    ¬Normalised layout := by
  refine ⟨_, rfl, ?_, sampleHalf_count rfl, fun hnormalised => ?_⟩
  · decide +kernel
  · obtain ⟨count, hcount, -⟩ := hnormalised.numbered .left
    have hhalf : (3 / 2 : ℚ) = count := (sampleHalf_count rfl).symm.trans hcount
    have hdouble : ((3 : ℕ) : ℚ) = ((2 * count : ℕ) : ℚ) := by
      push_cast
      linarith
    have hthree := Nat.cast_injective hdouble
    omega

end FluxTerm.Layout
