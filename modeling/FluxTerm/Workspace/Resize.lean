import FluxTerm.Workspace.Reducer

/-!
# FluxTerm — dragging a split handle

The handle of a split names it by a pane below it, `resolveSplitResizeTargetPaneId` of
`widgets/terminal/components/TerminalPaneTree.tsx`. The reducer then sets the ratio of *every*
split that has this pane below it, so the splits around the one dragged, and those on the way down
to the pane, move as well.

* **`resizeSplit_only_iff`** — exactly when only the dragged split changes.
* **`nested_resize_moves_outer`** — the inner handle of two nested splits moves both.
-/

namespace FluxTerm.Workspace

open FluxTerm.Lib SplitTree

def findFirstLeafPaneId : SessionPaneNode → Option Text
  | .leaf pane => some pane.paneId
  | .split _ first second => (findFirstLeafPaneId first).or (findFirstLeafPaneId second)

/-- `resolveSplitResizeTargetPaneId`, of a split with these children. -/
def resolveSplitResizeTargetPaneId (first second : SessionPaneNode) : Option Text :=
  (findFirstLeafPaneId first).or (findFirstLeafPaneId second)

/-- The dragged split takes the clamped ratio, and nothing else changes. -/
def ResizesOnly (state : SessionWorkspaceState) (root : SessionPaneNode) (path : List Side)
    (info : SplitInfo) (ratio : JsNumber) (next : SessionWorkspaceState) : Prop :=
  ∃ w, JsNumber.ClampedTo lowestRatio highestRatio ratio w ∧
    next = { state with root := some (root.setLabel { info with ratio := w } path) }

/-- Every other split above the target pane has the clamped ratio already. -/
def OthersAgree (root : SessionPaneNode) (path : List Side) (target : Text) (ratio : JsNumber) :
    Prop :=
  ∃ w, JsNumber.ClampedTo lowestRatio highestRatio ratio w ∧
    ∀ path' info first second, root.subtree path' = some (.split info first second) →
      target ∈ paneIds (.split info first second) → path' ≠ path → info.ratio = w

theorem paneIds_split (info : SplitInfo) (first second : SessionPaneNode) :
    paneIds (.split info first second) = paneIds first ++ paneIds second := by
  simp [paneIds]

/-! ## The target of a handle -/

theorem findFirstLeafPaneId_mem (node : SessionPaneNode) :
    ∃ paneId ∈ paneIds node, findFirstLeafPaneId node = some paneId := by
  induction node with
  | leaf pane => exact ⟨pane.paneId, List.mem_singleton.mpr rfl, rfl⟩
  | split info first second ih₁ _ =>
    obtain ⟨paneId, hmem, hfind⟩ := ih₁
    refine ⟨paneId, ?_, ?_⟩
    · rw [paneIds_split]
      exact List.mem_append_left _ hmem
    · rw [findFirstLeafPaneId, hfind, Option.some_or]

theorem resolveSplitResizeTargetPaneId_mem {first second : SessionPaneNode} {target : Text}
    (h : resolveSplitResizeTargetPaneId first second = some target) (info : SplitInfo) :
    target ∈ paneIds (.split info first second) := by
  obtain ⟨paneId, hmem, hfind⟩ := findFirstLeafPaneId_mem first
  rw [resolveSplitResizeTargetPaneId, hfind, Option.some_or, Option.some.injEq] at h
  rw [paneIds_split, ← h]
  exact List.mem_append_left _ hmem

/-! ## What the reducer changes -/

def resized (paneId : Text) (ratio : JsNumber) (info : SplitInfo)
    (first second : SessionPaneNode) : SplitInfo :=
  if paneId ∈ paneIds (.split info first second) then { info with ratio := clampRatio ratio }
  else info

theorem relabel_resized_of_not_mem {node : SessionPaneNode} {paneId : Text}
    (h : paneId ∉ paneIds node) (ratio : JsNumber) :
    node.relabel (resized paneId ratio) = node := by
  induction node with
  | leaf pane => rfl
  | split info first second ih₁ ih₂ =>
    have hboth := h
    rw [paneIds_split, List.mem_append, not_or] at hboth
    rw [relabel, ih₁ hboth.1, ih₂ hboth.2, resized, if_neg h]

/-- **The tree after a drag.** With distinct pane ids, all splits above the pane take the ratio. -/
theorem updateSplitRatio_eq_relabel {node : SessionPaneNode} (hnodup : (paneIds node).Nodup)
    (paneId : Text) (ratio : JsNumber) :
    updateSplitRatio node paneId ratio = node.relabel (resized paneId ratio) := by
  induction node with
  | leaf pane => rfl
  | split info first second ih₁ ih₂ =>
    rw [paneIds_split] at hnodup
    obtain ⟨hfirst, hsecond, hdisj⟩ := List.nodup_append'.mp hnodup
    rw [updateSplitRatio_split, relabel, resized, paneIds_split]
    by_cases h₁ : paneId ∈ paneIds first
    · have h₂ : paneId ∉ paneIds second := fun h₂ => hdisj h₁ h₂
      rw [if_pos h₁, if_pos (List.mem_append_left _ h₁), ih₁ hfirst,
        relabel_resized_of_not_mem h₂]
    · rw [if_neg h₁, relabel_resized_of_not_mem h₁]
      by_cases h₂ : paneId ∈ paneIds second
      · rw [if_pos h₂, if_pos (List.mem_append_right _ h₂), ih₂ hsecond]
      · rw [if_neg h₂, relabel_resized_of_not_mem h₂, if_neg (by simp [h₁, h₂])]

theorem relabel_eq_setLabel_iff {root : SessionPaneNode} {path : List Side} {info : SplitInfo}
    {first second : SessionPaneNode} (hpath : root.subtree path = some (.split info first second))
    {target : Text} (htarget : target ∈ paneIds (.split info first second)) {ratio : JsNumber} :
    root.relabel (resized target ratio)
        = root.setLabel { info with ratio := clampRatio ratio } path ↔
      ∀ path' info' first' second', root.subtree path' = some (.split info' first' second') →
        target ∈ paneIds (.split info' first' second') → path' ≠ path →
          info'.ratio = clampRatio ratio := by
  have hlabel : (root.labelAt path).isSome := by
    rw [labelAt_eq_some_iff.mpr ⟨first, second, hpath⟩]
    rfl
  constructor
  · intro heq path' info' first' second' hpath' hin hne
    have hat := labelAt_relabel (resized target ratio) hpath'
    rw [heq, labelAt_setLabel hlabel, if_neg hne,
      labelAt_eq_some_iff.mpr ⟨first', second', hpath'⟩, resized, if_pos hin,
      Option.some.injEq] at hat
    rw [hat]
  · intro hothers
    have hshape := (shape_relabel (resized target ratio) root).trans
      (shape_setLabel { info with ratio := clampRatio ratio } root path).symm
    refine ext_labelAt hshape fun path' => ?_
    rw [labelAt_setLabel hlabel]
    cases hat : root.labelAt path' with
    | none =>
      -- no split there, before or after
      have hne : path' ≠ path := by
        rintro rfl
        simp [hat] at hlabel
      rw [if_neg hne, labelAt_eq_of_shape_eq (shape_relabel _ root)]
      exact hat
    | some info' =>
      obtain ⟨first', second', hpath'⟩ := labelAt_eq_some_iff.mp hat
      rw [labelAt_relabel _ hpath', resized]
      by_cases heq : path' = path
      · subst heq
        rw [hpath, Option.some.injEq, split.injEq] at hpath'
        obtain ⟨rfl, rfl, rfl⟩ := hpath'
        rw [if_pos htarget, if_pos rfl]
      · rw [if_neg heq]
        by_cases hin : target ∈ paneIds (.split info' first' second')
        · rw [if_pos hin, ← hothers path' info' first' second' hpath' hin heq]
        · rw [if_neg hin]

theorem clampedTo_clampRatio {ratio w : JsNumber}
    (h : JsNumber.ClampedTo lowestRatio highestRatio ratio w) : w = clampRatio ratio :=
  ((JsNumber.clamp_spec (by norm_num [lowestRatio, highestRatio]) ratio w).mp h).2

/-- **Dragging a handle** changes the ratio of its split and nothing else, if and only if the
other splits that have the target pane below them are at the clamped ratio already. -/
theorem resizeSplit_only_iff (lower : Text → Text) {state : SessionWorkspaceState}
    {root : SessionPaneNode} (hroot : state.root = some root) (hnodup : (paneIds root).Nodup)
    {path : List Side} {info : SplitInfo} {first second : SessionPaneNode}
    (hpath : root.subtree path = some (.split info first second)) {target : Text}
    (htarget : resolveSplitResizeTargetPaneId first second = some target) (ratio : JsNumber) :
    ResizesOnly state root path info ratio
        (sessionWorkspaceReducer lower state (.resizeSplit target ratio)) ↔
      OthersAgree root path target ratio := by
  have hstep : sessionWorkspaceReducer lower state (.resizeSplit target ratio)
      = { state with root := some (root.relabel (resized target ratio)) } := by
    rw [← updateSplitRatio_eq_relabel hnodup]
    simp only [sessionWorkspaceReducer, hroot]
  have hin := resolveSplitResizeTargetPaneId_mem htarget info
  rw [hstep]
  constructor
  · rintro ⟨w, hw, heq⟩
    refine ⟨w, hw, ?_⟩
    rw [clampedTo_clampRatio hw] at heq ⊢
    rw [SessionWorkspaceState.mk.injEq, Option.some.injEq] at heq
    exact (relabel_eq_setLabel_iff hpath hin).mp heq.1
  · rintro ⟨w, hw, hothers⟩
    refine ⟨w, hw, ?_⟩
    rw [clampedTo_clampRatio hw] at hothers ⊢
    rw [(relabel_eq_setLabel_iff hpath hin).mpr hothers]

def shown (root : SessionPaneNode) : SessionWorkspaceState where
  root := some root
  activePaneId := findFirstLeafPaneId root
  groups := [{ createDefaultSessionGroup with sessionIds := collectNodeSessionIds root }]

def twoPanes : SessionPaneNode :=
  .split ⟨.horizontal, .finite (1 / 2)⟩ (createSinglePaneRoot "s1".toList "p1".toList)
    (createSinglePaneRoot "s2".toList "p2".toList)

def nestedPanes : SessionPaneNode :=
  .split ⟨.vertical, .finite (1 / 2)⟩ twoPanes (createSinglePaneRoot "s3".toList "p3".toList)

/-- The handle between two panes that are all there is. -/
theorem resizeSplit_only_iff_twoPanes :
    ResizesOnly (shown twoPanes) twoPanes [] ⟨.horizontal, .finite (1 / 2)⟩ (.finite (3 / 10))
        (sessionWorkspaceReducer id (shown twoPanes)
          (.resizeSplit "p1".toList (.finite (3 / 10)))) ↔
      OthersAgree twoPanes [] "p1".toList (.finite (3 / 10)) :=
  resizeSplit_only_iff id rfl (by decide) (subtree_nil twoPanes) rfl (.finite (3 / 10))

/-- The handle of the inner split is dragged to 0.3, and the outer split goes there too. -/
theorem nested_resize_moves_outer :
    (paneIds nestedPanes).Nodup ∧ nestedPanes.subtree [.first] = some twoPanes ∧
      resolveSplitResizeTargetPaneId (createSinglePaneRoot "s1".toList "p1".toList)
        (createSinglePaneRoot "s2".toList "p2".toList) = some "p1".toList ∧
      ¬ ResizesOnly (shown nestedPanes) nestedPanes [.first] ⟨.horizontal, .finite (1 / 2)⟩
        (.finite (3 / 10))
        (sessionWorkspaceReducer id (shown nestedPanes)
          (.resizeSplit "p1".toList (.finite (3 / 10)))) := by
  refine ⟨by decide, rfl, rfl, ?_⟩
  rintro ⟨w, -, heq⟩
  have hclamp : JsNumber.finite (3 / 10) = clampRatio (.finite (3 / 10)) :=
    clampedTo_clampRatio
      (.inside (by norm_num [lowestRatio]) (by norm_num [highestRatio]))
  have houter := congrArg (fun state => state.root.bind (labelAt · [])) heq
  have hratio : clampRatio (.finite (3 / 10)) = .finite (1 / 2) := congrArg
    (fun info : Option SplitInfo => (info.map SplitInfo.ratio).getD .nan) houter
  rw [← hclamp, JsNumber.finite.injEq] at hratio
  norm_num at hratio

end FluxTerm.Workspace
