import FluxTerm.Sftp.Download
import FluxTerm.Sftp.DownloadScan

/-!
# FluxTerm — where local paths lead

The candidates of `resolve_available_local_path` as places in the local file system. Links are not
followed.
-/

namespace FluxTerm.Sftp

open FluxTerm.Lib

/-! ## Places -/

structure Place where
  absolute : Bool
  path : Resolved Text
deriving DecidableEq

def place (path : Text) : Place := ⟨isAbs path, normalised path⟩

/-- `inner` is `outer` or lies below it. -/
def Place.Below (outer inner : Place) : Prop :=
  inner.absolute = outer.absolute ∧ outer.path.Within inner.path

instance (outer inner : Place) : Decidable (outer.Below inner) :=
  inferInstanceAs (Decidable (_ ∧ _))

/-- The place of `name` in a directory. -/
def Place.child (directory : Place) (name : Text) : Place :=
  ⟨directory.absolute, ⟨directory.path.ups, name :: directory.path.names⟩⟩

theorem Place.eq_of_below_both {directory inner : Place} {name other : Text}
    (h : (directory.child name).Below inner) (h' : (directory.child other).Below inner) :
    name = other := by
  have hlen : (directory.child name).path.names.length =
      (directory.child other).path.names.length := rfl
  have hsuffix := List.suffix_of_suffix_length_le h.2.2 h'.2.2 (Nat.le_of_eq hlen)
  exact (List.cons.inj (hsuffix.eq_of_length hlen)).1

/-! ## The parent of a path -/

theorem pieces_intercalate (names : List Text) (h : ∀ name ∈ names, name ≠ [] ∧ sep ∉ name) :
    pieces ([sep].intercalate names) = names := by
  induction names with
  | nil => exact pieces_nil
  | cons name names ih =>
    obtain ⟨⟨hne, hsep⟩, hrest⟩ := List.forall_mem_cons.mp h
    cases names with
    | nil =>
      rw [List.intercalate, List.intersperse_singleton, List.flatten_singleton]
      exact pieces_of_not_mem hsep hne
    | cons next names =>
      have hcons : [sep].intercalate (name :: next :: names) =
          name ++ sep :: [sep].intercalate (next :: names) := by
        simp [List.intercalate]
      rw [hcons, pieces_append_sep, pieces_of_not_mem hsep hne, ih hrest]
      rfl

def names (path : Text) : List Text := (pieces path).filter (· ≠ ['.'])

theorem of_mem_names {path name : Text} (h : name ∈ names path) : name ≠ [] ∧ sep ∉ name :=
  of_mem_pieces (List.mem_of_mem_filter h)

theorem ofPiece_eq_curDir_iff (piece : Text) : Comp.ofPiece piece = .curDir ↔ piece = ['.'] := by
  unfold Comp.ofPiece
  split
  · rename_i h
    exact ⟨fun _ => h, fun _ => rfl⟩
  · rename_i h
    split
    · exact ⟨nofun, fun h' => absurd h' h⟩
    · exact ⟨nofun, fun h' => absurd h' h⟩

theorem filter_comps (path : Text) :
    (comps path).filter (· ≠ .curDir) = (names path).map Comp.ofPiece := by
  unfold comps names
  rw [List.filter_map]
  congr 1
  refine List.filter_congr fun piece _ => ?_
  simp [ofPiece_eq_curDir_iff]

theorem resolve_filter (absolute : Bool) (cs : List (Comp Text)) :
    resolve absolute (cs.filter (· ≠ .curDir)) = resolve absolute cs := by
  induction cs using List.reverseRecOn with
  | nil => rfl
  | append_singleton cs c ih =>
    rw [List.filter_append]
    by_cases hc : c = .curDir
    · subst hc
      have hnone : [Comp.curDir].filter (· ≠ (.curDir : Comp Text)) = [] := rfl
      rw [hnone, List.append_nil, ih, resolve, resolve, List.foldl_append]
      rfl
    · have hsome : [c].filter (· ≠ .curDir) = [c] := by simp [hc]
      rw [hsome]
      unfold resolve at ih ⊢
      rw [List.foldl_append, List.foldl_append, ih]

theorem place_eq (path : Text) :
    place path = ⟨isAbs path, resolve (isAbs path) ((names path).map Comp.ofPiece)⟩ := by
  unfold place normalised
  rw [← filter_comps, resolve_filter]

theorem isAbs_intercalate (l : List Text) (h : ∀ name ∈ l, name ≠ [] ∧ sep ∉ name) :
    isAbs ([sep].intercalate l) = false := by
  cases l with
  | nil => rfl
  | cons name l =>
    obtain ⟨hne, hsep⟩ := h name List.mem_cons_self
    cases name with
    | nil => exact absurd rfl hne
    | cons c cs =>
      have hc : c ≠ sep := fun hc => hsep (hc ▸ List.mem_cons_self)
      have hhead : ([sep].intercalate ((c :: cs) :: l)).head? = some c := by
        cases l with
        | nil => simp [List.intercalate]
        | cons next l => simp [List.intercalate]
      unfold isAbs
      rw [hhead]
      simpa using hc

theorem parentPath_spec {path : Text} (h : names path ≠ []) :
    isAbs (parentPath path) = isAbs path ∧
      comps (parentPath path) = (names path).dropLast.map Comp.ofPiece := by
  have hmem : ∀ name ∈ (names path).dropLast, name ≠ [] ∧ sep ∉ name := fun name hname =>
    of_mem_names (List.dropLast_subset _ hname)
  have hrel := isAbs_intercalate _ hmem
  have hpieces := pieces_intercalate _ hmem
  have hparent : parentPath path =
      (if isAbs path then [sep] else []) ++ [sep].intercalate (names path).dropLast := if_neg h
  rw [hparent]
  unfold comps
  cases habs : isAbs path with
  | true =>
    refine ⟨rfl, ?_⟩
    have hroot := pieces_append_sep [] ([sep].intercalate (names path).dropLast)
    rw [pieces_nil, hpieces] at hroot
    exact congrArg _ hroot
  | false => exact ⟨hrel, congrArg _ hpieces⟩

/-! ## The candidates -/

theorem comps_of_space {name : Text} (hspace : ' ' ∈ name) (hsep : sep ∉ name) :
    isAbs name = false ∧ comps name = [.normal name] := by
  have hne : name ≠ [] := List.ne_nil_of_mem hspace
  have hpieces := pieces_of_not_mem hsep hne
  have hmem : name ∈ pieces name := hpieces ▸ List.mem_singleton_self name
  refine ⟨isAbs_of_mem_pieces hmem, ?_⟩
  rw [comps_of_mem_pieces hmem]
  unfold Comp.ofPiece
  rw [if_neg, if_neg]
  · rintro rfl
    simp at hspace
  · rintro rfl
    simp at hspace

theorem place_push {directory name : Text} (h : isAbs name = false ∧ comps name = [.normal name]) :
    place (push directory name) = (place directory).child name := by
  unfold place normalised Place.child
  rw [isAbs_push h.1, comps_push h.1, h.2]
  dsimp only
  rw [resolve, List.foldl_append]
  rfl

theorem numbered_spec (number : ℕ) :
    ' ' ∈ (" (" ++ toString number ++ ")").toList ∧
      sep ∉ (" (" ++ toString number ++ ")").toList := by
  rw [String.toList_append, String.toList_append]
  refine ⟨by simp, fun hmem => ?_⟩
  have hmem : sep ∈ (toString number).toList := by simpa [sep] using hmem
  have hdigit := isDigit_of_mem_toString hmem
  cases hdigit

theorem fileName_spec {path name : Text} (h : fileName path = some name) :
    name ≠ [] ∧ sep ∉ name := by
  unfold fileName at h
  rw [filter_comps] at h
  split at h
  · rename_i last hlast
    cases h
    obtain ⟨piece, hpiece, heq⟩ := List.mem_map.mp (List.mem_of_getLast? hlast)
    have hname := of_mem_names hpiece
    unfold Comp.ofPiece at heq
    split at heq
    · cases heq
    · split at heq
      · cases heq
      · cases heq
        exact hname
  · cases h

theorem availablePath_succ (path : Text) (index : ℕ) :
    ∃ name, availablePath path (index + 1) = push (parentPath path) name ∧
      isAbs name = false ∧ comps name = [.normal name] := by
  obtain ⟨hspace, hsep⟩ := numbered_spec (index + 1)
  unfold availablePath
  dsimp only
  split
  · refine ⟨_, rfl, comps_of_space (List.mem_append_right _ hspace) fun hmem => ?_⟩
    rcases List.mem_append.mp hmem with hmem | hmem
    · revert hmem
      decide
    · exact hsep hmem
  · rename_i name hname
    have hname := (fileName_spec hname).2
    split
    · -- the number comes before the extension
      rename_i stem extension hsplit
      refine ⟨_, rfl, comps_of_space
        (List.mem_append_left _ (List.mem_append_right _ hspace)) fun hmem => ?_⟩
      unfold splitExtension at hsplit
      split at hsplit
      · cases hsplit
      · split at hsplit
        · cases hsplit
        · rename_i parts hparts
          split at hsplit
          · cases hsplit
          · cases hsplit
            obtain ⟨rfl, -⟩ := eq_of_rsplitOnce hparts
            rcases List.mem_append.mp hmem with hmem | hmem
            · rcases List.mem_append.mp hmem with hmem | hmem
              · exact hname (List.mem_append_left _ hmem)
              · exact hsep hmem
            · exact hname (List.mem_append_right _ hmem)
    · refine ⟨_, rfl, comps_of_space (List.mem_append_right _ hspace) fun hmem => ?_⟩
      rcases List.mem_append.mp hmem with hmem | hmem
      · exact hname hmem
      · exact hsep hmem

def Sibling (path : Text) (index : ℕ) : Prop := index ≠ 0 ∨ fileName path ≠ none

instance (path : Text) (index : ℕ) : Decidable (Sibling path index) :=
  inferInstanceAs (Decidable (_ ∨ _))

/-- **The candidates lie in one directory.** -/
theorem sibling_availablePath {path : Text} {index : ℕ} (h : Sibling path index) :
    ∃ name, place (availablePath path index) = (place (parentPath path)).child name := by
  cases index with
  | succ index =>
    obtain ⟨name, hpath, hname⟩ := availablePath_succ path index
    exact ⟨name, hpath ▸ place_push hname⟩
  | zero =>
    have hfile : fileName path ≠ none := h.resolve_left fun h => h rfl
    unfold fileName at hfile
    rw [filter_comps] at hfile
    split at hfile
    · rename_i name hlast
      have hne : names path ≠ [] := by
        intro hnil
        rw [hnil] at hlast
        cases hlast
      obtain ⟨habs, hcomps⟩ := parentPath_spec hne
      refine ⟨name, ?_⟩
      have hsplit : (names path).map Comp.ofPiece = comps (parentPath path) ++ [.normal name] := by
        rw [hcomps, List.map_dropLast]
        exact (List.dropLast_append_getLast? _ hlast).symm
      show place path = _
      rw [place_eq, hsplit]
      unfold place normalised Place.child
      rw [habs, resolve, List.foldl_append]
      rfl
    · exact absurd rfl hfile

theorem not_child_below {path name : Text} (h : fileName path = none) :
    ¬((place (parentPath path)).child name).Below (place path) := by
  rintro ⟨-, -, hsuffix⟩
  have hlen := hsuffix.length_le
  rw [show ((place (parentPath path)).child name).path.names =
    name :: (place (parentPath path)).path.names from rfl, List.length_cons] at hlen
  rw [place_eq path] at hlen
  unfold fileName at h
  rw [filter_comps] at h
  cases hlast : ((names path).map Comp.ofPiece).getLast? with
  | none =>
    rw [List.getLast?_eq_none_iff.mp hlast] at hlen
    exact absurd hlen (Nat.not_succ_le_zero _)
  | some c =>
    have hne : names path ≠ [] := by
      intro hnil
      rw [hnil] at hlast
      cases hlast
    obtain ⟨habs, hcomps⟩ := parentPath_spec hne
    have hsplit : (names path).map Comp.ofPiece = comps (parentPath path) ++ [c] := by
      rw [hcomps, List.map_dropLast]
      exact (List.dropLast_append_getLast? _ hlast).symm
    have hstep : resolve (isAbs path) ((names path).map Comp.ofPiece) =
        (place (parentPath path)).path.step (isAbs path) c := by
      rw [hsplit, resolve, List.foldl_append, ← habs]
      rfl
    rw [hstep] at hlen
    generalize (place (parentPath path)).path = parent at hlen
    cases c with
    | normal name =>
      rw [hlast] at h
      cases h
    | curDir =>
      have hlen : parent.names.length + 1 ≤ parent.names.length := hlen
      omega
    | parentDir =>
      unfold Resolved.step at hlen
      dsimp only at hlen
      split at hlen
      · rename_i hnames
        split at hlen
        · omega
        · have hlen : parent.names.length + 1 ≤ parent.names.length := hlen
          omega
      · rename_i first rest hnames
        have hlen : parent.names.length + 1 ≤ rest.length := hlen
        rw [hnames, List.length_cons] at hlen
        omega

/-- **Nothing below a numbered candidate is another one.** -/
theorem eq_of_below {path : Text} {index other : ℕ} (h : Sibling path index)
    (hbelow : (place (availablePath path index)).Below (place (availablePath path other))) :
    place (availablePath path index) = place (availablePath path other) := by
  obtain ⟨name, hplace⟩ := sibling_availablePath h
  rw [hplace] at hbelow ⊢
  by_cases hother : Sibling path other
  · obtain ⟨name', hplace'⟩ := sibling_availablePath hother
    rw [hplace'] at hbelow ⊢
    rw [Place.eq_of_below_both hbelow ⟨rfl, rfl, List.suffix_rfl⟩]
  · -- the path itself, without a file name
    have hother := not_or.mp hother
    have hzero : other = 0 := not_not.mp hother.1
    subst hzero
    exact absurd hbelow (not_child_below (not_not.mp hother.2))

/-- **Two candidates have nothing below them in common.** -/
theorem eq_of_below_both {path : Text} {index other : ℕ} {inner : Place} (h : Sibling path index)
    (hother : Sibling path other) (hbelow : (place (availablePath path index)).Below inner)
    (hbelow' : (place (availablePath path other)).Below inner) :
    place (availablePath path index) = place (availablePath path other) := by
  obtain ⟨name, hplace⟩ := sibling_availablePath h
  obtain ⟨name', hplace'⟩ := sibling_availablePath hother
  rw [hplace] at hbelow ⊢
  rw [hplace'] at hbelow' ⊢
  rw [Place.eq_of_below_both hbelow hbelow']

/-! ## Scheduled paths -/

theorem confined_nextLocal (root relativeDir name : Text) :
    Confined root (nextLocal root relativeDir name) ↔
      ReEnters (isAbs root) (comps root) (comps (nextRelative relativeDir name)) := by
  obtain ⟨hrel, hcomps⟩ := comps_relativePathToLocalPath (nextRelative relativeDir name)
  have habs : isAbs (nextLocal root relativeDir name) = isAbs root := isAbs_push hrel
  have hpath : comps (nextLocal root relativeDir name) =
      comps root ++ comps (nextRelative relativeDir name) := by
    rw [nextLocal, comps_push hrel, hcomps]
  unfold Confined normalised
  rw [habs, hpath, within_append_iff]
  exact and_iff_right rfl

end FluxTerm.Sftp
