import FluxTerm.RemoteEdit.Index

/-!
# FluxTerm — what the cleanup of the remote file cache removes

`ensure_remote_file_cache_cleanup` and `collect_expired_cache_paths` of
`src-tauri/src/remote_edit.rs`, over directory trees of any depth.

* **`destroysNothing_iff`** — when the cleanup spares all files that are recent or not uploaded.
-/

namespace FluxTerm.RemoteEdit

open FluxTerm.Engine FluxTerm.Lib

/-! ## The cache directory -/

/-- The entries of a directory in the order of `read_dir`, each with its modification time. -/
inductive CacheTree where
  | empty
  | file (name : Text) (modifiedMs : Option ℕ) (content : Bytes) (rest : CacheTree)
  | dir (name : Text) (modifiedMs : Option ℕ) (entries rest : CacheTree)
  | dangling (name : Text) (detail : String) (rest : CacheTree)
  | unlisted (isOpen : Bool) (detail : String)

namespace CacheTree

def names : CacheTree → List Text
  | empty | unlisted .. => []
  | file name _ _ rest | dir name _ _ rest | dangling name _ rest => name :: rest.names

def Distinct : CacheTree → Prop
  | empty | unlisted .. => True
  | file name _ _ rest | dangling name _ rest => name ∉ rest.names ∧ rest.Distinct
  | dir name _ entries rest => name ∉ rest.names ∧ entries.Distinct ∧ rest.Distinct

end CacheTree

structure CacheRoot where
  tree : CacheTree
  distinct : tree.Distinct

def remoteEditCleanupFailedCode : String := "remote_edit_cleanup_failed"

def cleanupFailed (message detail : String) : EngineError :=
  .withDetail remoteEditCleanupFailedCode message detail

def remoteFileCacheRetentionMs : ℕ := 7 * 24 * 60 * 60 * 1000

def reservedNames : List Text :=
  [".cleanup-meta.json".toList, "index.json".toList, "index.json.tmp".toList]

def isReserved (name : Text) : Bool := name ∈ reservedNames

def isExpired (expiredBeforeMs : ℕ) (modifiedMs : Option ℕ) : Bool :=
  modifiedMs.any (· < expiredBeforeMs)

/-- `collect_expired_cache_paths`. The paths lead from the directory. -/
def collectExpiredCachePaths (expiredBeforeMs : ℕ) :
    CacheTree → Except EngineError (List (List Text))
  | .empty => .ok []
  | .unlisted isOpen detail =>
    .error (cleanupFailed (if isOpen then "Failed to read a cache directory entry"
      else "Failed to traverse the cache directory") detail)
  | .file name modifiedMs _ rest =>
    if isReserved name then collectExpiredCachePaths expiredBeforeMs rest
    else if isExpired expiredBeforeMs modifiedMs then
      (collectExpiredCachePaths expiredBeforeMs rest).map ([name] :: ·)
    else collectExpiredCachePaths expiredBeforeMs rest
  | .dir name modifiedMs entries rest =>
    if isReserved name then collectExpiredCachePaths expiredBeforeMs rest
    else if isExpired expiredBeforeMs modifiedMs then
      -- what is in the directory is not looked at
      (collectExpiredCachePaths expiredBeforeMs rest).map ([name] :: ·)
    else
      match collectExpiredCachePaths expiredBeforeMs entries with
      | .error err => .error err
      | .ok inner =>
        (collectExpiredCachePaths expiredBeforeMs rest).map (inner.map (name :: ·) ++ ·)
  | .dangling name detail rest =>
    if isReserved name then collectExpiredCachePaths expiredBeforeMs rest
    else .error (cleanupFailed "Failed to read cache metadata" detail)

structure CleanupInput where
  createFault : Option EngineError
  markerCurrent : Bool
  nowMs : ℕ

def CleanupInput.expiredBeforeMs (input : CleanupInput) : ℕ :=
  input.nowMs - remoteFileCacheRetentionMs

/-- `ensure_remote_file_cache_cleanup`, up to the paths that it removes. -/
def ensureRemoteFileCacheCleanup (input : CleanupInput) (root : CacheRoot) :
    Except EngineError (List (List Text)) :=
  match input.createFault with
  | some err => .error err
  | none =>
    if input.markerCurrent then .ok []
    else collectExpiredCachePaths input.expiredBeforeMs root.tree

/-! ## What is to be spared -/

structure CacheFile where
  trail : List (Text × Option ℕ)
  modifiedMs : Option ℕ
  content : Bytes

def CacheFile.path (file : CacheFile) : List Text := file.trail.map Prod.fst

def CacheFile.inDir (name : Text) (modifiedMs : Option ℕ) (file : CacheFile) : CacheFile :=
  { file with trail := (name, modifiedMs) :: file.trail }

def CacheTree.files : CacheTree → List CacheFile
  | empty | unlisted .. => []
  | file name modifiedMs content rest => ⟨[(name, modifiedMs)], modifiedMs, content⟩ :: rest.files
  | dir name modifiedMs entries rest => entries.files.map (.inDir name modifiedMs) ++ rest.files
  | dangling _ _ rest => rest.files

def CacheTree.faults : CacheTree → List (List (Text × Option ℕ))
  | empty => []
  | unlisted .. => [[]]
  | file _ _ _ rest => rest.faults
  | dir name modifiedMs entries rest => entries.faults.map ((name, modifiedMs) :: ·) ++ rest.faults
  | dangling name _ rest => [(name, none)] :: rest.faults

section Spared

variable (hash : Bytes → Text) (localPath : RemoteEditIndexEntry → Option (List Text))
  (index : RemoteEditIndexStore) (input : CleanupInput)

/-- The file was modified within the retention period. -/
def CacheFile.IsRecent (file : CacheFile) : Prop :=
  ∃ modifiedMs, file.modifiedMs = some modifiedMs ∧
    input.nowMs ≤ modifiedMs + remoteFileCacheRetentionMs

/-- The file is a working copy, and its content is not that of the baseline. -/
def CacheFile.IsUnsynced (file : CacheFile) : Prop :=
  ∃ entry ∈ index.entries.entries.map Prod.snd, localPath entry = some file.path ∧
    (hash file.content ≠ entry.baseline.contentHash ∨ file.content.length ≠ entry.baseline.size)

def CacheFile.IsPrecious (file : CacheFile) : Prop :=
  file.IsRecent input ∨ file.IsUnsynced hash localPath index

/-- No precious file is removed. `unlinks` tells which removals of files succeed. -/
def DestroysNothing (unlinks : List Text → Bool) (root : CacheRoot) : Prop :=
  ∀ paths, ensureRemoteFileCacheCleanup input root = .ok paths →
    ∀ file ∈ root.tree.files, (∃ path ∈ paths, path <+: file.path) → unlinks file.path = true →
      ¬file.IsPrecious hash localPath index input

end Spared

/-! ## When a file is removed -/

def isTaken (expiredBeforeMs : ℕ) : List (Text × Option ℕ) → Bool
  | [] => false
  | (name, modifiedMs) :: trail =>
    !isReserved name && (isExpired expiredBeforeMs modifiedMs || isTaken expiredBeforeMs trail)

def isReached (expiredBeforeMs : ℕ) (trail : List (Text × Option ℕ)) : Bool :=
  trail.all fun (name, modifiedMs) => !isReserved name && !isExpired expiredBeforeMs modifiedMs

variable {expiredBeforeMs : ℕ} {tree : CacheTree} {paths : List (List Text)}

theorem isTaken_inDir (name : Text) (modifiedMs : Option ℕ) (file : CacheFile) :
    isTaken expiredBeforeMs (file.inDir name modifiedMs).trail =
      (!isReserved name && (isExpired expiredBeforeMs modifiedMs ||
        isTaken expiredBeforeMs file.trail)) := rfl

theorem isReached_cons (name : Text) (modifiedMs : Option ℕ) (trail : List (Text × Option ℕ)) :
    isReached expiredBeforeMs ((name, modifiedMs) :: trail) =
      (!isReserved name && !isExpired expiredBeforeMs modifiedMs &&
        isReached expiredBeforeMs trail) := rfl

theorem head_mem_of_files : ∀ {tree : CacheTree} {file : CacheFile}, file ∈ tree.files →
    ∃ name ∈ tree.names, ∃ rest, file.path = name :: rest
  | .file name modifiedMs content rest, file, h => by
    rcases List.mem_cons.mp h with rfl | h
    · exact ⟨name, List.mem_cons_self .., [], rfl⟩
    · obtain ⟨head, hhead, hpath⟩ := head_mem_of_files h
      exact ⟨head, List.mem_cons_of_mem _ hhead, hpath⟩
  | .dir name modifiedMs entries rest, file, h => by
    rcases List.mem_append.mp h with h | h
    · obtain ⟨inner, -, rfl⟩ := List.mem_map.mp h
      exact ⟨name, List.mem_cons_self .., inner.path, rfl⟩
    · obtain ⟨head, hhead, hpath⟩ := head_mem_of_files h
      exact ⟨head, List.mem_cons_of_mem _ hhead, hpath⟩
  | .dangling name detail rest, file, h => by
    obtain ⟨head, hhead, hpath⟩ := head_mem_of_files (show file ∈ rest.files from h)
    exact ⟨head, List.mem_cons_of_mem _ hhead, hpath⟩

/-- A walk that comes to its end, with the paths that it collects. -/
inductive Collects (expiredBeforeMs : ℕ) : CacheTree → List (List Text) → Prop where
  | empty : Collects expiredBeforeMs .empty []
  | fileTaken {name : Text} {modifiedMs : Option ℕ} {content : Bytes} {rest : CacheTree}
      {paths : List (List Text)} (hname : isReserved name = false)
      (htime : isExpired expiredBeforeMs modifiedMs = true)
      (hrest : Collects expiredBeforeMs rest paths) :
      Collects expiredBeforeMs (.file name modifiedMs content rest) ([name] :: paths)
  | fileKept {name : Text} {modifiedMs : Option ℕ} {content : Bytes} {rest : CacheTree}
      {paths : List (List Text)} (hkept : isTaken expiredBeforeMs [(name, modifiedMs)] = false)
      (hrest : Collects expiredBeforeMs rest paths) :
      Collects expiredBeforeMs (.file name modifiedMs content rest) paths
  | dirTaken {name : Text} {modifiedMs : Option ℕ} {entries rest : CacheTree}
      {paths : List (List Text)} (hname : isReserved name = false)
      (htime : isExpired expiredBeforeMs modifiedMs = true)
      (hrest : Collects expiredBeforeMs rest paths) :
      Collects expiredBeforeMs (.dir name modifiedMs entries rest) ([name] :: paths)
  | dirReserved {name : Text} {modifiedMs : Option ℕ} {entries rest : CacheTree}
      {paths : List (List Text)} (hname : isReserved name = true)
      (hrest : Collects expiredBeforeMs rest paths) :
      Collects expiredBeforeMs (.dir name modifiedMs entries rest) paths
  | dirEntered {name : Text} {modifiedMs : Option ℕ} {entries rest : CacheTree}
      {inner paths : List (List Text)} (hname : isReserved name = false)
      (htime : isExpired expiredBeforeMs modifiedMs = false)
      (hentries : Collects expiredBeforeMs entries inner)
      (hrest : Collects expiredBeforeMs rest paths) :
      Collects expiredBeforeMs (.dir name modifiedMs entries rest) (inner.map (name :: ·) ++ paths)
  | danglingReserved {name : Text} {detail : String} {rest : CacheTree}
      {paths : List (List Text)} (hname : isReserved name = true)
      (hrest : Collects expiredBeforeMs rest paths) :
      Collects expiredBeforeMs (.dangling name detail rest) paths

theorem exists_of_map_ok {α β : Type} {f : α → β} {x : Except EngineError α} {y : β}
    (h : x.map f = .ok y) : ∃ z, x = .ok z ∧ f z = y := by
  cases x with
  | error err => cases h
  | ok z => exact ⟨z, rfl, Except.ok.inj h⟩

theorem collects_of_ok : ∀ {tree : CacheTree} {paths : List (List Text)},
    collectExpiredCachePaths expiredBeforeMs tree = .ok paths →
      Collects expiredBeforeMs tree paths := by
  intro tree
  induction tree with
  | empty =>
    intro paths h
    cases h
    exact .empty
  | unlisted isOpen detail => intro paths h; cases h
  | file name modifiedMs content rest ih =>
    intro paths h
    unfold collectExpiredCachePaths at h
    split at h
    · rename_i hname
      exact .fileKept (by simp [isTaken, hname]) (ih h)
    · rename_i hname
      split at h
      · rename_i htime
        obtain ⟨others, hothers, rfl⟩ := exists_of_map_ok h
        exact .fileTaken (Bool.eq_false_iff.mpr hname) htime (ih hothers)
      · rename_i htime
        exact .fileKept (by simp [isTaken, htime]) (ih h)
  | dir name modifiedMs entries rest ihEntries ih =>
    intro paths h
    unfold collectExpiredCachePaths at h
    split at h
    · rename_i hname
      exact .dirReserved hname (ih h)
    · rename_i hname
      split at h
      · rename_i htime
        obtain ⟨others, hothers, rfl⟩ := exists_of_map_ok h
        exact .dirTaken (Bool.eq_false_iff.mpr hname) htime (ih hothers)
      · rename_i htime
        split at h
        · cases h
        · rename_i inner hinner
          obtain ⟨others, hothers, rfl⟩ := exists_of_map_ok h
          exact .dirEntered (Bool.eq_false_iff.mpr hname) (Bool.eq_false_iff.mpr htime)
            (ihEntries hinner) (ih hothers)
  | dangling name detail rest ih =>
    intro paths h
    unfold collectExpiredCachePaths at h
    split at h
    · rename_i hname
      exact .danglingReserved hname (ih h)
    · cases h

theorem Collects.head_mem (h : Collects expiredBeforeMs tree paths) :
    ∀ path ∈ paths, ∃ name ∈ tree.names, ∃ rest, path = name :: rest := by
  induction h with
  | empty => nofun
  | fileTaken _ _ _ ih | dirTaken _ _ _ ih =>
    intro path hpath
    rcases List.mem_cons.mp hpath with rfl | hpath
    · exact ⟨_, List.mem_cons_self .., [], rfl⟩
    · obtain ⟨head, hhead, htail⟩ := ih path hpath
      exact ⟨head, List.mem_cons_of_mem _ hhead, htail⟩
  | fileKept _ _ ih | dirReserved _ _ ih | danglingReserved _ _ ih =>
    intro path hpath
    obtain ⟨head, hhead, htail⟩ := ih path hpath
    exact ⟨head, List.mem_cons_of_mem _ hhead, htail⟩
  | dirEntered _ _ _ _ _ ih =>
    intro path hpath
    rcases List.mem_append.mp hpath with hpath | hpath
    · obtain ⟨inner, -, rfl⟩ := List.mem_map.mp hpath
      exact ⟨_, List.mem_cons_self .., inner, rfl⟩
    · obtain ⟨head, hhead, htail⟩ := ih path hpath
      exact ⟨head, List.mem_cons_of_mem _ hhead, htail⟩

def IsUnder (paths : List (List Text)) (file : CacheFile) : Prop :=
  ∃ path ∈ paths, path <+: file.path

theorem isUnder_append {others : List (List Text)} {file : CacheFile} :
    IsUnder (paths ++ others) file ↔ IsUnder paths file ∨ IsUnder others file := by
  unfold IsUnder
  simp only [List.mem_append, or_and_right, exists_or]

theorem isUnder_map_iff {name head : Text} {tail : List Text} {file : CacheFile}
    (hpath : file.path = head :: tail) :
    IsUnder (paths.map (name :: ·)) file ↔ name = head ∧ ∃ path ∈ paths, path <+: tail := by
  unfold IsUnder
  rw [hpath]
  constructor
  · rintro ⟨whole, hwhole, hlead⟩
    obtain ⟨path, hmem, rfl⟩ := List.mem_map.mp hwhole
    rw [List.cons_prefix_cons] at hlead
    exact ⟨hlead.1, path, hmem, hlead.2⟩
  · rintro ⟨rfl, path, hmem, hlead⟩
    exact ⟨_, List.mem_map_of_mem hmem, List.cons_prefix_cons.mpr ⟨rfl, hlead⟩⟩

theorem Collects.not_isUnder {name : Text} {tail : List Text} {file : CacheFile}
    (h : Collects expiredBeforeMs tree paths) (hname : name ∉ tree.names)
    (hpath : file.path = name :: tail) : ¬IsUnder paths file := by
  rintro ⟨path, hmem, hlead⟩
  obtain ⟨head, hhead, rest, rfl⟩ := h.head_mem path hmem
  rw [hpath, List.cons_prefix_cons] at hlead
  exact hname (hlead.1 ▸ hhead)

theorem isUnder_beside {name : Text} (inner : List (List Text)) {file : CacheFile}
    (hname : name ∉ tree.names) (hfile : file ∈ tree.files) :
    IsUnder (inner.map (name :: ·) ++ paths) file ↔ IsUnder paths file := by
  obtain ⟨head, hhead, tail, hpath⟩ := head_mem_of_files hfile
  rw [isUnder_append, isUnder_map_iff hpath]
  constructor
  · rintro (⟨rfl, -⟩ | h)
    · exact absurd hhead hname
    · exact h
  · exact .inr

/-- **What is removed.** A file is under a collected path exactly if it is taken. -/
theorem Collects.isUnder_iff (h : Collects expiredBeforeMs tree paths) (hdistinct : tree.Distinct) :
    ∀ file ∈ tree.files, IsUnder paths file ↔ isTaken expiredBeforeMs file.trail = true := by
  induction h with
  | empty => nofun
  | @fileTaken name modifiedMs content rest paths hname htime hrest ih =>
    intro file hfile
    rcases List.mem_cons.mp hfile with rfl | hfile
    · have hunder : IsUnder ([name] :: paths) ⟨[(name, modifiedMs)], modifiedMs, content⟩ :=
        ⟨[name], List.mem_cons_self .., List.prefix_rfl⟩
      simp [hunder, isTaken, hname, htime]
    · rw [← ih hdistinct.2 file hfile]
      exact isUnder_beside [[]] hdistinct.1 hfile
  | @fileKept name modifiedMs content rest paths hkept hrest ih =>
    intro file hfile
    rcases List.mem_cons.mp hfile with rfl | hfile
    · have hnot : ¬IsUnder paths ⟨[(name, modifiedMs)], modifiedMs, content⟩ :=
        hrest.not_isUnder hdistinct.1 rfl
      simp [hnot, hkept]
    · exact ih hdistinct.2 file hfile
  | @dirTaken name modifiedMs entries rest paths hname htime hrest ih =>
    intro file hfile
    rcases List.mem_append.mp hfile with hfile | hfile
    · obtain ⟨inner, -, rfl⟩ := List.mem_map.mp hfile
      have hunder : IsUnder ([name] :: paths) (inner.inDir name modifiedMs) :=
        ⟨[name], List.mem_cons_self .., inner.path, rfl⟩
      refine iff_of_true hunder ?_
      rw [isTaken_inDir, hname, htime]
      rfl
    · rw [← ih hdistinct.2.2 file hfile]
      exact isUnder_beside [[]] hdistinct.1 hfile
  | @dirReserved name modifiedMs entries rest paths hname hrest ih =>
    intro file hfile
    rcases List.mem_append.mp hfile with hfile | hfile
    · obtain ⟨inner, -, rfl⟩ := List.mem_map.mp hfile
      have hnot : ¬IsUnder paths (inner.inDir name modifiedMs) :=
        hrest.not_isUnder hdistinct.1 rfl
      refine iff_of_false hnot ?_
      rw [isTaken_inDir, hname]
      exact nofun
    · exact ih hdistinct.2.2 file hfile
  | @dirEntered name modifiedMs entries rest inner paths hname htime hentries hrest ihEntries ih =>
    intro file hfile
    rcases List.mem_append.mp hfile with hfile | hfile
    · obtain ⟨below, hbelow, rfl⟩ := List.mem_map.mp hfile
      have hnot : ¬IsUnder paths (below.inDir name modifiedMs) :=
        hrest.not_isUnder hdistinct.1 rfl
      have hinner : IsUnder (inner.map (name :: ·)) (below.inDir name modifiedMs) ↔
          name = name ∧ ∃ path ∈ inner, path <+: below.path := isUnder_map_iff rfl
      have htaken : isTaken expiredBeforeMs (below.inDir name modifiedMs).trail =
          isTaken expiredBeforeMs below.trail := by
        rw [isTaken_inDir, hname, htime, Bool.not_false, Bool.true_and, Bool.false_or]
      rw [isUnder_append, hinner, htaken, ← ihEntries hdistinct.2.1 below hbelow]
      constructor
      · rintro (⟨-, hunder⟩ | hunder)
        · exact hunder
        · exact absurd hunder hnot
      · exact fun hunder => .inl ⟨rfl, hunder⟩
    · rw [← ih hdistinct.2.2 file hfile]
      exact isUnder_beside inner hdistinct.1 hfile
  | danglingReserved hname hrest ih => exact ih hdistinct.2

/-! ## When the walk ends -/

theorem Collects.not_reached (h : Collects expiredBeforeMs tree paths) :
    ∀ trail ∈ tree.faults, isReached expiredBeforeMs trail = false := by
  induction h with
  | empty => nofun
  | fileTaken _ _ _ ih => exact ih
  | fileKept _ _ ih => exact ih
  | dirTaken hname htime _ ih =>
    intro trail htrail
    rcases List.mem_append.mp htrail with htrail | htrail
    · obtain ⟨inner, -, rfl⟩ := List.mem_map.mp htrail
      simp [isReached, htime]
    · exact ih trail htrail
  | dirReserved hname _ ih =>
    intro trail htrail
    rcases List.mem_append.mp htrail with htrail | htrail
    · obtain ⟨inner, -, rfl⟩ := List.mem_map.mp htrail
      simp [isReached, hname]
    · exact ih trail htrail
  | dirEntered hname htime _ _ ihEntries ih =>
    intro trail htrail
    rcases List.mem_append.mp htrail with htrail | htrail
    · obtain ⟨inner, hinner, rfl⟩ := List.mem_map.mp htrail
      rw [isReached_cons, ihEntries inner hinner, Bool.and_false]
    · exact ih trail htrail
  | danglingReserved hname _ ih =>
    intro trail htrail
    rcases List.mem_cons.mp htrail with rfl | htrail
    · simp [isReached, hname]
    · exact ih trail htrail

theorem exists_collected : ∀ {tree : CacheTree},
    (∀ trail ∈ tree.faults, isReached expiredBeforeMs trail = false) →
      ∃ paths, collectExpiredCachePaths expiredBeforeMs tree = .ok paths := by
  intro tree
  induction tree with
  | empty => exact fun _ => ⟨[], rfl⟩
  | unlisted isOpen detail =>
    intro h
    exact absurd (h [] (List.mem_singleton.mpr rfl)) (by simp [isReached])
  | file name modifiedMs content rest ih =>
    intro h
    obtain ⟨paths, hpaths⟩ := ih h
    unfold collectExpiredCachePaths
    rw [hpaths]
    split
    · exact ⟨_, rfl⟩
    · split <;> exact ⟨_, rfl⟩
  | dir name modifiedMs entries rest ihEntries ih =>
    intro h
    obtain ⟨paths, hpaths⟩ := ih fun trail htrail => h trail (List.mem_append_right _ htrail)
    unfold collectExpiredCachePaths
    rw [hpaths]
    split
    · exact ⟨_, rfl⟩
    · rename_i hname
      split
      · exact ⟨_, rfl⟩
      · rename_i htime
        have hentries : ∀ trail ∈ entries.faults, isReached expiredBeforeMs trail = false := by
          intro trail htrail
          have hlong := h _ (List.mem_append_left _ (List.mem_map_of_mem htrail))
          rw [isReached_cons, Bool.eq_false_iff.mpr hname, Bool.eq_false_iff.mpr htime] at hlong
          exact hlong
        obtain ⟨inner, hinner⟩ := ihEntries hentries
        rw [hinner]
        exact ⟨_, rfl⟩
  | dangling name detail rest ih =>
    intro h
    obtain ⟨paths, hpaths⟩ := ih fun trail htrail => h trail (List.mem_cons_of_mem _ htrail)
    unfold collectExpiredCachePaths
    split
    · exact ⟨paths, hpaths⟩
    · rename_i hname
      have hreached := h _ (List.mem_cons_self ..)
      simp [isReached, isExpired, hname] at hreached

/-! ## When nothing is destroyed -/

/-- **The exact condition.** The cleanup removes no recent and no unsynced file if and only if it
does not come to its removals, or no such file that can be removed is taken. -/
theorem destroysNothing_iff (hash : Bytes → Text)
    (localPath : RemoteEditIndexEntry → Option (List Text)) (index : RemoteEditIndexStore)
    (input : CleanupInput) (unlinks : List Text → Bool) (root : CacheRoot) :
    DestroysNothing hash localPath index input unlinks root ↔
      input.createFault.isSome = true ∨ input.markerCurrent = true ∨
      (∃ trail ∈ root.tree.faults, isReached input.expiredBeforeMs trail = true) ∨
      ∀ file ∈ root.tree.files, file.IsPrecious hash localPath index input →
        unlinks file.path = true → isTaken input.expiredBeforeMs file.trail = false := by
  unfold DestroysNothing ensureRemoteFileCacheCleanup
  cases hcreate : input.createFault with
  | some err => exact ⟨fun _ => .inl rfl, fun _ paths h => by cases h⟩
  | none =>
    by_cases hmarker : input.markerCurrent = true
    · simp only [hmarker, if_true]
      refine ⟨fun _ => .inr (.inl trivial), fun _ paths h file _ hunder => ?_⟩
      cases h
      obtain ⟨path, hpath, -⟩ := hunder
      cases hpath
    · simp only [hmarker, if_false, Option.isSome_none, false_or, Bool.false_eq_true]
      constructor
      · intro h
        by_cases hfault : ∃ trail ∈ root.tree.faults, isReached input.expiredBeforeMs trail = true
        · exact .inl hfault
        · right
          push Not at hfault
          obtain ⟨paths, hpaths⟩ := exists_collected fun trail htrail =>
            Bool.eq_false_iff.mpr (hfault trail htrail)
          intro file hfile hprecious hunlinks
          have hiff := (collects_of_ok hpaths).isUnder_iff root.distinct file hfile
          rw [Bool.eq_false_iff]
          exact fun htaken => h paths hpaths file hfile (hiff.mpr htaken) hunlinks hprecious
      · intro h paths hpaths file hfile hunder hunlinks hprecious
        rcases h with ⟨trail, htrail, hreached⟩ | hspared
        · rw [(collects_of_ok hpaths).not_reached trail htrail] at hreached
          cases hreached
        · have htaken := ((collects_of_ok hpaths).isUnder_iff root.distinct file hfile).mp hunder
          rw [hspared file hfile hprecious hunlinks] at htaken
          cases htaken

/-! ## A file below an old directory -/

def sampleCache : CacheRoot where
  tree := .dir "active".toList (some 0)
    (.dir "h__p22".toList (some 0)
      (.dir "a.txt__0123456789".toList (some 0)
        (.file "a.txt".toList (some (8 * 24 * 60 * 60 * 1000)) [98] .empty) .empty) .empty) .empty
  distinct := by simp [CacheTree.Distinct, CacheTree.names]

def sampleCleanup : CleanupInput := ⟨none, false, 9 * 24 * 60 * 60 * 1000⟩

theorem sampleCleanup_destroys : ¬DestroysNothing sampleHash (fun _ => none) .initial sampleCleanup
    (fun _ => true) sampleCache := by
  intro h
  have hfiles : sampleCache.tree.files = [⟨[("active".toList, some 0), ("h__p22".toList, some 0),
      ("a.txt__0123456789".toList, some 0), ("a.txt".toList, some (8 * 24 * 60 * 60 * 1000))],
      some (8 * 24 * 60 * 60 * 1000), [98]⟩] := rfl
  have hbefore : sampleCleanup.expiredBeforeMs = 172800000 := by
    unfold CleanupInput.expiredBeforeMs sampleCleanup remoteFileCacheRetentionMs
    dsimp only
  have hexpired : isExpired sampleCleanup.expiredBeforeMs (some 0) = true := by
    rw [hbefore]
    simp [isExpired]
  have hpaths : ensureRemoteFileCacheCleanup sampleCleanup sampleCache =
      .ok [["active".toList]] := by
    have hstart : ∀ root, ensureRemoteFileCacheCleanup sampleCleanup root =
        collectExpiredCachePaths sampleCleanup.expiredBeforeMs root.tree := fun _ => rfl
    rw [hstart]
    unfold sampleCache collectExpiredCachePaths
    rw [if_neg (by decide), if_pos hexpired]
    rfl
  refine h _ hpaths _ (by rw [hfiles]; exact List.mem_singleton.mpr rfl)
    ⟨_, List.mem_singleton.mpr rfl, _, rfl⟩ rfl (.inl ⟨_, rfl, ?_⟩)
  unfold sampleCleanup remoteFileCacheRetentionMs
  dsimp only
  omega

end FluxTerm.RemoteEdit
