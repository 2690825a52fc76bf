import FluxTerm.RemoteEdit.Open
import FluxTerm.Sftp.LocalPlace

/-!
# FluxTerm — where the working copies lie

`build_remote_edit_instance_id`, `build_remote_edit_workspace_dir` and
`build_remote_edit_local_path` of `src-tauri/src/remote_edit.rs`. SHA-256 is a parameter.

* **`RemoteFile`**, **`RemoteFile.localPath`**, **`RemoteFile.instanceId`** — a remote file, its
  working copy, and its stable key.
* **`KeptApart`**, **`keptApart_iff`** — what distinct working copies would mean, and when it holds.

The user name is in the instance id, but not in the path.
-/

namespace FluxTerm.RemoteEdit

open FluxTerm.Engine FluxTerm.Lib FluxTerm.Sftp

/-! ## Segments -/

def isControl (c : Char) : Bool := c.toNat < 0x20 || (0x7f ≤ c.toNat && c.toNat < 0xa0)

/-- The characters that `sanitize_path_segment` replaces by name. -/
def reservedChars : List Char := ['<', '>', ':', '"', '/', '\\', '|', '?', '*']

/-- The replacement of `sanitize_path_segment`. -/
def sanitizeChar (c : Char) : Char := if c ∈ reservedChars ∨ isControl c then '_' else c

/-- The characters of `trim_matches([' ', '.'])`. -/
def isEdge (c : Char) : Bool := c = ' ' || c = '.'

def sanitizePathSegment (value fallback : Text) : Text :=
  let sanitized := trimBy isWhitespace (trimBy isEdge (value.map sanitizeChar))
  if sanitized.isEmpty then fallback else sanitized

def sanitizeFileName (name : Text) : Text := sanitizePathSegment name "file".toList

/-! ## Files and paths -/

/-- A remote file, as `remote_edit_prepare_open` knows it. -/
structure RemoteFile where
  target : RemoteEditTarget
  remotePath : Text
  fileName : Text
deriving DecidableEq

section
variable (sha256Hex : Text → Text) (dataRoot : Text) (file : RemoteFile)

def shortHash (input : Text) : Text := (sha256Hex input).take 10

/-- `cache/remote-files/active`, in the directory of `resolve_data_root_dir`. -/
def activeDir : Text :=
  push (push (push dataRoot "cache".toList) "remote-files".toList) "active".toList

namespace RemoteFile

/-- `build_remote_edit_instance_id`. -/
def instanceId : Text :=
  sha256Hex (file.target.sessionHost ++ '\n' :: (file.target.sessionUsername ++ '\n' ::
    ((toString file.target.sessionPort).toList ++ '\n' :: file.remotePath)))

/-- The topmost directory of `build_remote_edit_workspace_dir`. -/
def hostDir : Text :=
  sanitizePathSegment file.target.sessionHost "host".toList ++
    ("__p".toList ++ (toString file.target.sessionPort).toList)

def dirSegments : List Text :=
  (pieces file.remotePath).dropLast.map (sanitizePathSegment · "dir".toList)

def workspaceLeaf : Text :=
  sanitizeFileName file.fileName ++ ("__".toList ++ shortHash sha256Hex file.remotePath)

/-- `build_remote_edit_workspace_dir`. -/
def workspaceDir : Text :=
  push (file.dirSegments.foldl push (push (activeDir dataRoot) file.hostDir))
    (file.workspaceLeaf sha256Hex)

/-- `build_remote_edit_local_path`. -/
def localPath : Text := push (file.workspaceDir sha256Hex dataRoot) (sanitizeFileName file.fileName)

def edited : EditedFile where
  target := file.target
  remotePath := file.remotePath
  fileName := file.fileName
  instanceId := file.instanceId sha256Hex
  localPath := file.localPath sha256Hex dataRoot

def segments : List Text :=
  file.hostDir ::
    (file.dirSegments ++ [file.workspaceLeaf sha256Hex, sanitizeFileName file.fileName])

/-- The working copy lies below the active directory, after normalisation. -/
def LiesBelow : Prop :=
  Confined (activeDir dataRoot) (file.localPath sha256Hex dataRoot) ∧
    normalised (file.localPath sha256Hex dataRoot) ≠ normalised (activeDir dataRoot)

/-- The segments lead below the active directory: where they climb out of it, they re-enter it. -/
def StaysBelow : Prop :=
  Descends (isAbs dataRoot) (comps (activeDir dataRoot))
    ((file.segments sha256Hex).map Comp.ofPiece)

instance : Decidable (file.StaysBelow sha256Hex dataRoot) :=
  inferInstanceAs (Decidable (Descends _ _ _))

/-- The files differ at most in the user name, and in what sanitising the host and the file name
takes away. -/
def Collides (file other : RemoteFile) : Prop :=
  sanitizePathSegment file.target.sessionHost "host".toList =
      sanitizePathSegment other.target.sessionHost "host".toList ∧
    file.target.sessionPort = other.target.sessionPort ∧ file.remotePath = other.remotePath ∧
    sanitizeFileName file.fileName = sanitizeFileName other.fileName

instance (file other : RemoteFile) : Decidable (file.Collides other) :=
  inferInstanceAs (Decidable (_ ∧ _))

end RemoteFile

/-- The output of `sha256_hex`: 64 digits. -/
def IsHexDigest : Prop :=
  ∀ input, (sha256Hex input).length = 64 ∧ ∀ c ∈ sha256Hex input, c ∈ "0123456789abcdef".toList

end

/-! ## What sanitising leaves -/

theorem sanitizeChar_ne_sep (c : Char) : sanitizeChar c ≠ sep := by
  unfold sanitizeChar
  split
  · decide
  · rename_i h
    rintro rfl
    exact h (.inl (by decide))

section
variable {value fallback : Text}

theorem sanitizePathSegment_ne_nil (h : fallback ≠ []) :
    sanitizePathSegment value fallback ≠ [] := by
  unfold sanitizePathSegment
  dsimp only
  split
  · exact h
  · rename_i hne
    simpa using hne

theorem sep_not_mem_sanitizePathSegment (h : sep ∉ fallback) :
    sep ∉ sanitizePathSegment value fallback := by
  unfold sanitizePathSegment
  dsimp only
  split
  · exact h
  · intro hmem
    obtain ⟨c, -, hc⟩ := List.mem_map.mp (mem_of_mem_trimBy (mem_of_mem_trimBy hmem))
    exact sanitizeChar_ne_sep c hc

end

/-! ## The pieces of a path -/

theorem pieces_foldl_push {names : List Text} (h : ∀ name ∈ names, name ≠ [] ∧ sep ∉ name)
    (p : Text) : pieces (names.foldl push p) = pieces p ++ names := by
  induction names generalizing p with
  | nil => rw [List.foldl_nil, List.append_nil]
  | cons name names ih =>
    obtain ⟨⟨hne, hsep⟩, hrest⟩ := List.forall_mem_cons.mp h
    rw [List.foldl_cons, ih hrest, pieces_push hne hsep, List.append_assoc, List.singleton_append]

theorem isAbs_foldl_push {names : List Text} (h : ∀ name ∈ names, name ≠ [] ∧ sep ∉ name)
    (p : Text) : isAbs (names.foldl push p) = isAbs p := by
  induction names generalizing p with
  | nil => rfl
  | cons name names ih =>
    obtain ⟨⟨-, hsep⟩, hrest⟩ := List.forall_mem_cons.mp h
    rw [List.foldl_cons, ih hrest, isAbs_push (isAbs_of_not_mem hsep)]

theorem isAbs_activeDir (dataRoot : Text) : isAbs (activeDir dataRoot) = isAbs dataRoot := by
  have hnames : ∀ name ∈ ["cache".toList, "remote-files".toList, "active".toList],
      name ≠ [] ∧ sep ∉ name := by
    simp [sep]
  exact isAbs_foldl_push hnames dataRoot

variable {sha256Hex : Text → Text} {dataRoot : Text} {file other : RemoteFile}

namespace RemoteFile

theorem localPath_eq_foldl : file.localPath sha256Hex dataRoot =
    (file.segments sha256Hex).foldl push (activeDir dataRoot) := by
  rw [segments, List.foldl_cons, List.foldl_append]
  rfl

theorem sep_not_mem_port (n : ℕ) : sep ∉ (toString n).toList := by
  intro h
  have hdigit := isDigit_of_mem_toString h
  revert hdigit
  decide

theorem segments_names (hhex : IsHexDigest sha256Hex) :
    ∀ name ∈ file.segments sha256Hex, name ≠ [] ∧ sep ∉ name := by
  have hfile : sanitizeFileName file.fileName ≠ [] ∧ sep ∉ sanitizeFileName file.fileName :=
    ⟨sanitizePathSegment_ne_nil (by decide), sep_not_mem_sanitizePathSegment (by decide)⟩
  intro name hname
  rw [segments, List.mem_cons, List.mem_append] at hname
  rcases hname with rfl | hname | hname
  · refine ⟨by simp [hostDir], ?_⟩
    rw [hostDir, List.mem_append, List.mem_append, not_or, not_or]
    exact ⟨sep_not_mem_sanitizePathSegment (by decide), by decide, sep_not_mem_port _⟩
  · obtain ⟨segment, -, rfl⟩ := List.mem_map.mp hname
    exact ⟨sanitizePathSegment_ne_nil (by decide), sep_not_mem_sanitizePathSegment (by decide)⟩
  · rw [List.mem_cons, List.mem_singleton] at hname
    rcases hname with rfl | rfl
    · refine ⟨by simp [workspaceLeaf], ?_⟩
      rw [workspaceLeaf, List.mem_append, List.mem_append, not_or, not_or]
      refine ⟨hfile.2, by decide, fun hmem => ?_⟩
      have hdigit := (hhex _).2 _ (List.mem_of_mem_take hmem)
      revert hdigit
      decide
    · exact hfile

theorem pieces_localPath (hhex : IsHexDigest sha256Hex) :
    pieces (file.localPath sha256Hex dataRoot) =
      pieces (activeDir dataRoot) ++ file.segments sha256Hex := by
  rw [localPath_eq_foldl, pieces_foldl_push (segments_names hhex)]

/-! ## Which files share a working copy -/

theorem hostDir_eq_iff : file.hostDir = other.hostDir ↔
    sanitizePathSegment file.target.sessionHost "host".toList =
        sanitizePathSegment other.target.sessionHost "host".toList ∧
      file.target.sessionPort = other.target.sessionPort := by
  have hsplit : ∀ file : RemoteFile, rsplitOnce 'p' file.hostDir =
      some (sanitizePathSegment file.target.sessionHost "host".toList ++ "__".toList,
        (toString file.target.sessionPort).toList) := by
    intro file
    have hdigits : 'p' ∉ (toString file.target.sessionPort).toList := by
      intro h
      have hdigit := isDigit_of_mem_toString h
      revert hdigit
      decide
    have hshape : file.hostDir =
        (sanitizePathSegment file.target.sessionHost "host".toList ++ "__".toList) ++
          'p' :: (toString file.target.sessionPort).toList := by
      simp [hostDir]
    rw [hshape, rsplitOnce_append_cons _ hdigits]
  constructor
  · intro h
    have hparts := hsplit file
    rw [h, hsplit other] at hparts
    obtain ⟨hhost, hport⟩ := Prod.mk.inj (Option.some.inj hparts)
    exact ⟨(List.append_cancel_right hhost).symm, (toString_toList_inj hport).symm⟩
  · rintro ⟨hhost, hport⟩
    rw [hostDir, hostDir, hhost, hport]

/-- **Equal paths.** The short hash tells remote paths apart; nothing tells user names apart. -/
theorem localPath_eq_iff (hhex : IsHexDigest sha256Hex)
    (hshort : shortHash sha256Hex file.remotePath = shortHash sha256Hex other.remotePath →
      file.remotePath = other.remotePath) :
    file.localPath sha256Hex dataRoot = other.localPath sha256Hex dataRoot ↔
      file.Collides other := by
  constructor
  · intro h
    have hpieces : pieces (file.localPath sha256Hex dataRoot) = _ := pieces_localPath hhex
    rw [h, pieces_localPath hhex] at hpieces
    obtain ⟨hdir, hbelow⟩ := List.cons.inj (List.append_cancel_left hpieces).symm
    obtain ⟨hhost, hport⟩ := hostDir_eq_iff.mp hdir
    obtain ⟨-, hlast⟩ := List.append_inj' hbelow rfl
    obtain ⟨hleaf, hname⟩ := List.cons.inj hlast
    have hname := (List.cons.inj hname).1
    rw [workspaceLeaf, workspaceLeaf, hname] at hleaf
    exact ⟨hhost, hport, hshort (List.append_cancel_left (List.append_cancel_left hleaf)), hname⟩
  · rintro ⟨hhost, hport, hpath, hname⟩
    have hdir : file.hostDir = other.hostDir := hostDir_eq_iff.mpr ⟨hhost, hport⟩
    rw [localPath_eq_foldl, localPath_eq_foldl, segments, segments, hdir, dirSegments, dirSegments,
      workspaceLeaf, workspaceLeaf, hpath, hname]

/-! ## Which working copies lie below the active directory -/

/-- **Below the active directory.** -/
theorem liesBelow_iff (hhex : IsHexDigest sha256Hex) :
    file.LiesBelow sha256Hex dataRoot ↔ file.StaysBelow sha256Hex dataRoot := by
  have habs : isAbs (file.localPath sha256Hex dataRoot) = isAbs dataRoot := by
    rw [localPath_eq_foldl, isAbs_foldl_push (segments_names hhex), isAbs_activeDir]
  have hcomps : comps (file.localPath sha256Hex dataRoot) =
      comps (activeDir dataRoot) ++ (file.segments sha256Hex).map Comp.ofPiece := by
    rw [comps, pieces_localPath hhex, List.map_append]
    rfl
  rw [LiesBelow, Confined, normalised, normalised, habs, isAbs_activeDir, hcomps, StaysBelow,
    ← below_append_iff]
  simp

end RemoteFile

/-! ## Opening looks at one working copy -/

/-- The workspaces have the same working copy of the file, and the same entry. -/
structure SameCopy (file : EditedFile) (ws ws' : Workspace) : Prop where
  copy : ws.files file.localPath = ws'.files file.localPath
  entry : ws.entry = ws'.entry

section
variable (contentOf : RemoteVersion → Bytes) (hash : Bytes → Text) {file : EditedFile}
  (version : RemoteVersion) (outcomes : OpenOutcomes) {ws ws' : Workspace}

theorem SameCopy.clean (h : SameCopy file ws ws') (cleanup : CacheCleanup) :
    SameCopy file (ws.clean file cleanup) (ws'.clean file cleanup) := by
  constructor
  · simp only [Workspace.clean, h.copy]
  · simp only [Workspace.clean, h.copy, h.entry]

theorem SameCopy.write (h : SameCopy file ws ws') (path : Text) (copy : Option LocalFile) :
    SameCopy file (ws.write path copy) (ws'.write path copy) := by
  constructor
  · simp only [Workspace.write, h.copy]
  · exact h.entry

theorem SameCopy.readSnapshot (h : SameCopy file ws ws') (fault : Option EngineError) :
    ws.readSnapshot hash file.localPath fault = ws'.readSnapshot hash file.localPath fault := by
  unfold Workspace.readSnapshot
  rw [h.copy]

theorem SameCopy.download (h : SameCopy file ws ws') :
    (ws.download contentOf hash file version outcomes).2 =
      (ws'.download contentOf hash file version outcomes).2 := by
  unfold Workspace.download
  cases outcomes.download with
  | failed err => rfl
  | cancelled =>
    dsimp only
    rw [h.readSnapshot]
  | finished mtimeMs =>
    have hwritten := h.write (availablePath file.localPath outcomes.candidate)
      (some ⟨contentOf version, mtimeMs⟩)
    exact congrArg (Except.map (outcomes.now, ·))
      (hwritten.readSnapshot hash outcomes.rereadFault)

theorem SameCopy.workingCopy (h : SameCopy file ws ws') :
    (ws.workingCopy contentOf hash file version outcomes).2 =
      (ws'.workingCopy contentOf hash file version outcomes).2 := by
  have hreuse : ∀ entry, ws.shouldReuseLocalWorkspace hash file version outcomes entry =
      ws'.shouldReuseLocalWorkspace hash file version outcomes entry := by
    intro entry
    rw [Workspace.shouldReuseLocalWorkspace, Workspace.shouldReuseLocalWorkspace, h.readSnapshot]
  have hremoved : SameCopy file { ws with entry := none } { ws' with entry := none } :=
    ⟨h.copy, rfl⟩
  unfold Workspace.workingCopy
  rw [h.copy, h.entry]
  cases ws'.files file.localPath with
  | none =>
    dsimp only
    split
    · cases outcomes.removeFault with
      | some err => rfl
      | none => exact hremoved.download contentOf hash version outcomes
    · exact h.download contentOf hash version outcomes
  | some copy =>
    cases ws'.entry with
    | none => rfl
    | some entry =>
      dsimp only
      split
      · rfl
      · rw [hreuse]
        cases ws'.shouldReuseLocalWorkspace hash file version outcomes entry with
        | error err => rfl
        | ok reuse =>
          cases reuse with
          | true => rfl
          | false => exact h.download contentOf hash version outcomes

/-- **Opening a file** depends on its own working copy and its entry only. -/
theorem prepareOpen_congr (h : SameCopy file ws ws') :
    (prepareOpen contentOf hash file version outcomes ws).2 =
      (prepareOpen contentOf hash file version outcomes ws').2 := by
  have hcopy := (h.clean outcomes.cleanup).workingCopy contentOf hash version outcomes
  unfold prepareOpen
  dsimp only
  split
  · rfl
  · rfl
  · split
    · rfl
    · split
      · rfl
      · rfl
      · obtain ⟨⟨left, result⟩, hleft⟩ : ∃ r, (ws.clean file outcomes.cleanup).workingCopy contentOf
            hash file version outcomes = r := ⟨_, rfl⟩
        obtain ⟨⟨right, result'⟩, hright⟩ : ∃ r, (ws'.clean file outcomes.cleanup).workingCopy
            contentOf hash file version outcomes = r := ⟨_, rfl⟩
        rw [hleft, hright] at hcopy
        rw [hleft, hright]
        obtain rfl : result = result' := hcopy
        cases result with
        | error err => rfl
        | ok copy =>
          -- the rest of the call does not look at the workspace
          unfold finishOpen
          dsimp only
          split <;> rfl
end

/-! ## Distinct working copies -/

/-- Opening the file gives the same result whatever is at the path of the other working copy. -/
def Undisturbed (file other : EditedFile) : Prop :=
  ∀ (contentOf : RemoteVersion → Bytes) (hash : Bytes → Text) (version : RemoteVersion)
    (outcomes : OpenOutcomes) (ws : Workspace) (copy : Option LocalFile),
    (prepareOpen contentOf hash file version outcomes (ws.write other.localPath copy)).2 =
      (prepareOpen contentOf hash file version outcomes ws).2

def OpenOutcomes.offline (err : EngineError) : OpenOutcomes :=
  ⟨[], ⟨[], false, none⟩, none, true, none, none, none, none, 0, .failed err, none, none, none, 0⟩

theorem prepareOpen_foreign (contentOf : RemoteVersion → Bytes) (hash : Bytes → Text)
    {file : EditedFile} (version : RemoteVersion) (err : EngineError) {ws : Workspace}
    {copy : LocalFile} (hcopy : ws.files file.localPath = some copy) (hentry : ws.entry = none) :
    (prepareOpen contentOf hash file version (.offline err) ws).2 =
      .error (workspaceInvalidError "The local working copy index is missing or corrupted") := by
  simp [prepareOpen, OpenOutcomes.offline, Workspace.clean, Workspace.workingCopy, hcopy, hentry]

/-- **One working copy does not matter to the other file** exactly when it is not at its path. -/
theorem undisturbed_iff {file other : EditedFile} :
    Undisturbed file other ↔ file.localPath ≠ other.localPath := by
  constructor
  · intro h heq
    let contentOf : RemoteVersion → Bytes := fun _ => []
    let hash : Bytes → Text := fun _ => []
    let empty : Workspace := ⟨fun _ => none, none, none⟩
    have hsame := h contentOf hash ⟨none, none⟩ (.offline notFileError) empty (some ⟨[], 0⟩)
    have hcopy : (empty.write other.localPath (some ⟨[], 0⟩)).files file.localPath =
        some ⟨[], 0⟩ := if_pos heq
    have hforeign := prepareOpen_foreign contentOf hash ⟨none, none⟩ notFileError hcopy rfl
    rw [hforeign] at hsame
    have hnew : (prepareOpen contentOf hash file ⟨none, none⟩ (.offline notFileError) empty).2 =
        .error notFileError := rfl
    rw [hnew] at hsame
    have hcode := congrArg EngineError.code (Except.error.inj hsame)
    revert hcode
    decide
  · intro h contentOf hash version outcomes ws copy
    refine prepareOpen_congr contentOf hash version outcomes ⟨?_, rfl⟩
    simp only [Workspace.write, if_neg h]

/-- The two files have distinct working copies below the active directory, and opening one of them
does not depend on the other one's. -/
structure KeptApart (sha256Hex : Text → Text) (dataRoot : Text) (file other : RemoteFile) :
    Prop where
  ne : file.localPath sha256Hex dataRoot ≠ other.localPath sha256Hex dataRoot
  below : file.LiesBelow sha256Hex dataRoot
  below_other : other.LiesBelow sha256Hex dataRoot
  undisturbed : Undisturbed (file.edited sha256Hex dataRoot) (other.edited sha256Hex dataRoot)
  undisturbed_other :
    Undisturbed (other.edited sha256Hex dataRoot) (file.edited sha256Hex dataRoot)

/-- **When two files are kept apart.** -/
theorem keptApart_iff (hhex : IsHexDigest sha256Hex)
    (hshort : shortHash sha256Hex file.remotePath = shortHash sha256Hex other.remotePath →
      file.remotePath = other.remotePath) :
    KeptApart sha256Hex dataRoot file other ↔
      ¬file.Collides other ∧ file.StaysBelow sha256Hex dataRoot ∧
        other.StaysBelow sha256Hex dataRoot := by
  constructor
  · intro h
    exact ⟨fun hcollides => h.ne ((RemoteFile.localPath_eq_iff hhex hshort).mpr hcollides),
      (RemoteFile.liesBelow_iff hhex).mp h.below, (RemoteFile.liesBelow_iff hhex).mp h.below_other⟩
  · rintro ⟨hcollides, hbelow, hbelow'⟩
    have hne : file.localPath sha256Hex dataRoot ≠ other.localPath sha256Hex dataRoot :=
      fun heq => hcollides ((RemoteFile.localPath_eq_iff hhex hshort).mp heq)
    exact ⟨hne, (RemoteFile.liesBelow_iff hhex).mpr hbelow,
      (RemoteFile.liesBelow_iff hhex).mpr hbelow', undisturbed_iff.mpr hne,
      undisturbed_iff.mpr hne.symm⟩

/-- SHA-256 of the texts of the samples. -/
def sampleSha256 (input : Text) : Text :=
  let digest :=
    if input = "/etc/hosts".toList then
      "4a666ea3a3b04a24f574974df10592d51bd191614ee41b02d09f6d13c0c2f52a"
    else if input = "/etc/passwd".toList then
      "74acf31844532670be412c65b8251ee55d072549080b1cffdbea6b1a192230a0"
    else if input = "h\nroot\n22\n/etc/hosts".toList then
      "ddaaf99963998cbf6747648b3a0fe25bf1c5d566c3c85a9cf81b133ec38ad6f0"
    else if input = "h\nalice\n22\n/etc/hosts".toList then
      "8f192b4da6ddc88bca5ce7092295ca3a62cecee1fd8f8ddc97583095936f01a4"
    else "e39c8cc3828a637a61a90152981e51379c70efb4fec272991a065106970d4a01"
  digest.toList

theorem sampleSha256_hex : IsHexDigest sampleSha256 := by
  have hex_of_all : ∀ digest : Text,
      (digest.length == 64 && digest.all fun c => c ∈ "0123456789abcdef".toList) = true →
        digest.length = 64 ∧ ∀ c ∈ digest, c ∈ "0123456789abcdef".toList := by
    intro digest h
    rw [Bool.and_eq_true, beq_iff_eq, List.all_eq_true] at h
    exact ⟨h.1, fun c hc => of_decide_eq_true (h.2 c hc)⟩
  intro input
  unfold sampleSha256
  repeat' split
  all_goals exact hex_of_all _ (by decide +kernel)

/-- A file of the host `h`. -/
def sampleRemote (user path name : String) : RemoteFile :=
  ⟨⟨"h".toList, user.toList, 22⟩, path.toList, name.toList⟩

/-- Two files of one directory. -/
theorem keptApart_sample : KeptApart sampleSha256 "/data".toList
    (sampleRemote "root" "/etc/hosts" "hosts") (sampleRemote "root" "/etc/passwd" "passwd") :=
  (keptApart_iff sampleSha256_hex (by decide +kernel)).mpr (by decide +kernel)

/-- One file, seen by two users. -/
theorem users_share_workingCopy : ¬∀ file other : RemoteFile,
    file.instanceId sampleSha256 ≠ other.instanceId sampleSha256 →
      KeptApart sampleSha256 "/data".toList file other := by
  intro h
  have hids : (sampleRemote "root" "/etc/hosts" "hosts").instanceId sampleSha256 ≠
      (sampleRemote "alice" "/etc/hosts" "hosts").instanceId sampleSha256 := by
    decide +kernel
  exact (h _ _ hids).ne rfl

end FluxTerm.RemoteEdit
