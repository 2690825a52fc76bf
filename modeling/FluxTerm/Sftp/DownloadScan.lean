import FluxTerm.Engine.Error
import FluxTerm.Lib.LexicalPath
import Mathlib.Data.List.DropRight

/-!
# FluxTerm — recursive SFTP download, the scan

`stream_remote_download_tasks` in `crates/engine/src/sftp.rs` walks a remote directory and sends
one task for each entry: `CreateLocalDir` for a directory, `DownloadFile` for anything else.
Paths are Unix paths (`Lib.LexicalPath`).

* **`download_confined_iff`** — every scheduled path stays in the local root exactly when every
  chain re-enters what its `..` segments climb out of.
-/

namespace FluxTerm.Sftp

open FluxTerm.Engine FluxTerm.Lib

/-! ## What the scan sees and produces -/

/-- An entry of a remote listing. Only directories are told apart by `file_type`; a directory
comes with the entries that listing it returns. -/
inductive RemoteEntry where
  | dir (name : List Char) (entries : List RemoteEntry)
  | item (name : List Char) (size : Option ℕ)

def RemoteEntry.fileName : RemoteEntry → List Char
  | .dir name _ => name
  | .item name _ => name

def dotName (name : List Char) : Bool := name == ['.'] || name == ['.', '.']

inductive DownloadPipelineTask where
  | createLocalDir (localPath : List Char)
  | downloadFile (remotePath localPath displayName : List Char)
deriving DecidableEq

def DownloadPipelineTask.localPath : DownloadPipelineTask → List Char
  | .createLocalDir localPath => localPath
  | .downloadFile _ localPath _ => localPath

/-- `DownloadScanContext`: the roots, and the outside events by the order in which the scan meets
them: the value of the cancel flag at each look, the error of each listing, whether each send
finds the receiving side gone. -/
structure ScanContext where
  localRoot : List Char
  remoteRoot : List Char
  cancelled : ℕ → Bool
  listError : ℕ → Option String
  closed : ℕ → Bool

def ScanContext.undisturbed (localRoot remoteRoot : List Char) : ScanContext :=
  ⟨localRoot, remoteRoot, fun _ => false, fun _ => none, fun _ => false⟩

/-- What the scan has done so far: looks at the cancel flag, listings, sends, the tasks that went
through, and the totals `pipeline_discover_item` keeps. -/
structure ScanState where
  looks : ℕ := 0
  listings : ℕ := 0
  sends : ℕ := 0
  tasks : List DownloadPipelineTask := []
  totalItems : ℕ := 0
  totalBytes : Option ℕ := some 0

abbrev ScanM (α : Type) := ScanState → ScanState × Except EngineError α

/-- `?`: the first error ends the scan. -/
def ScanM.andThen {α β : Type} (m : ScanM α) (k : α → ScanM β) : ScanM β := fun st =>
  match m st with
  | (st, .ok a) => k a st
  | (st, .error err) => (st, .error err)

/-! ## The scan -/

def isTransferCancelled (ctx : ScanContext) : ScanM Bool := fun st =>
  ({ st with looks := st.looks + 1 }, .ok (ctx.cancelled st.looks))

/-- `read_dir` on the next directory. -/
def readDir (ctx : ScanContext) : ScanM Unit := fun st =>
  ({ st with listings := st.listings + 1 },
    match ctx.listError st.listings with
    | some detail =>
      .error (.withDetail "sftp_list_failed" "Failed to read the directory" detail)
    | none => .ok ())

/-- `tx.send`, with the message for a closed channel. -/
def send (ctx : ScanContext) (task : DownloadPipelineTask) (message : String) : ScanM Unit :=
  fun st =>
    if ctx.closed st.sends then
      ({ st with sends := st.sends + 1 },
        .error (.withDetail "sftp_download_failed" message "channel closed"))
    else ({ st with sends := st.sends + 1, tasks := st.tasks ++ [task] }, .ok ())

/-- `pipeline_discover_item`: one unknown size makes the total unknown. -/
def pipelineDiscoverItem (bytes : Option ℕ) : ScanM Unit := fun st =>
  ({ st with
      totalItems := st.totalItems + 1
      totalBytes := st.totalBytes.bind fun total => bytes.map (total + ·) }, .ok ())

def relativePathToLocalPath (relativePath : List Char) : List Char :=
  (pieces relativePath).foldl push []

/-- The remote directory `relative_dir` names. -/
def currentRemote (ctx : ScanContext) (relativeDir : List Char) : List Char :=
  if relativeDir = [] then ctx.remoteRoot else ctx.remoteRoot ++ sep :: relativeDir

/-- The relative path of the entry `name` of `relative_dir`. -/
def nextRelative (relativeDir name : List Char) : List Char :=
  if relativeDir = [] then name else relativeDir ++ sep :: name

/-- The remote path of the entry `name` of `relative_dir`. -/
def nextRemote (ctx : ScanContext) (relativeDir name : List Char) : List Char :=
  (currentRemote ctx relativeDir).rdropWhile (· == sep) ++ sep :: name

/-- The local path of the entry `name` of `relative_dir`. -/
def nextLocal (localRoot relativeDir name : List Char) : List Char :=
  push localRoot (relativePathToLocalPath (nextRelative relativeDir name))

/-- The start of `stream_remote_download_tasks`: a look at the cancel flag, then the listing.
`false` is the early return of a cancelled transfer. -/
def openDir (ctx : ScanContext) : ScanM Bool :=
  (isTransferCancelled ctx).andThen fun cancelled =>
    if cancelled then fun st => (st, .ok false)
    else (readDir ctx).andThen fun _ st => (st, .ok true)

mutual

/-- The body of the loop over the entries of `relative_dir`. -/
def scanEntry (ctx : ScanContext) (relativeDir : List Char) : RemoteEntry → ScanM Unit
  | .dir name entries =>
    (send ctx (.createLocalDir (nextLocal ctx.localRoot relativeDir name))
      "Failed to schedule the directory creation task").andThen fun _ =>
        (openDir ctx).andThen fun opened =>
          if opened then scanEntries ctx (nextRelative relativeDir name) entries
          else fun st => (st, .ok ())
  | .item name size =>
    (pipelineDiscoverItem size).andThen fun _ =>
      send ctx (.downloadFile (nextRemote ctx relativeDir name)
        (nextLocal ctx.localRoot relativeDir name) (nextRelative relativeDir name))
        "Failed to schedule the download task"

/-- The loop over the entries of `relative_dir`, without those the iterator leaves out. A look at
the cancel flag comes first each time. -/
def scanEntries (ctx : ScanContext) (relativeDir : List Char) : List RemoteEntry → ScanM Unit
  | [] => fun st => (st, .ok ())
  | entry :: entries =>
    if dotName entry.fileName then scanEntries ctx relativeDir entries
    else (isTransferCancelled ctx).andThen fun cancelled =>
      if cancelled then fun st => (st, .ok ())
      else (scanEntry ctx relativeDir entry).andThen fun _ => scanEntries ctx relativeDir entries

end

/-- `stream_remote_download_tasks` on a directory whose listing returns `entries`. -/
def streamRemoteDownloadTasks (ctx : ScanContext) (relativeDir : List Char)
    (entries : List RemoteEntry) : ScanM Unit :=
  (openDir ctx).andThen fun opened =>
    if opened then scanEntries ctx relativeDir entries else fun st => (st, .ok ())

def scheduledTasks (ctx : ScanContext) (entries : List RemoteEntry) : List DownloadPipelineTask :=
  (streamRemoteDownloadTasks ctx [] entries {}).1.tasks

/-! ## The chains of names -/

mutual

def entryChains : RemoteEntry → List (List (List Char))
  | .dir name entries => [name] :: (nameChains entries).map (name :: ·)
  | .item name _ => [[name]]

def nameChains : List RemoteEntry → List (List (List Char))
  | [] => []
  | entry :: entries =>
    if dotName entry.fileName then nameChains entries
    else entryChains entry ++ nameChains entries

end

/-- The local path of the entry at the end of `chain` below `relativeDir`. -/
def scannedLocalPath (localRoot relativeDir : List Char) (chain : List (List Char)) : List Char :=
  push localRoot (relativePathToLocalPath (chain.foldl nextRelative relativeDir))

theorem scannedLocalPath_singleton (localRoot relativeDir name : List Char) :
    scannedLocalPath localRoot relativeDir [name] = nextLocal localRoot relativeDir name := rfl

/-! ## Every scheduled path belongs to a chain -/

/-- `m` sends only tasks whose local path is in `paths`. -/
def SendsWithin {α : Type} (paths : List (List Char)) (m : ScanM α) : Prop :=
  ∀ st, ∀ t ∈ (m st).1.tasks, t ∈ st.tasks ∨ t.localPath ∈ paths

theorem SendsWithin.mono {α : Type} {m : ScanM α} {paths paths' : List (List Char)}
    (h : SendsWithin paths m) (hsub : paths ⊆ paths') : SendsWithin paths' m := fun st t ht =>
  (h st t ht).imp_right fun hmem => hsub hmem

theorem SendsWithin.andThen {α β : Type} {m : ScanM α} {k : α → ScanM β}
    {paths : List (List Char)} (hm : SendsWithin paths m) (hk : ∀ a, SendsWithin paths (k a)) :
    SendsWithin paths (m.andThen k) := by
  intro st t ht
  rw [ScanM.andThen] at ht
  have hfirst := hm st
  rcases hmst : m st with ⟨st', a | err⟩
  · rw [hmst] at ht hfirst
    exact hfirst t ht
  · rw [hmst] at ht hfirst
    rcases hk err st' t ht with hmem | hpath
    · exact hfirst t hmem
    · exact .inr hpath

theorem SendsWithin.of_tasks_eq {α : Type} {m : ScanM α} (paths : List (List Char))
    (h : ∀ st, (m st).1.tasks = st.tasks) : SendsWithin paths m := fun st _ ht =>
  .inl (h st ▸ ht)

theorem sendsWithin_send (ctx : ScanContext) (task : DownloadPipelineTask) (message : String) :
    SendsWithin [task.localPath] (send ctx task message) := by
  intro st t ht
  rw [send] at ht
  split at ht
  · exact .inl ht
  · rcases List.mem_append.mp ht with ht | ht
    · exact .inl ht
    · rw [List.mem_singleton.mp ht]
      exact .inr (List.mem_singleton_self _)

theorem sendsWithin_look (ctx : ScanContext) (paths : List (List Char)) :
    SendsWithin paths (isTransferCancelled ctx) := .of_tasks_eq paths fun _ => rfl

theorem sendsWithin_done (paths : List (List Char)) {α : Type} (a : α) :
    SendsWithin paths (fun st => (st, .ok a) : ScanM α) := .of_tasks_eq paths fun _ => rfl

theorem sendsWithin_openDir (ctx : ScanContext) (paths : List (List Char)) :
    SendsWithin paths (openDir ctx) := by
  refine (sendsWithin_look ctx paths).andThen fun cancelled => ?_
  cases cancelled with
  | true => exact sendsWithin_done paths false
  | false =>
    have hread : SendsWithin paths (readDir ctx) := .of_tasks_eq paths fun _ => rfl
    exact hread.andThen fun _ => sendsWithin_done paths true

mutual

theorem sendsWithin_scanEntry (ctx : ScanContext) (relativeDir : List Char) :
    ∀ entry, SendsWithin ((entryChains entry).map (scannedLocalPath ctx.localRoot relativeDir))
      (scanEntry ctx relativeDir entry)
  | .dir name entries => by
    rw [scanEntry, entryChains, List.map_cons, List.map_map]
    refine ((sendsWithin_send ctx _ _).mono ?_).andThen fun _ =>
      (sendsWithin_openDir ctx _).andThen fun opened => ?_
    · simp [DownloadPipelineTask.localPath, scannedLocalPath_singleton]
    · cases opened with
      | false => exact sendsWithin_done _ ()
      | true =>
        have hbelow := sendsWithin_scanEntries ctx (nextRelative relativeDir name) entries
        exact hbelow.mono (List.subset_cons_self _ _)
  | .item name size => by
    rw [scanEntry, entryChains]
    have hdisc : SendsWithin ([[name]].map (scannedLocalPath ctx.localRoot relativeDir))
        (pipelineDiscoverItem size) := .of_tasks_eq _ fun _ => rfl
    exact hdisc.andThen fun _ => sendsWithin_send ctx _ _

/-- **The scan schedules the paths of its chains only**, whatever disturbs it. -/
theorem sendsWithin_scanEntries (ctx : ScanContext) (relativeDir : List Char) :
    ∀ entries, SendsWithin ((nameChains entries).map (scannedLocalPath ctx.localRoot relativeDir))
      (scanEntries ctx relativeDir entries)
  | [] => by
    rw [scanEntries]
    exact sendsWithin_done _ ()
  | entry :: entries => by
    have hentry := sendsWithin_scanEntry ctx relativeDir entry
    have hrest := sendsWithin_scanEntries ctx relativeDir entries
    rw [scanEntries, nameChains]
    by_cases hdot : dotName entry.fileName = true
    · rw [if_pos hdot, if_pos hdot]
      exact hrest
    · rw [if_neg hdot, if_neg hdot, List.map_append]
      refine (sendsWithin_look ctx _).andThen fun cancelled => ?_
      cases cancelled with
      | true => exact sendsWithin_done _ ()
      | false =>
        exact (hentry.mono (List.subset_append_left _ _)).andThen fun _ =>
          hrest.mono (List.subset_append_right _ _)

end

theorem localPath_of_mem_scheduledTasks {ctx : ScanContext} {entries : List RemoteEntry}
    {task : DownloadPipelineTask} (h : task ∈ scheduledTasks ctx entries) :
    ∃ chain ∈ nameChains entries, task.localPath = scannedLocalPath ctx.localRoot [] chain := by
  have hscan : SendsWithin ((nameChains entries).map (scannedLocalPath ctx.localRoot []))
      (streamRemoteDownloadTasks ctx [] entries) := by
    refine (sendsWithin_openDir ctx _).andThen fun opened => ?_
    cases opened with
    | true => exact sendsWithin_scanEntries ctx [] entries
    | false => exact sendsWithin_done _ ()
  rcases hscan {} task h with hnone | hpath
  · cases hnone
  · obtain ⟨chain, hchain, heq⟩ := List.mem_map.mp hpath
    exact ⟨chain, hchain, heq.symm⟩

/-! ## An undisturbed scan schedules every chain -/

/-- `m` succeeds and sends tasks with just the local paths `paths`, in this order. -/
def SendsAll (paths : List (List Char)) (m : ScanM Unit) : Prop :=
  ∀ st, ∃ st', m st = (st', .ok ()) ∧
    st'.tasks.map (·.localPath) = st.tasks.map (·.localPath) ++ paths

theorem SendsAll.andThen {m k : ScanM Unit} {paths paths' : List (List Char)}
    (hm : SendsAll paths m) (hk : SendsAll paths' k) :
    SendsAll (paths ++ paths') (m.andThen fun _ => k) := by
  intro st
  obtain ⟨st₁, hm₁, htasks₁⟩ := hm st
  obtain ⟨st₂, hk₂, htasks₂⟩ := hk st₁
  refine ⟨st₂, ?_, ?_⟩
  · rw [ScanM.andThen, hm₁]
    exact hk₂
  · rw [htasks₂, htasks₁, List.append_assoc]

section Undisturbed

variable (localRoot remoteRoot : List Char)

theorem sendsAll_send (task : DownloadPipelineTask) (message : String) :
    SendsAll [task.localPath] (send (.undisturbed localRoot remoteRoot) task message) := by
  intro st
  exact ⟨_, rfl, by simp⟩

theorem sendsAll_openDir_andThen {paths : List (List Char)} {k : Bool → ScanM Unit}
    (h : SendsAll paths (k true)) :
    SendsAll paths ((openDir (.undisturbed localRoot remoteRoot)).andThen k) := by
  intro st
  obtain ⟨st', hk, htasks⟩ := h { st with looks := st.looks + 1, listings := st.listings + 1 }
  exact ⟨st', hk, htasks⟩

theorem sendsAll_look_andThen {paths : List (List Char)} {k : Bool → ScanM Unit}
    (h : SendsAll paths (k false)) :
    SendsAll paths ((isTransferCancelled (.undisturbed localRoot remoteRoot)).andThen k) := by
  intro st
  obtain ⟨st', hk, htasks⟩ := h { st with looks := st.looks + 1 }
  exact ⟨st', hk, htasks⟩

mutual

theorem sendsAll_scanEntry (relativeDir : List Char) :
    ∀ entry, SendsAll ((entryChains entry).map (scannedLocalPath localRoot relativeDir))
      (scanEntry (.undisturbed localRoot remoteRoot) relativeDir entry)
  | .dir name entries => by
    rw [scanEntry, entryChains, List.map_cons, List.map_map]
    have hbelow := sendsAll_scanEntries (nextRelative relativeDir name) entries
    exact (sendsAll_send localRoot remoteRoot _ _).andThen
      (sendsAll_openDir_andThen localRoot remoteRoot hbelow)
  | .item name size => by
    rw [scanEntry, entryChains]
    have hdisc : SendsAll [] (pipelineDiscoverItem size) := fun st => ⟨_, rfl, by simp⟩
    exact hdisc.andThen (sendsAll_send localRoot remoteRoot _ _)

/-- **An undisturbed scan schedules the paths of all its chains**, in their order. -/
theorem sendsAll_scanEntries (relativeDir : List Char) :
    ∀ entries, SendsAll ((nameChains entries).map (scannedLocalPath localRoot relativeDir))
      (scanEntries (.undisturbed localRoot remoteRoot) relativeDir entries)
  | [] => by
    rw [scanEntries, nameChains]
    exact fun st => ⟨st, rfl, by simp⟩
  | entry :: entries => by
    have hentry := sendsAll_scanEntry relativeDir entry
    have hrest := sendsAll_scanEntries relativeDir entries
    rw [scanEntries, nameChains]
    by_cases hdot : dotName entry.fileName = true
    · rw [if_pos hdot, if_pos hdot]
      exact hrest
    · rw [if_neg hdot, if_neg hdot, List.map_append]
      exact sendsAll_look_andThen localRoot remoteRoot (hentry.andThen hrest)

end

theorem scheduledTasks_undisturbed (entries : List RemoteEntry) :
    (scheduledTasks (.undisturbed localRoot remoteRoot) entries).map (·.localPath)
      = (nameChains entries).map (scannedLocalPath localRoot []) := by
  have hscan := sendsAll_openDir_andThen localRoot remoteRoot
    (k := fun opened => if opened then
      scanEntries (.undisturbed localRoot remoteRoot) [] entries else fun st => (st, .ok ()))
    (sendsAll_scanEntries localRoot remoteRoot [] entries)
  obtain ⟨st', hst', htasks⟩ := hscan {}
  rw [scheduledTasks, streamRemoteDownloadTasks, hst']
  simpa using htasks

end Undisturbed

/-! ## Where a chain leads -/

theorem pieces_nextRelative (relativeDir name : List Char) :
    pieces (nextRelative relativeDir name) = pieces relativeDir ++ pieces name := by
  rw [nextRelative]
  split
  · rename_i hnil
    rw [hnil, pieces_nil, List.nil_append]
  · exact pieces_append_sep relativeDir name

theorem pieces_chain (relativeDir : List Char) (chain : List (List Char)) :
    pieces (chain.foldl nextRelative relativeDir) = pieces relativeDir ++ chain.flatMap pieces := by
  induction chain generalizing relativeDir with
  | nil => simp
  | cons name chain ih =>
    rw [List.foldl_cons, ih, pieces_nextRelative, List.flatMap_cons, List.append_assoc]

theorem foldl_push_pieces {q : List Char} (l : List (List Char)) (hl : l ⊆ pieces q)
    (p : List Char) (hp : isAbs p = false) :
    isAbs (l.foldl push p) = false ∧ comps (l.foldl push p) = comps p ++ l.map Comp.ofPiece := by
  induction l generalizing p with
  | nil => simp [hp]
  | cons piece l ih =>
    have hpiece : piece ∈ pieces q := hl List.mem_cons_self
    have habs := isAbs_of_mem_pieces hpiece
    have hpush : isAbs (push p piece) = false := (isAbs_push habs).trans hp
    obtain ⟨hrel, hcomps⟩ := ih (fun x hx => hl (List.mem_cons_of_mem _ hx)) (push p piece) hpush
    refine ⟨hrel, ?_⟩
    rw [List.foldl_cons, hcomps, comps_push habs, comps_of_mem_pieces hpiece, List.append_assoc]
    rfl

theorem comps_relativePathToLocalPath (p : List Char) :
    isAbs (relativePathToLocalPath p) = false ∧ comps (relativePathToLocalPath p) = comps p := by
  obtain ⟨hrel, hcomps⟩ := foldl_push_pieces (pieces p) (List.Subset.refl _) [] rfl
  refine ⟨hrel, hcomps.trans ?_⟩
  rw [comps, pieces_nil]
  rfl

theorem comps_scannedLocalPath (localRoot : List Char) (chain : List (List Char)) :
    isAbs (scannedLocalPath localRoot [] chain) = isAbs localRoot ∧
      comps (scannedLocalPath localRoot [] chain) = comps localRoot ++ chain.flatMap comps := by
  obtain ⟨hrel, hcomps⟩ := comps_relativePathToLocalPath (chain.foldl nextRelative [])
  have hnames : comps (chain.foldl nextRelative []) = chain.flatMap comps := by
    rw [comps, pieces_chain, pieces_nil, List.nil_append, List.map_flatMap]
    rfl
  refine ⟨isAbs_push hrel, ?_⟩
  rw [scannedLocalPath, comps_push hrel, hcomps, hnames]

/-! ## Confinement -/

def normalised (p : List Char) : Resolved (List Char) := resolve (isAbs p) (comps p)

/-- The local path `p` is `localRoot` or a descendant of it, after normalisation. -/
def Confined (localRoot p : List Char) : Prop :=
  isAbs p = isAbs localRoot ∧ Resolved.Within (normalised localRoot) (normalised p)

instance (localRoot p : List Char) : Decidable (Confined localRoot p) :=
  inferInstanceAs (Decidable (_ ∧ _))

theorem confined_scannedLocalPath (localRoot : List Char) (chain : List (List Char)) :
    Confined localRoot (scannedLocalPath localRoot [] chain) ↔
      ReEnters (isAbs localRoot) (comps localRoot) (chain.flatMap comps) := by
  obtain ⟨habs, hcomps⟩ := comps_scannedLocalPath localRoot chain
  rw [Confined, normalised, normalised, habs, hcomps, within_append_iff]
  simp

/-- **When a recursive download stays in its root.** Whatever disturbs the scan, all local paths
it schedules are the local root or below it, exactly when the `..` segments of each chain of
listed names either cancel against names of the chain or are followed by the names of the root
directories they leave. -/
theorem download_confined_iff (localRoot remoteRoot : List Char) (entries : List RemoteEntry) :
    (∀ ctx : ScanContext, ctx.localRoot = localRoot → ctx.remoteRoot = remoteRoot →
        ∀ task ∈ scheduledTasks ctx entries, Confined localRoot task.localPath) ↔
      ∀ chain ∈ nameChains entries,
        ReEnters (isAbs localRoot) (comps localRoot) (chain.flatMap comps) := by
  constructor
  · intro h chain hchain
    have hpath : scannedLocalPath localRoot [] chain ∈
        (scheduledTasks (.undisturbed localRoot remoteRoot) entries).map (·.localPath) := by
      rw [scheduledTasks_undisturbed]
      exact List.mem_map_of_mem hchain
    obtain ⟨task, htask, heq⟩ := List.mem_map.mp hpath
    have hconf := h (.undisturbed localRoot remoteRoot) rfl rfl task htask
    rw [heq] at hconf
    exact (confined_scannedLocalPath localRoot chain).mp hconf
  · rintro h ctx rfl rfl task htask
    obtain ⟨chain, hchain, heq⟩ := localPath_of_mem_scheduledTasks htask
    rw [heq, confined_scannedLocalPath]
    exact h chain hchain

/-- A listed name `../x` leaves the root. -/
theorem download_escapes :
    ∃ task ∈ scheduledTasks (.undisturbed ['/', 'd'] ['/', 'r']) [.item ['.', '.', '/', 'x'] none],
      ¬ Confined ['/', 'd'] task.localPath := by
  decide

end FluxTerm.Sftp
