import FluxTerm.Sftp.LocalPlace
import FluxTerm.Sftp.UploadPaths
import Mathlib.Data.List.Infix

/-!
# FluxTerm — the parents of uploaded files

`ensure_remote_parent_dirs_raw`, called by the workers of an upload for the parent of each file. The
workers share a cache of the directories that are there: each looks into it, makes what is missing
and puts it there, and the others do the same in between.

* **`crew`** — any number of workers, any tasks, any answers of the server; `issued` and `confirmed`
  record what was asked for and what was found there. **`sftpUploadPaths_crew`** — the workers of
  an upload are such a crew.
* **`remoteParents_iff`** — the call follows its path exactly if the path is absolute; the cache has
  only what was there at the start or was confirmed.
-/

namespace FluxTerm.Sftp

open FluxTerm.Engine FluxTerm.Lib

/-! ## The directories above a path -/

def dirPath (absolute : Bool) (names : List Text) : Text :=
  (if absolute then [sep] else []) ++ [sep].intercalate names

def pathPrefixes (path : Text) : List Text :=
  (pieces path).inits.tail.map (dirPath (isAbs path))

def AreNames (names : List Text) : Prop := ∀ name ∈ names, name ≠ [] ∧ sep ∉ name

theorem areNames_pieces (path : Text) : AreNames (pieces path) := fun _ => of_mem_pieces

theorem intercalate_concat {names : List Text} (hne : names ≠ []) (name : Text) :
    [sep].intercalate (names ++ [name]) = [sep].intercalate names ++ sep :: name := by
  induction names with
  | nil => exact absurd rfl hne
  | cons first names ih =>
    cases names with
    | nil => simp [List.intercalate]
    | cons second names =>
      have hcons (rest : List Text) : [sep].intercalate (first :: second :: rest) =
          first ++ sep :: [sep].intercalate (second :: rest) := by
        simp [List.intercalate]
      have htail := ih (List.cons_ne_nil _ _)
      rw [List.cons_append] at htail
      rw [List.cons_append, List.cons_append, hcons, hcons, htail, List.append_assoc,
        List.cons_append]

theorem intercalate_last {names : List Text} (h : AreNames names) (hne : names ≠ []) :
    ∃ front c, [sep].intercalate names = front ++ [c] ∧ c ≠ sep := by
  obtain ⟨names, name, rfl⟩ := (List.eq_nil_or_concat' names).resolve_left hne
  obtain ⟨hname, hsep⟩ := h name (List.mem_append_right _ List.mem_cons_self)
  obtain ⟨init, c, rfl⟩ := (List.eq_nil_or_concat' name).resolve_left hname
  have hc : c ≠ sep := fun he => hsep (he ▸ List.mem_append_right _ List.mem_cons_self)
  by_cases hnil : names = []
  · exact ⟨init, c, by simp [hnil, List.intercalate], hc⟩
  · exact ⟨[sep].intercalate names ++ sep :: init, c, by rw [intercalate_concat hnil]; simp, hc⟩

theorem remoteJoin_dirPath {names : List Text} (h : AreNames names) {name : Text}
    (hname : name ≠ [] ∧ sep ∉ name) :
    remoteJoin (dirPath true names) name = dirPath true (names ++ [name]) := by
  have hchild : trimBy (· == sep) name = name :=
    trimBy_eq_self fun c hc => by simpa using fun he : c = sep => hname.2 (he ▸ hc)
  rw [remoteJoin, hchild, if_neg hname.1]
  by_cases hnil : names = []
  · simp [hnil, dirPath, List.intercalate]
  · obtain ⟨front, c, hlast, hc⟩ := intercalate_last h hnil
    have hpath : dirPath true names = (sep :: front) ++ [c] := by
      rw [dirPath, if_pos rfl, hlast]
      rfl
    have hbase : (if dirPath true names = [sep] then [sep]
        else (dirPath true names).rdropWhile (· == sep)) = dirPath true names := by
      rw [hpath, if_neg (by simp), List.rdropWhile_concat_neg _ _ _ (by simpa using hc)]
    have hlong : ¬(dirPath true names = [] ∨ dirPath true names = [sep]) := by
      rw [hpath]
      simp
    rw [hbase, if_neg hlong, dirPath, dirPath, intercalate_concat hnil]
    rfl

theorem remoteJoin_nil {name : Text} (hname : name ≠ [] ∧ sep ∉ name) :
    remoteJoin [] name = dirPath true [name] := by
  have hchild : trimBy (· == sep) name = name :=
    trimBy_eq_self fun c hc => by simpa using fun he : c = sep => hname.2 (he ▸ hc)
  rw [remoteJoin, hchild, if_neg hname.1]
  simp [dirPath, List.intercalate]

theorem scanl_remoteJoin {done names : List Text} (hdone : AreNames done) (h : AreNames names) :
    names.scanl remoteJoin (dirPath true done) =
      names.inits.map fun init => dirPath true (done ++ init) := by
  induction names generalizing done with
  | nil => simp
  | cons name names ih =>
    obtain ⟨hname, hnames⟩ := List.forall_mem_cons.mp h
    have hmore : AreNames (done ++ [name]) := by
      intro n hn
      rcases List.mem_append.mp hn with hn | hn
      · exact hdone n hn
      · rw [List.mem_singleton.mp hn]
        exact hname
    rw [List.scanl_cons, remoteJoin_dirPath hdone hname, ih hmore hnames, List.inits_cons,
      List.map_cons, List.map_map, List.append_nil]
    simp [Function.comp_def]

/-- **The directories of a call** are the prefixes of the absolute path with these names, whether
the path is absolute or not. -/
theorem remoteTargets_eq (path : Text) :
    remoteTargets path = (pieces path).inits.tail.map (dirPath true) := by
  have hnames := areNames_pieces path
  rw [remoteTargets]
  split
  · rename_i hroot
    have hnone : pieces path = [] := by
      rcases hroot with rfl | rfl
      · exact pieces_nil
      · exact pieces_append_sep [] []
    rw [hnone]
    rfl
  · cases hpieces : pieces path with
    | nil => rfl
    | cons name names =>
      rw [hpieces] at hnames
      obtain ⟨hname, hrest⟩ := List.forall_mem_cons.mp hnames
      have hone : AreNames [name] := by simpa [AreNames] using hname
      have hbase : remoteJoin (if isAbs path then [sep] else []) name = dirPath true [name] := by
        split
        · have hnone : AreNames [] := by simp [AreNames]
          exact remoteJoin_dirPath hnone hname
        · exact remoteJoin_nil hname
      rw [List.scanl_cons, List.tail_cons, hbase, scanl_remoteJoin hone hrest, List.inits_cons,
        List.tail_cons, List.map_map]
      rfl

theorem remoteTargets_of_isAbs {path : Text} (h : isAbs path = true) :
    remoteTargets path = pathPrefixes path := by
  rw [remoteTargets_eq, pathPrefixes, h]

theorem of_mem_inits_tail {path : Text} {names : List Text}
    (h : names ∈ (pieces path).inits.tail) : AreNames names ∧ names ≠ [] := by
  have hbegin : names <+: pieces path := (List.mem_inits _ _).mp (List.mem_of_mem_tail h)
  refine ⟨fun name hname => areNames_pieces path name (hbegin.subset hname), ?_⟩
  rintro rfl
  cases hpieces : pieces path with
  | nil =>
    rw [hpieces] at h
    cases h
  | cons name rest =>
    rw [hpieces, List.inits_cons, List.tail_cons] at h
    obtain ⟨init, -, hinit⟩ := List.mem_map.mp h
    cases hinit

theorem of_mem_remoteTargets {path dir : Text} (h : dir ∈ remoteTargets path) :
    dir ≠ [] ∧ dir ≠ [sep] := by
  rw [remoteTargets_eq] at h
  obtain ⟨names, hmem, rfl⟩ := List.mem_map.mp h
  obtain ⟨hnames, hne⟩ := of_mem_inits_tail hmem
  obtain ⟨front, c, hlast, -⟩ := intercalate_last hnames hne
  rw [dirPath, if_pos rfl, hlast]
  exact ⟨by simp, by simp⟩

theorem pieces_ne_nil {path : Text} (hne : path ≠ []) (habs : isAbs path = false) :
    pieces path ≠ [] := by
  by_cases hsep : sep ∈ path
  · obtain ⟨first, rest, rfl, hfirst⟩ := List.eq_append_cons_of_mem hsep
    rw [pieces_append_sep]
    cases first with
    | nil => exact absurd habs (by simp [isAbs])
    | cons c first => simp [pieces_of_not_mem hfirst (List.cons_ne_nil _ _)]
  · simp [pieces_of_not_mem hsep hne]

theorem exists_not_mem_pathPrefixes {path : Text} (hne : path ≠ []) (habs : isAbs path = false) :
    ∃ first targets, remoteTargets path = first :: targets ∧ first ∉ pathPrefixes path := by
  obtain ⟨name, names, hnames⟩ := List.exists_cons_of_ne_nil (pieces_ne_nil hne habs)
  obtain ⟨inits, hinits⟩ : ∃ inits, names.inits = [] :: inits := by
    cases names with
    | nil => exact ⟨_, rfl⟩
    | cons n names => exact ⟨_, List.inits_cons n names⟩
  refine ⟨dirPath true [name], inits.map fun init => dirPath true (name :: init), ?_, ?_⟩
  · rw [remoteTargets_eq, hnames, List.inits_cons, hinits]
    simp
  · intro hmem
    rw [pathPrefixes, habs] at hmem
    obtain ⟨init, hinit, heq⟩ := List.mem_map.mp hmem
    obtain ⟨hareNames, hinitne⟩ := of_mem_inits_tail hinit
    obtain ⟨first, init, rfl⟩ := List.exists_cons_of_ne_nil hinitne
    obtain ⟨hfirst, hsep⟩ := hareNames first List.mem_cons_self
    obtain ⟨c, first, rfl⟩ := List.exists_cons_of_ne_nil hfirst
    -- a relative prefix begins with the first character of a name
    have hhead : (dirPath false ((c :: first) :: init)).head? = some c := by
      cases init with
      | nil => simp [dirPath, List.intercalate]
      | cons next init => simp [dirPath, List.intercalate]
    rw [heq] at hhead
    have hc : sep = c := Option.some.inj hhead
    exact hsep (hc ▸ List.mem_cons_self)

/-! ## The crew -/

def UploadPipelineTask.BelowRoot : UploadPipelineTask → Prop
  | .createRemoteDir remoteDir _ => remoteDir ≠ [] ∧ remoteDir ≠ [sep]
  | .uploadFile _ => True

instance (task : UploadPipelineTask) : Decidable task.BelowRoot := by
  cases task with
  | createRemoteDir remoteDir displayName => exact inferInstanceAs (Decidable (_ ∧ _))
  | uploadFile file => exact inferInstanceAs (Decidable True)

structure UploadCrew where
  workers : ℕ → UploadWorker
  shared : UploadShared
  issued : ℕ → List Text
  confirmed : List Text

namespace UploadWorker

def request : UploadWorker → List Text
  | makingDir _ dir _ none => [dir]
  | _ => []

def issued : UploadWorker → List Text → List Text
  | receiving _, _ => []
  | _, dirs => dirs

def confirms : UploadWorker → UploadWorkerEvent → List Text
  | makingDir _ dir _ none, .mkdir none => [dir]
  | makingDir _ dir _ (some _), .stat true => [dir]
  | _, _ => []

/-- The parent for which `ensure_remote_parent_dirs_raw` has been called. -/
def parentPath : UploadWorker → Option Text
  | parents _ file _ => remoteParent file.remotePath
  | makingDir _ _ (.parent file _) _ => remoteParent file.remotePath
  | caching _ _ (.parent file _) => remoteParent file.remotePath
  | openLocal _ file => remoteParent file.remotePath
  | openRemote _ file => remoteParent file.remotePath
  | copying _ file _ _ => remoteParent file.remotePath
  | _ => none

def pastParents : UploadWorker → Bool
  | openLocal _ _ => true
  | openRemote _ _ => true
  | copying _ _ _ _ => true
  | _ => false

end UploadWorker

inductive CrewEvent where
  | push (task : UploadPipelineTask)
  | worker (index : ℕ) (cancelled : Bool) (event : UploadWorkerEvent)

namespace UploadCrew

/-- A worker has taken a step. -/
def turn (crew : UploadCrew) (index : ℕ) (event : UploadWorkerEvent) (turn : UploadWorkerTurn) :
    UploadCrew :=
  let old := crew.workers index
  { workers := Function.update crew.workers index turn.worker
    shared := turn.shared
    issued := Function.update crew.issued index
      (old.issued (crew.issued index) ++ turn.worker.request)
    confirmed := old.confirms event ++ crew.confirmed }

/-- One step of a crew. -/
def step (crew : UploadCrew) : CrewEvent → Option UploadCrew
  | .push task =>
    if task.BelowRoot then
      some { crew with shared := { crew.shared with queue := crew.shared.queue ++ [task] } }
    else none
  | .worker index cancelled event =>
    (uploadWorkerStep cancelled crew.shared (crew.workers index) event).map
      (crew.turn index event)

end UploadCrew

def crew (cache : List Text) : Machine UploadCrew CrewEvent :=
  .ofStep ⟨fun _ => .opening, ⟨[], cache⟩, fun _ => [], []⟩ UploadCrew.step

/-! ## What a worker keeps -/

/-- The call for the parent of a file has come to `left`: what is before is in the cache, and only
that was asked for. -/
def Passed (cache issued : List Text) (file : UploadFile) (asked left : List Text) : Prop :=
  ∃ path done, remoteParent file.remotePath = some path ∧ remoteTargets path = done ++ left ∧
    (∀ dir ∈ done, dir ∈ cache) ∧ issued.Sublist (done ++ asked)

/-- The call for the parent of a file, if there was one, is over. -/
def PassedAll (cache issued : List Text) (file : UploadFile) : Prop :=
  ∀ path, remoteParent file.remotePath = some path →
    (∀ dir ∈ remoteTargets path, dir ∈ cache) ∧ issued.Sublist (remoteTargets path)

/-- What holds of a worker, with the directories it has asked for. -/
def WorkerKept (cache confirmed issued : List Text) : UploadWorker → Prop
  | .parents _ file targets => Passed cache issued file [] targets
  | .makingDir _ dir (.parent file targets) _ => Passed cache issued file [dir] (dir :: targets)
  | .caching _ dir (.parent file targets) =>
    dir ∈ confirmed ∧ Passed cache issued file [dir] (dir :: targets)
  | .caching _ dir (.task _) => dir ∈ confirmed
  | .openLocal _ file => PassedAll cache issued file
  | .openRemote _ file => PassedAll cache issued file
  | .copying _ file _ _ => PassedAll cache issued file
  | _ => True

/-- What the workers share. -/
structure SharedKept (cache confirmed : List Text) (shared : UploadShared) : Prop where
  queue : ∀ task ∈ shared.queue, task.BelowRoot
  dirCache : ∀ dir ∈ shared.dirCache, dir ∈ cache ∨ dir ∈ confirmed

/-- What holds of a crew. -/
structure UploadCrew.Kept (cache : List Text) (crew : UploadCrew) : Prop where
  shared : SharedKept cache crew.confirmed crew.shared
  worker : ∀ index, WorkerKept crew.shared.dirCache crew.confirmed (crew.issued index)
    (crew.workers index)

theorem Passed.mono {cache cache' issued : List Text} {file : UploadFile} {asked left : List Text}
    (h : Passed cache issued file asked left) (hsub : ∀ dir ∈ cache, dir ∈ cache') :
    Passed cache' issued file asked left := by
  obtain ⟨path, done, hparent, htargets, hdone, hissued⟩ := h
  exact ⟨path, done, hparent, htargets, fun dir hdir => hsub dir (hdone dir hdir), hissued⟩

theorem PassedAll.mono {cache cache' issued : List Text} {file : UploadFile}
    (h : PassedAll cache issued file) (hsub : ∀ dir ∈ cache, dir ∈ cache') :
    PassedAll cache' issued file :=
  fun path hpath => ⟨fun dir hdir => hsub dir ((h path hpath).1 dir hdir), (h path hpath).2⟩

theorem WorkerKept.mono {cache cache' confirmed confirmed' issued : List Text}
    {worker : UploadWorker} (h : WorkerKept cache confirmed issued worker)
    (hcache : ∀ dir ∈ cache, dir ∈ cache') (hconfirmed : ∀ dir ∈ confirmed, dir ∈ confirmed') :
    WorkerKept cache' confirmed' issued worker := by
  cases worker with
  | parents writeLimit file targets => exact Passed.mono h hcache
  | makingDir writeLimit dir purpose refused =>
    cases purpose with
    | task displayName => exact h
    | parent file targets => exact Passed.mono h hcache
  | caching writeLimit dir purpose =>
    cases purpose with
    | task displayName => exact hconfirmed dir h
    | parent file targets => exact ⟨hconfirmed dir h.1, Passed.mono h.2 hcache⟩
  | openLocal writeLimit file => exact PassedAll.mono h hcache
  | openRemote writeLimit file => exact PassedAll.mono h hcache
  | copying writeLimit file loop lastTransferred => exact PassedAll.mono h hcache
  | _ => exact h

/-- What a step of one worker does: the worker keeps what holds of it, the cache only grows, and by
what was confirmed. -/
structure TurnKept (cache confirmed issued : List Text) (shared : UploadShared)
    (turn : UploadWorkerTurn) : Prop where
  sharedKept : SharedKept cache confirmed turn.shared
  grows : ∀ dir ∈ shared.dirCache, dir ∈ turn.shared.dirCache
  worker : WorkerKept turn.shared.dirCache confirmed issued turn.worker

theorem ensureDir_eq {writeLimit : Option ℕ} {dir : Text} {purpose : DirPurpose}
    (h : dir ≠ [] ∧ dir ≠ [sep]) :
    UploadWorker.ensureDir writeLimit dir purpose = .makingDir writeLimit dir purpose none :=
  if_neg (not_or.mpr h)

theorem uploadReceive_kept {cache confirmed : List Text} {shared : UploadShared}
    {writeLimit : Option ℕ} (hshared : SharedKept cache confirmed shared) :
    TurnKept cache confirmed (uploadReceive shared writeLimit).worker.request shared
      (uploadReceive shared writeLimit) := by
  have hqueue := hshared.queue
  unfold uploadReceive
  cases hq : shared.queue with
  | nil => exact ⟨hshared, fun _ => id, trivial⟩
  | cons task queue =>
    rw [hq] at hqueue
    obtain ⟨htask, hrest⟩ := List.forall_mem_cons.mp hqueue
    have hkept : SharedKept cache confirmed { shared with queue } := ⟨hrest, hshared.dirCache⟩
    cases task with
    | createRemoteDir remoteDir displayName =>
      refine ⟨hkept, fun _ => id, ?_⟩
      show WorkerKept _ _ _ (UploadWorker.ensureDir _ _ _)
      rw [ensureDir_eq htask]
      trivial
    | uploadFile file =>
      refine ⟨hkept, fun _ => id, ?_⟩
      show WorkerKept _ _ (UploadWorker.startFile writeLimit file).request
        (UploadWorker.startFile writeLimit file)
      unfold UploadWorker.startFile
      cases hparent : remoteParent file.remotePath with
      | none => exact fun path hpath => absurd (hparent ▸ hpath) nofun
      | some path => exact ⟨path, [], hparent, rfl, nofun, List.nil_sublist _⟩

theorem uploadParents_kept {confirmed issued : List Text} {shared : UploadShared}
    {writeLimit : Option ℕ} {file : UploadFile} {targets : List Text}
    (h : Passed shared.dirCache issued file [] targets) :
    WorkerKept shared.dirCache confirmed
      (issued ++ (uploadParents shared writeLimit file targets).request)
      (uploadParents shared writeLimit file targets) := by
  obtain ⟨path, done, hparent, htargets, hdone, hissued⟩ := h
  rw [List.append_nil] at hissued
  cases targets with
  | nil =>
    rw [List.append_nil] at htargets
    intro path' hpath'
    have hsame : path = path' := Option.some.inj (hparent.symm.trans hpath')
    rw [← hsame, htargets]
    refine ⟨hdone, ?_⟩
    show (issued ++ []).Sublist done
    rwa [List.append_nil]
  | cons dir targets =>
    rw [uploadParents]
    split
    · rename_i hcached
      refine ⟨path, done ++ [dir], hparent, by rw [htargets, List.append_assoc]; rfl, ?_, ?_⟩
      · intro d hd
        rcases List.mem_append.mp hd with hd | hd
        · exact hdone d hd
        · rwa [List.mem_singleton.mp hd]
      · show (issued ++ []).Sublist _
        rw [List.append_nil, List.append_nil]
        exact hissued.trans (List.sublist_append_left _ _)
    · have hbelow : dir ≠ [] ∧ dir ≠ [sep] := by
        have hmem : dir ∈ remoteTargets path := by
          rw [htargets]
          exact List.mem_append_right _ List.mem_cons_self
        exact of_mem_remoteTargets hmem
      rw [ensureDir_eq hbelow]
      exact ⟨path, done, hparent, htargets, hdone, hissued.append (List.Sublist.refl _)⟩

theorem uploadCache_kept {cache confirmed issued : List Text} {shared : UploadShared}
    {writeLimit : Option ℕ} {dir : Text} {purpose : DirPurpose}
    (hshared : SharedKept cache confirmed shared)
    (hworker : WorkerKept shared.dirCache confirmed issued (.caching writeLimit dir purpose)) :
    TurnKept cache confirmed issued shared (uploadCache shared writeLimit dir purpose) := by
  have hgrows : ∀ d ∈ shared.dirCache, d ∈ dir :: shared.dirCache :=
    fun d hd => List.mem_cons_of_mem _ hd
  have hcache (hdir : dir ∈ confirmed) :
      ∀ d ∈ dir :: shared.dirCache, d ∈ cache ∨ d ∈ confirmed :=
    List.forall_mem_cons.mpr ⟨.inr hdir, hshared.dirCache⟩
  cases purpose with
  | task displayName => exact ⟨⟨hshared.queue, hcache hworker⟩, hgrows, trivial⟩
  | parent file targets =>
    obtain ⟨hdir, path, done, hparent, htargets, hdone, hissued⟩ := hworker
    refine ⟨⟨hshared.queue, hcache hdir⟩, hgrows, path, done ++ [dir], hparent, ?_, ?_, ?_⟩
    · rw [htargets, List.append_assoc]
      rfl
    · intro d hd
      rcases List.mem_append.mp hd with hd | hd
      · exact hgrows d (hdone d hd)
      · exact List.mem_singleton.mp hd ▸ List.mem_cons_self
    · rwa [List.append_nil]

theorem uploadFileTurn_kept {cache confirmed issued : List Text} {shared : UploadShared}
    {writeLimit : Option ℕ} {file : UploadFile} {lastTransferred : ℕ} {turn : UploadTurn}
    (hshared : SharedKept cache confirmed shared)
    (hall : PassedAll shared.dirCache issued file) :
    (uploadFileTurn shared writeLimit file lastTransferred turn).worker.request = [] ∧
      TurnKept cache confirmed issued shared
        (uploadFileTurn shared writeLimit file lastTransferred turn) := by
  cases turn with
  | on loop progress =>
    cases progress with
    | none => exact ⟨rfl, hshared, fun _ => id, hall⟩
    | some transferred => exact ⟨rfl, hshared, fun _ => id, hall⟩
  | cancelled t => exact ⟨rfl, hshared, fun _ => id, trivial⟩
  | failed t => exact ⟨rfl, hshared, fun _ => id, trivial⟩
  | finished t => exact ⟨rfl, hshared, fun _ => id, trivial⟩

/-- **One step of a worker.** -/
theorem uploadWorkerStep_kept {cache confirmed issued : List Text} {cancelled : Bool}
    {shared : UploadShared} {worker : UploadWorker} {event : UploadWorkerEvent}
    {turn : UploadWorkerTurn} (hshared : SharedKept cache confirmed shared)
    (hworker : WorkerKept shared.dirCache confirmed issued worker)
    (h : uploadWorkerStep cancelled shared worker event = some turn) :
    TurnKept cache (worker.confirms event ++ confirmed)
      (worker.issued issued ++ turn.worker.request) shared turn := by
  have hsame : ∀ dir ∈ shared.dirCache, dir ∈ shared.dirCache := fun _ => id
  have hmore (dir : Text) : SharedKept cache (dir :: confirmed) shared :=
    ⟨hshared.queue, fun d hd => (hshared.dirCache d hd).imp_right (List.mem_cons_of_mem _)⟩
  -- the directory is confirmed and goes on to the cache
  have hfound {writeLimit dir purpose refused}
      (hworker : WorkerKept shared.dirCache confirmed issued
        (.makingDir writeLimit dir purpose refused)) :
      TurnKept cache (dir :: confirmed) (issued ++ []) shared
        ⟨.caching writeLimit dir purpose, shared, []⟩ := by
    rw [List.append_nil]
    refine ⟨hmore dir, hsame, ?_⟩
    cases purpose with
    | task displayName => exact List.mem_cons_self
    | parent file targets => exact ⟨List.mem_cons_self, hworker⟩
  unfold uploadWorkerStep at h
  split at h
  · cases h
    exact ⟨hshared, hsame, trivial⟩
  · cases h
    exact ⟨hshared, hsame, trivial⟩
  · cases h
    cases cancelled with
    | true => exact ⟨hshared, hsame, trivial⟩
    | false => exact ⟨hshared, hsame, trivial⟩
  · cases h
    exact uploadReceive_kept hshared
  · cases h
    exact hfound hworker
  · -- `mkdir` is refused: `stat` comes next
    cases h
    rename_i writeLimit dir purpose detail
    refine ⟨hshared, hsame, ?_⟩
    show WorkerKept _ _ (issued ++ []) _
    rw [List.append_nil]
    cases purpose with
    | task displayName => trivial
    | parent file targets => exact hworker
  · split at h
    · cases h
      rename_i hfoundIt
      subst hfoundIt
      exact hfound hworker
    · cases h
      rename_i hmissing
      rw [Bool.not_eq_true] at hmissing
      subst hmissing
      exact ⟨hshared, hsame, trivial⟩
  · cases h
    have hkept := uploadCache_kept hshared hworker
    rename_i writeLimit dir purpose
    have hnone : (uploadCache shared writeLimit dir purpose).worker.request = [] := by
      cases purpose with
      | task displayName => rfl
      | parent file targets => rfl
    show TurnKept cache confirmed (issued ++ _) _ _
    rw [hnone, List.append_nil]
    exact hkept
  · cases h
    exact ⟨hshared, hsame, uploadParents_kept hworker⟩
  · cases h
    exact ⟨hshared, hsame, trivial⟩
  · cases h
    exact ⟨hshared, hsame, trivial⟩
  · cases h
    refine ⟨hshared, hsame, ?_⟩
    show PassedAll _ (issued ++ []) _
    rwa [List.append_nil]
  · cases h
    refine ⟨hshared, hsame, ?_⟩
    show PassedAll _ (issued ++ []) _
    rwa [List.append_nil]
  · obtain ⟨loopTurn, -, rfl⟩ := Option.map_eq_some_iff.mp h
    obtain ⟨hnone, hkept⟩ := uploadFileTurn_kept hshared hworker
    show TurnKept cache confirmed (issued ++ _) _ _
    rw [hnone, List.append_nil]
    exact hkept
  · cases h

/-! ## What a crew keeps -/

theorem UploadCrew.step_kept {cache : List Text} {crew crew' : UploadCrew} {event : CrewEvent}
    (h : crew.Kept cache) (hstep : crew.step event = some crew') : crew'.Kept cache := by
  cases event with
  | push task =>
    by_cases htask : task.BelowRoot
    · rw [UploadCrew.step, if_pos htask] at hstep
      cases hstep
      refine ⟨⟨?_, h.shared.dirCache⟩, h.worker⟩
      intro t ht
      rcases List.mem_append.mp ht with ht | ht
      · exact h.shared.queue t ht
      · exact List.mem_singleton.mp ht ▸ htask
    · rw [UploadCrew.step, if_neg htask] at hstep
      cases hstep
  | worker index cancelled event =>
    rw [UploadCrew.step] at hstep
    obtain ⟨turn, hturn, rfl⟩ := Option.map_eq_some_iff.mp hstep
    have hkept := uploadWorkerStep_kept h.shared (h.worker index) hturn
    refine ⟨hkept.sharedKept, fun other => ?_⟩
    show WorkerKept turn.shared.dirCache _ (Function.update crew.issued index _ other)
      (Function.update crew.workers index turn.worker other)
    by_cases hother : other = index
    · rw [hother, Function.update_self, Function.update_self]
      exact hkept.worker
    · -- the others see a larger cache
      rw [Function.update_of_ne hother, Function.update_of_ne hother]
      exact (h.worker other).mono hkept.grows fun _ => List.mem_append_right _

theorem crew_kept {cache : List Text} {c : UploadCrew} (h : (crew cache).Reachable c) :
    c.Kept cache := by
  refine h.induct (I := UploadCrew.Kept cache) ?_ fun _ _ _ _ hkept hstep =>
    UploadCrew.step_kept hkept hstep
  rintro _ rfl
  exact ⟨⟨nofun, fun _ => .inl⟩, fun _ => trivial⟩

theorem WorkerKept.followed {cache confirmed issued : List Text} {worker : UploadWorker}
    {path : Text} (h : WorkerKept cache confirmed issued worker)
    (hpath : worker.parentPath = some path) :
    issued.Sublist (remoteTargets path) ∧
      (worker.pastParents = true → ∀ dir ∈ remoteTargets path, dir ∈ cache) := by
  have hall {file : UploadFile} (hpath : remoteParent file.remotePath = some path)
      (h : PassedAll cache issued file) : issued.Sublist (remoteTargets path) ∧
        ((true : Bool) = true → ∀ dir ∈ remoteTargets path, dir ∈ cache) :=
    ⟨(h path hpath).2, fun _ => (h path hpath).1⟩
  have hpassed {file : UploadFile} {asked left : List Text}
      (hpath : remoteParent file.remotePath = some path) (hasked : asked.Sublist left)
      (h : Passed cache issued file asked left) : issued.Sublist (remoteTargets path) ∧
        (false = true → ∀ dir ∈ remoteTargets path, dir ∈ cache) := by
    obtain ⟨path', done, hparent, htargets, -, hissued⟩ := h
    have hsame : path' = path := Option.some.inj (hparent.symm.trans hpath)
    rw [← hsame, htargets]
    exact ⟨hissued.trans ((List.Sublist.refl done).append hasked), nofun⟩
  have hone (dir : Text) (targets : List Text) : [dir].Sublist (dir :: targets) :=
    (List.nil_sublist targets).cons_cons dir
  cases worker with
  | parents writeLimit file targets => exact hpassed hpath (List.nil_sublist _) h
  | makingDir writeLimit dir purpose refused =>
    cases purpose with
    | task displayName => cases hpath
    | parent file targets => exact hpassed hpath (hone dir targets) h
  | caching writeLimit dir purpose =>
    cases purpose with
    | task displayName => cases hpath
    | parent file targets => exact hpassed hpath (hone dir targets) h.2
  | openLocal writeLimit file => exact hall hpath h
  | openRemote writeLimit file => exact hall hpath h
  | copying writeLimit file loop lastTransferred => exact hall hpath h
  | opening => cases hpath
  | head writeLimit => cases hpath
  | receiving writeLimit => cases hpath
  | returned result => cases hpath

/-! ## The path of a call -/

/-- What a call for the parent `path` has to do: it asks only for prefixes of the path, from the
shortest to the longest, and when it is over they are all in the cache. -/
def UploadCrew.Follows (c : UploadCrew) (path : Text) : Prop :=
  ∀ index, (c.workers index).parentPath = some path →
    (c.issued index).Sublist (pathPrefixes path) ∧
      ((c.workers index).pastParents = true → ∀ dir ∈ pathPrefixes path, dir ∈ c.shared.dirCache)

theorem remoteParent_append {path : Text} (hne : path ≠ []) :
    remoteParent (path ++ [sep, 'x']) = some path := by
  have hsplit : rsplitOnce sep (path ++ [sep, 'x']) = some (path, ['x']) :=
    rsplitOnce_append_cons path (by decide)
  have htrim : (path ++ [sep, 'x']).rdropWhile (· == sep) = path ++ [sep, 'x'] := by
    rw [show path ++ [sep, 'x'] = (path ++ [sep]) ++ ['x'] by simp]
    exact List.rdropWhile_concat_neg _ _ _ (by decide)
  have hlong : ¬(path ++ [sep, 'x'] = [] ∨ path ++ [sep, 'x'] = [sep]) := by
    rintro (h | h)
    · simp at h
    · have hlength := congrArg List.length h
      simp at hlength
  rw [remoteParent, htrim, if_neg hlong, hsplit]
  exact congrArg some (if_neg hne)

theorem exists_turn {cache : List Text} {c : UploadCrew} (index : ℕ) (cancelled : Bool)
    (event : UploadWorkerEvent) {turn : UploadWorkerTurn} (h : (crew cache).Reachable c)
    (hturn : uploadWorkerStep cancelled c.shared (c.workers index) event = some turn) :
    ∃ c', (crew cache).Reachable c' ∧ c'.workers index = turn.worker ∧ c'.shared = turn.shared ∧
      c'.issued index = (c.workers index).issued (c.issued index) ++ turn.worker.request := by
  refine ⟨c.turn index event turn, h.step (a := .worker index cancelled event) ?_, ?_, rfl, ?_⟩
  · show c.step _ = _
    rw [UploadCrew.step, hturn]
    rfl
  · exact Function.update_self ..
  · exact Function.update_self ..

theorem exists_parent_call {path first : Text} {targets : List Text} (hne : path ≠ [])
    (htargets : remoteTargets path = first :: targets) :
    ∃ c, (crew []).Reachable c ∧ (c.workers 0).parentPath = some path ∧ c.issued 0 = [first] := by
  have hparent := remoteParent_append hne
  have hbelow : first ≠ [] ∧ first ≠ [sep] := of_mem_remoteTargets (htargets ▸ List.mem_cons_self)
  let file : UploadFile := ⟨[], path ++ [sep, 'x'], []⟩
  have hpushed : (crew []).Reachable
      ⟨fun _ => .opening, ⟨[.uploadFile file], []⟩, fun _ => [], []⟩ := by
    refine .step (a := .push (.uploadFile file)) (.init rfl) ?_
    have htask : (UploadPipelineTask.uploadFile file).BelowRoot := trivial
    show UploadCrew.step _ (.push (.uploadFile file)) = _
    rw [UploadCrew.step, if_pos htask]
    rfl
  obtain ⟨c₁, h₁, hworker₁, hshared₁, -⟩ :=
    exists_turn 0 false (.opened (.ok none)) hpushed rfl
  obtain ⟨c₂, h₂, hworker₂, hshared₂, -⟩ :=
    exists_turn 0 false .go h₁
      (by rw [hworker₁, hshared₁]; rfl)
  -- `recv` gives the file
  have hstart : UploadWorker.startFile none file = .parents none file (first :: targets) := by
    rw [UploadWorker.startFile, hparent, ← htargets]
  obtain ⟨c₃, h₃, hworker₃, hshared₃, hissued₃⟩ :=
    exists_turn 0 false .go h₂
      (by rw [hworker₂, hshared₂]; rfl)
  rw [hworker₂] at hissued₃
  replace hworker₃ : c₃.workers 0 = .parents none file (first :: targets) := hworker₃.trans hstart
  replace hissued₃ : c₃.issued 0 = [] := by
    rw [hissued₃]
    show [] ++ (UploadWorker.startFile none file).request = []
    rw [hstart]
    rfl
  -- the cache is empty
  have hnext : uploadParents c₃.shared none file (first :: targets) =
      .makingDir none first (.parent file targets) none := by
    rw [uploadParents, hshared₃, if_neg (by exact List.not_mem_nil), ensureDir_eq hbelow]
  obtain ⟨c₄, h₄, hworker₄, -, hissued₄⟩ :=
    exists_turn 0 false .go h₃ (by rw [hworker₃]; rfl)
  refine ⟨c₄, h₄, ?_, ?_⟩
  · rw [hworker₄]
    show (uploadParents c₃.shared none file (first :: targets)).parentPath = some path
    rw [hnext]
    exact hparent
  · rw [hissued₄, hworker₃, hissued₃]
    show [] ++ (uploadParents c₃.shared none file (first :: targets)).request = [first]
    rw [hnext]
    rfl

/-- **The parents follow the path.** In every run of every crew, the call for a parent follows its
path if and only if the path is absolute or empty; and each directory in the cache was there at the
start or has been confirmed. -/
theorem remoteParents_iff (path : Text) :
    ((∀ cache c, (crew cache).Reachable c → c.Follows path) ↔
      path = [] ∨ isAbs path = true) ∧
    ∀ cache c, (crew cache).Reachable c → ∀ dir ∈ c.shared.dirCache, dir ∈ cache ∨
      dir ∈ c.confirmed := by
  refine ⟨⟨fun h => ?_, fun hpath cache c hc index hcall => ?_⟩, fun cache c hc =>
    (crew_kept hc).shared.dirCache⟩
  · by_contra hno
    obtain ⟨hne, habs⟩ := not_or.mp hno
    obtain ⟨first, targets, htargets, hfirst⟩ :=
      exists_not_mem_pathPrefixes hne (Bool.eq_false_iff.mpr habs)
    obtain ⟨c, hc, hcall, hissued⟩ := exists_parent_call hne htargets
    have hprefixes := (h [] c hc 0 hcall).1.subset
    rw [hissued] at hprefixes
    exact hfirst (hprefixes List.mem_cons_self)
  · have hsame : remoteTargets path = pathPrefixes path := by
      rcases hpath with rfl | habs
      · decide
      · exact remoteTargets_of_isAbs habs
    rw [← hsame]
    exact ((crew_kept hc).worker index).followed hcall

/-- The directory `a` of the session is asked for as `/a`. -/
theorem relativeParent_not_followed :
    ∃ c, (crew []).Reachable c ∧ ¬c.Follows "a/b".toList := by
  have htargets : remoteTargets "a/b".toList = ["/a".toList, "/a/b".toList] := by decide
  obtain ⟨c, hc, hcall, hissued⟩ := exists_parent_call (by decide) htargets
  refine ⟨c, hc, fun h => ?_⟩
  have hprefixes := (h 0 hcall).1.subset
  rw [hissued] at hprefixes
  have hmem : "/a".toList ∈ pathPrefixes "a/b".toList := hprefixes List.mem_cons_self
  revert hmem
  decide

/-! ## The workers of an upload -/

def EndsInName (path : Text) : Prop := ∃ front c, path = front ++ [c] ∧ c ≠ sep

theorem EndsInName.below {path : Text} (h : EndsInName path) : path ≠ [] ∧ path ≠ [sep] := by
  obtain ⟨front, c, rfl, hc⟩ := h
  refine ⟨by simp, fun heq => ?_⟩
  obtain ⟨-, hlast⟩ := List.append_inj' (show front ++ [c] = [] ++ [sep] from heq) rfl
  exact hc (List.singleton_inj.mp hlast)

theorem remoteJoin_below {base : Text} (h : EndsInName base) (child : Text) :
    remoteJoin base child ≠ [] ∧ remoteJoin base child ≠ [sep] := by
  obtain ⟨hne, hroot⟩ := h.below
  obtain ⟨front, c, rfl, hc⟩ := h
  have hbase : (if front ++ [c] = [sep] then [sep]
      else (front ++ [c]).rdropWhile (· == sep)) = front ++ [c] := by
    rw [if_neg hroot, List.rdropWhile_concat_neg _ _ _ (by simpa using hc)]
  rw [remoteJoin, hbase]
  split
  · exact ⟨hne, hroot⟩
  · rw [if_neg (not_or.mpr ⟨hne, hroot⟩)]
    refine ⟨by simp, fun heq => ?_⟩
    have hlength := congrArg List.length heq
    simp only [List.length_append, List.length_cons, List.length_nil] at hlength
    omega

theorem endsInName_remoteJoin (base : Text) {name : Text} (hname : name ≠ [] ∧ sep ∉ name) :
    EndsInName (remoteJoin base name) := by
  have hchild : trimBy (· == sep) name = name :=
    trimBy_eq_self fun c hc => by simpa using fun he : c = sep => hname.2 (he ▸ hc)
  obtain ⟨init, c, rfl⟩ := (List.eq_nil_or_concat' name).resolve_left hname.1
  have hc : c ≠ sep := fun he => hname.2 (he ▸ List.mem_append_right _ List.mem_cons_self)
  rw [remoteJoin, hchild, if_neg hname.1]
  generalize (if base = [sep] then [sep] else base.rdropWhile (· == sep)) = normalized
  split
  · exact ⟨sep :: init, c, rfl, hc⟩
  · exact ⟨normalized ++ sep :: init, c, by simp, hc⟩

def RootScan.Below : RootScan → Prop
  | .metadata => True
  | .pop remoteRoot _ => EndsInName remoteRoot
  | .listing remoteRoot _ _ => EndsInName remoteRoot
  | .entries remoteRoot _ _ => EndsInName remoteRoot
  | .entryMetadata remoteRoot _ _ _ => EndsInName remoteRoot

def RootTurn.Below : RootTurn → Prop
  | .on scan _ task => scan.Below ∧ ∀ t ∈ task, t.BelowRoot
  | .ended _ _ task => ∀ t ∈ task, t.BelowRoot

theorem uploadRootTurn_below (remoteDir root : Text) (result : Except String LocalMetadata) :
    (uploadRootTurn remoteDir root result).Below := by
  unfold uploadRootTurn
  split
  · nofun
  · nofun
  · split
    · nofun
    · rename_i rootName hname
      have hroot := endsInName_remoteJoin remoteDir (fileName_spec hname)
      dsimp only
      split
      · rintro _ ⟨⟩
        trivial
      · refine ⟨hroot, ?_⟩
        rintro _ ⟨⟩
        exact hroot.below
      · nofun

theorem uploadEntryTurn_below {root remoteRoot current path : Text} {stack : List Text}
    (h : EndsInName remoteRoot) (result : Except String LocalMetadata) :
    (uploadEntryTurn root remoteRoot current stack path result).Below := by
  unfold uploadEntryTurn
  split
  · nofun
  · split
    · nofun
    · rename_i relative hrelative
      split
      · exact ⟨h, nofun⟩
      · exact ⟨h, nofun⟩
      · refine ⟨h, ?_⟩
        rintro _ ⟨⟩
        exact remoteJoin_below h relative
      · refine ⟨h, ?_⟩
        rintro _ ⟨⟩
        trivial

theorem rootScanStep_below {remoteDir root : Text} {cancelled : Bool} {scan : RootScan}
    {event : RootScanEvent} {turn : RootTurn} (h : scan.Below)
    (hstep : rootScanStep remoteDir root cancelled scan event = some turn) : turn.Below := by
  unfold rootScanStep at hstep
  split at hstep
  · cases hstep
    exact uploadRootTurn_below ..
  · cases hstep
    nofun
  · split at hstep
    · cases hstep
      nofun
    · cases hstep
      exact ⟨h, nofun⟩
  · cases hstep
    nofun
  · cases hstep
    exact ⟨h, nofun⟩
  · cases hstep
    exact ⟨h, nofun⟩
  · cases hstep
    nofun
  · cases hstep
    exact ⟨h, nofun⟩
  · cases hstep
    exact uploadEntryTurn_below h _
  · cases hstep

/-- The workers of the upload and what they share are those of a crew. -/
def UploadPathsJob.InCrew (args : UploadPathsArgs) (job : UploadPathsJob) : Prop :=
  ∃ c, (crew [[sep], args.remoteDir]).Reachable c ∧ c.shared = job.shared ∧
    ∀ index worker, job.workers[index]? = some worker → c.workers index = worker

/-- What holds of the upload from the start of the transfer on. -/
def UploadPathsJob.CrewKept (args : UploadPathsArgs) (job : UploadPathsJob) : Prop :=
  match job.phase with
  | .classifying _ _ => True
  | .roots _ _ => job.InCrew args
  | .scanning _ _ _ scan => job.InCrew args ∧ scan.Below
  | .working _ => job.InCrew args
  | .returned _ => True

theorem UploadPathsJob.InCrew.record {args : UploadPathsArgs} {job : UploadPathsJob}
    (h : job.InCrew args) (context : PipelineEmitContext) (changes : List ItemUpdate)
    {task : Option UploadPipelineTask} (htask : ∀ t ∈ task, t.BelowRoot) :
    (job.record context changes task).InCrew args := by
  obtain ⟨c, hc, hshared, hworkers⟩ := h
  cases task with
  | none =>
    refine ⟨c, hc, ?_, hworkers⟩
    show c.shared = { job.shared with queue := job.shared.queue ++ [] }
    rw [List.append_nil, hshared]
  | some task =>
    refine ⟨{ c with shared := { c.shared with queue := c.shared.queue ++ [task] } },
      hc.step (a := .push task) ?_, ?_, hworkers⟩
    · exact if_pos (htask task rfl)
    · show UploadShared.mk _ _ = UploadShared.mk _ _
      rw [hshared]
      rfl

theorem UploadPathsJob.InCrew.workerTurn {args : UploadPathsArgs} {job : UploadPathsJob}
    (h : job.InCrew args) (kind : UploadJobKind) {index : ℕ} {worker : UploadWorker}
    {event : UploadWorkerEvent} {turn : UploadWorkerTurn}
    (hworker : job.workers[index]? = some worker)
    (hturn : uploadWorkerStep job.batch.cancelFlag job.shared worker event = some turn) :
    (args.workerTurn kind job index turn).InCrew args := by
  obtain ⟨c, hc, hshared, hworkers⟩ := h
  rw [← hshared, ← hworkers index worker hworker] at hturn
  refine ⟨c.turn index event turn,
    hc.step (a := .worker index job.batch.cancelFlag event) ?_, rfl, ?_⟩
  · show c.step _ = _
    rw [UploadCrew.step, hturn]
    rfl
  · intro other w hw
    show Function.update c.workers index turn.worker other = w
    have hw : (job.workers.set index turn.worker)[other]? = some w := hw
    by_cases hother : other = index
    · subst hother
      obtain ⟨hlt, -⟩ := List.getElem?_eq_some_iff.mp hworker
      rw [List.getElem?_set_self hlt] at hw
      rw [Function.update_self]
      exact Option.some.inj hw
    · rw [List.getElem?_set_ne (Ne.symm hother)] at hw
      rw [Function.update_of_ne hother]
      exact hworkers other w hw

theorem sftpUploadPathsStep_crewKept {args : UploadPathsArgs} {job job' : UploadPathsJob}
    {event : UploadPathsEvent} (h : job.CrewKept args)
    (hstep : sftpUploadPathsStep args job event = some job') : job'.CrewKept args := by
  unfold sftpUploadPathsStep at hstep
  split at hstep
  · split at hstep
    · cases hstep
    · cases hstep
      exact h
  · split at hstep
    · cases hstep
      trivial
    · cases hstep
      trivial
    · -- the transfer starts, and so does the crew
      cases hstep
      rename_i kind
      refine ⟨_, .init rfl, rfl, fun index worker hworker => ?_⟩
      exact (List.eq_of_mem_replicate (List.mem_of_getElem? hworker)).symm
  · rename_i hphase
    cases hstep
    rw [UploadPathsJob.CrewKept, hphase] at h
    exact h
  · rename_i hphase
    rw [UploadPathsJob.CrewKept, hphase] at h
    split at hstep
    · cases hstep
      exact h
    · cases hstep
      exact ⟨h, trivial⟩
  · -- the scan
    rename_i kind root roots scan event hphase
    rw [UploadPathsJob.CrewKept, hphase] at h
    obtain ⟨hcrew, hscan⟩ := h
    obtain ⟨turn, hturn, rfl⟩ := Option.map_eq_some_iff.mp hstep
    have hbelow := rootScanStep_below hscan hturn
    cases turn with
    | on scan changes task =>
      exact ⟨hcrew.record (args.emitContext kind) changes hbelow.2, hbelow.1⟩
    | ended result changes task =>
      cases result with
      | ok done => exact hcrew.record (args.emitContext kind) changes hbelow
      | error err =>
        exact hcrew.record (args.emitContext kind) (changes ++ [.discoverFailed]) hbelow
  · -- a worker
    rename_i kind index event hphase
    rw [UploadPathsJob.CrewKept, hphase] at h
    obtain ⟨worker, hworker, hstep⟩ := Option.bind_eq_some_iff.mp hstep
    obtain ⟨turn, hturn, rfl⟩ := Option.map_eq_some_iff.mp hstep
    show UploadPathsJob.CrewKept args (args.workerTurn kind job index turn)
    have hkeeps : (args.workerTurn kind job index turn).phase = .working kind := hphase
    rw [UploadPathsJob.CrewKept, hkeeps]
    exact h.workerTurn kind hworker hturn
  · split at hstep
    · cases hstep
      trivial
    · cases hstep
  · cases hstep

/-- **The workers of an upload are a crew**, which begins with the root and the directory of the
upload in its cache. -/
theorem sftpUploadPaths_crew {args : UploadPathsArgs} {job : UploadPathsJob}
    {kind : UploadJobKind} (h : (sftpUploadPaths args).Reachable job)
    (hphase : job.phase = .working kind) : job.InCrew args := by
  have hkept : job.CrewKept args := by
    refine h.induct (I := UploadPathsJob.CrewKept args) ?_ fun _ _ _ _ hkept hstep =>
      sftpUploadPathsStep_crewKept hkept hstep
    rintro _ rfl
    unfold UploadPathsJob.CrewKept UploadPathsArgs.start
    cases args.localRoots with
    | nil => trivial
    | cons root roots => trivial
  rwa [UploadPathsJob.CrewKept, hphase] at hkept

theorem sftpUploadPaths_crew_sampleScan : ∃ job, Machine.exec (sftpUploadPathsStep samplePaths)
    samplePaths.start sampleScan = some job ∧ job.InCrew samplePaths :=
  ⟨_, rfl, sftpUploadPaths_crew (Machine.reachable_exec (show Machine.exec _ _ sampleScan = _
    from rfl)) rfl⟩

end FluxTerm.Sftp
