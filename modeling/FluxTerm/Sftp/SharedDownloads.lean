import FluxTerm.Sftp.LocalOps
import Mathlib.Data.List.Nodup

/-!
# FluxTerm — downloads that share a local path

Downloads of several sessions, asked for one local path, over one local file system: each looks for
a free name (`resolve_available_local_path` of `crates/engine/src/sftp.rs`), opens the remote file,
creates the local one, and removes it when it fails or is cancelled. Their steps interleave freely.

* **`nothingShared_of_looksInTime`** — then nothing is shared.
* **`sampleRace_shared`** — two downloads that look for a name before either creates its file.
-/

namespace FluxTerm.Sftp

open FluxTerm.Engine FluxTerm.Lib

/-! ## The file system -/

inductive LocalEntry where
  | dir
  | file (owner : Option ℕ)
deriving DecidableEq

/-- A path that `resolve_available_local_path` has returned. -/
structure Choice where
  job : ℕ
  isDir : Bool
  place : Place
  existed : Bool

def Choice.Covers (choice : Choice) (inner : Place) : Prop :=
  if choice.isDir then choice.place.Below inner else inner = choice.place

structure LocalAccess where
  job : ℕ
  owner : Option ℕ

/-- `create_dir_all`: the directory and those above it. -/
def madeDirs (files : Place → Option LocalEntry) (directory : Place) (p : Place) :
    Option LocalEntry :=
  if files p = none ∧ p.Below directory then some .dir else files p

structure SharedRun where
  jobs : List LocalJob
  files : Place → Option LocalEntry
  choices : List Choice
  accesses : List LocalAccess

structure SharedEvent where
  index : ℕ
  event : LocalJobEvent

namespace SharedRun

variable (s : SharedRun)

/-- What a download does to the file system. A file cannot be created over a directory, and only
files are removed. -/
def perform (index : ℕ) (isDir : Bool) : LocalOp → Option SharedRun
  | .probe path true => if (s.files (place path)).isSome then some s else none
  | .probe path false =>
    some { s with
      choices := s.choices ++ [⟨index, isDir, place path, (s.files (place path)).isSome⟩] }
  | .makeDirs path =>
    some { s with files := madeDirs s.files (place path) }
  | .create path =>
    let files := Function.update s.files (place path) (some (.file (some index)))
    match s.files (place path) with
    | some .dir => none
    | some (.file owner) =>
      some { s with files, accesses := s.accesses ++ [⟨index, owner⟩] }
    | none => some { s with files }
  | .remove path =>
    match s.files (place path) with
    | some (.file owner) =>
      some { s with
        files := Function.update s.files (place path) none
        accesses := s.accesses ++ [⟨index, owner⟩] }
    | some .dir | none => some s

def next (event : SharedEvent) : Option SharedRun :=
  (s.jobs[event.index]?).bind fun job =>
    (job.next event.event).bind fun job' =>
      let s := { s with jobs := s.jobs.set event.index job' }
      match job.op event.event with
      | some op => s.perform event.index job.isDir op
      | none => some s

end SharedRun

/-- Downloads that have not started, asked for one path. The files there belong to nobody. -/
structure SharedRun.Starts (s : SharedRun) (requested : Text) : Prop where
  new : ∀ job ∈ s.jobs, job.isNew
  requested : ∀ job ∈ s.jobs, job.requested = requested
  files : ∀ p k, s.files p ≠ some (.file (some k))
  choices : s.choices = []
  accesses : s.accesses = []

def sharedDownloads (start : SharedRun) : Machine SharedRun SharedEvent :=
  .ofStep start SharedRun.next

/-! ## The property -/

structure NothingShared (s : SharedRun) : Prop where
  apart : (s.choices.map (·.place)).Nodup
  free : ∀ choice ∈ s.choices, choice.existed = false
  own : ∀ access ∈ s.accesses, ∀ k, access.owner = some k → k = access.job

/-- A candidate that is found free is free. If a download has chosen it before, its file or root
is there: created already, and not removed again. And a directory download keeps to its root. -/
def LooksInTime (s : SharedRun) (event : SharedEvent) : Prop :=
  ∀ job ∈ s.jobs[event.index]?, job.KeepsInside event.event ∧
    match job.op event.event with
    | some (.probe path false) =>
      s.files (place path) = none ∧
        ∀ choice ∈ s.choices, choice.place = place path → (s.files (place path)).isSome
    | _ => True

instance (s : SharedRun) (event : SharedEvent) : Decidable (LooksInTime s event) := by
  unfold LooksInTime
  have hdec : ∀ job : LocalJob, Decidable (match job.op event.event with
      | some (.probe path false) =>
        s.files (place path) = none ∧
          ∀ choice ∈ s.choices, choice.place = place path → (s.files (place path)).isSome
      | _ => True) := by
    intro job
    split <;> infer_instance
  infer_instance

/-! ## The invariant -/

/-- Everything belongs to a choice. -/
structure Owned (requested : Text) (s : SharedRun) : Prop where
  same : ∀ job ∈ s.jobs, job.requested = requested
  inside : ∀ job ∈ s.jobs, job.Inside
  targets : ∀ (index : ℕ) job, s.jobs[index]? = some job → ∀ target, job.target = some target →
    ∃ choice ∈ s.choices, choice.job = index ∧ choice.place = place target ∧
      choice.isDir = job.isDir
  shaped : ∀ choice ∈ s.choices, ∃ index, choice.place = place (availablePath requested index) ∧
    (choice.isDir = true → Sibling requested index)
  owners : ∀ p k, s.files p = some (.file (some k)) →
    ∃ choice ∈ s.choices, choice.job = k ∧ choice.Covers p
  nothing : NothingShared s

variable {requested : Text} {s : SharedRun}

theorem Owned.place_eq (h : Owned requested s) {choice other : Choice} {inner : Place}
    (hchoice : choice ∈ s.choices) (hother : other ∈ s.choices) (hcovers : choice.Covers inner)
    (hcovers' : other.Covers inner) : choice.place = other.place := by
  obtain ⟨i, hi, hsibling⟩ := h.shaped choice hchoice
  obtain ⟨j, hj, hsibling'⟩ := h.shaped other hother
  unfold Choice.Covers at hcovers hcovers'
  rw [hi, hj]
  rw [hi] at hcovers
  rw [hj] at hcovers'
  cases hdir : choice.isDir with
  | true =>
    rw [hdir] at hcovers
    cases hdir' : other.isDir with
    | true =>
      rw [hdir'] at hcovers'
      exact eq_of_below_both (hsibling hdir) (hsibling' hdir') hcovers hcovers'
    | false =>
      -- the other one is a file in the directory of this one
      rw [hdir'] at hcovers'
      have hinner : inner = place (availablePath requested j) := hcovers'
      rw [hinner] at hcovers
      exact eq_of_below (hsibling hdir) hcovers
  | false =>
    rw [hdir] at hcovers
    have hinner : inner = place (availablePath requested i) := hcovers
    cases hdir' : other.isDir with
    | true =>
      rw [hdir', hinner] at hcovers'
      exact (eq_of_below (hsibling' hdir') hcovers').symm
    | false =>
      rw [hdir'] at hcovers'
      exact hinner.symm.trans hcovers'

theorem Owned.job_eq (h : Owned requested s) {choice other : Choice} {inner : Place}
    (hchoice : choice ∈ s.choices) (hother : other ∈ s.choices) (hcovers : choice.Covers inner)
    (hcovers' : other.Covers inner) : choice.job = other.job := by
  have hplace := h.place_eq hchoice hother hcovers hcovers'
  rw [List.inj_on_of_nodup_map h.nothing.apart hchoice hother hplace]

/-! ## Steps -/

section Steps

variable {index : ℕ} {job job' : LocalJob} {event : LocalJobEvent}

theorem Owned.target (h : Owned requested s) (hjob : s.jobs[index]? = some job)
    (hnext : job.next event = some job') {i : ℕ}
    {other : LocalJob} (hother : (s.jobs.set index job')[i]? = some other) {target : Text}
    (htarget : other.target = some target) :
    (∃ choice ∈ s.choices, choice.job = i ∧ choice.place = place target ∧
      choice.isDir = other.isDir) ∨
    i = index ∧ other.isDir = job.isDir ∧ job.op event = some (.probe target false) := by
  by_cases hi : index = i
  · subst hi
    rw [List.getElem?_set_self (List.getElem?_eq_some_iff.mp hjob).1] at hother
    cases hother
    have hdir := (LocalJob.next_same hnext).2
    rcases LocalJob.next_target hnext htarget with hsame | hop
    · rw [hdir]
      exact .inl (h.targets index job hjob target hsame)
    · exact .inr ⟨rfl, hdir, hop⟩
  · rw [List.getElem?_set_ne hi] at hother
    exact .inl (h.targets i other hother target htarget)

theorem Owned.jobs (h : Owned requested s) (hjob : s.jobs[index]? = some job)
    (hkeeps : job.KeepsInside event) (hnext : job.next event = some job') :
    ∀ other ∈ s.jobs.set index job', other.requested = requested ∧ other.Inside := by
  intro other hother
  have hmem := List.mem_of_getElem? hjob
  rcases List.mem_or_eq_of_mem_set hother with hother | rfl
  · exact ⟨h.same other hother, h.inside other hother⟩
  · exact ⟨(LocalJob.next_same hnext).1.trans (h.same job hmem),
      (h.inside job hmem).next hkeeps hnext⟩

theorem Owned.move (h : Owned requested s) (hjob : s.jobs[index]? = some job)
    (hkeeps : job.KeepsInside event) (hnext : job.next event = some job')
    (hop : ∀ path, job.op event ≠ some (.probe path false)) {s' : SharedRun}
    (hjobs : s'.jobs = s.jobs.set index job') (hchoices : s'.choices = s.choices)
    (howners : ∀ p k, s'.files p = some (.file (some k)) →
      ∃ choice ∈ s.choices, choice.job = k ∧ choice.Covers p)
    (hown : ∀ access ∈ s'.accesses, ∀ k, access.owner = some k → k = access.job) :
    Owned requested s' := by
  have hall := h.jobs hjob hkeeps hnext
  refine ⟨?_, ?_, ?_, ?_, ?_, ?_, ?_, hown⟩
  · rw [hjobs]
    exact fun other hother => (hall other hother).1
  · rw [hjobs]
    exact fun other hother => (hall other hother).2
  · intro i other hother target htarget
    rw [hjobs] at hother
    rw [hchoices]
    rcases h.target hjob hnext hother htarget with hchoice | ⟨-, -, hprobe⟩
    · exact hchoice
    · exact absurd hprobe (hop target)
  · rw [hchoices]
    exact h.shaped
  · rw [hchoices]
    exact howners
  · rw [hchoices]
    exact h.nothing.apart
  · rw [hchoices]
    exact h.nothing.free

theorem Owned.choose (h : Owned requested s) (hjob : s.jobs[index]? = some job)
    (hkeeps : job.KeepsInside event) (hnext : job.next event = some job') {path : Text}
    (hop : job.op event = some (.probe path false)) (hfree : s.files (place path) = none)
    (hthere : ∀ choice ∈ s.choices, choice.place = place path → (s.files (place path)).isSome)
    (hshaped : ∃ i, path = availablePath requested i ∧
      (job.isDir = true → Sibling requested i)) :
    Owned requested { s with
      jobs := s.jobs.set index job'
      choices := s.choices ++ [⟨index, job.isDir, place path, (s.files (place path)).isSome⟩] } := by
  have hall := h.jobs hjob hkeeps hnext
  refine ⟨fun other hother => (hall other hother).1, fun other hother => (hall other hother).2,
    ?_, ?_, ?_, ?_, ?_, h.nothing.own⟩
  · intro i other hother target htarget
    rcases h.target hjob hnext hother htarget with
      ⟨choice, hchoice, hfacts⟩ | ⟨rfl, hdir, hprobe⟩
    · exact ⟨choice, List.mem_append_left _ hchoice, hfacts⟩
    · rw [hop] at hprobe
      cases hprobe
      exact ⟨_, List.mem_append_right _ (List.mem_singleton_self _), rfl, rfl, hdir.symm⟩
  · intro choice hchoice
    rcases List.mem_append.mp hchoice with hchoice | hchoice
    · exact h.shaped choice hchoice
    · obtain ⟨i, rfl, hsibling⟩ := hshaped
      rw [List.mem_singleton.mp hchoice]
      exact ⟨i, rfl, hsibling⟩
  · intro p k hfile
    obtain ⟨choice, hchoice, hfacts⟩ := h.owners p k hfile
    exact ⟨choice, List.mem_append_left _ hchoice, hfacts⟩
  · show ((s.choices ++ [_]).map _).Nodup
    rw [List.map_append, List.map_singleton, ← List.concat_eq_append]
    refine h.nothing.apart.concat fun hmem => ?_
    -- the file of the choice would be there
    obtain ⟨choice, hchoice, hplace⟩ := List.mem_map.mp hmem
    have hsome := hthere choice hchoice hplace
    rw [hfree] at hsome
    cases hsome
  · intro choice hchoice
    rcases List.mem_append.mp hchoice with hchoice | hchoice
    · exact h.nothing.free choice hchoice
    · rw [List.mem_singleton.mp hchoice, hfree]
      rfl

theorem Owned.covers (h : Owned requested s) (hjob : s.jobs[index]? = some job) {path : Text}
    (hop : job.op event = some (.create path) ∨ job.op event = some (.remove path)) :
    ∃ choice ∈ s.choices, choice.job = index ∧ choice.Covers (place path) := by
  obtain ⟨target, htarget, hpath⟩ :=
    LocalJob.op_covers (h.inside job (List.mem_of_getElem? hjob)) hop
  obtain ⟨choice, hchoice, hindex, hplace, hdir⟩ := h.targets index job hjob target htarget
  refine ⟨choice, hchoice, hindex, ?_⟩
  unfold Choice.Covers
  rw [hplace, hdir]
  cases hkind : job.isDir with
  | true =>
    rw [hkind] at hpath
    exact hpath
  | false =>
    rw [hkind] at hpath
    exact congrArg place hpath

theorem Owned.owner_eq (h : Owned requested s) (hjob : s.jobs[index]? = some job) {path : Text}
    (hop : job.op event = some (.create path) ∨ job.op event = some (.remove path)) {k : ℕ}
    (hfile : s.files (place path) = some (.file (some k))) : k = index := by
  obtain ⟨mine, hmine, rfl, hcovers⟩ := h.covers hjob hop
  obtain ⟨theirs, htheirs, rfl, hcovers'⟩ := h.owners _ k hfile
  exact h.job_eq htheirs hmine hcovers' hcovers

theorem own_append {accesses : List LocalAccess} {owner : Option ℕ}
    (h : ∀ access ∈ accesses, ∀ k, access.owner = some k → k = access.job)
    (howner : ∀ k, owner = some k → k = index) :
    ∀ access ∈ accesses ++ [⟨index, owner⟩], ∀ k, access.owner = some k → k = access.job := by
  intro access haccess
  rcases List.mem_append.mp haccess with haccess | haccess
  · exact h access haccess
  · rw [List.mem_singleton.mp haccess]
    exact howner

/-- **A step of a download** whose looks are in time. -/
theorem Owned.next {s' : SharedRun} {event : SharedEvent} (h : Owned requested s)
    (hlooks : LooksInTime s event) (hstep : s.next event = some s') : Owned requested s' := by
  obtain ⟨job, hjob, hstep⟩ := Option.bind_eq_some_iff.mp hstep
  obtain ⟨job', hnext, hstep⟩ := Option.bind_eq_some_iff.mp hstep
  obtain ⟨hkeeps, hlooks⟩ := hlooks job hjob
  have hsame : ∀ p k, s.files p = some (.file (some k)) →
      ∃ choice ∈ s.choices, choice.job = k ∧ choice.Covers p := h.owners
  dsimp only at hstep
  cases hop : job.op event.event with
  | none =>
    rw [hop] at hstep
    cases hstep
    exact h.move hjob hkeeps hnext (fun _ hprobe => nomatch hop.symm.trans hprobe) rfl rfl hsame
      h.nothing.own
  | some op =>
    rw [hop] at hstep hlooks
    cases op with
    | probe path taken =>
      cases taken with
      | true =>
        unfold SharedRun.perform at hstep
        dsimp only at hstep
        split at hstep <;> cases hstep
        exact h.move hjob hkeeps hnext (fun _ hprobe => nomatch hop.symm.trans hprobe) rfl rfl
          h.owners h.nothing.own
      | false =>
        cases hstep
        have hshaped := LocalJob.op_probe hkeeps hop
        rw [h.same job (List.mem_of_getElem? hjob)] at hshaped
        exact h.choose hjob hkeeps hnext hop hlooks.1 hlooks.2 hshaped
    | makeDirs path =>
      cases hstep
      refine h.move hjob hkeeps hnext (fun _ hprobe => nomatch hop.symm.trans hprobe) rfl rfl ?_
        h.nothing.own
      intro p k (hfile : madeDirs s.files (place path) p = some (.file (some k)))
      unfold madeDirs at hfile
      split at hfile
      · cases hfile
      · exact h.owners p k hfile
    | create path =>
      have howners : ∀ p k, Function.update s.files (place path)
          (some (.file (some event.index))) p = some (.file (some k)) →
          ∃ choice ∈ s.choices, choice.job = k ∧ choice.Covers p := by
        intro p k hfile
        by_cases hp : p = place path
        · subst hp
          rw [Function.update_self] at hfile
          cases hfile
          exact h.covers hjob (.inl hop)
        · rw [Function.update_of_ne hp] at hfile
          exact h.owners p k hfile
      unfold SharedRun.perform at hstep
      dsimp only at hstep
      split at hstep
      · cases hstep
      · -- a file is there already
        rename_i owner hfile
        cases hstep
        refine h.move hjob hkeeps hnext (fun _ hprobe => nomatch hop.symm.trans hprobe) rfl rfl
          howners (own_append h.nothing.own fun k howner => ?_)
        rw [howner] at hfile
        exact h.owner_eq hjob (.inl hop) hfile
      · cases hstep
        exact h.move hjob hkeeps hnext (fun _ hprobe => nomatch hop.symm.trans hprobe) rfl rfl
          howners h.nothing.own
    | remove path =>
      unfold SharedRun.perform at hstep
      dsimp only at hstep
      split at hstep
      · rename_i owner hfile
        cases hstep
        refine h.move hjob hkeeps hnext (fun _ hprobe => nomatch hop.symm.trans hprobe) rfl rfl
          ?_ (own_append h.nothing.own fun k howner => ?_)
        · intro p k hfile
          by_cases hp : p = place path
          · subst hp
            have hnone := (Function.update_self (place path) none s.files).symm.trans hfile
            cases hnone
          · exact h.owners p k ((Function.update_of_ne hp none s.files).symm.trans hfile)
        · rw [howner] at hfile
          exact h.owner_eq hjob (.inr hop) hfile
      · cases hstep
        exact h.move hjob hkeeps hnext (fun _ hprobe => nomatch hop.symm.trans hprobe) rfl rfl
          h.owners h.nothing.own
      · cases hstep
        exact h.move hjob hkeeps hnext (fun _ hprobe => nomatch hop.symm.trans hprobe) rfl rfl
          h.owners h.nothing.own

end Steps

/-! ## Every run -/

theorem LocalJob.target_of_isNew {job : LocalJob} (h : job.isNew) : job.target = none := by
  cases job with
  | file args job =>
    have h : job = ⟨.openSftp, false, []⟩ := h
    rw [h]
    rfl
  | dir args job =>
    have h : job = .start := h
    rw [h]
    rfl

theorem SharedRun.Starts.owned (h : s.Starts requested) : Owned requested s where
  same := h.requested
  inside job hjob := by
    have htarget := LocalJob.target_of_isNew (h.new job hjob)
    cases job with
    | file args job => trivial
    | dir args job =>
      intro root hroot
      cases htarget.symm.trans hroot
  targets index job hjob target htarget := by
    rw [LocalJob.target_of_isNew (h.new job (List.mem_of_getElem? hjob))] at htarget
    cases htarget
  shaped := h.choices ▸ List.forall_mem_nil _
  owners p k hfile := absurd hfile (h.files p k)
  nothing := ⟨h.choices ▸ List.nodup_nil, h.choices ▸ List.forall_mem_nil _,
    h.accesses ▸ List.forall_mem_nil _⟩

/-- **Nothing is shared** where every look at a candidate is in time. -/
theorem nothingShared_of_looksInTime {requested : Text} {start : SharedRun}
    (hstart : start.Starts requested) (s : SharedRun)
    (h : ((sharedDownloads start).restrict LooksInTime).Reachable s) : NothingShared s := by
  have howned : Owned requested s := by
    refine h.induct ?_ ?_
    · rintro s rfl
      exact hstart.owned
    · intro s event s' _ hs hstep
      exact hs.next hstep.1 hstep.2
  exact howned.nothing

/-- Two downloads of `/r` to `/d/a`, where nothing is there. -/
def samplePair : SharedRun where
  jobs := [.file ⟨⟨"s".toList, "1".toList⟩, "/r".toList, "/d/a".toList⟩ ⟨.openSftp, false, []⟩,
    .file ⟨⟨"t".toList, "2".toList⟩, "/r".toList, "/d/a".toList⟩ ⟨.openSftp, false, []⟩]
  files _ := none
  choices := []
  accesses := []

theorem samplePair_starts : samplePair.Starts "/d/a".toList where
  new job hjob := by
    rcases List.mem_cons.mp hjob with rfl | hjob
    · rfl
    · rw [List.mem_singleton.mp hjob]
      rfl
  requested job hjob := by
    rcases List.mem_cons.mp hjob with rfl | hjob
    · rfl
    · rw [List.mem_singleton.mp hjob]
      rfl
  files _ _ := nofun
  choices := rfl
  accesses := rfl

def sampleLook (index : ℕ) (taken : Bool) : List SharedEvent :=
  [DownloadJobEvent.sftpOpened (.ok none), .remoteStat none, .candidate taken].map fun event =>
    ⟨index, .file event⟩

def sampleCreate (index : ℕ) : List SharedEvent :=
  [FileDownloadEvent.remoteOpened none, .fileSize none, .localCreated none].map fun event =>
    ⟨index, .file (.copy event)⟩

/-- The second download looks when the file of the first is there. -/
theorem samplePair_apart : ∃ s, NothingShared s ∧
    s.choices.map (·.place) = [place "/d/a".toList, place "/d/a (1)".toList] := by
  have hrun : ∃ s, Machine.exec (fun s event =>
        if LooksInTime s event then s.next event else none) samplePair (sampleLook 0 false ++
      sampleCreate 0 ++ sampleLook 1 true ++ [⟨1, .file (.candidate false)⟩]) = some s ∧
      s.choices.map (·.place) = [place "/d/a".toList, place "/d/a (1)".toList] := ⟨_, rfl, rfl⟩
  obtain ⟨s, hexec, hplaces⟩ := hrun
  have hreach := Machine.reachable_restrict (Machine.reachable_exec hexec)
  exact ⟨s, nothingShared_of_looksInTime samplePair_starts s hreach, hplaces⟩

/-- Both downloads look before either has created its file: they choose one path, and the
cancellation of the first removes the file of the second. -/
theorem sampleRace_shared : ¬∀ requested start, SharedRun.Starts start requested →
    ∀ s, (sharedDownloads start).Reachable s → NothingShared s := by
  intro h
  have hrun : ∃ s, Machine.exec SharedRun.next samplePair (sampleLook 0 false ++
        sampleLook 1 false ++ sampleCreate 0 ++ sampleCreate 1 ++
        [⟨0, .file .cancel⟩, ⟨0, .file (.copy .look)⟩]) = some s ∧
      s.choices.map (·.place) = [place "/d/a".toList, place "/d/a".toList] ∧
      s.accesses.map (fun access => (access.job, access.owner)) = [(1, some 0), (0, some 1)] :=
    ⟨_, rfl, rfl, rfl⟩
  obtain ⟨s, hexec, hplaces, -⟩ := hrun
  have hshared := h _ samplePair samplePair_starts s (Machine.reachable_exec hexec)
  have hapart := hshared.apart
  rw [hplaces] at hapart
  exact (List.nodup_cons.mp hapart).1 (List.mem_singleton_self _)

end FluxTerm.Sftp
