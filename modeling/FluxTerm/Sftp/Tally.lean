import FluxTerm.Lib.Workers
import FluxTerm.Sftp.UploadPaths

/-!
# FluxTerm — what an upload of paths counts

The scan of `sftp_upload_paths` finds items, the workers complete them or fail: every event of the
transfer carries the three counters.

* **`Batch.Tally`** — the items found are completed, failed, open, or lost by a cancellation.
* **`SftpProgress.Truthful`**, **`sftpUploadPaths_truthful`** — what every event says of them.
-/

namespace FluxTerm.Sftp

open FluxTerm.Engine FluxTerm.Lib

/-- What an event of a batch says of the items; `opened` tells that some worker got a channel. -/
structure SftpProgress.Truthful (opened : Prop) (e : SftpProgress) : Prop where
  within : ∃ total, e.totalItems = some total ∧ e.completedItems + e.failedItems ≤ total
  all : e.status ≠ .running → e.status ≠ .cancelled → opened →
    e.totalItems = some (e.completedItems + e.failedItems)
  success : e.status = .success → e.totalItems = some e.completedItems ∧ e.failedItems = 0

/-! ## Updates -/

def ItemUpdate.opens : ItemUpdate → Bool
  | discover _ => true
  | _ => false

def ItemUpdate.closes : ItemUpdate → Bool
  | complete _ | fail _ => true
  | _ => false

theorem ItemUpdate.apply_balance (p : PipelineProgressState) (change : ItemUpdate) :
    (change.apply p).completedItems + (change.apply p).failedItems + p.totalItems +
        (if change.opens then 1 else 0) =
      p.completedItems + p.failedItems + (change.apply p).totalItems +
        (if change.closes then 1 else 0) := by
  cases change <;> simp only [apply, opens, closes] <;> simp <;> omega

/-- The items that updates open, and those that they close. -/
def opens (changes : List ItemUpdate) : ℕ := changes.countP ItemUpdate.opens

def closes (changes : List ItemUpdate) : ℕ := changes.countP ItemUpdate.closes

variable {cancelled : Bool} {before after n : ℕ} {changes : List ItemUpdate}

/-- A turn with `before` open items leads to `after` open items. -/
def Turns (cancelled : Bool) (before : ℕ) (changes : List ItemUpdate) (after : ℕ) : Prop :=
  ∃ rest lost, before = rest + closes changes + lost ∧
    after = rest + opens changes ∧ (cancelled = false → lost = 0)

theorem Turns.of_keeps (hopens : opens changes = 0)
    (h : before = after + closes changes) : Turns cancelled before changes after :=
  ⟨after, 0, h, by rw [hopens, Nat.add_zero], fun _ => rfl⟩

theorem Turns.frame (h : Turns cancelled before changes after) (k : ℕ) :
    Turns cancelled (before + k) changes (after + k) := by
  obtain ⟨rest, lost, rfl, rfl, hlost⟩ := h
  exact ⟨rest + k, lost, by omega, by omega, hlost⟩

/-! ## The tally -/

variable {context : PipelineEmitContext} {batch : Batch}

theorem Batch.updateAll_cancelFlag (context : PipelineEmitContext) (changes : List ItemUpdate)
    (batch : Batch) : (batch.updateAll context changes).cancelFlag = batch.cancelFlag := by
  induction changes generalizing batch with
  | nil => rfl
  | cons change changes ih => exact ih _

/-- **The tally** of a running batch with `n` open items. -/
structure Batch.Tally (n : ℕ) (batch : Batch) : Prop where
  status : batch.progress.status = .running
  counted : ∃ lost, batch.progress.completedItems + batch.progress.failedItems + n + lost =
    batch.progress.totalItems ∧ (batch.cancelFlag = false → lost = 0)
  events : ∀ e ∈ batch.events, e.status = .running ∧
    ∃ total, e.totalItems = some total ∧ e.completedItems + e.failedItems ≤ total

namespace Batch.Tally

theorem within (h : batch.Tally n) :
    batch.progress.completedItems + batch.progress.failedItems ≤ batch.progress.totalItems := by
  obtain ⟨lost, hcounted, -⟩ := h.counted
  omega

theorem truthful (h : batch.Tally n) (opened : Prop) : ∀ e ∈ batch.events, e.Truthful opened := by
  intro e he
  obtain ⟨hrunning, hwithin⟩ := h.events e he
  refine ⟨hwithin, fun hne => absurd hrunning hne, fun hsuccess => ?_⟩
  rw [hrunning] at hsuccess
  cases hsuccess

theorem cancel (h : batch.Tally n) : ({ batch with cancelFlag := true } : Batch).Tally n :=
  ⟨h.status, h.counted.imp fun _ hlost => ⟨hlost.1, nofun⟩, h.events⟩

theorem emit (h : batch.Tally n) {name : Option Text} : (batch.emit context name).Tally n := by
  refine ⟨h.status, h.counted, fun e he => ?_⟩
  rcases List.mem_append.mp he with he | he
  · exact h.events e he
  · obtain rfl := List.mem_singleton.mp he
    exact ⟨h.status, _, rfl, h.within⟩

theorem updateAll (h : batch.Tally (n + closes changes)) :
    (batch.updateAll context changes).Tally (n + opens changes) := by
  induction changes generalizing batch n with
  | nil => exact h
  | cons change changes ih =>
    obtain ⟨lost, hcounted, hlost⟩ := h.counted
    have hbalance := change.apply_balance batch.progress
    rw [closes, List.countP_cons, ← closes] at hcounted
    rw [opens, List.countP_cons, ← opens, ← Nat.add_assoc, Nat.add_right_comm]
    have hnext : ({ batch with progress := change.apply batch.progress } : Batch).Tally
        (n + (if change.opens then 1 else 0) + closes changes) :=
      ⟨(change.apply_status _).trans h.status, ⟨lost, by dsimp only; omega, hlost⟩, h.events⟩
    exact ih hnext.emit

theorem turn (h : batch.Tally before) (hturns : Turns batch.cancelFlag before changes after) :
    (batch.updateAll context changes).Tally after := by
  obtain ⟨rest, lost, rfl, rfl, hlost⟩ := hturns
  obtain ⟨lost', hcounted, hlost'⟩ := h.counted
  refine updateAll ⟨h.status, ⟨lost + lost', by omega, fun hflag => ?_⟩, h.events⟩
  rw [hlost hflag, hlost' hflag]

/-- The end of a batch. Where no item is open, the last event counts them all. -/
theorem conclude (h : batch.Tally n) {workerFailed : Bool} {failed : EngineError} {opened : Prop}
    (hdrained : batch.cancelFlag = false → opened → n = 0)
    (hopened : workerFailed = false → opened) :
    ∀ e ∈ (batch.conclude context workerFailed failed).1.events, e.Truthful opened := by
  intro e he
  unfold Batch.conclude at he
  split at he
  · rcases List.mem_append.mp he with he | he
    · exact h.truthful opened e he
    · obtain rfl := List.mem_singleton.mp he
      exact ⟨⟨_, rfl, h.within⟩, fun _ hne => absurd rfl hne, nofun⟩
  · rename_i hflag
    have hkept : opened →
        batch.progress.totalItems = batch.progress.completedItems + batch.progress.failedItems := by
      intro hopen
      obtain ⟨lost, hcounted, hlost⟩ := h.counted
      have hn := hdrained (Bool.eq_false_iff.mpr hflag) hopen
      have hlost := hlost (Bool.eq_false_iff.mpr hflag)
      omega
    rcases List.mem_append.mp he with he | he
    · exact h.truthful opened e he
    · obtain rfl := List.mem_singleton.mp he
      refine ⟨⟨_, rfl, h.within⟩, fun _ _ hopen => congrArg some (hkept hopen), fun hsuccess => ?_⟩
      -- success: no worker and no item failed
      change finalStatus batch.progress workerFailed = .success at hsuccess
      unfold finalStatus at hsuccess
      split at hsuccess
      · split at hsuccess <;> cases hsuccess
      · rename_i hworkers
        split at hsuccess
        · rename_i hnone
          have hall := hkept (hopened (Bool.eq_false_iff.mpr hworkers))
          rw [hnone, Nat.add_zero] at hall
          exact ⟨congrArg some hall, hnone⟩
        · split at hsuccess <;> cases hsuccess

end Batch.Tally

/-! ## Workers -/

/-- The item that a worker has taken. -/
def UploadWorker.items : UploadWorker → ℕ
  | opening | head _ | receiving _ | returned _ => 0
  | _ => 1

variable {shared : UploadShared} {worker : UploadWorker} {turn : UploadWorkerTurn}

theorem UploadWorker.items_ensureDir (writeLimit : Option ℕ) (dir : Text) (purpose : DirPurpose) :
    (ensureDir writeLimit dir purpose).items = 1 := by
  unfold ensureDir
  split <;> rfl

theorem UploadWorker.items_startFile (writeLimit : Option ℕ) (file : UploadFile) :
    (startFile writeLimit file).items = 1 := by
  unfold startFile
  split <;> rfl

theorem items_uploadParents (shared : UploadShared) (writeLimit : Option ℕ) (file : UploadFile)
    (targets : List Text) : (uploadParents shared writeLimit file targets).items = 1 := by
  unfold uploadParents
  split
  · rfl
  · split
    · rfl
    · exact UploadWorker.items_ensureDir _ _ _

/-- What a step of a worker does to the items. A worker ends when nothing is left, or cancelled. -/
structure UploadWorkerTurn.Counts (cancelled : Bool) (shared : UploadShared) (worker : UploadWorker)
    (turn : UploadWorkerTurn) : Prop where
  turns : Turns cancelled (shared.queue.length + worker.items) turn.changes
    (turn.shared.queue.length + turn.worker.items)
  shrinks : shared.queue = [] → turn.shared.queue = []
  drained : turn.worker = .returned (.ok ()) → cancelled = true ∨ turn.shared.queue = []

namespace UploadWorkerTurn.Counts

theorem goes {worker' : UploadWorker} {shared' : UploadShared} (hitems : worker'.items = worker.items)
    (hopens : opens changes = 0) (hcloses : closes changes = 0)
    (hqueue : shared'.queue = shared.queue) (hbusy : worker' ≠ .returned (.ok ())) :
    (⟨worker', shared', changes⟩ : UploadWorkerTurn).Counts cancelled shared worker :=
  ⟨.of_keeps hopens (by rw [hitems, hcloses, hqueue]; rfl), hqueue.trans,
    fun hreturned => absurd hreturned hbusy⟩

/-- The worker is done with its item. -/
theorem ends {change : ItemUpdate} {shared' : UploadShared} (writeLimit : Option ℕ)
    (hitems : worker.items = 1) (hqueue : shared'.queue = shared.queue)
    (hopens : opens [change] = 0) (hcloses : closes [change] = 1) :
    (⟨.head writeLimit, shared', [change]⟩ : UploadWorkerTurn).Counts cancelled shared worker :=
  ⟨.of_keeps hopens (by rw [hcloses, hitems, hqueue]; rfl), hqueue.trans, nofun⟩

/-- The worker takes a task. -/
theorem takes {writeLimit : Option ℕ} {worker' : UploadWorker} {task : UploadPipelineTask}
    {queue : List UploadPipelineTask} (hqueue : shared.queue = task :: queue)
    (hitems : worker'.items = 1) :
    (⟨worker', { shared with queue }, []⟩ : UploadWorkerTurn).Counts cancelled shared
      (.receiving writeLimit) := by
  refine ⟨.of_keeps rfl (by rw [hqueue, hitems]; rfl), fun hnil => ?_, fun hreturned => ?_⟩
  · rw [hqueue] at hnil
    cases hnil
  · rw [show worker' = _ from hreturned] at hitems
    cases hitems

end UploadWorkerTurn.Counts

theorem uploadReceive_counts (cancelled : Bool) (shared : UploadShared) (writeLimit : Option ℕ) :
    (uploadReceive shared writeLimit).Counts cancelled shared (.receiving writeLimit) := by
  unfold uploadReceive
  split
  · rename_i hqueue
    exact ⟨.of_keeps rfl rfl, id, fun _ => .inr hqueue⟩
  · rename_i hqueue
    exact .takes hqueue (UploadWorker.items_ensureDir _ _ _)
  · rename_i hqueue
    exact .takes hqueue (UploadWorker.items_startFile _ _)

theorem uploadStep_cancelled {chunkSize transferred : ℕ} {loop : UploadLoop} {event : UploadEvent}
    (h : uploadStep chunkSize cancelled loop event = some (.cancelled transferred)) :
    cancelled = true := by
  unfold uploadStep UploadLoop.joined at h
  grind

theorem uploadFileTurn_counts {writeLimit : Option ℕ} {file : UploadFile} {loop : UploadLoop}
    {lastTransferred : ℕ} {event : UploadEvent} {result : UploadTurn}
    (h : uploadStep (uploadChunkSize writeLimit) cancelled loop event = some result) :
    (uploadFileTurn shared writeLimit file lastTransferred result).Counts cancelled shared
      (.copying writeLimit file loop lastTransferred) := by
  cases result with
  | on loop progress =>
    cases progress with
    | none => exact .goes rfl rfl rfl rfl nofun
    | some transferred =>
      unfold uploadFileTurn fileProgressUpdate
      dsimp only
      split <;> exact .goes rfl rfl rfl rfl nofun
  | cancelled transferred =>
    obtain rfl := uploadStep_cancelled h
    exact ⟨⟨_, 1, rfl, rfl, nofun⟩, id, fun _ => .inl rfl⟩
  | failed err => exact .ends _ rfl rfl rfl rfl
  | finished transferred => exact .ends _ rfl rfl rfl rfl

theorem uploadWorkerStep_counts {event : UploadWorkerEvent}
    (h : uploadWorkerStep cancelled shared worker event = some turn) :
    turn.Counts cancelled shared worker := by
  unfold uploadWorkerStep at h
  split at h
  · cases h
    exact .goes rfl rfl rfl rfl nofun
  · cases h
    exact .goes rfl rfl rfl rfl nofun
  · -- the head of the loop: the flag is looked at
    cases h
    cases cancelled with
    | true => exact ⟨.of_keeps rfl rfl, id, fun _ => .inl rfl⟩
    | false => exact .goes rfl rfl rfl rfl nofun
  · cases h
    exact uploadReceive_counts _ _ _
  · cases h
    exact .goes rfl rfl rfl rfl nofun
  · cases h
    exact .goes rfl rfl rfl rfl nofun
  · split at h <;> cases h
    · exact .goes rfl rfl rfl rfl nofun
    · exact .ends _ rfl rfl rfl rfl
  · cases h
    rename_i purpose
    cases purpose with
    | task displayName => exact .ends _ rfl rfl rfl rfl
    | parent file targets => exact .goes rfl rfl rfl rfl nofun
  · cases h
    rename_i writeLimit file targets
    have hitems := items_uploadParents shared writeLimit file targets
    refine .goes hitems rfl rfl rfl fun hreturned => ?_
    rw [hreturned] at hitems
    cases hitems
  · cases h
    exact .ends _ rfl rfl rfl rfl
  · cases h
    exact .ends _ rfl rfl rfl rfl
  · cases h
    exact .goes rfl rfl rfl rfl nofun
  · cases h
    exact .goes rfl rfl rfl rfl nofun
  · obtain ⟨result, hresult, rfl⟩ := Option.map_eq_some_iff.mp h
    exact uploadFileTurn_counts hresult
  · cases h

/-! ## The scan -/

/-- The scan opens as many items as it sends tasks. -/
def RootTurn.Opens : RootTurn → Prop
  | on _ changes task | ended _ changes task =>
    opens changes = task.toList.length ∧ closes changes = 0

theorem rootScanStep_opens {remoteDir root : Text} {scan : RootScan} {event : RootScanEvent}
    {result : RootTurn} (h : rootScanStep remoteDir root cancelled scan event = some result) :
    result.Opens := by
  unfold rootScanStep uploadRootTurn uploadEntryTurn at h
  dsimp only at h
  repeat' split at h
  all_goals cases h
  all_goals exact ⟨rfl, rfl⟩

/-! ## Jobs -/

namespace UploadPathsJob

variable {args : UploadPathsArgs} {job job' : UploadPathsJob} {kind : UploadJobKind}

def items (job : UploadPathsJob) : ℕ :=
  job.shared.queue.length + (job.workers.map UploadWorker.items).sum

def Opened (job : UploadPathsJob) : Prop := ∃ worker ∈ job.workers, worker.hasFailed = false

/-- The workers have not begun. -/
def Scans (job : UploadPathsJob) : Prop :=
  job.batch.Tally job.items ∧ job.workers ≠ [] ∧ ∀ worker ∈ job.workers, worker = .opening

/-- No worker has ended before the queue was empty, unless the upload is cancelled. -/
def Works (job : UploadPathsJob) : Prop :=
  job.batch.Tally job.items ∧ job.workers ≠ [] ∧ (job.batch.cancelFlag = false →
    job.shared.queue ≠ [] → .returned (.ok ()) ∉ job.workers)

/-- What holds of a job in every run. -/
def Counted (job : UploadPathsJob) : Prop :=
  match job.phase with
  | .classifying _ _ => job.batch.progress = .start ∧ job.batch.events = []
  | .roots _ _ | .scanning .. => job.Scans
  | .working _ => job.Works
  | .returned _ => ∀ e ∈ job.batch.events, e.Truthful job.Opened

theorem begin_scans (hprogress : job.batch.progress = .start) (hevents : job.batch.events = [])
    (args : UploadPathsArgs) (kind : UploadJobKind) : (job.begin args kind).Scans := by
  have hstart : job.batch.Tally 0 := by
    refine ⟨by rw [hprogress]; rfl, ⟨0, by rw [hprogress]; rfl, fun _ => rfl⟩, ?_⟩
    rw [hevents]
    exact List.forall_mem_nil _
  have hitems : (job.begin args kind).items = 0 := by cases kind <;> rfl
  refine ⟨hitems ▸ hstart.emit, by cases kind <;> nofun, fun worker => List.eq_of_mem_replicate⟩

theorem Scans.record (h : job.Scans) {task : Option UploadPipelineTask}
    (hopens : opens changes = task.toList.length ∧ closes changes = 0) :
    (job.record context changes task).Scans := by
  refine ⟨h.1.turn ⟨job.items, 0, by rw [hopens.2]; rfl, ?_, fun _ => rfl⟩, h.2⟩
  rw [hopens.1, items, items, Nat.add_right_comm]
  exact congrArg (· + _) List.length_append

theorem Scans.scanTurn {root : Text} {roots : List Text} {result : RootTurn} (h : job.Scans)
    (hopens : result.Opens) : (args.turn kind root roots job result).Counted := by
  cases result with
  | on scan changes task => exact h.record hopens
  | ended outcome changes task =>
    cases outcome with
    | ok done => exact h.record hopens
    | error err =>
      exact h.record ⟨List.countP_append.trans hopens.1, List.countP_append.trans hopens.2⟩

theorem Scans.works (h : job.Scans) : (job.goTo (.working kind)).Works :=
  ⟨h.1, h.2.1, fun _ _ hmem => nomatch h.2.2 _ hmem⟩

theorem Works.workerTurn {index : ℕ} (h : job.Works) (hget : job.workers[index]? = some worker)
    (hturn : turn.Counts job.batch.cancelFlag job.shared worker) :
    (args.workerTurn kind job index turn).Works := by
  obtain ⟨htally, hsome, hdrained⟩ := h
  obtain ⟨hturns, hshrinks, hreturned⟩ := hturn
  obtain ⟨before, after, hsplit, hset⟩ := exists_split hget
  refine ⟨?_, ?_, fun hflag hqueue hmem => ?_⟩
  · -- the items of the other workers stay
    have hsum (queued : ℕ) (w : UploadWorker) :
        queued + ((before ++ w :: after).map UploadWorker.items).sum = queued + w.items +
          ((before.map UploadWorker.items).sum + (after.map UploadWorker.items).sum) := by
      simp only [List.map_append, List.map_cons, List.sum_append_nat, List.sum_cons]
      omega
    rw [items, hsplit, hsum] at htally
    rw [items, UploadPathsArgs.workerTurn, hset, hsum]
    exact htally.turn (hturns.frame _)
  · intro hnil
    have hlength := congrArg List.length hnil
    rw [UploadPathsArgs.workerTurn, List.length_set] at hlength
    exact hsome (List.length_eq_zero_iff.mp hlength)
  · rw [UploadPathsArgs.workerTurn, Batch.updateAll_cancelFlag] at hflag
    rcases List.mem_or_eq_of_mem_set hmem with hmem | heq
    · exact hdrained hflag (fun hnil => hqueue (hshrinks hnil)) hmem
    · rcases hreturned heq.symm with hcancelled | hnil
      · rw [hflag] at hcancelled
        cases hcancelled
      · exact hqueue hnil

theorem Works.conclude {failed : EngineError} (h : job.Works)
    (hall : job.workers.all UploadWorker.isReturned = true) :
    ∀ e ∈ (job.batch.conclude context (job.workers.any UploadWorker.hasFailed) failed).1.events,
      e.Truthful job.Opened := by
  obtain ⟨htally, hsome, hdrained⟩ := h
  have hreturned : ∀ worker ∈ job.workers, worker.items = 0 ∧
      (worker.hasFailed = false → worker = .returned (.ok ())) := by
    intro worker hworker
    have hdone := List.all_eq_true.mp hall worker hworker
    cases worker with
    | returned result =>
      cases result with
      | ok done => exact ⟨rfl, fun _ => rfl⟩
      | error err => exact ⟨rfl, nofun⟩
    | _ => cases hdone
  refine htally.conclude (fun hflag hopened => ?_) fun hfailed => ?_
  · obtain ⟨worker, hworker, hok⟩ := hopened
    have hidle : (job.workers.map UploadWorker.items).sum = 0 := by
      refine List.sum_eq_zero_iff_forall_eq_nat.mpr fun count hcount => ?_
      obtain ⟨other, hother, rfl⟩ := List.mem_map.mp hcount
      exact (hreturned other hother).1
    rw [items, hidle, Nat.add_zero, List.length_eq_zero_iff]
    by_contra hqueue
    exact hdrained hflag hqueue ((hreturned worker hworker).2 hok ▸ hworker)
  · obtain ⟨worker, hworker⟩ := List.exists_mem_of_ne_nil _ hsome
    exact ⟨worker, hworker, Bool.eq_false_iff.mpr (List.any_eq_false.mp hfailed worker hworker)⟩

theorem Counted.next {event : UploadPathsEvent} (h : job.Counted)
    (hstep : sftpUploadPathsStep args job event = some job') : job'.Counted := by
  unfold sftpUploadPathsStep at hstep
  split at hstep
  · -- `cancel`
    split at hstep <;> cases hstep
    unfold Counted at h ⊢
    dsimp only
    split at h
    · exact h
    · exact ⟨h.1.cancel, h.2⟩
    · exact ⟨h.1.cancel, h.2⟩
    · exact ⟨h.1.cancel, h.2.1, nofun⟩
    · exact h
  · rename_i hphase
    rw [Counted, hphase] at h
    split at hstep <;> cases hstep
    · show ∀ e ∈ job.batch.events, _
      rw [h.2]
      exact List.forall_mem_nil _
    · exact h
    · exact begin_scans h.1 h.2 _ _
  · rename_i hphase
    rw [Counted, hphase] at h
    cases hstep
    exact Scans.works h
  · rename_i hphase
    rw [Counted, hphase] at h
    split at hstep <;> cases hstep
    · exact Scans.works h
    · exact h
  · rename_i hphase
    rw [Counted, hphase] at h
    obtain ⟨result, hresult, rfl⟩ := Option.map_eq_some_iff.mp hstep
    exact Scans.scanTurn h (rootScanStep_opens hresult)
  · rename_i hphase
    rw [Counted, hphase] at h
    obtain ⟨worker, hget, hstep⟩ := Option.bind_eq_some_iff.mp hstep
    obtain ⟨turn, hturn, rfl⟩ := Option.map_eq_some_iff.mp hstep
    rw [Counted, show (args.workerTurn _ job _ turn).phase = _ from hphase]
    exact Works.workerTurn h hget (uploadWorkerStep_counts hturn)
  · rename_i hphase
    rw [Counted, hphase] at h
    split at hstep <;> cases hstep
    rename_i hall
    exact Works.conclude h hall
  · cases hstep

end UploadPathsJob

/-- **Every event of an upload of paths is truthful**: it counts no more items than were found, the
last one of an upload that is not cancelled counts them all, and success means that none failed. -/
theorem sftpUploadPaths_truthful {args : UploadPathsArgs} {job : UploadPathsJob}
    (h : (sftpUploadPaths args).Reachable job) :
    ∀ e ∈ job.batch.events, e.Truthful job.Opened := by
  have hcounted : job.Counted := by
    refine h.induct (I := UploadPathsJob.Counted) ?_ fun _ _ _ _ ih hstep => ih.next hstep
    rintro _ rfl
    unfold UploadPathsArgs.start
    cases args.localRoots with
    | nil => exact List.forall_mem_nil _
    | cons root roots => exact ⟨rfl, rfl⟩
  unfold UploadPathsJob.Counted at hcounted
  split at hcounted
  · rw [hcounted.2]
    exact List.forall_mem_nil _
  · exact hcounted.1.truthful _
  · exact hcounted.1.truthful _
  · exact hcounted.1.truthful _
  · exact hcounted

def sampleRefused : List UploadPathsEvent :=
  sampleScan ++ [.opened (.ok none), .go, .go, .go, .go, .localOpened (some "denied"), .go, .go].map
    (.worker 0) ++ [.conclude]

theorem sftpUploadPaths_truthful_sampleRefused : ∃ job,
    (sftpUploadPaths samplePaths).Reachable job ∧
      job.batch.events.map (·.status) = [.running, .running, .running, .failed] ∧
      ∀ e ∈ job.batch.events, e.Truthful job.Opened := by
  have hstatus : (Machine.exec (sftpUploadPathsStep samplePaths) samplePaths.start
      sampleRefused).map (·.batch.events.map (·.status)) =
      some [.running, .running, .running, .failed] := by decide
  obtain ⟨job, hjob, hstatus⟩ := Option.map_eq_some_iff.mp hstatus
  have hreach := Machine.reachable_exec hjob
  exact ⟨job, hreach, hstatus, sftpUploadPaths_truthful hreach⟩

end FluxTerm.Sftp
