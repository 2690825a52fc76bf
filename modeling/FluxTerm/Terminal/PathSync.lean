import FluxTerm.Lib.JsString
import FluxTerm.Lib.Machine

/-!
# FluxTerm — the file panel follows the terminal

`src/main/hooks/useTerminalPathSync.ts` for remote sessions: the terminal reports the directory of
its prompt, and the panel opens it. The home directory of a session is what the panel showed when
the prompt was at home.

* **`followsHome_of_inOrder`** — the result on runs.
* **`sampleElsewhere_records`** — the panel is elsewhere when the prompt is at home.

An effect sees the state and the inputs of the render before it. For a local session it touches
nothing of a remote one, and is left out.
-/

namespace FluxTerm.Terminal

open FluxTerm.Lib

/-! ## Paths -/

def slash : UInt16 := 0x2f

def tilde : UInt16 := 0x7e

/-- `path.replace(/\/+$/, "")`. -/
def withoutTrailingSlashes (path : JsString) : JsString := path.rdropWhile (· = slash)

/-- `resolveTrackedWorkingDirectory` for a remote path. -/
def resolveTrackedWorkingDirectory (rawPath : JsString) (homePath : Option JsString) :
    Option JsString :=
  if rawPath.head? = some slash then some rawPath
  else if rawPath.head? ≠ some tilde then none
  else match homePath.filter (· ≠ []) with
    | none => none
    | some homePath =>
      if rawPath = [tilde] then some homePath
      else some (withoutTrailingSlashes homePath ++ slash :: rawPath.drop 2)

/-! ## The state of the hook -/

inductive TerminalCwdSource where
  | osc7
  | prompt
  | cmd
deriving DecidableEq

structure TerminalWorkingDirectory where
  path : JsString
  username : Option JsString
  source : TerminalCwdSource
deriving DecidableEq

inductive TerminalCwdSupport where
  | supported
  | unsupported
deriving DecidableEq

/-- `TerminalPathSyncState`, as far as the hook sets it. -/
inductive TerminalPathSyncState where
  | active
  | pausedMismatch
deriving DecidableEq

inductive SftpAvailability where
  | ready
  | checking
  | disabled
  | unsupported
deriving DecidableEq

structure PathSyncState where
  terminalWorkingDirs : Text → Option TerminalWorkingDirectory
  terminalHomeDirs : Text → Option JsString
  lastSyncedTerminalPaths : Text → Option JsString
  terminalCwdSupportBySession : Text → Option TerminalCwdSupport
  terminalPathSyncStateBySession : Text → Option TerminalPathSyncState

/-- `UseTerminalPathSyncOptions`. -/
structure PathSyncOptions where
  enabled : Bool
  filesWidgetVisible : Bool
  sftpEnabled : Bool
  activeSessionId : Option Text
  isLocalSession : Bool
  /-- `activeSessionProfile?.username`. -/
  profileUsername : Option JsString
  isRemoteConnected : Bool
  currentPath : JsString
  activeSftpAvailability : SftpAvailability

/-- An update that `scheduleDeferredTask` has scheduled. -/
inductive DeferredTask where
  | setSyncState (sessionId : Text) (state : TerminalPathSyncState)
  | setHomeDir (sessionId : Text) (home : JsString)
  | setLastSynced (sessionId : Text) (path : JsString)
deriving DecidableEq

def PathSyncState.apply (s : PathSyncState) : DeferredTask → PathSyncState
  | .setSyncState sessionId state => { s with
      terminalPathSyncStateBySession :=
        Function.update s.terminalPathSyncStateBySession sessionId (some state) }
  | .setHomeDir sessionId home => { s with
      terminalHomeDirs := Function.update s.terminalHomeDirs sessionId (some home) }
  | .setLastSynced sessionId path => { s with
      lastSyncedTerminalPaths := Function.update s.lastSyncedTerminalPaths sessionId (some path) }

/-! ## The effect -/

/-- The remote session that is followed, and where its prompt is. -/
def followed (options : PathSyncOptions) (s : PathSyncState) :
    Option (Text × TerminalWorkingDirectory) :=
  match options.activeSessionId with
  | none => none
  | some sessionId =>
    if options.isLocalSession ∨ ¬options.enabled ∨ ¬options.filesWidgetVisible ∨
        ¬options.sftpEnabled ∨ ¬options.isRemoteConnected then none
    else match s.terminalWorkingDirs sessionId with
      | none => none
      | some tracked =>
        if s.terminalCwdSupportBySession sessionId ≠ some .supported ∨
            options.activeSftpAvailability = .unsupported then none
        else some (sessionId, tracked)

/-- `username?.trim() || null`. -/
def trimmedUsername (username : Option JsString) : Option JsString :=
  (username.map jsTrim).filter (· ≠ [])

def isMismatch (options : PathSyncOptions) (tracked : TerminalWorkingDirectory) : Bool :=
  match trimmedUsername options.profileUsername, trimmedUsername tracked.username with
  | some loginUsername, some promptUsername => loginUsername ≠ promptUsername
  | _, _ => false

/-- `knownHome`: the recorded home, or what the panel shows while the prompt is at home. -/
def knownHome (options : PathSyncOptions) (s : PathSyncState) (sessionId : Text)
    (trackedPath : JsString) : Option JsString :=
  match s.terminalHomeDirs sessionId with
  | some home => some home
  | none =>
    if trackedPath = [tilde] ∧ options.currentPath ≠ [] then some options.currentPath else none

structure OpenedDir where
  sessionId : Text
  reported : JsString
  path : JsString
deriving DecidableEq

structure SyncEffect where
  tasks : List DeferredTask
  opened : Option OpenedDir
deriving DecidableEq

def recordHome (s : PathSyncState) (sessionId : Text) (home : Option JsString) :
    List DeferredTask :=
  match home.filter (· ≠ []) with
  | some home => if s.terminalHomeDirs sessionId ≠ some home then [.setHomeDir sessionId home] else []
  | none => []

/-- The effect from where the users agree. -/
def openTracked (options : PathSyncOptions) (s : PathSyncState) (sessionId : Text)
    (trackedPath : JsString) : SyncEffect :=
  let home := knownHome options s sessionId trackedPath
  let tasks := recordHome s sessionId home
  match (resolveTrackedWorkingDirectory trackedPath home).filter (· ≠ []) with
  | none => ⟨tasks, none⟩
  | some path =>
    if path = options.currentPath then ⟨tasks ++ [.setLastSynced sessionId path], none⟩
    else if s.lastSyncedTerminalPaths sessionId = some path then ⟨tasks, none⟩
    else ⟨tasks ++ [.setLastSynced sessionId path], some ⟨sessionId, trackedPath, path⟩⟩

/-- The effect that drives the panel. -/
def syncEffect (options : PathSyncOptions) (s : PathSyncState) : SyncEffect :=
  match followed options s with
  | none => ⟨[], none⟩
  | some (sessionId, tracked) =>
    let paused := s.terminalPathSyncStateBySession sessionId = some .pausedMismatch
    if isMismatch options tracked then
      ⟨if paused then [] else [.setSyncState sessionId .pausedMismatch], none⟩
    else
      let resumed := if paused then [.setSyncState sessionId .active] else []
      let effect := openTracked options s sessionId tracked.path
      ⟨resumed ++ effect.tasks, effect.opened⟩

/-! ## The hook -/

structure PathSync where
  latest : PathSyncState
  rendered : Option (PathSyncOptions × PathSyncState)
  effectDue : Bool
  tasks : List DeferredTask
  /-- The calls of `openRemoteDir`. -/
  opened : List OpenedDir

def PathSync.start : PathSync where
  latest := ⟨fun _ => none, fun _ => none, fun _ => none, fun _ => none, fun _ => none⟩
  rendered := none
  effectDue := false
  tasks := []
  opened := []

inductive PathSyncStep where
  /-- `handleWorkingDirectoryChange`. -/
  | workingDirectory (sessionId : Text) (payload : TerminalWorkingDirectory)
  /-- `handlePathSyncSupportChange`. -/
  | supportChange (sessionId : Text) (status : TerminalCwdSupport)
  | defaultSupport (sessionId : Text)
  | render (options : PathSyncOptions)
  | effect
  | task

namespace PathSync

variable (s : PathSync)

def runEffect (options : PathSyncOptions) (state : PathSyncState) : PathSync :=
  let effect := syncEffect options state
  { s with
    effectDue := false
    tasks := s.tasks ++ effect.tasks
    opened := s.opened ++ effect.opened.toList }

def update (latest : PathSyncState) : PathSync := { s with latest }

def next : PathSyncStep → Option PathSync
  | .workingDirectory sessionId payload => some (s.update { s.latest with
      terminalWorkingDirs :=
        Function.update s.latest.terminalWorkingDirs sessionId (some payload) })
  | .supportChange sessionId status => some (s.update { s.latest with
      terminalCwdSupportBySession :=
        Function.update s.latest.terminalCwdSupportBySession sessionId (some status) })
  | .defaultSupport sessionId => some (s.update { s.latest with
      terminalCwdSupportBySession := Function.update s.latest.terminalCwdSupportBySession sessionId
        (some ((s.latest.terminalCwdSupportBySession sessionId).getD .unsupported)) })
  | .render options => some { s with rendered := some (options, s.latest), effectDue := true }
  | .effect =>
    match s.effectDue, s.rendered with
    | true, some (options, state) => some (s.runEffect options state)
    | _, _ => none
  | .task =>
    match s.tasks with
    | [] => none
    | task :: tasks => some { s with latest := s.latest.apply task, tasks }

end PathSync

/-- `useTerminalPathSync` from its start on. -/
def pathSync : Machine PathSync PathSyncStep := .ofStep .start PathSync.next

/-! ## What is wanted -/

/-- The directory that a prompt path means, for a login home. -/
inductive MeansDir (home : JsString) : JsString → JsString → Prop where
  | absolute {path : JsString} (h : path.head? = some slash) : MeansDir home path path
  | home : MeansDir home [tilde] home
  | underHome (rest : JsString) :
    MeansDir home (tilde :: slash :: rest) (withoutTrailingSlashes home ++ slash :: rest)

/-- What is opened is the directory of the terminal, and a recorded home is the login home. -/
structure FollowsHome (home : Text → JsString) (s : PathSync) : Prop where
  opened : ∀ dir ∈ s.opened, MeansDir (home dir.sessionId) dir.reported dir.path
  recorded : ∀ sessionId path, s.latest.terminalHomeDirs sessionId = some path →
    path = home sessionId

/-! ## The condition -/

def IsOtherHome (path : JsString) : Prop :=
  path.head? = some tilde ∧ path ≠ [tilde] ∧ path[1]? ≠ some slash

/-- An effect that goes on for a session and a prompt path finds the panel at home when it has to
learn the home, and opens nothing for another user's home. -/
structure Learns (home : Text → JsString) (options : PathSyncOptions) (s : PathSyncState)
    (sessionId : Text) (path : JsString) : Prop where
  atHome : path = [tilde] → s.terminalHomeDirs sessionId = none → options.currentPath ≠ [] →
    options.currentPath = home sessionId
  otherHome : IsOtherHome path → ∀ recorded, s.terminalHomeDirs sessionId = some recorded →
    resolveTrackedWorkingDirectory path (some recorded) = some options.currentPath ∨
      resolveTrackedWorkingDirectory path (some recorded) = s.lastSyncedTerminalPaths sessionId

def PathSyncStep.InOrder (home : Text → JsString) (s : PathSync) : PathSyncStep → Prop
  | .effect => ∀ options state, s.rendered = some (options, state) →
    ∀ sessionId tracked, followed options state = some (sessionId, tracked) →
      isMismatch options tracked = false → Learns home options state sessionId tracked.path
  | _ => True

/-! ## The effect opens what is meant -/

section Results

variable {home : Text → JsString} {options : PathSyncOptions} {state : PathSyncState}
  {sessionId : Text} {path : JsString}

theorem meansDir_of_resolve {known : JsString} {dir : JsString}
    (h : resolveTrackedWorkingDirectory path (some known) = some dir) :
    MeansDir known path dir ∨ IsOtherHome path := by
  unfold resolveTrackedWorkingDirectory at h
  split at h
  · rename_i hslash
    cases h
    exact .inl (.absolute hslash)
  · split at h
    · cases h
    · rename_i htilde
      rw [not_not] at htilde
      split at h
      · cases h
      · rename_i homePath hhome
        obtain ⟨rfl, -⟩ : known = homePath ∧ _ := by
          rw [Option.filter_eq_some_iff] at hhome
          exact ⟨Option.some.inj hhome.1, hhome.2⟩
        split at h
        · rename_i hpath
          cases h
          rw [hpath]
          exact .inl .home
        · rename_i hpath
          cases h
          match path, htilde, hpath with
          | first :: rest, htilde, hpath =>
            cases Option.some.inj htilde
            match rest with
            | [] => exact absurd rfl hpath
            | second :: rest =>
              by_cases hsecond : second = slash
              · subst hsecond
                exact .inl (.underHome rest)
              · exact .inr ⟨rfl, hpath, fun heq => hsecond (Option.some.inj heq)⟩

theorem meansDir_of_resolve_none {dir known : JsString}
    (h : resolveTrackedWorkingDirectory path none = some dir) : MeansDir known path dir := by
  unfold resolveTrackedWorkingDirectory at h
  split at h
  · rename_i hslash
    cases h
    exact .absolute hslash
  · split at h
    · cases h
    · cases h

def AtHome (home : Text → JsString) (state : PathSyncState) : Prop :=
  ∀ sessionId path, state.terminalHomeDirs sessionId = some path → path = home sessionId

theorem knownHome_eq {known : JsString} (hstate : AtHome home state)
    (hlearns : Learns home options state sessionId path)
    (h : knownHome options state sessionId path = some known) : known = home sessionId := by
  unfold knownHome at h
  split at h
  · rename_i recorded hrecorded
    cases h
    exact hstate sessionId _ hrecorded
  · rename_i hnone
    split at h
    · rename_i hpanel
      cases h
      exact hlearns.atHome hpanel.1 hnone hpanel.2
    · cases h

theorem recorded_of_knownHome {known : JsString} (hpath : path ≠ [tilde])
    (h : knownHome options state sessionId path = some known) :
    state.terminalHomeDirs sessionId = some known := by
  unfold knownHome at h
  split at h
  · rename_i recorded hrecorded
    cases h
    exact hrecorded
  · split at h
    · rename_i hpanel
      exact absurd hpanel.1 hpath
    · cases h

theorem of_mem_recordHome {homeDir : Option JsString} {task : DeferredTask}
    (h : task ∈ recordHome state sessionId homeDir) :
    ∃ known, homeDir = some known ∧ task = .setHomeDir sessionId known := by
  unfold recordHome at h
  split at h
  · rename_i known hknown
    split at h
    · exact ⟨known, (Option.filter_eq_some_iff.mp hknown).1, List.mem_singleton.mp h⟩
    · exact absurd h List.not_mem_nil
  · exact absurd h List.not_mem_nil

def RecordsHome (home : Text → JsString) (task : DeferredTask) : Prop :=
  ∀ sessionId path, task = .setHomeDir sessionId path → path = home sessionId

/-- What an effect schedules and opens is right. -/
structure SyncEffect.Right (home : Text → JsString) (effect : SyncEffect) : Prop where
  tasks : ∀ task ∈ effect.tasks, RecordsHome home task
  opened : ∀ dir ∈ effect.opened, MeansDir (home dir.sessionId) dir.reported dir.path

theorem recordsHome_setLastSynced (home : Text → JsString) (sessionId : Text) (path : JsString) :
    ∀ task ∈ [DeferredTask.setLastSynced sessionId path], RecordsHome home task := by
  intro task htask other known hknown
  rw [List.mem_singleton.mp htask] at hknown
  cases hknown

theorem right_openTracked (hstate : AtHome home state)
    (hlearns : Learns home options state sessionId path) :
    (openTracked options state sessionId path).Right home := by
  have hrecord : ∀ task ∈ recordHome state sessionId (knownHome options state sessionId path),
      RecordsHome home task := by
    intro task htask other known hknown
    obtain ⟨known', hknown', rfl⟩ := of_mem_recordHome htask
    cases hknown
    exact knownHome_eq hstate hlearns hknown'
  have hsynced : ∀ dir, ∀ task ∈ recordHome state sessionId
      (knownHome options state sessionId path) ++ [.setLastSynced sessionId dir],
      RecordsHome home task := fun dir task htask =>
    (List.mem_append.mp htask).elim (hrecord task) (recordsHome_setLastSynced home sessionId dir task)
  unfold openTracked
  dsimp only
  split
  · exact ⟨hrecord, nofun⟩
  · rename_i dir hdir
    have hresolve := (Option.filter_eq_some_iff.mp hdir).1
    split
    · exact ⟨hsynced dir, nofun⟩
    · rename_i hshown
      split
      · exact ⟨hrecord, nofun⟩
      · rename_i hlast
        refine ⟨hsynced dir, ?_⟩
        rintro _ ⟨⟩
        dsimp only
        cases hknown : knownHome options state sessionId path with
        | none =>
          rw [hknown] at hresolve
          exact meansDir_of_resolve_none hresolve
        | some known =>
          rw [hknown] at hresolve
          rcases meansDir_of_resolve hresolve with hmeans | hother
          · exact knownHome_eq hstate hlearns hknown ▸ hmeans
          · -- another user's home is not opened
            have hrecorded := recorded_of_knownHome hother.2.1 hknown
            rcases hlearns.otherHome hother known hrecorded with hpanel | hsynced
            · exact absurd (Option.some.inj (hresolve.symm.trans hpanel)) hshown
            · exact absurd (hsynced.symm.trans hresolve) hlast

theorem right_syncEffect (hstate : AtHome home state)
    (hlearns : ∀ sessionId tracked, followed options state = some (sessionId, tracked) →
      isMismatch options tracked = false → Learns home options state sessionId tracked.path) :
    (syncEffect options state).Right home := by
  have hsyncState : ∀ sessionId syncState, ∀ task ∈ [DeferredTask.setSyncState sessionId syncState],
      RecordsHome home task := by
    intro sessionId syncState task htask other known hknown
    rw [List.mem_singleton.mp htask] at hknown
    cases hknown
  unfold syncEffect
  split
  · exact ⟨fun _ htask => absurd htask List.not_mem_nil, nofun⟩
  · rename_i sessionId tracked hfollowed
    dsimp only
    split
    · refine ⟨fun task htask => ?_, nofun⟩
      dsimp only at htask
      split at htask
      · exact absurd htask List.not_mem_nil
      · exact hsyncState _ _ task htask
    · rename_i hmatch
      have hright := right_openTracked hstate
        (hlearns sessionId tracked hfollowed (Bool.eq_false_iff.mpr hmatch))
      refine ⟨fun task htask => ?_, hright.opened⟩
      rcases List.mem_append.mp htask with htask | htask
      · split at htask
        · exact hsyncState _ _ task htask
        · exact absurd htask List.not_mem_nil
      · exact hright.tasks task htask

/-! ## Runs -/

/-- **The invariant.** -/
structure Kept (home : Text → JsString) (s : PathSync) : Prop where
  latest : AtHome home s.latest
  rendered : ∀ options state, s.rendered = some (options, state) → AtHome home state
  tasks : ∀ task ∈ s.tasks, RecordsHome home task
  opened : ∀ dir ∈ s.opened, MeansDir (home dir.sessionId) dir.reported dir.path

theorem AtHome.apply (h : AtHome home state) {task : DeferredTask} (htask : RecordsHome home task) :
    AtHome home (state.apply task) := by
  cases task with
  | setSyncState sessionId syncState => exact h
  | setLastSynced sessionId path => exact h
  | setHomeDir sessionId known =>
    intro other path hpath
    change Function.update state.terminalHomeDirs sessionId (some known) other = some path at hpath
    by_cases hother : other = sessionId
    · subst hother
      rw [Function.update_self] at hpath
      cases hpath
      exact htask other _ rfl
    · rw [Function.update_of_ne hother] at hpath
      exact h other path hpath

theorem kept_start (home : Text → JsString) : Kept home .start where
  latest _ _ h := by cases h
  rendered _ _ h := by cases h
  tasks _ h := absurd h List.not_mem_nil
  opened _ h := absurd h List.not_mem_nil

/-- **The step lemma.** -/
theorem Kept.next {s t : PathSync} {step : PathSyncStep} (h : Kept home s)
    (horder : step.InOrder home s) (hstep : s.next step = some t) : Kept home t := by
  unfold PathSync.next at hstep
  split at hstep
  · cases hstep
    exact ⟨h.latest, h.rendered, h.tasks, h.opened⟩
  · cases hstep
    exact ⟨h.latest, h.rendered, h.tasks, h.opened⟩
  · cases hstep
    exact ⟨h.latest, h.rendered, h.tasks, h.opened⟩
  · cases hstep
    refine ⟨h.latest, ?_, h.tasks, h.opened⟩
    rintro _ _ ⟨⟩
    exact h.latest
  · split at hstep
    · rename_i options state hdue hrendered
      cases hstep
      have hright := right_syncEffect (h.rendered options state hrendered)
        (horder options state hrendered)
      refine ⟨h.latest, h.rendered, fun task htask => ?_, fun dir hdir => ?_⟩
      · exact (List.mem_append.mp htask).elim (h.tasks task) (hright.tasks task)
      · exact (List.mem_append.mp hdir).elim (h.opened dir) fun hdir =>
          hright.opened dir (Option.mem_toList.mp hdir)
    · cases hstep
  · split at hstep
    · cases hstep
    · rename_i task tasks htasks
      cases hstep
      have hmem : ∀ other ∈ task :: tasks, RecordsHome home other := htasks ▸ h.tasks
      exact ⟨h.latest.apply (hmem task List.mem_cons_self), h.rendered,
        fun other hother => hmem other (List.mem_cons_of_mem _ hother), h.opened⟩

end Results

/-- **The panel follows the terminal** in any run whose steps meet the condition. -/
theorem followsHome_of_inOrder (home : Text → JsString) (s : PathSync)
    (h : (pathSync.restrict fun s step => step.InOrder home s).Reachable s) :
    FollowsHome home s := by
  have hkept : Kept home s := by
    refine h.induct (I := Kept home) ?_ ?_
    · rintro s rfl
      exact kept_start home
    · rintro s step t - hs ⟨horder, hstep⟩
      exact hs.next horder hstep
  exact ⟨hkept.opened, hkept.latest⟩

/-! ## A prompt at home -/

/-- The inputs of a connected session while the panel shows a path. -/
def sampleOptions (currentPath : JsString) : PathSyncOptions where
  enabled := true
  filesWidgetVisible := true
  sftpEnabled := true
  activeSessionId := some ['a']
  isLocalSession := false
  profileUsername := some (js "u")
  isRemoteConnected := true
  currentPath
  activeSftpAvailability := .ready

def sampleSteps (currentPath : JsString) : List PathSyncStep :=
  [.supportChange ['a'] .supported, .workingDirectory ['a'] ⟨js "~", some (js "u"), .prompt⟩,
    .render (sampleOptions currentPath), .effect, .task, .task,
    .workingDirectory ['a'] ⟨js "~/x", some (js "u"), .prompt⟩,
    .render (sampleOptions currentPath), .effect]

theorem inOrder_effect {home : Text → JsString} {s : PathSync} {options : PathSyncOptions}
    {state : PathSyncState} {sessionId : Text} {tracked : TerminalWorkingDirectory}
    (hrendered : s.rendered = some (options, state))
    (hfollowed : followed options state = some (sessionId, tracked))
    (h : Learns home options state sessionId tracked.path) :
    PathSyncStep.effect.InOrder home s := by
  intro _ _ hrendered' _ _ hfollowed' _
  rw [hrendered] at hrendered'
  cases hrendered'
  rw [hfollowed] at hfollowed'
  cases hfollowed'
  exact h

/-- The panel shows the home directory. -/
theorem followsHome_of_inOrder_sampleHome : ∃ s : PathSync,
    FollowsHome (fun _ => js "/home/u") s ∧
      s.opened = [⟨['a'], js "~/x", js "/home/u/x"⟩] := by
  have hstart : (pathSync.restrict fun s step => step.InOrder (fun _ => js "/home/u") s).Reachable
      .start := .init rfl
  have hfirst := ((hstart.step ⟨show PathSyncStep.InOrder _ _ (.supportChange ['a'] .supported)
      from trivial, rfl⟩).step ⟨show PathSyncStep.InOrder _ _ (.workingDirectory ['a']
      ⟨js "~", some (js "u"), .prompt⟩) from trivial, rfl⟩).step
    ⟨show PathSyncStep.InOrder _ _ (.render (sampleOptions (js "/home/u"))) from trivial, rfl⟩
  have hlearned := hfirst.step ⟨inOrder_effect rfl rfl
    ⟨fun _ _ _ => rfl, fun hother => absurd rfl hother.2.1⟩, rfl⟩
  have hrecorded := (hlearned.step ⟨show PathSyncStep.InOrder _ _ .task from trivial, rfl⟩).step
    ⟨show PathSyncStep.InOrder _ _ .task from trivial, rfl⟩
  have hsecond := (hrecorded.step ⟨show PathSyncStep.InOrder _ _ (.workingDirectory ['a']
      ⟨js "~/x", some (js "u"), .prompt⟩) from trivial, rfl⟩).step
    ⟨show PathSyncStep.InOrder _ _ (.render (sampleOptions (js "/home/u"))) from trivial, rfl⟩
  have hopened := hsecond.step ⟨inOrder_effect rfl rfl
    ⟨fun hpath => absurd hpath (by decide), fun hother => absurd rfl hother.2.2⟩, rfl⟩
  exact ⟨_, followsHome_of_inOrder _ _ hopened, by decide⟩

/-- The panel shows another directory when the prompt is at home. -/
theorem sampleElsewhere_records : ¬∀ (home : Text → JsString) (s : PathSync),
    pathSync.Reachable s → FollowsHome home s := by
  intro h
  have hrun : ∃ s, Machine.exec PathSync.next .start (sampleSteps (js "/srv")) = some s ∧
      s.latest.terminalHomeDirs ['a'] = some (js "/srv") ∧
      s.opened = [⟨['a'], js "~/x", js "/srv/x"⟩] := ⟨_, rfl, by decide, by decide⟩
  obtain ⟨s, hexec, hhome, -⟩ := hrun
  have hrecorded := (h (fun _ => js "/home/u") s (Machine.reachable_exec hexec)).recorded _ _ hhome
  exact absurd hrecorded (by decide)

end FluxTerm.Terminal
