import FluxTerm.Engine.Error
import FluxTerm.Lib.LexicalPath
import FluxTerm.Lib.Machine
import FluxTerm.Lib.Text

/-!
# FluxTerm — the configuration directory

`config_paths.rs`: the directory that a process uses is fixed when it starts, from an environment
variable, a small bootstrap file or a default. Three calls write the bootstrap file for the next
start, and the status shows which directory that start is going to use.

* **`choice_kept`** — what holds in every run, and when the pending directory is exact.
-/

namespace FluxTerm.Config

open Lib Engine

/-! ## Paths and files -/

def customConfigDirName : Text := "fluxterm".toList

def defaultConfigDirName : Text := ".vust/fluxterm".toList

def defaultRootOf (home : Text) : Text := push home defaultConfigDirName

def bootstrapFileName : Text := "bootstrap.json".toList

/-- The components that `Path::components` yields behind the root: no `.`, but for one that begins
a relative path. -/
def pathComponents (p : Text) : List (Comp Text) :=
  match isAbs p, comps p with
  | false, .curDir :: rest => .curDir :: rest.filter (· ≠ .curDir)
  | _, cs => cs.filter (· ≠ .curDir)

/-- `Path::eq`: paths are compared by their components. -/
def samePath (p q : Text) : Bool := isAbs p == isAbs q && pathComponents p == pathComponents q

example : samePath "/a//b/.".toList "/a/b".toList = true := by decide

@[simp] theorem samePath_refl (p : Text) : samePath p p = true := by simp [samePath]

inductive ConfigDirectorySource where
  | environment
  | user
  | default
deriving DecidableEq

structure BootstrapFile where
  version : UInt32
  configDir : Option Text
  locale : Option Text
deriving DecidableEq

structure BootstrapFormat where
  toStringPretty : BootstrapFile → Except String String
  fromStr : String → Except String BootstrapFile
  fromStr_toStringPretty : ∀ bootstrap raw,
    toStringPretty bootstrap = .ok raw → fromStr raw = .ok bootstrap

inductive Disk where
  | absent
  | unreadable (detail : String)
  | text (raw : String)

/-- How far `write_atomic` gets. -/
inductive WriteOutcome where
  | noParent
  | parentFailed (detail : String)
  | createFailed (detail : String)
  | writeFailed (detail : String)
  | syncFailed (detail : String)
  | renameFailed (detail : String)
  | written
deriving DecidableEq

/-- `write_atomic`: the file is replaced by the last step, or it is as before. -/
def writeAtomic (disk : Disk) (content : String) :
    WriteOutcome → Disk × Except EngineError Unit
  | .noParent =>
    (disk, .error (.new "file_write_failed" "Failed to resolve the parent directory"))
  | .parentFailed detail =>
    (disk, .error (.withDetail "file_write_failed" "Failed to create the configuration directory"
      detail))
  | .createFailed detail =>
    (disk, .error (.withDetail "file_write_failed" "Failed to create the temporary file" detail))
  | .writeFailed detail =>
    (disk, .error (.withDetail "file_write_failed" "Failed to write the temporary file" detail))
  | .syncFailed detail =>
    (disk, .error (.withDetail "file_write_failed" "Failed to synchronize temporary file data"
      detail))
  | .renameFailed detail =>
    (disk, .error (.withDetail "file_write_failed" "Failed to replace the target file" detail))
  | .written => (.text content, .ok ())

/-! ## Startup -/

/-- `BOOTSTRAP_INVALID_CODE` with its message. -/
def bootstrapInvalid : EngineError :=
  .new "bootstrap_invalid" "The bootstrap configuration is invalid"

def checkBootstrap (bootstrap : BootstrapFile) : Except EngineError BootstrapFile :=
  if bootstrap.version ≠ 1 ∨ bootstrap.configDir.any (!isAbs ·) then .error bootstrapInvalid
  else .ok bootstrap

/-- What `read_bootstrap` reads, before it is split into a file and an error. -/
def parseBootstrap (F : BootstrapFormat) : Disk → Except EngineError BootstrapFile
  | .absent => .ok ⟨1, none, none⟩
  | .unreadable detail =>
    .error (.withDetail "bootstrap_read_failed" "Failed to read the bootstrap configuration" detail)
  | .text raw =>
    match F.fromStr raw with
    | .error detail =>
      .error (.withDetail "bootstrap_invalid" "The bootstrap configuration is invalid" detail)
    | .ok bootstrap => checkBootstrap bootstrap

def readBootstrap (F : BootstrapFormat) (disk : Disk) :
    Option BootstrapFile × Option EngineError :=
  match parseBootstrap F disk with
  | .ok bootstrap => (some bootstrap, none)
  | .error error => (none, some error)

def normalizeBootstrapLocale : Option Text → Option Text
  | some locale =>
    if locale = "zh-CN".toList ∨ locale = "en-US".toList then some locale else none
  | none => none

def environmentRoot (home : Text) (environmentValue : Option Text) : Option Text :=
  environmentValue.bind fun value =>
    let trimmed := trimBy isWhitespace value
    if trimmed = [] then none
    else if isAbs trimmed then some trimmed
    else some (push home trimmed)

def resolveStartupRoot (home defaultRoot : Text) (environmentValue : Option Text)
    (bootstrap : Option BootstrapFile) (bootstrapError : Option EngineError) :
    Text × ConfigDirectorySource × Option EngineError :=
  match environmentRoot home environmentValue with
  | some resolved => (resolved, .environment, none)
  | none =>
    match bootstrapError with
    | some error => (defaultRoot, .user, some error)
    | none =>
      match bootstrap.bind BootstrapFile.configDir with
      | some configDir => (configDir, .user, none)
      | none => (defaultRoot, .default, none)

structure Probe where
  pathExists : Bool
  createDirAll : Except String Unit
  isDir : Bool
  readDir : Except String Unit
  writeProbe : Except String Unit
  removeProbe : Except String Unit

def orFail (code message : String) : Except String Unit → Except EngineError Unit
  | .ok () => .ok ()
  | .error detail => .error (.withDetail code message detail)

def validateDirectory (probe : Probe) (createIfMissing : Bool) : Except EngineError Unit := do
  if !probe.pathExists then
    if !createIfMissing then
      throw (.new "config_directory_missing" "The configured directory no longer exists")
    orFail "config_directory_create_failed" "Failed to create the configuration directory"
      probe.createDirAll
  if !probe.isDir then
    throw (.new "config_directory_invalid" "The configured path is not a directory")
  orFail "config_directory_not_readable" "The configured directory is not readable" probe.readDir
  orFail "config_directory_not_writable" "The configured directory is not writable" probe.writeProbe
  orFail "config_directory_probe_cleanup_failed"
    "Failed to clean up the configuration directory write probe" probe.removeProbe

/-- `ConfigDirectorySnapshot`. -/
structure Snapshot where
  activeRoot : Text
  source : ConfigDirectorySource
  ready : Bool
  error : Option String
  pendingRoot : Option Text
  bootstrapConfigRoot : Option Text
  locale : Option Text

structure ConfigDirectoryState where
  snapshot : Snapshot
  bootstrapPath : Text
  defaultRoot : Text

structure Surroundings where
  homeDir : Except String Text
  appConfigDir : Except String Text
  environmentValue : Option Text

/-- The state of a process whose home directory is known; `probe` is about the directory that it
resolves to. -/
def startState (F : BootstrapFormat) (environmentValue : Option Text) (home fixedConfigDir : Text)
    (disk : Disk) (probe : Probe) : ConfigDirectoryState :=
  let defaultRoot := defaultRootOf home
  let (bootstrap, bootstrapError) := readBootstrap F disk
  let (activeRoot, source, resolveError) :=
    resolveStartupRoot home defaultRoot environmentValue bootstrap bootstrapError
  let validation : Except EngineError Unit :=
    match resolveError with
    | some error => .error error
    | none => validateDirectory probe (source ≠ .user)
  let (ready, error) :=
    match validation with
    | .ok () => (true, none)
    | .error error => (false, some error.display)
  { snapshot :=
      { activeRoot, source, ready, error
        pendingRoot := none
        bootstrapConfigRoot := bootstrap.bind BootstrapFile.configDir
        locale := normalizeBootstrapLocale (bootstrap.bind BootstrapFile.locale) }
    bootstrapPath := push fixedConfigDir bootstrapFileName
    defaultRoot }

def initializeConfigDirectoryState (F : BootstrapFormat) (S : Surroundings) (disk : Disk)
    (probe : Probe) : Except EngineError ConfigDirectoryState :=
  match S.homeDir, S.appConfigDir with
  | .error detail, _ =>
    .error (.withDetail "config_path_failed" "Failed to resolve the user home directory" detail)
  | .ok _, .error detail =>
    .error (.withDetail "config_location_path_failed"
      "Failed to resolve the fixed application configuration directory" detail)
  | .ok home, .ok fixedConfigDir =>
    .ok (startState F S.environmentValue home fixedConfigDir disk probe)

/-! ## Calls -/

structure ConfigDirectoryStatus where
  activeDir : Text
  source : ConfigDirectorySource
  ready : Bool
  error : Option String
  pendingDir : Option Text
  envOverride : Bool
  locale : Option Text

def ConfigDirectoryState.status (state : ConfigDirectoryState) : ConfigDirectoryStatus where
  activeDir := state.snapshot.activeRoot
  source := state.snapshot.source
  ready := state.snapshot.ready
  error := state.snapshot.error
  pendingDir := state.snapshot.pendingRoot
  envOverride := state.snapshot.source = .environment
  locale := state.snapshot.locale

def resolvePendingRoot (activeRoot : Text) (activeSource : ConfigDirectorySource)
    (targetRoot : Text) (targetSource : ConfigDirectorySource) : Option Text :=
  if samePath activeRoot targetRoot ∧ activeSource = targetSource then none else some targetRoot

structure World where
  disk : Disk
  state : ConfigDirectoryState

namespace World

abbrev snapshot (w : World) : Snapshot := w.state.snapshot

def put (w : World) (disk : Disk) (snapshot : Snapshot) : World :=
  ⟨disk, { w.state with snapshot }⟩

end World

def writeBootstrap (F : BootstrapFormat) (disk : Disk) (configDir locale : Option Text)
    (outcome : WriteOutcome) : Disk × Except EngineError Unit :=
  match F.toStringPretty ⟨1, configDir, locale⟩ with
  | .error detail =>
    (disk, .error (.withDetail "bootstrap_serialize_failed"
      "Failed to serialize the bootstrap configuration" detail))
  | .ok raw => writeAtomic disk raw outcome

def ensureNotEnvironmentLocked (snapshot : Snapshot) : Except EngineError Unit :=
  if snapshot.source = .environment then
    .error (.new "config_directory_environment_locked"
      "The configuration directory is controlled by FLUXTERM_CONFIG_DIR")
  else .ok ()

/-- The common end of the calls: behind their checks they write the file, and only then they
change the snapshot. -/
def save (F : BootstrapFormat) (w : World) (checked : Except EngineError Unit)
    (configDir locale : Option Text) (outcome : WriteOutcome) (update : Snapshot → Snapshot) :
    World × Except EngineError ConfigDirectoryStatus :=
  match checked with
  | .error error => (w, .error error)
  | .ok () =>
    match writeBootstrap F w.disk configDir locale outcome with
    | (disk, .error error) => ({ w with disk }, .error error)
    | (disk, .ok ()) =>
      let w' := w.put disk (update w.snapshot)
      (w', .ok w'.state.status)

/-- The checks of `select_parent`; `parentIsDir` is about the parent, `probe` about the directory
below it. -/
def checkParent (snapshot : Snapshot) (parent : Text) (parentIsDir : Bool) (probe : Probe) :
    Except EngineError Unit := do
  ensureNotEnvironmentLocked snapshot
  if !isAbs parent then
    throw (.new "config_parent_invalid"
      "The selected configuration parent directory must be absolute")
  if !parentIsDir then
    throw (.new "config_parent_invalid"
      "The selected configuration parent directory does not exist")
  validateDirectory probe true

def selectParent (F : BootstrapFormat) (w : World) (parent : Text) (parentIsDir : Bool)
    (probe : Probe) (outcome : WriteOutcome) :
    World × Except EngineError ConfigDirectoryStatus :=
  let target := push parent customConfigDirName
  save F w (checkParent w.snapshot parent parentIsDir probe) (some target) w.snapshot.locale outcome
    fun snapshot =>
      { snapshot with
        pendingRoot := resolvePendingRoot snapshot.activeRoot snapshot.source target .user
        bootstrapConfigRoot := some target }

/-- The checks of `reset_to_default`. -/
def checkReset (snapshot : Snapshot) (probe : Probe) : Except EngineError Unit := do
  ensureNotEnvironmentLocked snapshot
  validateDirectory probe true

def resetToDefault (F : BootstrapFormat) (w : World) (probe : Probe) (outcome : WriteOutcome) :
    World × Except EngineError ConfigDirectoryStatus :=
  save F w (checkReset w.snapshot probe) none w.snapshot.locale outcome fun snapshot =>
    { snapshot with
      pendingRoot :=
        resolvePendingRoot snapshot.activeRoot snapshot.source w.state.defaultRoot .default
      bootstrapConfigRoot := none }

/-- The check of `set_locale`. -/
def checkLocale (locale : Text) : Except EngineError Unit :=
  if (normalizeBootstrapLocale (some locale)).isSome then .ok ()
  else .error (.new "bootstrap_locale_invalid" "The bootstrap locale is unsupported")

def setLocale (F : BootstrapFormat) (w : World) (locale : Text) (outcome : WriteOutcome) :
    World × Except EngineError ConfigDirectoryStatus :=
  save F w (checkLocale locale) w.snapshot.bootstrapConfigRoot (some locale) outcome fun snapshot =>
    { snapshot with locale := some locale }

inductive Call where
  | selectParent (parent : Text) (parentIsDir : Bool) (probe : Probe) (outcome : WriteOutcome)
  | resetToDefault (probe : Probe) (outcome : WriteOutcome)
  | setLocale (locale : Text) (outcome : WriteOutcome)

def perform (F : BootstrapFormat) (w : World) :
    Call → World × Except EngineError ConfigDirectoryStatus
  | .selectParent parent parentIsDir probe outcome =>
    selectParent F w parent parentIsDir probe outcome
  | .resetToDefault probe outcome => resetToDefault F w probe outcome
  | .setLocale locale outcome => setLocale F w locale outcome

def machine (F : BootstrapFormat) (S : Surroundings) : Machine World Call where
  init w := ∃ probe, initializeConfigDirectoryState F S w.disk probe = .ok w.state
  step w call w' := w' = (perform F w call).1

/-- A restart with the same environment resolves to `root`, from `source`. -/
def Restarts (F : BootstrapFormat) (S : Surroundings) (w : World) (root : Text)
    (source : ConfigDirectorySource) : Prop :=
  ∀ probe, ∃ next, initializeConfigDirectoryState F S w.disk probe = .ok next ∧
    next.snapshot.activeRoot = root ∧ next.snapshot.source = source

/-- **The pending directory is exact.** It is shown precisely when a restart would resolve to it and
to something else than what is active. -/
def PendingExact (F : BootstrapFormat) (S : Surroundings) (w : World) : Prop :=
  ∃ root source, Restarts F S w root source ∧
    ∀ p, w.state.status.pendingDir = some p ↔
      p = root ∧ (samePath w.snapshot.activeRoot root = false ∨ w.snapshot.source ≠ source)

def SparesBroken (F : BootstrapFormat) (w : World) : Call → Prop
  | .setLocale locale outcome =>
    normalizeBootstrapLocale (some locale) ≠ none →
    (F.toStringPretty ⟨1, w.snapshot.bootstrapConfigRoot, some locale⟩).isOk → outcome = .written →
    w.snapshot.source = .environment ∨ (readBootstrap F w.disk).2 = none
  | _ => True

/-! ## What a start resolves to -/

section Startup

variable {F : BootstrapFormat} {environmentValue : Option Text} {home : Text} {disk : Disk}

def startup (F : BootstrapFormat) (environmentValue : Option Text) (home : Text) (disk : Disk) :
    Text × ConfigDirectorySource :=
  let (bootstrap, bootstrapError) := readBootstrap F disk
  let (root, source, _) :=
    resolveStartupRoot home (defaultRootOf home) environmentValue bootstrap bootstrapError
  (root, source)

def configDirOf (F : BootstrapFormat) (disk : Disk) : Option Text :=
  (readBootstrap F disk).1.bind BootstrapFile.configDir

theorem startState_startup (F : BootstrapFormat) (environmentValue : Option Text) (home : Text)
    (disk : Disk) (fixedConfigDir : Text) (probe : Probe) :
    (startState F environmentValue home fixedConfigDir disk probe).snapshot.activeRoot
        = (startup F environmentValue home disk).1 ∧
      (startState F environmentValue home fixedConfigDir disk probe).snapshot.source
        = (startup F environmentValue home disk).2 :=
  ⟨rfl, rfl⟩

theorem startup_environment {root : Text}
    (henv : environmentRoot home environmentValue = some root) :
    startup F environmentValue home disk = (root, .environment) := by
  simp only [startup, resolveStartupRoot, henv]

theorem startup_broken {error : EngineError} (henv : environmentRoot home environmentValue = none)
    (hread : (readBootstrap F disk).2 = some error) :
    startup F environmentValue home disk = (defaultRootOf home, .user) := by
  simp only [startup, resolveStartupRoot, henv, hread]

theorem startup_user {root : Text} (henv : environmentRoot home environmentValue = none)
    (hread : (readBootstrap F disk).2 = none) (hroot : configDirOf F disk = some root) :
    startup F environmentValue home disk = (root, .user) := by
  rw [configDirOf] at hroot
  simp only [startup, resolveStartupRoot, henv, hread, hroot]

theorem startup_default (henv : environmentRoot home environmentValue = none)
    (hread : (readBootstrap F disk).2 = none) (hroot : configDirOf F disk = none) :
    startup F environmentValue home disk = (defaultRootOf home, .default) := by
  rw [configDirOf] at hroot
  simp only [startup, resolveStartupRoot, henv, hread, hroot]

theorem startup_congr {disk' : Disk} (hread : (readBootstrap F disk).2 = none)
    (hread' : (readBootstrap F disk').2 = none) (hroot : configDirOf F disk' = configDirOf F disk) :
    startup F environmentValue home disk' = startup F environmentValue home disk := by
  cases henv : environmentRoot home environmentValue with
  | some root => rw [startup_environment henv, startup_environment henv]
  | none =>
    cases hdir : configDirOf F disk with
    | some root => rw [startup_user henv hread' (hroot.trans hdir), startup_user henv hread hdir]
    | none => rw [startup_default henv hread' (hroot.trans hdir), startup_default henv hread hdir]

theorem isAbs_of_configDirOf {root : Text} (hroot : configDirOf F disk = some root) :
    isAbs root = true := by
  rw [configDirOf, readBootstrap] at hroot
  cases hparse : parseBootstrap F disk with
  | error error => simp [hparse] at hroot
  | ok bootstrap =>
    simp only [hparse, Option.bind_some] at hroot
    cases disk with
    | absent =>
      simp only [parseBootstrap, Except.ok.injEq] at hparse
      simp [← hparse] at hroot
    | unreadable detail => simp [parseBootstrap] at hparse
    | text raw =>
      rw [parseBootstrap] at hparse
      cases hraw : F.fromStr raw with
      | error detail => simp [hraw] at hparse
      | ok parsed =>
        simp only [hraw, checkBootstrap] at hparse
        split at hparse
        · cases hparse
        · rename_i hchecked
          cases hparse
          simpa [hroot] using (not_or.mp hchecked).2

theorem configDirOf_of_error {error : EngineError} (hread : (readBootstrap F disk).2 = some error) :
    configDirOf F disk = none := by
  rw [readBootstrap] at hread
  rw [configDirOf, readBootstrap]
  cases hparse : parseBootstrap F disk with
  | error error => rfl
  | ok bootstrap => simp [hparse] at hread

theorem readBootstrap_saved {configDir locale : Option Text} {raw : String}
    (hraw : F.toStringPretty ⟨1, configDir, locale⟩ = .ok raw)
    (habs : ∀ root, configDir = some root → isAbs root = true) :
    readBootstrap F (.text raw) = (some ⟨1, configDir, locale⟩, none) := by
  have hchecked : checkBootstrap ⟨1, configDir, locale⟩ = .ok ⟨1, configDir, locale⟩ := by
    rw [checkBootstrap, if_neg]
    rintro (hversion | hdir)
    · exact hversion rfl
    · cases configDir with
      | none => cases hdir
      | some root => simp [habs root rfl] at hdir
  rw [readBootstrap, parseBootstrap, F.fromStr_toStringPretty _ _ hraw]
  simp only [hchecked]

end Startup

/-! ## What a call does -/

section Calls

variable {F : BootstrapFormat} {w : World}

theorem writeAtomic_cases (disk : Disk) (content : String) (outcome : WriteOutcome) :
    (outcome = .written ∧ writeAtomic disk content outcome = (.text content, .ok ())) ∨
      outcome ≠ .written ∧ ∃ error, writeAtomic disk content outcome = (disk, .error error) := by
  cases outcome with
  | written => exact .inl ⟨rfl, rfl⟩
  | _ => exact .inr ⟨by simp, _, rfl⟩

theorem save_cases (checked : Except EngineError Unit) (configDir locale : Option Text)
    (outcome : WriteOutcome) (update : Snapshot → Snapshot) :
    (∃ error, save F w checked configDir locale outcome update = (w, .error error)) ∨
      ∃ raw, checked = .ok () ∧ F.toStringPretty ⟨1, configDir, locale⟩ = .ok raw ∧
        outcome = .written ∧
        save F w checked configDir locale outcome update
          = (w.put (.text raw) (update w.snapshot),
            .ok (w.put (.text raw) (update w.snapshot)).state.status) := by
  cases checked with
  | error error => exact .inl ⟨error, rfl⟩
  | ok checked =>
    rw [save, writeBootstrap]
    cases hraw : F.toStringPretty ⟨1, configDir, locale⟩ with
    | error detail => exact .inl ⟨_, rfl⟩
    | ok raw =>
      rcases writeAtomic_cases w.disk raw outcome with ⟨rfl, hwrite⟩ | ⟨_, error, hwrite⟩
      · exact .inr ⟨raw, rfl, rfl, rfl, by simp only [hwrite]⟩
      · exact .inl ⟨error, by simp only [hwrite]⟩

theorem ensureNotEnvironmentLocked_ok {snapshot : Snapshot}
    (h : ensureNotEnvironmentLocked snapshot = .ok ()) : snapshot.source ≠ .environment := by
  intro hsource
  rw [ensureNotEnvironmentLocked, if_pos hsource] at h
  cases h

theorem checkParent_ok {snapshot : Snapshot} {parent : Text} {parentIsDir : Bool} {probe : Probe}
    (h : checkParent snapshot parent parentIsDir probe = .ok ()) :
    snapshot.source ≠ .environment ∧ isAbs parent = true := by
  rw [checkParent] at h
  cases hlocked : ensureNotEnvironmentLocked snapshot with
  | error error => simp [hlocked, bind, Except.bind] at h
  | ok checked =>
    refine ⟨ensureNotEnvironmentLocked_ok hlocked, ?_⟩
    by_contra habs
    rw [Bool.not_eq_true] at habs
    simp [hlocked, habs, bind, Except.bind, throw, throwThe, MonadExceptOf.throw] at h

theorem checkReset_ok {snapshot : Snapshot} {probe : Probe}
    (h : checkReset snapshot probe = .ok ()) : snapshot.source ≠ .environment := by
  rw [checkReset] at h
  cases hlocked : ensureNotEnvironmentLocked snapshot with
  | error error => simp [hlocked, bind, Except.bind] at h
  | ok checked => exact ensureNotEnvironmentLocked_ok hlocked

theorem checkLocale_ok {locale : Text} :
    checkLocale locale = .ok () ↔ normalizeBootstrapLocale (some locale) ≠ none := by
  rw [checkLocale]
  cases normalizeBootstrapLocale (some locale) <;> simp

/-- What the calls leave behind that succeed. -/
inductive Saved (F : BootstrapFormat) (w : World) : Call → World → Prop where
  | selectParent {parent : Text} {parentIsDir : Bool} {probe : Probe} {raw : String}
      (hsource : w.snapshot.source ≠ .environment) (habs : isAbs parent = true)
      (hraw : F.toStringPretty ⟨1, some (push parent customConfigDirName), w.snapshot.locale⟩
        = .ok raw) :
      Saved F w (.selectParent parent parentIsDir probe .written)
        (w.put (.text raw)
          { w.snapshot with
            pendingRoot := resolvePendingRoot w.snapshot.activeRoot w.snapshot.source
              (push parent customConfigDirName) .user
            bootstrapConfigRoot := some (push parent customConfigDirName) })
  | resetToDefault {probe : Probe} {raw : String} (hsource : w.snapshot.source ≠ .environment)
      (hraw : F.toStringPretty ⟨1, none, w.snapshot.locale⟩ = .ok raw) :
      Saved F w (.resetToDefault probe .written)
        (w.put (.text raw)
          { w.snapshot with
            pendingRoot := resolvePendingRoot w.snapshot.activeRoot w.snapshot.source
              w.state.defaultRoot .default
            bootstrapConfigRoot := none })
  | setLocale {locale : Text} {raw : String}
      (hlocale : normalizeBootstrapLocale (some locale) ≠ none)
      (hraw : F.toStringPretty ⟨1, w.snapshot.bootstrapConfigRoot, some locale⟩ = .ok raw) :
      Saved F w (.setLocale locale .written)
        (w.put (.text raw) { w.snapshot with locale := some locale })

/-- **What a call can do.** It fails without a trace, or it has saved. -/
theorem perform_cases (F : BootstrapFormat) (w : World) (call : Call) :
    (∃ error, perform F w call = (w, .error error)) ∨
      ∃ w', perform F w call = (w', .ok w'.state.status) ∧ Saved F w call w' := by
  cases call with
  | selectParent parent parentIsDir probe outcome =>
    rw [perform, selectParent]
    refine (save_cases _ _ _ _ _).imp id ?_
    rintro ⟨raw, hchecked, hraw, rfl, hsave⟩
    obtain ⟨hsource, habs⟩ := checkParent_ok hchecked
    exact ⟨_, hsave, .selectParent hsource habs hraw⟩
  | resetToDefault probe outcome =>
    rw [perform, resetToDefault]
    refine (save_cases _ _ _ _ _).imp id ?_
    rintro ⟨raw, hchecked, hraw, rfl, hsave⟩
    exact ⟨_, hsave, .resetToDefault (checkReset_ok hchecked) hraw⟩
  | setLocale locale outcome =>
    rw [perform, setLocale]
    refine (save_cases _ _ _ _ _).imp id ?_
    rintro ⟨raw, hchecked, hraw, rfl, hsave⟩
    exact ⟨_, hsave, .setLocale (checkLocale_ok.mp hchecked) hraw⟩

theorem perform_world (F : BootstrapFormat) (w : World) (call : Call) :
    (perform F w call).1 = w ∨ Saved F w call (perform F w call).1 := by
  rcases perform_cases F w call with ⟨error, hfail⟩ | ⟨w', hok, hsaved⟩
  · exact .inl (by rw [hfail])
  · exact .inr (by rw [hok]; exact hsaved)

theorem Saved.active {call : Call} {w' : World} (h : Saved F w call w') :
    w'.snapshot.activeRoot = w.snapshot.activeRoot ∧ w'.snapshot.source = w.snapshot.source ∧
      w'.state.defaultRoot = w.state.defaultRoot := by
  cases h <;> exact ⟨rfl, rfl, rfl⟩

end Calls

/-! ## What the snapshot knows about the file -/

/-- **What every run keeps.** The environment decides alone; the snapshot has the directory that the
file names; and a file that cannot be read is that of the start. -/
structure Tracked (F : BootstrapFormat) (environmentValue : Option Text) (home : Text) (w : World) :
    Prop where
  defaultRoot : w.state.defaultRoot = defaultRootOf home
  locked : ∀ root, environmentRoot home environmentValue = some root →
    w.snapshot.activeRoot = root ∧ w.snapshot.source = .environment
  unlocked : environmentRoot home environmentValue = none → w.snapshot.source ≠ .environment
  copied : configDirOf F w.disk = w.snapshot.bootstrapConfigRoot
  broken : ∀ error, (readBootstrap F w.disk).2 = some error →
    environmentRoot home environmentValue = none →
    w.snapshot.activeRoot = defaultRootOf home ∧ w.snapshot.source = .user

section Runs

variable {F : BootstrapFormat} {environmentValue : Option Text} {home : Text} {w : World}

theorem tracked_startState (fixedConfigDir : Text) (disk : Disk) (probe : Probe) :
    Tracked F environmentValue home
      ⟨disk, startState F environmentValue home fixedConfigDir disk probe⟩ := by
  obtain ⟨hactive, hsource⟩ :=
    startState_startup F environmentValue home disk fixedConfigDir probe
  refine ⟨rfl, fun root henv => ?_, fun henv => ?_, rfl, fun error hread henv => ?_⟩
  · rw [World.snapshot, hactive, hsource, startup_environment henv]
    exact ⟨rfl, rfl⟩
  · rw [World.snapshot, hsource]
    cases hread : (readBootstrap F disk).2 with
    | some error => simp [startup_broken henv hread]
    | none =>
      cases hroot : configDirOf F disk with
      | some root => simp [startup_user henv hread hroot]
      | none => simp [startup_default henv hread hroot]
  · rw [World.snapshot, hactive, hsource, startup_broken henv hread]
    exact ⟨rfl, rfl⟩

theorem Saved.readBootstrap {call : Call} {w' : World} (h : Saved F w call w')
    (hw : Tracked F environmentValue home w) :
    (Config.readBootstrap F w'.disk).2 = none ∧
      configDirOf F w'.disk = w'.snapshot.bootstrapConfigRoot := by
  have hsaved : ∀ {configDir locale : Option Text} {raw : String},
      F.toStringPretty ⟨1, configDir, locale⟩ = .ok raw →
      (∀ root, configDir = some root → isAbs root = true) →
      (Config.readBootstrap F (.text raw)).2 = none ∧ configDirOf F (.text raw) = configDir := by
    intro configDir locale raw hraw habs
    rw [configDirOf, readBootstrap_saved hraw habs]
    exact ⟨rfl, rfl⟩
  cases h with
  | selectParent hsource habs hraw =>
    refine hsaved hraw fun root hroot => ?_
    rw [← Option.some.inj hroot, isAbs_push rfl]
    exact habs
  | resetToDefault hsource hraw => exact hsaved hraw fun root hroot => by cases hroot
  | setLocale hlocale hraw =>
    exact hsaved hraw fun root hroot => isAbs_of_configDirOf (hw.copied.trans hroot)

/-- **The step lemma.** -/
theorem Tracked.step (hw : Tracked F environmentValue home w) (call : Call) :
    Tracked F environmentValue home (perform F w call).1 := by
  rcases perform_world F w call with hsame | hsaved
  · rw [hsame]
    exact hw
  · obtain ⟨hactive, hsource, hdefault⟩ := hsaved.active
    obtain ⟨hread, hcopied⟩ := hsaved.readBootstrap hw
    refine ⟨hdefault.trans hw.defaultRoot, ?_, ?_, hcopied, ?_⟩
    · rw [hactive, hsource]
      exact hw.locked
    · rw [hsource]
      exact hw.unlocked
    · intro error herror
      rw [hread] at herror
      cases herror

theorem Tracked.environmentRoot_eq_none (hw : Tracked F environmentValue home w)
    (hsource : w.snapshot.source ≠ .environment) :
    environmentRoot home environmentValue = none := by
  cases henv : environmentRoot home environmentValue with
  | none => rfl
  | some root => exact absurd (hw.locked root henv).2 hsource

theorem Saved.startup {call : Call} {w' : World} (h : Saved F w call w')
    (hw : Tracked F environmentValue home w)
    (henv : environmentRoot home environmentValue = none) :
    Config.startup F environmentValue home w'.disk
      = match w'.snapshot.bootstrapConfigRoot with
        | some root => (root, .user)
        | none => (defaultRootOf home, .default) := by
  obtain ⟨hread, hcopied⟩ := h.readBootstrap hw
  cases hroot : w'.snapshot.bootstrapConfigRoot with
  | some root => exact startup_user henv hread (hcopied.trans hroot)
  | none => exact startup_default henv hread (hcopied.trans hroot)

theorem Tracked.startup_setLocale (hw : Tracked F environmentValue home w) (locale : Text)
    (outcome : WriteOutcome) :
    (startup F environmentValue home (setLocale F w locale outcome).1.disk).1
      = (startup F environmentValue home w.disk).1 := by
  rcases perform_cases F w (.setLocale locale outcome) with ⟨error, hfail⟩ | ⟨w', hok, hsaved⟩
  · rw [perform] at hfail
    rw [hfail]
  rw [perform] at hok
  rw [hok]
  cases henv : environmentRoot home environmentValue with
  | some root => rw [startup_environment henv, startup_environment henv]
  | none =>
    have hkept : w'.snapshot.bootstrapConfigRoot = configDirOf F w.disk := by
      cases hsaved
      exact hw.copied.symm
    rw [hsaved.startup hw henv, hkept]
    cases hread : (readBootstrap F w.disk).2 with
    | some error => rw [configDirOf_of_error hread, startup_broken henv hread]
    | none =>
      cases hroot : configDirOf F w.disk with
      | some root => rw [startup_user henv hread hroot]
      | none => rw [startup_default henv hread hroot]

/-! ## The pending directory -/

theorem resolvePendingRoot_eq_some {activeRoot targetRoot p : Text}
    {activeSource targetSource : ConfigDirectorySource} :
    resolvePendingRoot activeRoot activeSource targetRoot targetSource = some p ↔
      p = targetRoot ∧ (samePath activeRoot targetRoot = false ∨ activeSource ≠ targetSource) := by
  rw [resolvePendingRoot]
  by_cases hpath : samePath activeRoot targetRoot = true
  · by_cases hsource : activeSource = targetSource
    · simp [hpath, hsource]
    · simp [hpath, hsource, eq_comm]
  · simp [hpath, eq_comm]

def pendingOf (F : BootstrapFormat) (environmentValue : Option Text) (home : Text) (w : World) :
    Option Text :=
  resolvePendingRoot w.snapshot.activeRoot w.snapshot.source
    (startup F environmentValue home w.disk).1 (startup F environmentValue home w.disk).2

theorem pendingOf_startState (fixedConfigDir : Text) (disk : Disk) (probe : Probe) :
    pendingOf F environmentValue home
      ⟨disk, startState F environmentValue home fixedConfigDir disk probe⟩ = none := by
  obtain ⟨hactive, hsource⟩ :=
    startState_startup F environmentValue home disk fixedConfigDir probe
  rw [pendingOf, World.snapshot, hactive, hsource, resolvePendingRoot, if_pos]
  exact ⟨samePath_refl _, rfl⟩

/-- **Only a locale over a broken file loses track.** -/
theorem Tracked.pendingOf_perform_iff (hw : Tracked F environmentValue home w)
    (hexact : w.snapshot.pendingRoot = pendingOf F environmentValue home w) (call : Call) :
    (perform F w call).1.snapshot.pendingRoot
        = pendingOf F environmentValue home (perform F w call).1 ↔
      SparesBroken F w call := by
  rcases perform_cases F w call with ⟨error, hfail⟩ | ⟨w', hok, hsaved⟩
  · rw [hfail]
    refine iff_of_true hexact ?_
    cases call with
    | setLocale locale outcome =>
      -- a call that meets all conditions does not fail
      intro hlocale hserialized houtcome
      cases hraw : F.toStringPretty ⟨1, w.snapshot.bootstrapConfigRoot, some locale⟩ with
      | error detail => simp [hraw, Except.isOk, Except.toBool] at hserialized
      | ok raw =>
        subst houtcome
        simp [perform, setLocale, checkLocale_ok.mpr hlocale, save, writeBootstrap, hraw,
          writeAtomic] at hfail
    | _ => trivial
  rw [hok]
  have hstart := hsaved.startup hw
  have hfile := hsaved.readBootstrap hw
  cases hsaved with
  | selectParent hsource habs hraw =>
    refine iff_of_true ?_ trivial
    rw [pendingOf, hstart (hw.environmentRoot_eq_none hsource)]
    rfl
  | resetToDefault hsource hraw =>
    refine iff_of_true ?_ trivial
    rw [pendingOf, hstart (hw.environmentRoot_eq_none hsource), ← hw.defaultRoot]
    rfl
  | @setLocale locale raw hlocale hraw =>
    have hspares : SparesBroken F w (.setLocale locale .written) ↔
        w.snapshot.source = .environment ∨ (readBootstrap F w.disk).2 = none :=
      ⟨fun h => h hlocale (by rw [hraw]; rfl) rfl, fun h _ _ _ => h⟩
    rw [hspares]
    refine (iff_of_eq (congrArg (· = _) hexact)).trans ?_
    cases henv : environmentRoot home environmentValue with
    | some root =>
      refine iff_of_true ?_ (.inl (hw.locked root henv).2)
      rw [pendingOf, pendingOf, startup_environment henv, startup_environment henv]
      rfl
    | none =>
      cases hread : (readBootstrap F w.disk).2 with
      | none =>
        obtain ⟨hread', hcopied⟩ := hfile
        refine iff_of_true ?_ (.inr rfl)
        rw [pendingOf, pendingOf, startup_congr hread hread' (hcopied.trans hw.copied.symm)]
        rfl
      | some error =>
        -- the default was active because of the file, and now it is chosen
        obtain ⟨hactive, hsource⟩ := hw.broken error hread henv
        refine iff_of_false ?_ (by simp [hsource])
        have hroot : w.snapshot.bootstrapConfigRoot = none :=
          hw.copied.symm.trans (configDirOf_of_error hread)
        rw [pendingOf, pendingOf, startup_broken henv hread, hstart henv]
        simp [World.put, hroot, hactive, hsource, resolvePendingRoot]

end Runs

/-! ## Runs -/

section Machine

variable {F : BootstrapFormat} {S : Surroundings} {w : World}

theorem exists_startState (h : (machine F S).init w) :
    ∃ home fixedConfigDir disk probe, S.homeDir = .ok home ∧ S.appConfigDir = .ok fixedConfigDir ∧
      w = ⟨disk, startState F S.environmentValue home fixedConfigDir disk probe⟩ := by
  obtain ⟨disk, state⟩ := w
  obtain ⟨probe, hstart⟩ := h
  rw [initializeConfigDirectoryState] at hstart
  cases hhome : S.homeDir with
  | error detail => simp [hhome] at hstart
  | ok home =>
    cases hdir : S.appConfigDir with
    | error detail => simp [hhome, hdir] at hstart
    | ok fixedConfigDir =>
      rw [hhome, hdir] at hstart
      exact ⟨home, fixedConfigDir, disk, probe, rfl, rfl, congrArg _ (Except.ok.inj hstart).symm⟩

/-- **What every run keeps**, below the home directory that the process has found. -/
theorem tracked_of_reachable (h : (machine F S).Reachable w) :
    ∃ home fixedConfigDir, S.homeDir = .ok home ∧ S.appConfigDir = .ok fixedConfigDir ∧
      Tracked F S.environmentValue home w := by
  induction h with
  | init hinit =>
    obtain ⟨home, fixedConfigDir, disk, probe, hhome, hdir, rfl⟩ := exists_startState hinit
    exact ⟨home, fixedConfigDir, hhome, hdir, tracked_startState _ _ _⟩
  | step _ hstep ih =>
    obtain ⟨home, fixedConfigDir, hhome, hdir, hw⟩ := ih
    rw [hstep]
    exact ⟨home, fixedConfigDir, hhome, hdir, hw.step _⟩

theorem restarts_iff {home fixedConfigDir root : Text} {source : ConfigDirectorySource}
    (hhome : S.homeDir = .ok home) (hdir : S.appConfigDir = .ok fixedConfigDir) :
    Restarts F S w root source ↔ startup F S.environmentValue home w.disk = (root, source) := by
  have hstart : ∀ probe, initializeConfigDirectoryState F S w.disk probe
      = .ok (startState F S.environmentValue home fixedConfigDir w.disk probe) := by
    intro probe
    rw [initializeConfigDirectoryState, hhome, hdir]
  constructor
  · intro h
    obtain ⟨next, hnext, hroot, hsource⟩ :=
      h ⟨true, .ok (), true, .ok (), .ok (), .ok ()⟩
    rw [hstart, Except.ok.injEq] at hnext
    subst hnext
    exact Prod.ext hroot hsource
  · intro h probe
    exact ⟨_, hstart probe, congrArg Prod.fst h, congrArg Prod.snd h⟩

theorem pendingExact_iff {home fixedConfigDir : Text} (hhome : S.homeDir = .ok home)
    (hdir : S.appConfigDir = .ok fixedConfigDir) :
    PendingExact F S w ↔ w.snapshot.pendingRoot = pendingOf F S.environmentValue home w := by
  rw [PendingExact, Option.ext_iff]
  constructor
  · rintro ⟨root, source, hrestart, hpending⟩ p
    rw [restarts_iff hhome hdir] at hrestart
    rw [pendingOf, hrestart, resolvePendingRoot_eq_some]
    exact hpending p
  · intro h
    refine ⟨_, _, (restarts_iff hhome hdir).mpr rfl, fun p => ?_⟩
    rw [← resolvePendingRoot_eq_some]
    exact h p

theorem pendingExact_init (h : (machine F S).init w) : PendingExact F S w := by
  obtain ⟨home, fixedConfigDir, disk, probe, hhome, hdir, rfl⟩ := exists_startState h
  exact (pendingExact_iff hhome hdir).mpr (pendingOf_startState _ _ _).symm

/-- **The step lemma.** An exact pending directory stays exact, but for a locale over a broken
file. -/
theorem pendingExact_perform_iff (hw : (machine F S).Reachable w) (hexact : PendingExact F S w)
    (call : Call) : PendingExact F S (perform F w call).1 ↔ SparesBroken F w call := by
  obtain ⟨home, fixedConfigDir, hhome, hdir, htracked⟩ := tracked_of_reachable hw
  rw [pendingExact_iff hhome hdir] at hexact ⊢
  exact htracked.pendingOf_perform_iff hexact call

/-- **The run lemma.** -/
theorem pendingExact_of_reachable (h : ((machine F S).restrict (SparesBroken F)).Reachable w) :
    PendingExact F S w := by
  induction h with
  | init h => exact pendingExact_init h
  | step h hstep ih =>
    rw [hstep.2]
    exact (pendingExact_perform_iff h.of_restrict ih _).mpr hstep.1

theorem active_of_run {w' : World} {calls : List Call} (h : (machine F S).Run w calls w') :
    w'.snapshot.activeRoot = w.snapshot.activeRoot ∧ w'.snapshot.source = w.snapshot.source := by
  induction h with
  | nil => exact ⟨rfl, rfl⟩
  | @snoc calls w₁ w₂ call _ hstep ih =>
    rw [hstep]
    rcases perform_world F w₁ call with hsame | hsaved
    · rw [hsame]
      exact ih
    · obtain ⟨hactive, hsource, -⟩ := hsaved.active
      exact ⟨hactive.trans ih.1, hsource.trans ih.2⟩

theorem perform_error {call : Call} {error : EngineError}
    (h : (perform F w call).2 = .error error) : (perform F w call).1 = w := by
  rcases perform_cases F w call with ⟨error', hfail⟩ | ⟨w', hok, hsaved⟩
  · rw [hfail]
  · rw [hok] at h
    cases h

/-- **The choice of the directory is kept.** What is active never changes; a call that fails changes
nothing; a locale keeps the directory of the next start. The pending directory is exact in every
run that saves no locale over a broken file, and such a call is the only step that loses it. -/
theorem choice_kept (F : BootstrapFormat) (S : Surroundings) :
    (∀ w calls w', (machine F S).init w → (machine F S).Run w calls w' →
      w'.snapshot.activeRoot = w.snapshot.activeRoot ∧ w'.snapshot.source = w.snapshot.source) ∧
    (∀ w, (machine F S).Reachable w → ∀ call error, (perform F w call).2 = .error error →
      (perform F w call).1.state = w.state ∧ (perform F w call).1.disk = w.disk) ∧
    (∀ w, (machine F S).Reachable w → ∀ locale outcome root source, Restarts F S w root source →
      ∃ source', Restarts F S (perform F w (.setLocale locale outcome)).1 root source') ∧
    (∀ w, ((machine F S).restrict (SparesBroken F)).Reachable w → PendingExact F S w) ∧
    ∀ w, (machine F S).Reachable w → PendingExact F S w → ∀ call,
      PendingExact F S (perform F w call).1 ↔ SparesBroken F w call := by
  refine ⟨fun w calls w' _ hrun => active_of_run hrun, fun w _ call error herror => ?_,
    fun w hw locale outcome root source hrestart => ?_, fun w => pendingExact_of_reachable,
    fun w => pendingExact_perform_iff⟩
  · rw [perform_error herror]
    exact ⟨rfl, rfl⟩
  · obtain ⟨home, fixedConfigDir, hhome, hdir, htracked⟩ := tracked_of_reachable hw
    rw [restarts_iff hhome hdir] at hrestart
    refine ⟨_, (restarts_iff hhome hdir).mpr (Prod.ext ?_ rfl)⟩
    rw [perform, htracked.startup_setLocale locale outcome, hrestart]

end Machine

/-! ## A bootstrap file that was emptied -/

def sampleBootstrap : BootstrapFile := ⟨1, none, some "en-US".toList⟩

def sampleRaw : String :=
  "\x7b\n  \"version\": 1,\n  \"configDir\": null,\n  \"locale\": \"en-US\"\n\x7d"

/-- The JSON form, as far as it is needed. -/
def sampleFormat : BootstrapFormat where
  toStringPretty bootstrap :=
    if bootstrap = sampleBootstrap then .ok sampleRaw else .error "not in the sample"
  fromStr raw :=
    if raw = sampleRaw then .ok sampleBootstrap
    else .error "EOF while parsing a value at line 1 column 0"
  fromStr_toStringPretty bootstrap raw h := by
    split at h
    · rename_i hbootstrap
      rw [← Except.ok.inj h, hbootstrap, if_pos rfl]
    · cases h

def sampleSurroundings : Surroundings :=
  ⟨.ok "/home/ann".toList, .ok "/home/ann/.config/fluxterm".toList, none⟩

def sampleProbe : Probe := ⟨true, .ok (), true, .ok (), .ok (), .ok ()⟩

def sampleWorld : World :=
  ⟨.text "",
    startState sampleFormat none "/home/ann".toList "/home/ann/.config/fluxterm".toList (.text "")
      sampleProbe⟩

/-- The language is then chosen in the recovery screen: the next start takes the default directory
as such, but none is shown as pending. -/
theorem sampleWorld_not_exact :
    ¬∀ w, (machine sampleFormat sampleSurroundings).Reachable w →
      PendingExact sampleFormat sampleSurroundings w := by
  intro h
  have hreach : (machine sampleFormat sampleSurroundings).Reachable sampleWorld :=
    .init ⟨sampleProbe, rfl⟩
  have hspares := (pendingExact_perform_iff hreach (h _ hreach)
    (.setLocale "en-US".toList .written)).mp (h _ (hreach.step rfl))
  rcases hspares (by decide) (by decide) rfl with hsource | hread
  · cases hsource
  · cases hread

end FluxTerm.Config
