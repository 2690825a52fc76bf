import FluxTerm.Config.Directory
import FluxTerm.Lib.JsNumber
import FluxTerm.Lib.Revision

/-!
# FluxTerm — the lock screen

`commands/lock_screen.rs` and `useLockScreen.ts`: the process keeps whether the application is
locked, with a revision; the main window changes it by commands, and every window gets it by
events, by the answer to its first question, and the main window by the answers to its commands.
The commands run one after the other; everything that goes to a window arrives in any order.

* **`lockScreen_kept`** — what holds in every run, and when windows and callers are right.
-/

namespace FluxTerm.LockScreen

open Lib Engine Config

/-! ## The process -/

structure LockScreenStatus where
  locked : Bool
  revision : ℕ
deriving DecidableEq

def LockScreenStatus.received (status : LockScreenStatus) : LockScreenStatus :=
  { status with revision := nearestNumber status.revision }

structure LockScreenConfig where
  version : UInt32
  passwordHash : Option Text

structure LockScreenPrimitives where
  fromStr : String → Except String LockScreenConfig
  toStringPretty : LockScreenConfig → Except String String
  hashPassword : Text → Text → Except String Text
  /-- `PasswordHash::new`. -/
  parseHash : Text → Except String Text
  verifyPassword : Text → Text → Bool

inductive Broadcast (ι : Type*) where
  | delivered
  | failed (detail : String) (reached : ι → Bool)

def Broadcast.isDelivered {ι : Type*} : Broadcast ι → Bool
  | .delivered => true
  | .failed _ _ => false

structure CommandEnv (ι : Type*) where
  /-- An error of `resolve_lock_screen_config_path`. -/
  pathFault : Option EngineError
  /-- An error of `read_to_string`. -/
  readFault : Option String
  salt : Except String Text
  write : WriteOutcome
  broadcast : Broadcast ι

inductive LockScreenCommand where
  | lock
  | unlock (password : Text)
  | passwordSet (password : Text)

/-- How far a window has come. -/
inductive WindowPhase where
  | unopened
  /-- `listen` is called. -/
  | mounted
  /-- `listen` has failed. -/
  | deaf
  | registered
  /-- `lock_screen_status` is called. -/
  | asking
  | settled
  | closed
deriving DecidableEq

/-- A window; what its view shows is `status`. -/
structure LockScreenWindow where
  phase : WindowPhase
  view : View LockScreenStatus

namespace LockScreenWindow

variable (window : LockScreenWindow)

def status : Option LockScreenStatus := window.view.shown

def locked : Bool := (window.status.map LockScreenStatus.locked).getD true

def isOpen : Bool := window.phase ≠ .unopened ∧ window.phase ≠ .closed

def listens : Bool :=
  match window.phase with
  | .registered | .asking | .settled => true
  | _ => false

end LockScreenWindow

/-- The process with its windows; `history` has the states that it has been in. -/
structure LockScreenApp (ι : Type*) where
  status : LockScreenStatus
  disk : Disk
  windows : ι → LockScreenWindow
  history : List LockScreenStatus

variable {ι : Type*}

namespace LockScreenApp

variable (app : LockScreenApp ι)

def setLocked (locked : Bool) : LockScreenApp ι :=
  if app.status.locked ≠ locked then
    let status := ⟨locked, min (app.status.revision + 1) (2 ^ 64 - 1)⟩
    { app with status, history := status :: app.history }
  else app

def tell (status : LockScreenStatus) (dest : ι → Bool) : LockScreenApp ι :=
  { app with
    windows := fun w =>
      if dest w then
        { app.windows w with view := (app.windows w).view.send status.received }
      else app.windows w }

def reached : Broadcast ι → ι → Bool
  | .delivered, w => (app.windows w).listens
  | .failed _ reached, w => (app.windows w).listens && reached w

/-- `emit_status`, and the end of a command behind it. -/
def emitStatus (broadcast : Broadcast ι) :
    LockScreenApp ι × Except EngineError LockScreenStatus :=
  (app.tell app.status (app.reached broadcast),
    match broadcast with
    | .delivered => .ok app.status
    | .failed detail _ =>
      .error (.withDetail "lock_screen_event_failed" "Failed to broadcast the lock screen state"
        detail))

end LockScreenApp

/-! ## Passwords -/

def readConfig (P : LockScreenPrimitives) (env : CommandEnv ι) (disk : Disk) :
    Except EngineError LockScreenConfig :=
  match env.pathFault, disk, env.readFault with
  | some error, _, _ => .error error
  | none, .absent, _ => .ok ⟨1, none⟩
  | none, .unreadable detail, _ | none, .text _, some detail =>
    .error (.withDetail "lock_screen_config_read_failed" "Failed to read the lock screen settings"
      detail)
  | none, .text raw, none =>
    match P.fromStr raw with
    | .error detail =>
      .error (.withDetail "lock_screen_config_parse_failed"
        "Failed to parse the lock screen settings" detail)
    | .ok config => .ok config

/-- `LOCK_SCREEN_PASSWORD_INVALID_CODE` with its message. -/
def passwordInvalid : EngineError :=
  .new "lock_screen_password_invalid" "Lock screen password is invalid"

def verifyPassword (P : LockScreenPrimitives) (config : LockScreenConfig) (password : Text) :
    Except EngineError Unit :=
  match config.passwordHash with
  | none => if password = [] then .ok () else .error passwordInvalid
  | some encoded =>
    match P.parseHash encoded with
    | .error detail =>
      .error (.withDetail "lock_screen_config_parse_failed"
        "Failed to parse the lock screen password hash" detail)
    | .ok hash => if P.verifyPassword password hash then .ok () else .error passwordInvalid

def hashPassword (P : LockScreenPrimitives) (env : CommandEnv ι) (password : Text) :
    Except EngineError (Option Text) :=
  if password = [] then .ok none
  else
    match env.salt with
    | .error detail =>
      .error (.withDetail "lock_screen_password_hash_failed"
        "Failed to generate the lock screen password salt" detail)
    | .ok salt =>
      match P.hashPassword password salt with
      | .error detail =>
        .error (.withDetail "lock_screen_password_hash_failed"
          "Failed to hash the lock screen password" detail)
      | .ok hash => .ok (some hash)

def writeConfig (P : LockScreenPrimitives) (env : CommandEnv ι) (disk : Disk) (password : Text) :
    Disk × Except EngineError Unit :=
  match hashPassword P env password with
  | .error error => (disk, .error error)
  | .ok passwordHash =>
    match P.toStringPretty ⟨1, passwordHash⟩ with
    | .error detail =>
      (disk, .error (.withDetail "lock_screen_config_write_failed"
        "Failed to serialize the lock screen settings" detail))
    | .ok content =>
      match env.pathFault with
      | some error => (disk, .error error)
      | none => writeAtomic disk content env.write

/-! ## Commands -/

/-- `lock_screen`, in the main window. -/
def lockScreen (app : LockScreenApp ι) (env : CommandEnv ι) :
    LockScreenApp ι × Except EngineError LockScreenStatus :=
  (app.setLocked true).emitStatus env.broadcast

/-- What `unlock_screen` checks. -/
def checkPassword (P : LockScreenPrimitives) (env : CommandEnv ι) (disk : Disk)
    (password : Text) : Except EngineError Unit :=
  (readConfig P env disk).bind (verifyPassword P · password)

/-- `unlock_screen`, in the main window. -/
def unlockScreen (P : LockScreenPrimitives) (app : LockScreenApp ι) (env : CommandEnv ι)
    (password : Text) : LockScreenApp ι × Except EngineError LockScreenStatus :=
  match checkPassword P env app.disk password with
  | .error error => (app, .error error)
  | .ok () => (app.setLocked false).emitStatus env.broadcast

/-- `lock_screen_password_set`, in the main window. -/
def lockScreenPasswordSet (P : LockScreenPrimitives) (app : LockScreenApp ι) (env : CommandEnv ι)
    (password : Text) : LockScreenApp ι × Except EngineError LockScreenStatus :=
  if app.status.locked then
    (app, .error (.new "lock_screen_password_change_locked"
      "Exit the lock screen before changing its password"))
  else
    match writeConfig P env app.disk password with
    | (disk, .error error) => ({ app with disk }, .error error)
    | (disk, .ok ()) => ({ app with disk }, .ok app.status)

/-- A command of a window; `main` is the window with the label `main`. -/
def LockScreenApp.command [DecidableEq ι] (P : LockScreenPrimitives) (main : ι)
    (app : LockScreenApp ι) (w : ι) (command : LockScreenCommand) (env : CommandEnv ι) :
    LockScreenApp ι × Except EngineError LockScreenStatus :=
  if w ≠ main then
    (app, .error (.new "lock_screen_main_window_required"
      "The lock screen can only be changed from the main window"))
  else
    match command with
    | .lock => lockScreen app env
    | .unlock password => unlockScreen P app env password
    | .passwordSet password => lockScreenPasswordSet P app env password

/-! ## Windows -/

/-- What can happen. -/
inductive LockScreenEvent (ι : Type*) where
  /-- The hook is mounted and calls `listen`. -/
  | openWindow (w : ι)
  | registered (w : ι)
  | listenFailed (w : ι)
  /-- `listen` has resolved; `lock_screen_status` is called. -/
  | listening (w : ι)
  /-- `lock_screen_status`. -/
  | answered (w : ι)
  | statusFailed (w : ι)
  | command (w : ι) (command : LockScreenCommand) (env : CommandEnv ι)
  /-- `applyStatus`, with the status at `i` of those on their way. -/
  | applyStatus (w : ι) (i : ℕ)
  | closeWindow (w : ι)

namespace LockScreenApp

variable [DecidableEq ι]

def put (app : LockScreenApp ι) (w : ι) (window : LockScreenWindow) : LockScreenApp ι :=
  { app with windows := Function.update app.windows w window }

def goTo (app : LockScreenApp ι) (w : ι) (phase : WindowPhase) : LockScreenApp ι :=
  app.put w { app.windows w with phase }

/-- A window that is at `phase` goes on. -/
def move (app : LockScreenApp ι) (w : ι) (phase next : WindowPhase) : Option (LockScreenApp ι) :=
  if (app.windows w).phase = phase then some (app.goTo w next) else none

def respond (app : LockScreenApp ι) (w : ι) :
    Except EngineError LockScreenStatus → LockScreenApp ι
  | .ok status => app.tell status (· = w)
  | .error _ => app

/-- One step of the application. -/
def step (P : LockScreenPrimitives) (main : ι) (app : LockScreenApp ι) :
    LockScreenEvent ι → Option (LockScreenApp ι)
  | .openWindow w => app.move w .unopened .mounted
  | .registered w => app.move w .mounted .registered
  | .listenFailed w => app.move w .mounted .deaf
  | .listening w => app.move w .registered .asking
  | .answered w => (app.move w .asking .settled).map (·.tell app.status (· = w))
  | .statusFailed w => app.move w .asking .settled
  | .command w command env =>
    if (app.windows w).isOpen then
      let (app', result) := app.command P main w command env
      some (app'.respond w result)
    else none
  | .applyStatus w i =>
    ((app.windows w).view.deliver LockScreenStatus.revision i).map fun view =>
      app.put w { app.windows w with view }
  | .closeWindow w =>
    if (app.windows w).isOpen then
      some (app.put w ⟨.closed, { (app.windows w).view with inbox := [] }⟩)
    else none

def start (disk : Disk) : LockScreenApp ι where
  status := ⟨false, 0⟩
  disk
  windows _ := ⟨.unopened, .empty⟩
  history := [⟨false, 0⟩]

end LockScreenApp

def lockScreenMachine [DecidableEq ι] (P : LockScreenPrimitives) (main : ι) (disk : Disk) :
    Machine (LockScreenApp ι) (LockScreenEvent ι) :=
  .ofStep (.start disk) (LockScreenApp.step P main)

/-! ## What a command does -/

def Changes [DecidableEq ι] (P : LockScreenPrimitives) (main : ι) (app : LockScreenApp ι) (w : ι)
    (env : CommandEnv ι) : LockScreenCommand → Prop
  | .lock => w = main ∧ app.status.locked = false
  | .unlock password =>
    w = main ∧ app.status.locked = true ∧ checkPassword P env app.disk password = .ok ()
  | .passwordSet _ => False

variable {app app' : LockScreenApp ι}

namespace LockScreenApp

theorem tell_window (app : LockScreenApp ι) (status : LockScreenStatus) (dest : ι → Bool) (w : ι) :
    ((app.tell status dest).windows w).phase = (app.windows w).phase ∧
      ((app.tell status dest).windows w).view = if dest w then
        (app.windows w).view.send status.received else (app.windows w).view := by
  show (if dest w then _ else _ : LockScreenWindow).phase = _ ∧
    (if dest w then _ else _ : LockScreenWindow).view = _
  by_cases h : dest w = true
  · rw [if_pos h, if_pos h]
    exact ⟨rfl, rfl⟩
  · rw [if_neg h, if_neg h]
    exact ⟨rfl, rfl⟩

@[simp] theorem setLocked_disk (locked : Bool) : (app.setLocked locked).disk = app.disk := by
  unfold setLocked
  split
  · rfl
  · rfl

@[simp] theorem setLocked_windows (locked : Bool) :
    (app.setLocked locked).windows = app.windows := by
  unfold setLocked
  split
  · rfl
  · rfl

theorem setLocked_locked (locked : Bool) : (app.setLocked locked).status.locked = locked := by
  unfold setLocked
  split
  · rfl
  · rename_i h
    exact not_not.mp h

theorem setLocked_eq_self {locked : Bool} (h : app.status.locked = locked) :
    app.setLocked locked = app := if_neg (not_not.mpr h)

end LockScreenApp

theorem writeConfig_error {P : LockScreenPrimitives} {env : CommandEnv ι} {disk disk' : Disk}
    {password : Text} {error : EngineError}
    (h : writeConfig P env disk password = (disk', .error error)) : disk' = disk := by
  unfold writeConfig at h
  split at h
  · cases h
    rfl
  · split at h
    · cases h
      rfl
    · split at h
      · cases h
        rfl
      · cases hwrite : env.write with
        | written =>
          rw [hwrite] at h
          cases h
        | _ =>
          rw [hwrite] at h
          cases h
          rfl

theorem tell_shown (status : LockScreenStatus) (dest : ι → Bool) (v : ι) :
    ((app.tell status dest).windows v).status = (app.windows v).status := by
  rw [LockScreenWindow.status, (app.tell_window status dest v).2]
  split
  · rfl
  · rfl

/-- All that a window knows of was a status of the process. -/
structure LockScreenApp.Genuine (app : LockScreenApp ι) : Prop where
  current : app.status ∈ app.history
  known : ∀ w, ∀ status ∈ (app.windows w).view.known,
    ∃ past ∈ app.history, status = past.received

theorem LockScreenApp.Genuine.tell (h : app.Genuine) (dest : ι → Bool) :
    (app.tell app.status dest).Genuine where
  current := h.current
  known v status hstatus := by
    rw [(app.tell_window app.status dest v).2] at hstatus
    split at hstatus
    · rw [View.known_send] at hstatus
      rcases List.mem_append.mp hstatus with hstatus | hstatus
      · exact h.known v status hstatus
      · exact ⟨app.status, h.current, List.mem_singleton.mp hstatus⟩
    · exact h.known v status hstatus

theorem LockScreenApp.Genuine.setLocked (h : app.Genuine) (locked : Bool) :
    (app.setLocked locked).Genuine := by
  unfold LockScreenApp.setLocked
  split
  · refine ⟨List.mem_cons_self, fun v status hstatus => ?_⟩
    obtain ⟨past, hpast, heq⟩ := h.known v status hstatus
    exact ⟨past, List.mem_cons_of_mem _ hpast, heq⟩
  · exact h

variable [DecidableEq ι] {P : LockScreenPrimitives} {main w : ι} {command : LockScreenCommand}
  {env : CommandEnv ι}

/-- What a command can come to: it is refused, or it sets the lock state, if that is a change by
`Changes`, or it writes the settings. -/
inductive Commanded (P : LockScreenPrimitives) (main : ι) (app : LockScreenApp ι) (w : ι)
    (command : LockScreenCommand) (env : CommandEnv ι) :
    LockScreenApp ι × Except EngineError LockScreenStatus → Prop where
  | refused (error : EngineError) (h : ¬Changes P main app w env command) :
    Commanded P main app w command env (app, .error error)
  | set (locked : Bool) (hmain : w = main)
      (h : Changes P main app w env command ↔ app.status.locked ≠ locked) :
    Commanded P main app w command env ((app.setLocked locked).emitStatus env.broadcast)
  | rewritten (disk : Disk) (hmain : w = main) (hlocked : app.status.locked = false)
      (h : ¬Changes P main app w env command) :
    Commanded P main app w command env ({ app with disk }, .ok app.status)

theorem command_cases (P : LockScreenPrimitives) (main : ι) (app : LockScreenApp ι) (w : ι)
    (command : LockScreenCommand) (env : CommandEnv ι) :
    Commanded P main app w command env (app.command P main w command env) := by
  unfold LockScreenApp.command
  by_cases hmain : w = main
  · rw [if_neg (not_not.mpr hmain)]
    cases command with
    | lock =>
      exact .set true hmain ((and_iff_right hmain).trans Bool.eq_false_iff)
    | unlock password =>
      dsimp only
      unfold unlockScreen
      split
      · rename_i error hcheck
        refine .refused error fun h => ?_
        cases hcheck.symm.trans h.2.2
      · rename_i hcheck
        have hlocked : app.status.locked = true ↔ app.status.locked ≠ false := by simp
        exact .set false hmain ((and_iff_right hmain).trans ((and_iff_left hcheck).trans hlocked))
    | passwordSet password =>
      dsimp only
      unfold lockScreenPasswordSet
      split
      · exact .refused _ id
      · rename_i hlocked
        have hlocked : app.status.locked = false := Bool.eq_false_iff.mpr hlocked
        split
        · rename_i disk error hwrite
          have hsame : { app with disk } = app := by rw [writeConfig_error hwrite]
          rw [hsame]
          exact .refused error id
        · exact .rewritten _ hmain hlocked id
  · rw [if_pos hmain]
    refine .refused _ fun h => hmain ?_
    cases command with
    | lock => exact h.1
    | unlock password => exact h.1
    | passwordSet password => exact h.elim

theorem command_safe_iff (P : LockScreenPrimitives) (main : ι) (app : LockScreenApp ι) (w : ι)
    (command : LockScreenCommand) (env : CommandEnv ι) :
    (∀ error, (app.command P main w command env).2 = .error error →
      (app.command P main w command env).1.status = app.status ∧
        (app.command P main w command env).1.disk = app.disk) ↔
      ¬(Changes P main app w env command ∧ env.broadcast.isDelivered = false) := by
  have hcases := command_cases P main app w command env
  generalize app.command P main w command env = result at hcases
  cases hcases with
  | refused error h => exact iff_of_true (fun _ _ => ⟨rfl, rfl⟩) fun hboth => h hboth.1
  | rewritten disk hmain hlocked h => exact iff_of_true nofun fun hboth => h hboth.1
  | set locked hmain h =>
    rw [h]
    cases hbroadcast : env.broadcast with
    | delivered => exact iff_of_true nofun fun hboth => absurd hboth.2 nofun
    | failed detail reached =>
      constructor
      · intro hsafe hboth
        obtain ⟨hstatus, -⟩ := hsafe _ rfl
        have hlocked := app.setLocked_locked locked
        refine hboth.1 ?_
        rw [← hlocked]
        exact (congrArg LockScreenStatus.locked hstatus).symm
      · intro hno error _
        have hsame : app.status.locked = locked := by
          by_contra hne
          exact hno ⟨hne, rfl⟩
        rw [LockScreenApp.setLocked_eq_self hsame]
        exact ⟨rfl, rfl⟩

/-! ## What a step does -/

namespace LockScreenApp

@[simp] theorem put_self (window : LockScreenWindow) : (app.put w window).windows w = window :=
  Function.update_self ..

theorem put_of_ne {v : ι} (h : v ≠ w) (window : LockScreenWindow) :
    (app.put w window).windows v = app.windows v := Function.update_of_ne h ..

end LockScreenApp

def WindowPhase.Follows : WindowPhase → WindowPhase → Prop
  | .unopened, next => next = .mounted
  | .mounted, next => next = .deaf ∨ next = .registered
  | .registered, next => next = .asking
  | .asking, next => next = .settled
  | _, _ => False

/-- What a step does. -/
inductive Stepped (P : LockScreenPrimitives) (main : ι) (app : LockScreenApp ι) :
    LockScreenEvent ι → LockScreenApp ι → Prop where
  | moved {event : LockScreenEvent ι} {w : ι} {next : WindowPhase}
      (h : (app.windows w).phase.Follows next) : Stepped P main app event (app.goTo w next)
  | answered {w : ι} (h : (app.windows w).phase = .asking) :
    Stepped P main app (.answered w) ((app.goTo w .settled).tell app.status (· = w))
  | commanded {w : ι} {command : LockScreenCommand} {env : CommandEnv ι} {app' : LockScreenApp ι}
      {result : Except EngineError LockScreenStatus}
      (h : app.command P main w command env = (app', result)) :
    Stepped P main app (.command w command env) (app'.respond w result)
  | applied {w : ι} {i : ℕ} {view : View LockScreenStatus}
      (h : (app.windows w).view.deliver LockScreenStatus.revision i = some view) :
    Stepped P main app (.applyStatus w i) (app.put w { app.windows w with view })
  | closed {w : ι} :
    Stepped P main app (.closeWindow w)
      (app.put w ⟨.closed, { (app.windows w).view with inbox := [] }⟩)

theorem of_move {phase next : WindowPhase} (h : app.move w phase next = some app') :
    (app.windows w).phase = phase ∧ app' = app.goTo w next := by
  unfold LockScreenApp.move at h
  split at h
  · rename_i hphase
    cases h
    exact ⟨hphase, rfl⟩
  · cases h

theorem step_cases {event : LockScreenEvent ι} (h : app.step P main event = some app') :
    Stepped P main app event app' := by
  cases event with
  | openWindow w =>
    obtain ⟨hphase, rfl⟩ := of_move h
    exact .moved (by rw [hphase]; rfl)
  | registered w =>
    obtain ⟨hphase, rfl⟩ := of_move h
    exact .moved (by rw [hphase]; exact .inr rfl)
  | listenFailed w =>
    obtain ⟨hphase, rfl⟩ := of_move h
    exact .moved (by rw [hphase]; exact .inl rfl)
  | listening w =>
    obtain ⟨hphase, rfl⟩ := of_move h
    exact .moved (by rw [hphase]; rfl)
  | answered w =>
    obtain ⟨moved, hmove, rfl⟩ := Option.map_eq_some_iff.mp h
    obtain ⟨hphase, rfl⟩ := of_move hmove
    exact .answered hphase
  | statusFailed w =>
    obtain ⟨hphase, rfl⟩ := of_move h
    exact .moved (by rw [hphase]; rfl)
  | command w command env =>
    unfold LockScreenApp.step at h
    dsimp only at h
    split at h
    · cases h
      exact .commanded rfl
    · cases h
  | applyStatus w i =>
    obtain ⟨view, hview, rfl⟩ := Option.map_eq_some_iff.mp h
    exact .applied hview
  | closeWindow w =>
    unfold LockScreenApp.step at h
    dsimp only at h
    split at h
    · cases h
      exact .closed
    · cases h

/-! ## What every step keeps -/

theorem command_spec {result : Except EngineError LockScreenStatus}
    (h : app.command P main w command env = (app', result)) :
    (∀ status, result = .ok status → status = app'.status) ∧
      (∀ v, (app'.windows v).status = (app.windows v).status) ∧
      (app'.disk ≠ app.disk → app.status.locked = false) ∧ (app.Genuine → app'.Genuine) := by
  have hcases := command_cases P main app w command env
  rw [h] at hcases
  generalize hr : (app', result) = r at hcases
  cases hcases with
  | refused error h =>
    cases hr
    exact ⟨nofun, fun _ => rfl, absurd rfl, id⟩
  | rewritten disk hmain hlocked h =>
    cases hr
    refine ⟨?_, fun _ => rfl, fun _ => hlocked, fun hkept => ⟨hkept.current, hkept.known⟩⟩
    rintro _ ⟨⟩
    rfl
  | set locked hmain h =>
    obtain ⟨rfl, rfl⟩ := Prod.mk.inj hr
    refine ⟨?_, fun v => ?_, fun hdisk => ?_, fun hkept => (hkept.setLocked locked).tell _⟩
    · intro status hresult
      cases hbroadcast : env.broadcast with
      | delivered =>
        rw [hbroadcast] at hresult
        cases hresult
        rfl
      | failed detail reached =>
        rw [hbroadcast] at hresult
        cases hresult
    · rw [tell_shown, LockScreenApp.setLocked_windows]
    · exact absurd (LockScreenApp.setLocked_disk locked) hdisk

theorem respond_shown (result : Except EngineError LockScreenStatus) (v : ι) :
    ((app.respond w result).windows v).status = (app.windows v).status := by
  cases result with
  | ok status => exact tell_shown status _ v
  | error error => rfl

theorem goTo_view {next : WindowPhase} (v : ι) :
    ((app.goTo w next).windows v).view = (app.windows v).view := by
  show (Function.update app.windows w _ v).view = _
  by_cases hv : v = w
  · subst hv
    rw [Function.update_self]
  · rw [Function.update_of_ne hv]

theorem shown_step {event : LockScreenEvent ι} (h : app.step P main event = some app') (v : ι)
    {old : LockScreenStatus} (hold : (app.windows v).status = some old) :
    ∃ new, (app'.windows v).status = some new ∧ old.revision ≤ new.revision := by
  have hsame {app'' : LockScreenApp ι}
      (heq : (app''.windows v).status = (app.windows v).status) :
      ∃ new, (app''.windows v).status = some new ∧ old.revision ≤ new.revision :=
    ⟨old, heq.trans hold, Nat.le_refl _⟩
  cases step_cases h with
  | moved hphase => exact hsame (congrArg View.shown (goTo_view v))
  | answered hphase =>
    exact hsame ((tell_shown _ _ v).trans (congrArg View.shown (goTo_view v)))
  | commanded hcommand =>
    exact hsame ((respond_shown _ v).trans ((command_spec hcommand).2.1 v))
  | @applied w i view hview =>
    by_cases hv : v = w
    · subst hv
      rw [LockScreenApp.put_self]
      exact View.revision_le_of_deliver hview hold
    · exact hsame (by rw [LockScreenApp.put_of_ne hv])
  | @closed w =>
    by_cases hv : v = w
    · subst hv
      exact hsame (by rw [LockScreenApp.put_self]; rfl)
    · exact hsame (by rw [LockScreenApp.put_of_ne hv])

theorem disk_step {event : LockScreenEvent ι} (h : app.step P main event = some app')
    (hdisk : app'.disk ≠ app.disk) : app.status.locked = false := by
  cases step_cases h with
  | @commanded w command env app' result hcommand =>
    refine (command_spec hcommand).2.2.1 ?_
    cases result with
    | ok status => exact hdisk
    | error error => exact hdisk
  | _ => exact absurd rfl hdisk

theorem LockScreenApp.Genuine.step {event : LockScreenEvent ι} (h : app.Genuine)
    (hstep : app.step P main event = some app') : app'.Genuine := by
  have hput {w : ι} {window : LockScreenWindow}
      (hsub : window.view.known ⊆ (app.windows w).view.known) : (app.put w window).Genuine := by
    refine ⟨h.current, fun v status hstatus => ?_⟩
    by_cases hv : v = w
    · subst hv
      rw [LockScreenApp.put_self] at hstatus
      exact h.known v status (hsub hstatus)
    · rw [LockScreenApp.put_of_ne hv] at hstatus
      exact h.known v status hstatus
  cases step_cases hstep with
  | moved hphase => exact hput (List.Subset.refl _)
  | @answered w hphase =>
    have hmoved : (app.goTo w .settled).Genuine := hput (List.Subset.refl _)
    exact hmoved.tell _
  | @commanded w command env app' result hcommand =>
    obtain ⟨hstatus, -, -, hkept⟩ := command_spec hcommand
    cases result with
    | ok status =>
      rw [hstatus status rfl]
      exact (hkept h).tell _
    | error error => exact hkept h
  | applied hview => exact hput (View.known_subset_of_deliver hview)
  | closed => exact hput (List.append_subset.mpr ⟨List.subset_append_left _ _, nofun⟩)

/-! ## What the windows know -/

def Announced (P : LockScreenPrimitives) (main : ι) (app : LockScreenApp ι) :
    LockScreenEvent ι → Prop
  | .command w command env =>
    Changes P main app w env command →
      env.broadcast.isDelivered = true ∧ app.status.revision + 1 < 2 ^ 53
  | _ => True

/-- A window that listens, and the main window, know the status if they know anything; the others
know nothing. -/
structure LockScreenApp.Kept (main : ι) (app : LockScreenApp ι) : Prop where
  exact : app.status.revision < 2 ^ 53
  tracks : ∀ w, (app.windows w).phase ≠ .closed →
    (app.windows w).view.Tracks LockScreenStatus.revision app.status
  unheard : ∀ w, w ≠ main → (app.windows w).phase ≠ .closed → (app.windows w).listens = false →
    (app.windows w).view.known = []

omit [DecidableEq ι] in
theorem LockScreenApp.Kept.received (h : app.Kept main) : app.status.received = app.status := by
  rw [LockScreenStatus.received, nearestNumber_of_lt h.exact]

omit [DecidableEq ι] in
theorem LockScreenApp.Kept.tell (h : app.Kept main) {dest : ι → Bool}
    (hdest : ∀ w, dest w = true → (app.windows w).listens = true ∨ w = main) :
    (app.tell app.status dest).Kept main where
  exact := h.exact
  tracks v hv := by
    obtain ⟨hphase, hview⟩ := app.tell_window app.status dest v
    rw [hphase] at hv
    rw [hview]
    split
    · rw [h.received]
      exact (h.tracks v hv).send
    · exact h.tracks v hv
  unheard v hv hopen hlistens := by
    obtain ⟨hphase, hview⟩ := app.tell_window app.status dest v
    rw [LockScreenWindow.listens, hphase, ← LockScreenWindow.listens] at hlistens
    rw [hphase] at hopen
    rw [hview]
    split
    · rename_i hto
      rcases hdest v hto with h' | h'
      · cases hlistens.symm.trans h'
      · exact absurd h' hv
    · exact h.unheard v hv hopen hlistens

omit [DecidableEq ι] in
theorem tell_tell (status : LockScreenStatus) (first second : ι → Bool) :
    (app.tell status first).tell status second =
      (app.tell status fun w => first w || second w).tell status
        fun w => first w && second w := by
  refine congrArg (LockScreenApp.mk app.status app.disk · app.history) (funext fun w => ?_)
  by_cases hfirst : first w = true
  · by_cases hsecond : second w = true
    · simp [LockScreenApp.tell, hfirst, hsecond]
    · simp [LockScreenApp.tell, hfirst, hsecond]
  · by_cases hsecond : second w = true
    · simp [LockScreenApp.tell, hfirst, hsecond]
    · simp [LockScreenApp.tell, hfirst, hsecond]

omit [DecidableEq ι] in
theorem LockScreenApp.Kept.setLocked_tell (h : app.Kept main) {locked : Bool}
    (hlocked : app.status.locked ≠ locked) (hbound : app.status.revision + 1 < 2 ^ 53)
    {dest : ι → Bool}
    (hdest : ∀ w, dest w = true ↔ (app.windows w).listens = true ∨ w = main) :
    ((app.setLocked locked).tell (app.setLocked locked).status dest).Kept main := by
  have hstatus : (app.setLocked locked).status = ⟨locked, app.status.revision + 1⟩ := by
    rw [LockScreenApp.setLocked, if_pos hlocked]
    show LockScreenStatus.mk locked (min _ _) = _
    rw [Nat.min_eq_left (by omega)]
  have hreceived : (app.setLocked locked).status.received = (app.setLocked locked).status := by
    rw [hstatus, LockScreenStatus.received, nearestNumber_of_lt hbound]
  refine ⟨?_, fun v hv => ?_, fun v hv hopen hlistens => ?_⟩
  · show (app.setLocked locked).status.revision < 2 ^ 53
    rw [hstatus]
    exact hbound
  · obtain ⟨hphase, hview⟩ :=
      (app.setLocked locked).tell_window (app.setLocked locked).status dest v
    rw [hphase, LockScreenApp.setLocked_windows] at hv
    rw [hview, hreceived, LockScreenApp.setLocked_windows]
    show View.Tracks _ (app.setLocked locked).status _
    split
    · refine (h.tracks v hv).advance ?_
      rw [hstatus]
      exact Nat.lt_succ_self _
    · rename_i hto
      obtain ⟨hdeaf, hmain⟩ := not_or.mp (mt (hdest v).mpr hto)
      exact .of_known_eq_nil (h.unheard v hmain hv (Bool.eq_false_iff.mpr hdeaf))
  · obtain ⟨hphase, hview⟩ :=
      (app.setLocked locked).tell_window (app.setLocked locked).status dest v
    rw [hphase, LockScreenApp.setLocked_windows] at hopen
    rw [LockScreenWindow.listens, hphase, LockScreenApp.setLocked_windows,
      ← LockScreenWindow.listens] at hlistens
    have hto : ¬dest v = true := by
      rw [hdest, hlistens]
      exact not_or.mpr ⟨nofun, hv⟩
    rw [hview, if_neg hto, LockScreenApp.setLocked_windows]
    exact h.unheard v hv hopen hlistens

theorem command_kept {result : Except EngineError LockScreenStatus} (hkept : app.Kept main)
    (hannounced : Announced P main app (.command w command env))
    (h : app.command P main w command env = (app', result)) :
    (app'.respond w result).Kept main := by
  have hcases := command_cases P main app w command env
  rw [h] at hcases
  generalize hr : (app', result) = r at hcases
  cases hcases with
  | refused error h =>
    cases hr
    exact hkept
  | rewritten disk hmain hlocked h =>
    cases hr
    have hsame : { app with disk }.Kept main := ⟨hkept.exact, hkept.tracks, hkept.unheard⟩
    exact hsame.tell fun v hv => .inr ((of_decide_eq_true hv).trans hmain)
  | set locked hmain hchanges =>
    by_cases hlocked : app.status.locked = locked
    · rw [LockScreenApp.setLocked_eq_self hlocked] at hr
      have htold : (app.tell app.status (app.reached env.broadcast)).Kept main := by
        refine hkept.tell fun v hv => .inl ?_
        cases hbroadcast : env.broadcast with
        | delivered =>
          rw [hbroadcast] at hv
          exact hv
        | failed detail reached =>
          rw [hbroadcast] at hv
          exact (Bool.and_eq_true_iff.mp hv).1
      cases hbroadcast : env.broadcast with
      | delivered =>
        rw [hbroadcast] at hr htold
        cases hr
        exact htold.tell fun v hv => .inr ((of_decide_eq_true hv).trans hmain)
      | failed detail reached =>
        rw [hbroadcast] at hr htold
        cases hr
        exact htold
    · -- the state changes: it is announced
      obtain ⟨hdelivered, hbound⟩ := hannounced (hchanges.mpr hlocked)
      cases hbroadcast : env.broadcast with
      | failed detail reached =>
        rw [hbroadcast] at hdelivered
        cases hdelivered
      | delivered =>
        rw [hbroadcast] at hr
        cases hr
        let changed := app.setLocked locked
        show ((changed.tell changed.status (changed.reached .delivered)).tell changed.status
          (· = w)).Kept main
        rw [tell_tell]
        have hdest (v : ι) : (changed.reached .delivered v || decide (v = w)) = true ↔
            (app.windows v).listens = true ∨ v = main := by
          rw [Bool.or_eq_true, decide_eq_true_iff, hmain, LockScreenApp.reached,
            LockScreenApp.setLocked_windows]
        refine (hkept.setLocked_tell hlocked hbound hdest).tell fun v hv => .inr ?_
        exact (of_decide_eq_true (Bool.and_eq_true_iff.mp hv).2).trans hmain

theorem LockScreenApp.Kept.goTo (h : app.Kept main) {next : WindowPhase}
    (hphase : (app.windows w).phase.Follows next) : (app.goTo w next).Kept main := by
  have hopen : (app.windows w).phase ≠ .closed := by
    intro heq
    rw [heq] at hphase
    exact hphase
  refine ⟨h.exact, fun v hv => ?_, fun v hv hclosed hlistens => ?_⟩
  · rw [goTo_view]
    by_cases hvw : v = w
    · rw [hvw]
      exact h.tracks w hopen
    · rw [LockScreenApp.goTo, LockScreenApp.put_of_ne hvw] at hv
      exact h.tracks v hv
  · rw [goTo_view]
    by_cases hvw : v = w
    · subst hvw
      refine h.unheard v hv hopen ?_
      -- a window that listens goes on listening
      rw [LockScreenApp.goTo, LockScreenApp.put_self] at hlistens
      unfold LockScreenWindow.listens at hlistens ⊢
      cases hat : (app.windows v).phase with
      | registered =>
        rw [hat] at hphase
        cases hphase
        cases hlistens
      | asking =>
        rw [hat] at hphase
        cases hphase
        cases hlistens
      | settled =>
        rw [hat] at hphase
        cases hphase
      | _ => rfl
    · rw [LockScreenApp.goTo, LockScreenApp.put_of_ne hvw] at hclosed hlistens
      exact h.unheard v hv hclosed hlistens

theorem LockScreenApp.Kept.step {event : LockScreenEvent ι} (h : app.Kept main)
    (hannounced : Announced P main app event) (hstep : app.step P main event = some app') :
    app'.Kept main := by
  cases step_cases hstep with
  | moved hphase => exact h.goTo hphase
  | @answered w hphase =>
    have hmoved : (app.goTo w .settled).Kept main := h.goTo (by rw [hphase]; rfl)
    refine hmoved.tell fun v hv => .inl ?_
    have hv : v = w := of_decide_eq_true hv
    rw [hv, LockScreenApp.goTo, LockScreenApp.put_self]
    rfl
  | commanded hcommand => exact command_kept h hannounced hcommand
  | @applied w i view hview =>
    refine ⟨h.exact, fun v hv => ?_, fun v hv hclosed hlistens => ?_⟩
    · by_cases hvw : v = w
      · subst hvw
        rw [LockScreenApp.put_self] at hv ⊢
        exact (h.tracks v hv).deliver hview
      · rw [LockScreenApp.put_of_ne hvw] at hv ⊢
        exact h.tracks v hv
    · by_cases hvw : v = w
      · subst hvw
        rw [LockScreenApp.put_self] at hclosed hlistens ⊢
        have hnone := h.unheard v hv hclosed hlistens
        exact List.subset_nil.mp (hnone ▸ View.known_subset_of_deliver hview)
      · rw [LockScreenApp.put_of_ne hvw] at hclosed hlistens ⊢
        exact h.unheard v hv hclosed hlistens
  | @closed w =>
    refine ⟨h.exact, fun v hv => ?_, fun v hv hclosed hlistens => ?_⟩
    · by_cases hvw : v = w
      · subst hvw
        rw [LockScreenApp.put_self] at hv
        exact absurd rfl hv
      · rw [LockScreenApp.put_of_ne hvw] at hv ⊢
        exact h.tracks v hv
    · by_cases hvw : v = w
      · subst hvw
        rw [LockScreenApp.put_self] at hclosed
        exact absurd rfl hclosed
      · rw [LockScreenApp.put_of_ne hvw] at hclosed hlistens ⊢
        exact h.unheard v hv hclosed hlistens

/-! ## Runs -/

theorem genuine_of_reachable {disk : Disk}
    (h : (lockScreenMachine P main disk).Reachable app) : app.Genuine := by
  refine h.induct (I := LockScreenApp.Genuine) ?_ fun _ _ _ _ hkept hstep => hkept.step hstep
  rintro _ rfl
  exact ⟨List.mem_cons_self, fun _ _ hknown => absurd hknown List.not_mem_nil⟩

theorem kept_of_reachable {disk : Disk}
    (h : ((lockScreenMachine P main disk).restrict (Announced P main)).Reachable app) :
    app.Kept main := by
  refine h.induct (I := LockScreenApp.Kept main) ?_ ?_
  · rintro _ rfl
    exact ⟨Nat.two_pow_pos 53, fun _ _ => .of_known_eq_nil rfl, fun _ _ _ _ => rfl⟩
  · rintro _ _ _ - hkept ⟨hannounced, hstep⟩
    exact hkept.step hannounced hstep

/-- What holds in every run: nothing that is shown gets older, a window shows the unlocked state
only of a revision at which the process was unlocked, and the password is only changed while it
is. -/
structure Safe (P : LockScreenPrimitives) (main : ι) (app : LockScreenApp ι) : Prop where
  newer : ∀ event app', app.step P main event = some app' → ∀ w old,
    (app.windows w).status = some old →
      ∃ new, (app'.windows w).status = some new ∧ old.revision ≤ new.revision
  pending : ∀ w, (app.windows w).status = none → (app.windows w).locked = true
  unlocked : ∀ w, (app.windows w).locked = false →
    ∃ past ∈ app.history, past.locked = false ∧ (app.windows w).status = some past.received
  password : ∀ event app', app.step P main event = some app' → app'.disk ≠ app.disk →
    app.status.locked = false

theorem safe_of_genuine (h : app.Genuine) : Safe P main app where
  newer _ _ hstep w _ hold := shown_step hstep w hold
  pending w hnone := by
    rw [LockScreenWindow.locked, hnone]
    rfl
  unlocked w hlocked := by
    cases hshown : (app.windows w).status with
    | none =>
      rw [LockScreenWindow.locked, hshown] at hlocked
      cases hlocked
    | some status =>
      rw [LockScreenWindow.locked, hshown] at hlocked
      obtain ⟨past, hpast, rfl⟩ :=
        h.known w status (List.mem_append_left _ (Option.mem_toList.mpr hshown))
      exact ⟨past, hpast, hlocked, rfl⟩
  password _ _ hstep hdisk := disk_step hstep hdisk

/-- **The lock screen.** In every run the windows are safe. As long as every change is announced
and has a revision that a script can tell from the others, a window that has received a status
shows that of the process once everything has been delivered to it. And a command that fails has
changed nothing if and only if it is not one that has changed the state before the broadcast
failed. -/
theorem lockScreen_kept (P : LockScreenPrimitives) (main : ι) (disk : Disk) :
    (∀ app, (lockScreenMachine P main disk).Reachable app → Safe P main app) ∧
    (∀ app, ((lockScreenMachine P main disk).restrict (Announced P main)).Reachable app →
      ∀ w, (app.windows w).phase ≠ .closed → (app.windows w).view.inbox = [] →
        ∀ status, (app.windows w).status = some status → status = app.status) ∧
    ∀ app w command env,
      (∀ error, (LockScreenApp.command P main app w command env).2 = .error error →
        (app.command P main w command env).1.status = app.status ∧
          (app.command P main w command env).1.disk = app.disk) ↔
        ¬(Changes P main app w env command ∧ env.broadcast.isDelivered = false) := by
  refine ⟨fun app h => safe_of_genuine (genuine_of_reachable h), fun app h w hopen hinbox status
    hshown => ?_, command_safe_iff P main⟩
  exact ((kept_of_reachable h).tracks w hopen).shown_eq hinbox hshown

def samplePrimitives : LockScreenPrimitives where
  fromStr _ := .error "expected value"
  toStringPretty _ := .error "unsupported"
  hashPassword _ _ := .error "unsupported"
  parseHash _ := .error "unsupported"
  verifyPassword _ _ := false

def sampleEnv : CommandEnv ℕ := ⟨none, none, .error "unsupported", .written,
  .failed "webview not found" fun _ => false⟩

/-- The lock command of the main window returns an error, and the application is locked; the main
window goes on to show nothing else than before. -/
theorem sampleLock_not_safe :
    ∃ app, (lockScreenMachine samplePrimitives 0 .absent).Reachable app ∧
      app.status.locked = false ∧
      (∃ app', app.step samplePrimitives 0 (.command 0 .lock sampleEnv) = some app' ∧
        app'.status.locked = true ∧ (app'.windows 0).view.inbox = []) ∧
      ∃ error, (app.command samplePrimitives 0 0 .lock sampleEnv).2 = .error error := by
  refine ⟨(LockScreenApp.start .absent).goTo 0 .mounted, ?_, rfl, ⟨_, rfl, rfl, rfl⟩, _, rfl⟩
  exact .step (a := .openWindow 0) (.init rfl) rfl

end FluxTerm.LockScreen
