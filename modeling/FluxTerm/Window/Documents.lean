import FluxTerm.Window.DebouncedSave

/-!
# FluxTerm — documents that several windows save

Each window runs `AppShell` with its own `useAppSettings`, `useSessionSettings`, `useQuickBarState`
and `useCommandHistoryState`, which read one of the four documents each and save it on their own.
`useFloatingWidgets` sends the appearance of the main window to the floating ones.

* **`MainLast`** — the condition; **`mainWins_of_mainLast`** — the result on runs.
* **`sampleFloating_overwrites`** — a floating window writes back what it has read.

The documents do not meet: a window keeps the state of each in a hook of its own.
-/

namespace FluxTerm.Window

open FluxTerm.Lib

/-! ## The hooks -/

/-- A hook that reads and saves a document. -/
structure DocumentHook (Config Payload Message : Type) where
  payload : Config → Payload
  json : JsonText Payload
  compares : Bool
  parse : Option Text → Config → Config
  /-- What a `layout` message says of the state. -/
  appearance : Config → Message
  /-- The state after a `layout` message. -/
  receive : Message → Config → Config

variable {Config Payload Message : Type}

/-- `useAppSettings`. -/
def useAppSettings (payload : Config → Payload) (json : JsonText Payload)
    (parse : Option Text → Config → Config) (appearance : Config → Message)
    (receive : Message → Config → Config) : DocumentHook Config Payload Message :=
  ⟨payload, json, true, parse, appearance, receive⟩

/-- The document of `useSessionSettings` or `useQuickBarState`: no message speaks of it. -/
def SaveHook.document (hook : SaveHook Config Payload) (parse : Option Text → Config → Config) :
    DocumentHook Config Payload Unit :=
  ⟨hook.payload, hook.json, true, parse, fun _ => (), fun _ config => config⟩

/-- `useCommandHistoryState`, which saves after every change of its store. -/
def useCommandHistoryState (json : JsonText Payload) (parse : Option Text → Payload → Payload) :
    DocumentHook Payload Payload Unit :=
  ⟨id, json, false, parse, fun _ => (), fun _ store => store⟩

/-! ## The windows -/

/-- A window, as far as one document is concerned. -/
structure DocWindow (Config Payload Message : Type) where
  config : Config
  loaded : Bool
  timer : Option Payload
  lastSavedConfig : Text
  saving : List Payload
  reads : List (Option Text)
  inbox : List Message

variable (hook : DocumentHook Config Payload Message)

namespace DocWindow

def opened (config : Config) : DocWindow Config Payload Message :=
  ⟨config, false, none, [], [], [], []⟩

def IsClean (window : DocWindow Config Payload Message) (config : Config) : Prop :=
  hook.compares = true ∧ hook.json.compact (hook.payload config) = window.lastSavedConfig

instance (window : DocWindow Config Payload Message) (config : Config) :
    Decidable (window.IsClean hook config) := inferInstanceAs (Decidable (_ ∧ _))

/-- The save effect, with the state `config`. -/
def effect (window : DocWindow Config Payload Message) (config : Config) :
    DocWindow Config Payload Message :=
  let window := { window with config, timer := none }
  if !window.loaded then window
  else if window.IsClean hook config then window
  else { window with timer := some (hook.payload config) }

end DocWindow

structure DocState (Config Payload Message : Type) where
  main : DocWindow Config Payload Message
  floating : List (DocWindow Config Payload Message)
  disk : Option Text
  edited : Bool
  failed : Bool

/-- What happens. The main window is `none`, a floating one has a number. -/
inductive DocEvent (Config : Type) where
  | openWindow (config : Config)
  | close (window : ℕ)
  | read (window : Option ℕ)
  | arrive (window : Option ℕ)
  /-- `loadedRef` is set; the effect runs again if something it depends on has changed. -/
  | ready (window : Option ℕ) (runs : Bool)
  | edit (config : Config)
  | broadcast
  | deliver (window : ℕ)
  | expire (window : Option ℕ) (ok : Bool)
  | complete (window : Option ℕ)

namespace DocState

variable (s : DocState Config Payload Message)

def window : Option ℕ → Option (DocWindow Config Payload Message)
  | none => some s.main
  | some k => s.floating[k]?

def setWindow (w : Option ℕ) (window : DocWindow Config Payload Message) :
    DocState Config Payload Message :=
  match w with
  | none => { s with main := window, edited := s.edited || window.loaded }
  | some k => { s with floating := s.floating.set k window }

def issue (w : Option ℕ) (window : DocWindow Config Payload Message) (payload : Payload)
    (ok : Bool) : DocState Config Payload Message :=
  let window := { window with timer := none }
  if ok then
    { s.setWindow w { window with saving := window.saving ++ [payload] } with
      disk := some (hook.json.indented payload) }
  else { s.setWindow w window with failed := s.failed || w.isNone }

/-- One step. -/
def next : DocEvent Config → Option (DocState Config Payload Message)
  | .openWindow config => some { s with floating := s.floating ++ [.opened config] }
  | .close k => some { s with floating := s.floating.eraseIdx k }
  | .read w => (s.window w).map fun window =>
    s.setWindow w { window with reads := window.reads ++ [s.disk] }
  | .arrive w => (s.window w).bind fun window =>
    match window.reads with
    | [] => none
    | content :: reads => some (s.setWindow w
      ({ window with reads }.effect hook (hook.parse content window.config)))
  | .ready w runs => (s.window w).map fun window =>
    let window := { window with loaded := true }
    s.setWindow w (if runs then window.effect hook window.config else window)
  | .edit config => some { s with
      main := s.main.effect hook config
      edited := true
      failed := false }
  | .broadcast => some { s with floating := s.floating.map fun window =>
      { window with inbox := window.inbox ++ [hook.appearance s.main.config] } }
  | .deliver k => (s.floating[k]?).bind fun window =>
    match window.inbox with
    | [] => none
    | message :: inbox => some (s.setWindow (some k)
      ({ window with inbox }.effect hook (hook.receive message window.config)))
  | .expire w ok => (s.window w).bind fun window =>
    window.timer.map fun payload => s.issue hook w window payload ok
  | .complete w => (s.window w).bind fun window =>
    match window.saving with
    | [] => none
    | payload :: saving => some (s.setWindow w { window with
        saving
        lastSavedConfig := hook.json.compact payload })

def start (disk : Option Text) (config : Config) : DocState Config Payload Message :=
  ⟨.opened config, [], disk, false, false⟩

def IsQuiet : Prop := ∀ window ∈ s.main :: s.floating,
  window.timer = none ∧ window.saving = [] ∧ window.inbox = []

/-- When everything is quiet and the saves of the main window have succeeded, the state of the main
window is on disk. -/
def MainWins : Prop :=
  s.IsQuiet → s.edited = true → s.failed = false →
    s.disk = some (hook.json.indented (hook.payload s.main.config))

end DocState

def documentMachine (disk : Option Text) (config : Config) :
    Machine (DocState Config Payload Message) (DocEvent Config) :=
  .ofStep (.start disk config) (DocState.next hook)

/-! ## The condition -/

namespace DocState

def Settles (s : DocState Config Payload Message) (config : Config) : Prop :=
  s.main.IsClean hook config → s.disk = some (hook.json.indented (hook.payload config))

instance (s : DocState Config Payload Message) (config : Config) :
    Decidable (s.Settles hook config) := inferInstanceAs (Decidable (_ → _))

/-- What a write of a floating window leaves is what the main window has, or the main window has
yet to write. -/
def Harmless (s : DocState Config Payload Message) (k : ℕ) : Prop :=
  s.main.timer.isSome = true ∨ ∀ window ∈ s.floating[k]?, ∀ payload ∈ window.timer,
    hook.json.indented payload = hook.json.indented (hook.payload s.main.config)

instance (s : DocState Config Payload Message) (k : ℕ) : Decidable (s.Harmless hook k) :=
  inferInstanceAs (Decidable (_ ∨ _))

end DocState

/-- A floating window writes only what does no harm; the main window is edited when it has read the
document, and its effect runs where it settles. -/
def MainLast (s : DocState Config Payload Message) : DocEvent Config → Prop
  | .expire (some k) true => s.edited = true → s.Harmless hook k
  | .edit config => s.main.loaded = true ∧ s.Settles hook config
  | .arrive none => ∀ content ∈ s.main.reads.head?,
      s.Settles hook (hook.parse content s.main.config)
  | .ready none runs => (s.edited = false → runs = true) ∧
      (runs = true → s.Settles hook s.main.config)
  | _ => True

instance (s : DocState Config Payload Message) (event : DocEvent Config) :
    Decidable (MainLast hook s event) := by
  unfold MainLast
  split <;> infer_instance

/-! ## The invariant -/

namespace DocState

variable {hook} {s t : DocState Config Payload Message}

structure Led (hook : DocumentHook Config Payload Message)
    (s : DocState Config Payload Message) : Prop where
  timer : ∀ payload, s.main.timer = some payload → payload = hook.payload s.main.config
  loaded : s.edited = s.main.loaded
  saved : s.edited = true → s.main.timer = none → s.failed = false →
    s.disk = some (hook.json.indented (hook.payload s.main.config))

theorem Led.mainWins (h : s.Led hook) : s.MainWins hook :=
  fun hquiet hedited hfailed => h.saved hedited (hquiet s.main List.mem_cons_self).1 hfailed

theorem Led.congr (h : s.Led hook) (hmain : t.main = s.main) (hdisk : t.disk = s.disk)
    (hedited : t.edited = s.edited) (hfailed : t.failed = s.failed) : t.Led hook := by
  refine ⟨?_, ?_, ?_⟩
  · rw [hmain]
    exact h.timer
  · rw [hmain, hedited]
    exact h.loaded
  · rw [hmain, hdisk, hedited, hfailed]
    exact h.saved

theorem Led.keep {window : DocWindow Config Payload Message} (h : s.Led hook)
    (hconfig : window.config = s.main.config) (htimer : window.timer = s.main.timer)
    (hloaded : window.loaded = s.main.loaded) : (s.setWindow none window).Led hook := by
  have hedited : (s.setWindow none window).edited = s.edited := by
    show (s.edited || window.loaded) = s.edited
    rw [hloaded, ← h.loaded, Bool.or_self]
  refine ⟨?_, ?_, ?_⟩
  · show ∀ payload, window.timer = some payload → payload = hook.payload window.config
    rw [hconfig, htimer]
    exact h.timer
  · rw [hedited]
    exact h.loaded.trans hloaded.symm
  · rw [hedited]
    show s.edited = true → window.timer = none → _ →
      s.disk = some (hook.json.indented (hook.payload window.config))
    rw [hconfig, htimer]
    exact h.saved

theorem effect_led (window : DocWindow Config Payload Message) {config : Config}
    (hclean : window.lastSavedConfig = s.main.lastSavedConfig)
    (hsettles : s.Settles hook config) (hmain : t.main = window.effect hook config)
    (hdisk : t.disk = s.disk) (hedited : t.edited = window.loaded) : t.Led hook := by
  unfold DocWindow.effect at hmain
  dsimp only at hmain
  split at hmain
  · rename_i hloaded
    rw [Bool.not_eq_true'] at hloaded
    refine ⟨?_, ?_, ?_⟩
    · rw [hmain]
      exact nofun
    · rw [hmain, hedited]
    · rw [hedited, hloaded]
      exact nofun
  · split at hmain
    · -- nothing to save
      rename_i hnothing
      refine ⟨?_, ?_, fun _ _ _ => ?_⟩
      · rw [hmain]
        exact nofun
      · rw [hmain, hedited]
      · rw [hmain, hdisk]
        apply hsettles
        unfold DocWindow.IsClean at *
        rw [← hclean]
        exact hnothing
    · refine ⟨?_, ?_, ?_⟩
      · rw [hmain]
        rintro payload ⟨⟩
        rfl
      · rw [hmain, hedited]
      · rw [hmain]
        exact nofun

theorem effect_loaded (window : DocWindow Config Payload Message) (config : Config) :
    (window.effect hook config).loaded = window.loaded := by
  unfold DocWindow.effect
  dsimp only
  split
  · rfl
  · split <;> rfl

theorem Led.expire {w : Option ℕ} {ok : Bool} (h : s.Led hook)
    (hguard : MainLast hook s (.expire w ok)) (hstep : s.next hook (.expire w ok) = some t) :
    t.Led hook := by
  obtain ⟨window, hwindow, hstep⟩ := Option.bind_eq_some_iff.mp hstep
  obtain ⟨payload, htimer, rfl⟩ := Option.map_eq_some_iff.mp hstep
  unfold issue
  dsimp only
  cases w with
  | none =>
    cases hwindow
    have hpayload := h.timer payload htimer
    have hedited : (s.edited || s.main.loaded) = s.main.loaded := by
      rw [h.loaded, Bool.or_self]
    split
    · refine ⟨nofun, hedited, fun _ _ _ => ?_⟩
      show some (hook.json.indented payload) = some (hook.json.indented (hook.payload s.main.config))
      rw [hpayload]
    · refine ⟨nofun, hedited, fun _ _ hfailed => ?_⟩
      change (s.failed || true) = false at hfailed
      rw [Bool.or_true] at hfailed
      cases hfailed
  | some k =>
    cases ok with
    | true =>
      rw [if_pos rfl]
      refine ⟨h.timer, h.loaded, fun hedited hmain hfailed => ?_⟩
      change s.main.timer = none at hmain
      rcases hguard hedited with hpending | hsame
      · rw [hmain] at hpending
        cases hpending
      · exact congrArg some (hsame window hwindow payload htimer)
    | false =>
      rw [if_neg Bool.false_ne_true]
      exact h.congr rfl rfl rfl (Bool.or_false _)

theorem Led.next {event : DocEvent Config} (h : s.Led hook) (hguard : MainLast hook s event)
    (hstep : s.next hook event = some t) : t.Led hook := by
  cases event with
  | openWindow config =>
    cases hstep
    exact h.congr rfl rfl rfl rfl
  | close k =>
    cases hstep
    exact h.congr rfl rfl rfl rfl
  | read w =>
    obtain ⟨window, hwindow, rfl⟩ := Option.map_eq_some_iff.mp hstep
    cases w with
    | none =>
      cases hwindow
      exact h.keep rfl rfl rfl
    | some k => exact h.congr rfl rfl rfl rfl
  | arrive w =>
    obtain ⟨window, hwindow, hstep⟩ := Option.bind_eq_some_iff.mp hstep
    split at hstep
    · cases hstep
    · rename_i content reads hreads
      cases hstep
      cases w with
      | none =>
        cases hwindow
        refine effect_led (s := s) { s.main with reads } rfl (hguard content ?_) rfl rfl ?_
        · rw [hreads]
          rfl
        · show (s.edited || (DocWindow.effect hook _ _).loaded) = s.main.loaded
          rw [effect_loaded, h.loaded, Bool.or_self]
      | some k => exact h.congr rfl rfl rfl rfl
  | ready w runs =>
    obtain ⟨window, hwindow, rfl⟩ := Option.map_eq_some_iff.mp hstep
    cases w with
    | none =>
      cases hwindow
      obtain ⟨hfirst, hsettles⟩ := hguard
      cases runs with
      | true =>
        refine effect_led (s := s) { s.main with loaded := true } rfl (hsettles rfl) rfl rfl ?_
        show (s.edited || (DocWindow.effect hook { s.main with loaded := true }
          s.main.config).loaded) = true
        rw [effect_loaded]
        exact Bool.or_true _
      | false =>
        have hedited : s.edited = true := by
          cases hs : s.edited with
          | true => rfl
          | false => exact absurd (hfirst hs) nofun
        exact h.keep rfl rfl (hedited.symm.trans h.loaded)
    | some k => exact h.congr rfl rfl rfl rfl
  | edit config =>
    cases hstep
    exact effect_led (s := s) s.main rfl hguard.2 rfl rfl hguard.1.symm
  | broadcast =>
    cases hstep
    exact h.congr rfl rfl rfl rfl
  | deliver k =>
    obtain ⟨window, hwindow, hstep⟩ := Option.bind_eq_some_iff.mp hstep
    split at hstep
    · cases hstep
    · cases hstep
      exact h.congr rfl rfl rfl rfl
  | expire w ok => exact h.expire hguard hstep
  | complete w =>
    obtain ⟨window, hwindow, hstep⟩ := Option.bind_eq_some_iff.mp hstep
    split at hstep
    · cases hstep
    · cases hstep
      cases w with
      | none =>
        cases hwindow
        exact h.keep rfl rfl rfl
      | some k => exact h.congr rfl rfl rfl rfl

end DocState

/-! ## The result -/

variable {hook}

/-- **The main window has the last word**, in every run in which a floating window writes only what
does no harm and the effect of the main window runs where it settles. -/
theorem mainWins_of_mainLast {disk : Option Text} {config : Config}
    {s : DocState Config Payload Message}
    (h : ((documentMachine hook disk config).restrict (MainLast hook)).Reachable s) :
    s.MainWins hook := by
  have hinv : s.Led hook := by
    refine h.induct (fun s hs => ?_) fun s event t _ hinv hstep => ?_
    · rw [hs]
      exact ⟨nofun, rfl, nofun⟩
    · exact hinv.next hstep.1 hstep.2
  exact hinv.mainWins

/-! ## A floating window -/

def sampleDocument : DocumentHook Text Text Unit :=
  samplePolicy.document fun content config => content.getD config

/-- The main window saves `off`, a floating window is opened, reads it and writes it back. -/
theorem sampleMain_wins : ∃ s : DocState Text Text Unit, s.MainWins sampleDocument ∧
    s.disk = some "off".toList ∧ s.floating.length = 1 := by
  have hrun : ∃ s, Machine.exec
        (fun s event => if MainLast sampleDocument s event then DocState.next sampleDocument s event
          else none)
        (.start (some "ask".toList) "strict".toList)
        [.read none, .arrive none, .ready none true, .edit "off".toList, .expire none true,
          .complete none, .openWindow "strict".toList, .read (some 0), .arrive (some 0),
          .ready (some 0) true, .expire (some 0) true, .complete (some 0)] = some s ∧
      s.disk = some "off".toList ∧ s.floating.length = 1 := ⟨_, rfl, rfl, rfl⟩
  obtain ⟨s, hexec, hdisk, hfloating⟩ := hrun
  exact ⟨s, mainWins_of_mainLast (Machine.reachable_restrict (Machine.reachable_exec hexec)),
    hdisk, hfloating⟩

/-- A floating window that has read `ask` writes it after the main window has saved `off`. -/
theorem sampleFloating_overwrites : ∃ s : DocState Text Text Unit,
    (documentMachine sampleDocument (some "ask".toList) "strict".toList).Reachable s ∧
      s.main.config = "off".toList ∧ s.disk = some "ask".toList ∧
      ¬s.MainWins sampleDocument := by
  have hrun : ∃ s, Machine.exec (DocState.next sampleDocument)
        (.start (some "ask".toList) "strict".toList)
        [.read none, .arrive none, .ready none true, .openWindow "strict".toList, .read (some 0),
          .edit "off".toList, .expire none true, .complete none, .arrive (some 0),
          .ready (some 0) true, .expire (some 0) true, .complete (some 0)] = some s ∧
      s.main.config = "off".toList ∧ s.disk = some "ask".toList ∧ s.edited = true ∧
      s.failed = false ∧ s.main.timer = none ∧ s.main.saving = [] ∧ s.main.inbox = [] ∧
      ∀ window ∈ s.floating, window.timer = none ∧ window.saving = [] ∧ window.inbox = [] :=
    ⟨_, rfl, rfl, rfl, rfl, rfl, rfl, rfl, rfl, by decide⟩
  obtain ⟨s, hexec, hconfig, hdisk, hedited, hfailed, htimer, hsaving, hinbox, hfloating⟩ := hrun
  refine ⟨s, Machine.reachable_exec hexec, hconfig, hdisk, fun hwins => ?_⟩
  have hquiet : s.IsQuiet := by
    intro window hwindow
    rcases List.mem_cons.mp hwindow with rfl | hmem
    · exact ⟨htimer, hsaving, hinbox⟩
    · exact hfloating window hmem
  have hwrong := hwins hquiet hedited hfailed
  rw [hdisk, hconfig] at hwrong
  revert hwrong
  decide

end FluxTerm.Window
