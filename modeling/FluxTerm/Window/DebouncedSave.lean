import FluxTerm.Lib.Machine
import FluxTerm.Lib.Text

/-!
# FluxTerm — configurations that are saved after a pause

The save effects of `useSessionSettings.ts`, `useQuickBarState.ts` and `useLayoutState.ts`. An edit
starts a timer anew; when the timer expires a write is issued, and when the write has completed the
text that was saved is kept for the next comparison.

* **`SettledReturn`** — the condition; **`converged_of_settledReturn`** — the result on runs.
* **`sampleReturn_diverged`** — an edit is taken back while it is being written.
-/

namespace FluxTerm.Window

open FluxTerm.Lib

/-! ## The hooks -/

/-- `JSON.stringify` with and without indentation: two values with one compact text have one
indented text. -/
structure JsonText (Payload : Type) where
  compact : Payload → Text
  indented : Payload → Text
  compact_ne_nil : ∀ p, compact p ≠ []
  indented_eq : ∀ p q, compact p = compact q → indented p = indented q

structure SaveHook (Config Payload : Type) where
  /-- What is saved of the configuration: `currentConfig`. -/
  payload : Config → Payload
  json : JsonText Payload
  floating : Bool

variable {Config Payload : Type}

/-- `useSessionSettings`, with the normalisation of its settings. -/
def useSessionSettings (normalize : Config → Payload) (json : JsonText Payload) :
    SaveHook Config Payload := ⟨normalize, json, false⟩

/-- `useQuickBarState`. -/
def useQuickBarState (json : JsonText Payload) : SaveHook Payload Payload := ⟨id, json, false⟩

/-- `useLayoutState`, with `buildPersistentSlots` and the slots that it adds. -/
def useLayoutState (persistent : Config → Payload) (json : JsonText Payload)
    (floatingWidgetKey : Bool) : SaveHook Config Payload := ⟨persistent, json, floatingWidgetKey⟩

/-! ## Edits, timers and writes -/

structure SaveState (Config Payload : Type) where
  config : Config
  /-- `loadedRef`. -/
  loaded : Bool
  /-- `saveTimerRef`, while the timer runs, with the configuration that it saves. -/
  timer : Option Payload
  /-- `lastSavedConfigRef`. -/
  lastSavedConfig : Text
  writes : List Payload
  disk : Option Text
  edited : Bool
  failed : Bool

inductive SaveEvent (Config : Type) where
  | load
  | edit (config : Config)
  | expire
  | complete (ok : Bool)

variable (hook : SaveHook Config Payload)

namespace SaveState

variable (s : SaveState Config Payload)

def effect (config : Config) : SaveState Config Payload :=
  let s := { s with config, timer := none, edited := true, failed := false }
  if !s.loaded || hook.floating then s
  else if hook.json.compact (hook.payload config) = s.lastSavedConfig then s
  else { s with timer := some (hook.payload config) }

/-- One step. A write replaces the document as a whole or leaves it. -/
def next : SaveEvent Config → Option (SaveState Config Payload)
  | .load => some { s with loaded := true }
  | .edit config => some (s.effect hook config)
  | .expire => s.timer.map fun payload =>
    { s with timer := none, writes := s.writes ++ [payload] }
  | .complete ok =>
    match s.writes with
    | [] => none
    | payload :: writes => some (
      if ok then { s with
        writes
        disk := some (hook.json.indented payload)
        lastSavedConfig := hook.json.compact payload }
      else { s with writes, failed := true })

def start (disk : Option Text) (config : Config) : SaveState Config Payload :=
  ⟨config, false, none, [], [], disk, false, false⟩

/-- When no timer runs, no write is in flight and none has failed since the last edit, the
configuration is on disk. -/
def Converged : Prop :=
  s.edited = true → s.timer = none → s.writes = [] → s.failed = false →
    s.disk = some (hook.json.indented (hook.payload s.config))

end SaveState

def saveMachine (disk : Option Text) (config : Config) :
    Machine (SaveState Config Payload) (SaveEvent Config) :=
  .ofStep (.start disk config) (SaveState.next hook)

/-! ## The condition -/

def SettledReturn (s : SaveState Config Payload) : SaveEvent Config → Prop
  | .edit config => s.loaded = true ∧ hook.floating = false ∧
    (hook.json.compact (hook.payload config) = s.lastSavedConfig →
      ∀ payload ∈ s.writes.getLast?,
        hook.json.compact payload = hook.json.compact (hook.payload config))
  | _ => True

instance (s : SaveState Config Payload) (event : SaveEvent Config) :
    Decidable (SettledReturn hook s event) := by
  unfold SettledReturn
  split <;> infer_instance

/-! ## The invariant -/

namespace SaveState

variable {hook} {s t : SaveState Config Payload}

/-- What the last write leaves on disk is the configuration. -/
def Arrives (hook : SaveHook Config Payload) (s : SaveState Config Payload) : Prop :=
  (∃ payload, s.writes.getLast? = some payload ∧
    hook.json.compact payload = hook.json.compact (hook.payload s.config)) ∨
  (s.writes = [] ∧ s.disk = some (hook.json.indented (hook.payload s.config)))

structure InStep (hook : SaveHook Config Payload) (s : SaveState Config Payload) : Prop where
  saved : s.lastSavedConfig ≠ [] → ∃ payload, hook.json.compact payload = s.lastSavedConfig ∧
    s.disk = some (hook.json.indented payload)
  timer : ∀ payload, s.timer = some payload → payload = hook.payload s.config
  arrives : s.edited = true → s.timer = none → s.failed = false → s.Arrives hook

theorem InStep.converged (h : s.InStep hook) : s.Converged hook := by
  intro hedited htimer hwrites hfailed
  rcases h.arrives hedited htimer hfailed with ⟨payload, hlast, -⟩ | ⟨-, hdisk⟩
  · rw [hwrites] at hlast
    cases hlast
  · exact hdisk

theorem InStep.effect {config : Config} (h : s.InStep hook)
    (hguard : SettledReturn hook s (.edit config)) : (s.effect hook config).InStep hook := by
  obtain ⟨hloaded, hfloating, hreturn⟩ := hguard
  have hruns : (!s.loaded || hook.floating) = false := by
    rw [hloaded, hfloating]
    rfl
  unfold SaveState.effect
  dsimp only
  rw [hruns, if_neg Bool.false_ne_true]
  split
  · -- nothing to save
    rename_i hsame
    refine ⟨h.saved, nofun, fun _ _ _ => ?_⟩
    cases hlast : s.writes.getLast? with
    | some payload =>
      exact .inl ⟨payload, hlast, hreturn hsame payload hlast⟩
    | none =>
      have hne : s.lastSavedConfig ≠ [] := by
        rw [← hsame]
        exact hook.json.compact_ne_nil _
      obtain ⟨payload, hcompact, hdisk⟩ := h.saved hne
      refine .inr ⟨List.getLast?_eq_none_iff.mp hlast, ?_⟩
      show s.disk = some (hook.json.indented (hook.payload config))
      rw [hdisk, hook.json.indented_eq payload (hook.payload config) (hcompact.trans hsame.symm)]
  · refine ⟨h.saved, fun payload hpayload => ?_, fun _ htimer => ?_⟩
    · cases hpayload
      rfl
    · cases htimer

theorem InStep.complete {ok : Bool} (h : s.InStep hook)
    (hstep : s.next hook (.complete ok) = some t) : t.InStep hook := by
  unfold SaveState.next at hstep
  dsimp only at hstep
  split at hstep
  · cases hstep
  · rename_i payload writes hwrites
    cases hstep
    cases ok with
    | false =>
      rw [if_neg Bool.false_ne_true]
      exact ⟨h.saved, h.timer, fun _ _ hfailed => absurd hfailed nofun⟩
    | true =>
      rw [if_pos rfl]
      refine ⟨fun _ => ⟨payload, rfl, rfl⟩, h.timer, fun hedited htimer hfailed => ?_⟩
      rcases h.arrives hedited htimer hfailed with ⟨last, hlast, hcompact⟩ | ⟨hnone, -⟩
      · rw [hwrites] at hlast
        cases writes with
        | nil =>
          cases hlast
          exact .inr ⟨rfl, congrArg some (hook.json.indented_eq _ _ hcompact)⟩
        | cons second rest =>
          rw [List.getLast?_cons_cons] at hlast
          exact .inl ⟨last, hlast, hcompact⟩
      · rw [hwrites] at hnone
        cases hnone

theorem InStep.next {event : SaveEvent Config} (h : s.InStep hook)
    (hguard : SettledReturn hook s event) (hstep : s.next hook event = some t) :
    t.InStep hook := by
  cases event with
  | load =>
    cases hstep
    exact ⟨h.saved, h.timer, h.arrives⟩
  | edit config =>
    cases hstep
    exact h.effect hguard
  | expire =>
    obtain ⟨payload, htimer, rfl⟩ := Option.map_eq_some_iff.mp hstep
    refine ⟨h.saved, nofun, fun _ _ _ => .inl ⟨payload, ?_, ?_⟩⟩
    · exact List.getLast?_concat
    · rw [h.timer payload htimer]
  | complete ok => exact h.complete hstep

end SaveState

/-! ## The result -/

variable {hook}

/-- **Debounced saving converges**, in every run in which edits come after loading and no edit is
taken back while it is being written. -/
theorem converged_of_settledReturn {disk : Option Text} {config : Config}
    {s : SaveState Config Payload}
    (h : ((saveMachine hook disk config).restrict (SettledReturn hook)).Reachable s) :
    s.Converged hook := by
  have hinv : s.InStep hook := by
    refine h.induct (fun s hs => ?_) fun s event t _ hinv hstep => ?_
    · rw [hs]
      exact ⟨fun hne => absurd rfl hne, nofun, nofun⟩
    · exact hinv.next hstep.1 hstep.2
  exact hinv.converged

/-! ## The host key policy -/

def sampleJson : JsonText Text where
  compact p := '(' :: p
  indented p := p
  compact_ne_nil _ := List.cons_ne_nil _ _
  indented_eq _ _ h := (List.cons.inj h).2

def samplePolicy : SaveHook Text Text := useSessionSettings id sampleJson

/-- A policy is saved, and then another one. -/
theorem sampleEdits_converged : ∃ s : SaveState Text Text, s.Converged samplePolicy ∧
    s.disk = some "strict".toList ∧ s.timer = none ∧ s.writes = [] := by
  have hrun : ∃ s, Machine.exec
        (fun s event => if SettledReturn samplePolicy s event then SaveState.next samplePolicy s event
          else none)
        (.start none "ask".toList)
        [.load, .edit "off".toList, .expire, .complete true, .edit "strict".toList, .expire,
          .complete true] = some s ∧
      s.disk = some "strict".toList ∧ s.timer = none ∧ s.writes = [] := ⟨_, rfl, rfl, rfl, rfl⟩
  obtain ⟨s, hexec, hdisk, htimer, hwrites⟩ := hrun
  exact ⟨s, converged_of_settledReturn
    (Machine.reachable_restrict (Machine.reachable_exec hexec)), hdisk, htimer, hwrites⟩

/-- The policy `ask` is saved. It is changed to `off`, and changed back while `off` is being
written: `off` stays on disk. -/
theorem sampleReturn_diverged : ∃ s : SaveState Text Text,
    (saveMachine samplePolicy none "strict".toList).Reachable s ∧ s.config = "ask".toList ∧
      s.disk = some "off".toList ∧ ¬s.Converged samplePolicy := by
  have hrun : ∃ s, Machine.exec (SaveState.next samplePolicy) (.start none "strict".toList)
        [.load, .edit "ask".toList, .expire, .complete true, .edit "off".toList, .expire,
          .edit "ask".toList, .complete true] = some s ∧
      s.config = "ask".toList ∧ s.disk = some "off".toList ∧ s.edited = true ∧ s.timer = none ∧
      s.writes = [] ∧ s.failed = false := ⟨_, rfl, rfl, rfl, rfl, rfl, rfl, rfl⟩
  obtain ⟨s, hexec, hconfig, hdisk, hedited, htimer, hwrites, hfailed⟩ := hrun
  refine ⟨s, Machine.reachable_exec hexec, hconfig, hdisk, fun hconverged => ?_⟩
  have hwrong := hconverged hedited htimer hwrites hfailed
  rw [hdisk, hconfig] at hwrong
  revert hwrong
  decide

end FluxTerm.Window
