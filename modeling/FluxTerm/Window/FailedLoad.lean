import FluxTerm.Window.DebouncedSave

/-!
# FluxTerm — documents that cannot be loaded

The hooks that own a configuration document, in one window from its start on: `useAppSettings.ts`,
`useSessionSettings.ts`, `useQuickBarState.ts`, `useLayoutState.ts` and `useCommandHistoryState.ts`.
A hook that cannot read or parse its document goes on with its defaults.

* **`untouched_of_inOrder`** — the result on runs; **`overwritten_of_not_inOrder`** — what happens
  otherwise; **`useAppSettings_overwrites`**, **`useCommandHistoryState_overwrites`** — two hooks
  whose starts all meet it.

Two states of a hook are equal when React finds them so: an object has a stamp, and an object that
is set anew has another one. What follows by microtasks alone belongs to the step.
-/

namespace FluxTerm.Window.Start

open FluxTerm.Lib

/-! ## The hooks -/

structure Stamped (Value : Type) where
  value : Value
  stamp : ℕ
deriving DecidableEq

def Stamped.set {Value : Type} (object : Stamped Value) (value : Value) : Stamped Value :=
  ⟨value, object.stamp + 1⟩

/-- A hook that owns a document, with what it does at the start. -/
structure StartHook (Config Payload Deps : Type) extends SaveHook Config Payload where
  compares : Bool
  deps : Config → ℕ → Deps
  /-- The save effect depends on `settingsLoaded` too. -/
  watchesLoaded : Bool
  /-- `JSON.parse`, and what is set then, with the locale of the load. -/
  restore : Text → Option (Text → Config → Config)
  reset : Option (Config → Config)
  shells : Option (Option (List Text) → Config → Config)
  follow : Option (Text → Config → Config)

section Hooks

variable {Settings Payload : Type}

/-- The state of `useAppSettings`. -/
structure AppSettings (Settings : Type) where
  shellId : Option Text
  /-- `pendingShellIdRef`. -/
  pendingShellId : Option Text
  settings : Settings

def resolveDefaultShellId (shells : List Text) : Option Text :=
  if "powershell".toList ∈ shells then some "powershell".toList else shells.head?

/-- `refreshAvailableShells`, and what is done when it fails at the start. -/
def refreshAvailableShells (shells : Option (List Text)) (state : AppSettings Settings) :
    AppSettings Settings :=
  match shells with
  | none => { state with shellId := none }
  | some shells =>
    let preferred := state.shellId.or state.pendingShellId
    let available := preferred.filter fun id => id ≠ [] ∧ id ∈ shells
    { state with shellId := available.or (resolveDefaultShellId shells) }

/-- `useAppSettings`, with the normalisation of its settings. -/
def useAppSettings (payload : Option Text → Settings → Payload) (json : JsonText Payload)
    (restore : Text → Option (AppSettings Settings → AppSettings Settings)) :
    StartHook (AppSettings Settings) Payload (Option Text × Settings × ℕ) where
  payload state := payload state.shellId state.settings
  json := json
  floating := false
  compares := true
  deps state retries := (state.shellId, state.settings, retries)
  watchesLoaded := true
  restore raw := (restore raw).map fun set _ => set
  reset := none
  shells := some refreshAvailableShells
  follow := none

/-- `useSessionSettings`. -/
def useSessionSettings (normalize : Settings → Payload) (json : JsonText Payload)
    (restore : Text → Option (Settings → Settings)) :
    StartHook Settings Payload (Settings × ℕ) where
  toSaveHook := Window.useSessionSettings normalize json
  compares := true
  deps settings retries := (settings, retries)
  watchesLoaded := false
  restore raw := (restore raw).map fun set _ => set
  reset := none
  shells := none
  follow := none

structure QuickCommandGroup where
  id : Text
  name : Text
  order : ℕ
  visible : Bool
deriving DecidableEq

structure QuickBarConfig (Command : Type) where
  showGroupTitle : Bool
  groups : List QuickCommandGroup
  commands : List Command

/-- The state of `useQuickBarState`. -/
structure QuickBarState (Command : Type) where
  showGroupTitle : Bool
  groups : Stamped (List QuickCommandGroup)
  commands : Stamped (List Command)
deriving DecidableEq

/-- `DEFAULT_QUICKBAR_GROUP_ID`. -/
def defaultGroupId : Text := "00000000-0000-4000-8000-000000000001".toList

def renameDefaultGroup {Command : Type} (defaultGroupName : Text → Text) (locale : Text)
    (state : QuickBarState Command) : QuickBarState Command :=
  { state with
    groups := state.groups.set <| state.groups.value.map fun group =>
      if group.id = defaultGroupId then { group with name := defaultGroupName locale } else group }

/-- `useQuickBarState`, with `normalizeConfig` and `t("quickbar.group.default")`. -/
def useQuickBarState {Command : Type} (json : JsonText (QuickBarConfig Command))
    (normalizeConfig : Text → Option (Text → QuickBarConfig Command))
    (defaultGroupName : Text → Text) :
    StartHook (QuickBarState Command) (QuickBarConfig Command) (QuickBarState Command) where
  payload state := ⟨state.showGroupTitle, state.groups.value, state.commands.value⟩
  json := json
  floating := false
  compares := true
  deps state _ := state
  watchesLoaded := false
  restore raw := (normalizeConfig raw).map fun normalized locale state => {
    showGroupTitle := (normalized locale).showGroupTitle
    groups := state.groups.set (normalized locale).groups
    commands := state.commands.set (normalized locale).commands }
  reset := none
  shells := none
  follow := some (renameDefaultGroup defaultGroupName)

/-- `useLayoutState`, with `buildPersistentSlots` and the slots that it adds. -/
def useLayoutState (persistent : Settings → Payload) (json : JsonText Payload)
    (floatingWidgetKey : Bool) (restore : Text → Option (Settings → Settings)) :
    StartHook Settings Payload Settings where
  toSaveHook := Window.useLayoutState persistent json floatingWidgetKey
  compares := true
  deps layout _ := layout
  watchesLoaded := false
  restore raw := (restore raw).map fun set _ => set
  reset := none
  shells := none
  follow := none

/-- `useCommandHistoryState`, with `normalizeCommandHistoryStore`. -/
def useCommandHistoryState {Buckets : Type} (noBuckets : Buckets) (json : JsonText Buckets)
    (normalizeCommandHistoryStore : Text → Option Buckets) :
    StartHook (Stamped Buckets) Buckets (Stamped Buckets) where
  payload store := store.value
  json := json
  floating := false
  compares := false
  deps store _ := store
  watchesLoaded := false
  restore raw := (normalizeCommandHistoryStore raw).map fun buckets _ store => store.set buckets
  reset := some fun store => store.set noBuckets
  shells := none
  follow := none

end Hooks

/-! ## A window -/

inductive SaveStatus where
  | idle
  | saving
  | saved
  | error
deriving DecidableEq

structure StartState (Config Payload Deps : Type) where
  config : Config
  locale : Text
  loaded : Bool
  /-- `saveRetryToken`. -/
  retries : ℕ
  seen : Deps × Bool
  reads : List Text
  listing : Bool
  /-- `saveTimerRef`, while the timer runs, with what it saves. -/
  timer : Option Payload
  lastSavedConfig : Text
  saveState : SaveStatus
  writes : List Payload
  disk : Option Text
  changed : Bool

inductive StartStep (Config : Type) where
  | commit (locale : Text)
  | answerRead (locale : Text) (ok : Bool)
  | listShells (shells : Option (List Text))
  | rescan (shells : List Text)
  | change (config : Config)
  /-- `retrySave`, which is offered after a write has failed. -/
  | retry
  | expire
  | complete (ok : Bool)

variable {Config Payload Deps : Type} (hook : StartHook Config Payload Deps)

namespace StartState

variable (s : StartState Config Payload Deps)

/-- After the first commit and its effects. -/
def start (disk : Option Text) (config : Config) (locale : Text) :
    StartState Config Payload Deps where
  config := match hook.follow with
    | none => config
    | some follow => follow locale config
  locale
  loaded := false
  retries := 0
  seen := (hook.deps config 0, false)
  reads := [locale]
  listing := false
  timer := none
  lastSavedConfig := []
  saveState := .idle
  writes := []
  disk
  changed := false

def depends : Deps × Bool := (hook.deps s.config s.retries, hook.watchesLoaded && s.loaded)

def saveEffect : StartState Config Payload Deps :=
  let s := { s with seen := s.depends hook, timer := none }
  if !s.loaded || hook.floating then s
  else if hook.compares ∧ hook.json.compact (hook.payload s.config) = s.lastSavedConfig then s
  else { s with timer := some (hook.payload s.config), saveState := .saving }

def commit [DecidableEq Deps] (locale : Text) : StartState Config Payload Deps :=
  let s := if s.depends hook = s.seen then s else s.saveEffect hook
  match hook.follow with
  | none => s
  | some follow =>
    if locale = s.locale then s
    else { s with locale, reads := locale :: s.reads, config := follow locale s.config }

/-- What a load has found is set; then the hook is ready, or lists the shells. -/
def answerRead (locale : Text) (ok : Bool) : StartState Config Payload Deps :=
  let restored := if ok then s.disk.bind hook.restore else none
  { s with
    config := match restored, hook.reset with
      | some restore, _ => restore locale s.config
      | none, some reset => reset s.config
      | none, none => s.config
    reads := s.reads.erase locale
    listing := hook.shells.isSome
    loaded := s.loaded || hook.shells.isNone }

def listShells (set : Option (List Text) → Config → Config) (shells : Option (List Text)) :
    StartState Config Payload Deps :=
  { s with config := set shells s.config, listing := false, loaded := true }

/-- One step. A write replaces the document as a whole or leaves it. -/
def next [DecidableEq Deps] (s : StartState Config Payload Deps) :
    StartStep Config → Option (StartState Config Payload Deps)
  | .commit locale => some (s.commit hook locale)
  | .answerRead locale ok =>
    if locale ∈ s.reads then some (s.answerRead hook locale ok) else none
  | .listShells shells =>
    if s.listing then hook.shells.map (s.listShells · shells) else none
  | .rescan shells => hook.shells.map fun set => { s with config := set (some shells) s.config }
  | .change config => some { s with config, changed := true }
  | .retry => if s.saveState = .error then some { s with retries := s.retries + 1 } else none
  | .expire => s.timer.map fun payload =>
    { s with timer := none, writes := s.writes ++ [payload] }
  | .complete ok =>
    match s.writes with
    | [] => none
    | payload :: writes => some (
      if ok then { s with
        writes
        disk := some (hook.json.indented payload)
        lastSavedConfig := hook.json.compact payload
        saveState := .saved }
      else { s with writes, saveState := .error })

end StartState

def startMachine [DecidableEq Deps] (disk : Option Text) (config : Config) (locale : Text) :
    Machine (StartState Config Payload Deps) (StartStep Config) :=
  .ofStep (.start hook disk config locale) (StartState.next hook)

/-! ## What is wanted -/

def Untouched (stored : Text) (s : StartState Config Payload Deps) : Prop :=
  s.changed = false → s.disk = some stored

def StartStep.LoadFails (s : StartState Config Payload Deps) : StartStep Config → Prop
  | .answerRead _ ok => s.changed = false → ok = true → s.disk.bind hook.restore = none
  | _ => True

def StartHook.SetsItself (hook : StartHook Config Payload Deps) : Prop :=
  hook.watchesLoaded = true ∨ hook.reset.isSome ∨ hook.shells.isSome ∨ hook.follow.isSome

def StartStep.InOrder (s : StartState Config Payload Deps) : StartStep Config → Prop
  | .commit _ => hook.SetsItself → s.loaded = true → s.changed = false →
    hook.floating = true ∨ s.depends hook = s.seen
  | _ => True

/-! ## The invariant -/

section Results

variable {hook} {stored : Text} {s t : StartState Config Payload Deps}

/-- Nothing has been saved, and nothing is about to be saved. -/
structure Quiet (hook : StartHook Config Payload Deps) (stored : Text)
    (s : StartState Config Payload Deps) : Prop where
  timer : s.timer = none
  lastSavedConfig : s.lastSavedConfig = []
  saveState : s.saveState = .idle
  writes : s.writes = []
  disk : s.disk = some stored
  seen : ¬hook.SetsItself → s.depends hook = s.seen

theorem quiet_start (config : Config) (locale : Text) :
    Quiet hook stored (.start hook (some stored) config locale) := by
  refine ⟨rfl, rfl, rfl, rfl, rfl, fun hsteady => ?_⟩
  have hfollow : hook.follow = none := Option.eq_none_iff_forall_not_mem.mpr fun follow hfollow =>
    hsteady (.inr (.inr (.inr (Option.isSome_of_mem hfollow))))
  unfold StartState.depends StartState.start
  rw [hfollow, Bool.and_false]

theorem Quiet.saveEffect (h : Quiet hook stored s)
    (hloaded : s.loaded = false ∨ hook.floating = true) :
    Quiet hook stored (s.saveEffect hook) := by
  have hskips : (!s.loaded || hook.floating) = true := by
    rcases hloaded with hloaded | hfloating
    · rw [hloaded]
      rfl
    · rw [hfloating, Bool.or_true]
  unfold StartState.saveEffect
  dsimp only
  rw [if_pos hskips]
  exact ⟨rfl, h.lastSavedConfig, h.saveState, h.writes, h.disk, fun _ => rfl⟩

theorem StartState.commit_changed [DecidableEq Deps] (locale : Text) :
    (s.commit hook locale).changed = s.changed := by
  have hsaved : (if s.depends hook = s.seen then s else s.saveEffect hook).changed = s.changed := by
    unfold StartState.saveEffect
    dsimp only
    split_ifs <;> rfl
  unfold StartState.commit
  generalize (if s.depends hook = s.seen then s else s.saveEffect hook) = u at hsaved ⊢
  dsimp only
  split
  · exact hsaved
  · split
    · exact hsaved
    · exact hsaved

theorem Quiet.commit [DecidableEq Deps] (h : Quiet hook stored s) (hchanged : s.changed = false)
    {locale : Text} (horder : StartStep.InOrder hook s (.commit locale)) :
    Quiet hook stored (s.commit hook locale) := by
  have hsaved : Quiet hook stored (if s.depends hook = s.seen then s else s.saveEffect hook) := by
    split
    · exact h
    · rename_i hnew
      refine h.saveEffect ?_
      by_cases hsets : hook.SetsItself
      · cases hloaded : s.loaded with
        | false => exact .inl rfl
        | true => exact .inr ((horder hsets hloaded hchanged).resolve_right hnew)
      · exact absurd (h.seen hsets) hnew
  unfold StartState.commit
  generalize (if s.depends hook = s.seen then s else s.saveEffect hook) = u at hsaved ⊢
  dsimp only
  split
  · exact hsaved
  · rename_i follow hfollow
    split
    · exact hsaved
    · refine ⟨hsaved.timer, hsaved.lastSavedConfig, hsaved.saveState, hsaved.writes, hsaved.disk,
        fun hsteady => absurd (.inr (.inr (.inr ?_))) hsteady⟩
      rw [hfollow]
      rfl

theorem Quiet.answerRead (h : Quiet hook stored s) {locale : Text} {ok : Bool}
    (hfails : ok = true → s.disk.bind hook.restore = none) :
    Quiet hook stored (s.answerRead hook locale ok) := by
  have hrestored : (if ok then s.disk.bind hook.restore else none) = none := by
    split
    · rename_i hok
      exact hfails hok
    · rfl
  refine ⟨h.timer, h.lastSavedConfig, h.saveState, h.writes, h.disk, fun hsteady => ?_⟩
  have hwatches : hook.watchesLoaded = false := by
    by_contra hwatches
    exact hsteady (.inl (Bool.not_eq_false _ ▸ hwatches))
  have hreset : hook.reset = none := Option.eq_none_iff_forall_not_mem.mpr fun reset hreset =>
    hsteady (.inr (.inl (Option.isSome_of_mem hreset)))
  have hseen := h.seen hsteady
  unfold StartState.depends at hseen ⊢
  unfold StartState.answerRead
  dsimp only
  rw [hrestored, hreset]
  dsimp only
  rw [hwatches, Bool.false_and] at hseen ⊢
  exact hseen

theorem steady_of_shells {set : Option (List Text) → Config → Config} (h : hook.shells = some set)
    (hsteady : ¬hook.SetsItself) : False :=
  hsteady (.inr (.inr (.inl (h ▸ rfl))))

/-- **The step lemma.** -/
theorem Quiet.next [DecidableEq Deps] {step : StartStep Config}
    (h : s.changed = false → Quiet hook stored s) (hfails : step.LoadFails hook s)
    (horder : step.InOrder hook s) (hstep : s.next hook step = some t)
    (hchanged : t.changed = false) : Quiet hook stored t := by
  unfold StartState.next at hstep
  split at hstep
  · cases hstep
    rw [StartState.commit_changed] at hchanged
    exact (h hchanged).commit hchanged horder
  · split at hstep
    · cases hstep
      exact (h hchanged).answerRead (hfails hchanged)
    · cases hstep
  · split at hstep
    · obtain ⟨set, hshells, rfl⟩ := Option.map_eq_some_iff.mp hstep
      have hs := h hchanged
      exact ⟨hs.timer, hs.lastSavedConfig, hs.saveState, hs.writes, hs.disk,
        fun hsteady => (steady_of_shells hshells hsteady).elim⟩
    · cases hstep
  · obtain ⟨set, hshells, rfl⟩ := Option.map_eq_some_iff.mp hstep
    have hs := h hchanged
    exact ⟨hs.timer, hs.lastSavedConfig, hs.saveState, hs.writes, hs.disk,
      fun hsteady => (steady_of_shells hshells hsteady).elim⟩
  · cases hstep
    cases hchanged
  · split at hstep
    · rename_i herror
      cases hstep
      exact absurd ((h hchanged).saveState.symm.trans herror) nofun
    · cases hstep
  · obtain ⟨payload, htimer, rfl⟩ := Option.map_eq_some_iff.mp hstep
    exact absurd ((h hchanged).timer.symm.trans htimer) nofun
  · split at hstep
    · cases hstep
    · rename_i payload writes hwrites
      have hunchanged : s.changed = false := by
        split at hstep <;> cases hstep <;> exact hchanged
      exact absurd ((h hunchanged).writes.symm.trans hwrites) nofun

theorem quiet_of_reachable [DecidableEq Deps] {config : Config} {locale : Text}
    (h : ((startMachine hook (some stored) config locale).restrict fun s step =>
      step.LoadFails hook s ∧ step.InOrder hook s).Reachable s) (hchanged : s.changed = false) :
    Quiet hook stored s := by
  refine h.induct (I := fun s => s.changed = false → Quiet hook stored s) ?_ ?_ hchanged
  · rintro s rfl -
    exact quiet_start config locale
  · rintro s step t - hs ⟨⟨hfails, horder⟩, hstep⟩
    exact Quiet.next hs hfails horder hstep

end Results

/-! ## The results -/

section

variable {hook} [DecidableEq Deps] {stored : Text} {config : Config} {locale : Text}

/-- **The document stays as it is** until the user changes something, in any start in which it
cannot be loaded and whose commits meet the condition. -/
theorem untouched_of_inOrder (s : StartState Config Payload Deps)
    (h : ((startMachine hook (some stored) config locale).restrict fun s step =>
      step.LoadFails hook s ∧ step.InOrder hook s).Reachable s) : Untouched stored s :=
  fun hchanged => (quiet_of_reachable h hchanged).disk

theorem Quiet.commit_timer {s : StartState Config Payload Deps} (h : Quiet hook stored s)
    (hloaded : s.loaded = true) (hfloating : hook.floating = false)
    (hnew : s.depends hook ≠ s.seen) (next : Text) :
    (s.commit hook next).timer = some (hook.payload s.config) ∧
      (s.commit hook next).writes = [] := by
  have hsaved : (s.saveEffect hook).timer = some (hook.payload s.config) ∧
      (s.saveEffect hook).writes = [] := by
    have hruns : ¬(!s.loaded || hook.floating) = true := by
      rw [hloaded, hfloating]
      exact Bool.false_ne_true
    have hdirty : ¬(hook.compares ∧
        hook.json.compact (hook.payload s.config) = s.lastSavedConfig) :=
      fun hclean => hook.json.compact_ne_nil _ (hclean.2.trans h.lastSavedConfig)
    unfold StartState.saveEffect
    dsimp only
    rw [if_neg hruns, if_neg hdirty]
    exact ⟨rfl, h.writes⟩
  unfold StartState.commit
  rw [if_neg hnew]
  generalize s.saveEffect hook = u at hsaved ⊢
  dsimp only
  split
  · exact hsaved
  · split
    · exact hsaved
    · exact hsaved

/-- **Otherwise it is overwritten**, after a commit that does not meet the condition. -/
theorem overwritten_of_not_inOrder {s : StartState Config Payload Deps}
    (h : ((startMachine hook (some stored) config locale).restrict fun s step =>
      step.LoadFails hook s ∧ step.InOrder hook s).Reachable s) (next : Text)
    (hnot : ¬StartStep.InOrder hook s (.commit next)) :
    ∃ t, ((startMachine hook (some stored) config locale).restrict
        fun s step => step.LoadFails hook s).Reachable t ∧
      t.changed = false ∧ t.disk = some (hook.json.indented (hook.payload s.config)) := by
  have hreach := h.restrict_mono (H := fun s step => step.LoadFails hook s) fun _ _ h => h.1
  unfold StartStep.InOrder at hnot
  push Not at hnot
  obtain ⟨-, hloaded, hchanged, hfloating, hnew⟩ := hnot
  have hcommit := (quiet_of_reachable h hchanged).commit_timer hloaded
    (Bool.not_eq_true _ ▸ hfloating) hnew next
  have hchanged' : (s.commit hook next).changed = false := (s.commit_changed next).trans hchanged
  have hcommitted := hreach.step ⟨show StartStep.LoadFails hook s (.commit next) from trivial, rfl⟩
  generalize s.commit hook next = u at hcommit hchanged' hcommitted
  obtain ⟨htimer, hwrites⟩ := hcommit
  have hexpire : u.next hook .expire = some { u with
      timer := none
      writes := [hook.payload s.config] } := by
    unfold StartState.next
    dsimp only
    rw [htimer, hwrites]
    rfl
  have hexpired := hcommitted.step ⟨show StartStep.LoadFails hook u .expire from trivial, hexpire⟩
  exact ⟨_, hexpired.step ⟨show StartStep.LoadFails hook _ (.complete true) from trivial, rfl⟩,
    hchanged', rfl⟩

theorem reachable_failedRead (hook : StartHook Config Payload Deps) (stored : Text)
    (config : Config) (locale : Text) :
    ((startMachine hook (some stored) config locale).restrict fun s step =>
      step.LoadFails hook s ∧ step.InOrder hook s).Reachable
        ((StartState.start hook (some stored) config locale).answerRead hook locale false) := by
  have hfails : (StartStep.answerRead locale false).LoadFails hook
      (.start hook (some stored) config locale) := fun _ hok => absurd hok Bool.false_ne_true
  have horder : (StartStep.answerRead locale false).InOrder hook
      (.start hook (some stored) config locale) := trivial
  exact .step (.init rfl) ⟨⟨hfails, horder⟩, if_pos List.mem_cons_self⟩

end

section Overwrites

variable {Settings Buckets : Type} [DecidableEq Settings] [DecidableEq Buckets]

/-- **`useAppSettings` overwrites** what it cannot load, whatever the shells are. -/
theorem useAppSettings_overwrites (payload : Option Text → Settings → Payload)
    (json : JsonText Payload)
    (restore : Text → Option (AppSettings Settings → AppSettings Settings)) (stored : Text)
    (state : AppSettings Settings) (locale : Text) (shells : Option (List Text)) :
    ∃ t, ((startMachine (useAppSettings payload json restore) (some stored) state locale).restrict
        fun s step => step.LoadFails (useAppSettings payload json restore) s).Reachable t ∧
      t.changed = false ∧
      t.disk = some (json.indented
        (payload (refreshAvailableShells shells state).shellId state.settings)) := by
  have hread := reachable_failedRead (useAppSettings payload json restore) stored state locale
  have hlisted := hread.step
    ⟨show StartStep.LoadFails _ _ (.listShells shells) ∧
      StartStep.InOrder _ _ (.listShells shells) from ⟨trivial, trivial⟩, rfl⟩
  obtain ⟨t, ht, hchanged, hdisk⟩ := overwritten_of_not_inOrder hlisted locale
    fun horder => by
      rcases horder (.inl rfl) rfl rfl with hfloating | hsame
      · cases hfloating
      · cases congrArg Prod.snd hsame
  exact ⟨t, ht, hchanged, hdisk.trans (by cases shells <;> rfl)⟩

/-- **`useCommandHistoryState` overwrites** what it cannot load with an empty store. -/
theorem useCommandHistoryState_overwrites (noBuckets : Buckets) (json : JsonText Buckets)
    (normalizeCommandHistoryStore : Text → Option Buckets) (stored : Text)
    (store : Stamped Buckets) (locale : Text) :
    ∃ t, ((startMachine (useCommandHistoryState noBuckets json normalizeCommandHistoryStore)
        (some stored) store locale).restrict fun s step =>
          step.LoadFails (useCommandHistoryState noBuckets json normalizeCommandHistoryStore)
            s).Reachable t ∧
      t.changed = false ∧ t.disk = some (json.indented noBuckets) := by
  have hread := reachable_failedRead
    (useCommandHistoryState noBuckets json normalizeCommandHistoryStore) stored store locale
  obtain ⟨t, ht, hchanged, hdisk⟩ := overwritten_of_not_inOrder hread locale
    fun horder => by
      rcases horder (.inr (.inl rfl)) rfl rfl with hfloating | hsame
      · cases hfloating
      · -- another object has been set
        exact absurd (congrArg (fun deps => deps.1.stamp) hsame) (Nat.succ_ne_self _)
  exact ⟨t, ht, hchanged, hdisk⟩

end Overwrites

/-! ## A document that does not parse -/

def sampleGroupsJson : JsonText (QuickBarConfig Text) where
  compact config := '(' :: config.groups.flatMap (·.name)
  indented config := '(' :: config.groups.flatMap (·.name)
  compact_ne_nil _ := List.cons_ne_nil _ _
  indented_eq _ _ h := h

def sampleQuickBar : StartHook (QuickBarState Text) (QuickBarConfig Text) (QuickBarState Text) :=
  useQuickBarState sampleGroupsJson (fun _ => none) id

def sampleSettings : StartHook (AppSettings Unit) Text (Option Text × Unit × ℕ) :=
  useAppSettings (fun shellId _ => shellId.getD []) sampleJson fun _ => none

/-- The default group is renamed before the load ends, and nothing is saved after it. -/
theorem untouched_of_inOrder_sampleQuickBar :
    ∃ s : StartState (QuickBarState Text) (QuickBarConfig Text) (QuickBarState Text),
      Untouched "[".toList s ∧ s.changed = false ∧ s.loaded = true ∧
      s.config.groups = ⟨[⟨defaultGroupId, "zh".toList, 0, true⟩], 1⟩ := by
  let config : QuickBarState Text := ⟨true, ⟨[⟨defaultGroupId, [], 0, true⟩], 0⟩, ⟨[], 0⟩⟩
  have hstart : ((startMachine sampleQuickBar (some "[".toList) config
      "zh".toList).restrict fun s step =>
        step.LoadFails sampleQuickBar s ∧ step.InOrder sampleQuickBar s).Reachable
      (.start sampleQuickBar (some "[".toList) config "zh".toList) := .init rfl
  have hrenamed := hstart.step ⟨show StartStep.LoadFails _ _ (.commit "zh".toList) ∧
    StartStep.InOrder _ _ (.commit "zh".toList) from ⟨trivial, fun _ => nofun⟩, rfl⟩
  have hread := hrenamed.step ⟨show StartStep.LoadFails _ _ (.answerRead "zh".toList true) ∧
    StartStep.InOrder _ _ (.answerRead "zh".toList true) from ⟨fun _ _ => rfl, trivial⟩, rfl⟩
  have hcommitted := hread.step ⟨show StartStep.LoadFails _ _ (.commit "zh".toList) ∧
    StartStep.InOrder _ _ (.commit "zh".toList) from ⟨trivial, fun _ _ _ => .inr rfl⟩, rfl⟩
  exact ⟨_, untouched_of_inOrder _ hcommitted, by decide, by decide, by decide⟩

/-- The application settings do not parse, and the default shell is saved. -/
theorem sampleSettings_overwritten : ¬∀ s, ((startMachine sampleSettings (some "[".toList)
    ⟨none, none, ()⟩ "zh".toList).restrict fun s step => step.LoadFails sampleSettings s).Reachable
      s → Untouched "[".toList s := by
  intro h
  obtain ⟨t, hreach, hchanged, hdisk⟩ := useAppSettings_overwrites
    (fun shellId (_ : Unit) => shellId.getD []) sampleJson (fun _ => none) "[".toList
    ⟨none, none, ()⟩ "zh".toList (some ["sh".toList])
  have hwrong := (h t hreach hchanged).symm.trans hdisk
  revert hwrong
  decide

end FluxTerm.Window.Start
