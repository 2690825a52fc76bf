import FluxTerm.Lib.JsNumber
import FluxTerm.Security.Sealed

/-!
# FluxTerm — saving the AI settings

`ai_settings.rs`, as far as a save of the settings page goes: what is stored of each provider, and
how the update of its key is carried out against what is stored so far.
-/

namespace FluxTerm.Ai

open Lib Engine
open Security (AiLimits CryptoService Primitives Sealed protectOptionalString
  revealOptionalString trim trim_trim)

/-! ## Providers -/

inductive AiProviderMode where
  | preset
  | compatible
deriving DecidableEq

inductive AiProviderVendor where
  | openai
  | deepseek
  | qwen
  | moonshot
  | custom
deriving DecidableEq

/-- A provider. What `key` is depends on where it is. -/
structure AiProvider (κ : Type) where
  id : Text
  mode : AiProviderMode
  vendor : AiProviderVendor
  name : Text
  baseUrl : Text
  model : Text
  key : κ
deriving DecidableEq

inductive SecretFieldUpdate where
  | keep
  | replace (value : Text)
  | clear
deriving DecidableEq

def SecretFieldUpdate.effective : SecretFieldUpdate → SecretFieldUpdate
  | .replace value => if trim value = [] then .keep else .replace (trim value)
  | update => update

/-- `AiProviderSettings`: the key is `api_key_ref`. -/
abbrev AiProviderSettings := AiProvider (Option Text)

/-- `AiProviderView`: the key is `api_key_configured`. -/
abbrev AiProviderView := AiProvider Bool

/-- `AiProviderInput`: the key is the update `api_key`. -/
abbrev AiProviderInput := AiProvider SecretFieldUpdate

variable {κ κ' : Type}

def bare (s : Text) : Text := trimBy (fun c => isWhitespace c || isJsWhitespace c) s

/-- What a provider is besides its key, up to blanks at the ends of its texts. -/
def AiProvider.shown (provider : AiProvider κ) : AiProvider Unit where
  id := provider.id
  mode := provider.mode
  vendor := provider.vendor
  name := bare provider.name
  baseUrl := bare provider.baseUrl
  model := bare provider.model
  key := ()

def SameProviders (ps : List (AiProvider κ)) (qs : List (AiProvider κ')) : Prop :=
  ps.map AiProvider.shown = qs.map AiProvider.shown

instance (ps : List (AiProvider κ)) (qs : List (AiProvider κ')) : Decidable (SameProviders ps qs) :=
  inferInstanceAs (Decidable (_ = _))

def IdsTrimmed (ps : List (AiProvider κ)) : Prop := ∀ p ∈ ps, trim p.id = p.id

/-- `AiSettings`, and `AiSettingsView` where the keys are flags. -/
structure SettingsOf (κ : Type) where
  limits : AiLimits
  activeProviderId : Text
  providers : List (AiProvider κ)

abbrev AiSettings := SettingsOf (Option Text)

abbrev AiSettingsView := SettingsOf Bool

abbrev AiSettingsSaveInput := SettingsOf SecretFieldUpdate

/-! ## The check -/

def AiProvider.keyPart (provider : AiProviderSettings) : Security.AiProviderSettings :=
  ⟨provider.id, provider.key⟩

/-- A provider with its texts trimmed and a blank key dropped. -/
def AiProvider.trimmed (provider : AiProviderSettings) : AiProviderSettings where
  id := trim provider.id
  mode := provider.mode
  vendor := provider.vendor
  name := trim provider.name
  baseUrl := trim provider.baseUrl
  model := trim provider.model
  key := (provider.key.map trim).filter (· ≠ [])

/-- `validate_ai_settings`: it checks the limits, the ids and the active provider as it does when
the keys are rewritten, and trims the other texts too. -/
def validateAiSettings (settings : AiSettings) : Except EngineError AiSettings := do
  let checked ← Security.validateAiSettings
    ⟨settings.limits, settings.activeProviderId, settings.providers.map AiProvider.keyPart⟩
  return {
    limits := checked.limits
    activeProviderId := checked.activeProviderId
    providers := settings.providers.map AiProvider.trimmed }

def buildSettingsView (settings : AiSettings) : AiSettingsView where
  limits := settings.limits
  activeProviderId := settings.activeProviderId
  providers := settings.providers.map fun provider =>
    { provider with key := provider.key.isSome }

/-! ## A save -/

/-- `current_provider_map.get(id)`: a later provider replaces an earlier one with its id. -/
def currentProvider (current : AiSettings) (id : Text) : Option AiProviderSettings :=
  current.providers.reverse.find? (·.id = id)

/-- `api_key_ref` in `build_ai_settings_from_input`. -/
def apiKeyRef (P : Primitives) (service : CryptoService) (nonce : Security.Bytes) (current : AiSettings)
    (provider : AiProviderInput) : Except EngineError (Option Text) :=
  let kept := (currentProvider current provider.id).bind AiProvider.key
  match provider.key.effective with
  | .keep => .ok kept
  | .clear => .ok none
  | .replace value => protectOptionalString P service nonce (some value)

/-- `build_ai_settings_from_input`, with a nonce for each provider. -/
def buildAiSettingsFromInput (P : Primitives) (service : CryptoService) (nonce : ℕ → Security.Bytes)
    (current : AiSettings) (input : AiSettingsSaveInput) : Except EngineError AiSettings := do
  let nextProviders ← collect (fun i (provider : AiProviderInput) => do
    let key ← apiKeyRef P service (nonce i) current provider
    return { provider with key }) 0 input.providers
  validateAiSettings ⟨input.limits, input.activeProviderId, nextProviders⟩

structure SaveOutcome where
  readFails : Option EngineError
  cryptoFails : Option EngineError
  writeFails : Option EngineError
  nonce : ℕ → Security.Bytes

/-- An operation that returns `a` unless it fails. -/
def orFails {α : Type} (failure : Option EngineError) (a : α) : Except EngineError α :=
  match failure with
  | some error => .error error
  | none => .ok a

/-- `save_ai_settings_input`: the settings that are in the file afterwards, if it succeeds. -/
def saveAiSettingsInput (P : Primitives) (service : CryptoService) (outcome : SaveOutcome)
    (file : AiSettings) (input : AiSettingsSaveInput) : Except EngineError AiSettings := do
  let current ← validateAiSettings (← orFails outcome.readFails file)
  let service ← orFails outcome.cryptoFails service
  let next ← buildAiSettingsFromInput P service outcome.nonce current input
  let validated ← validateAiSettings next
  orFails outcome.writeFails validated

theorem eq_of_orFails {α : Type} {failure : Option EngineError} {a b : α}
    (h : orFails failure a = .ok b) : b = a := by
  cases failure with
  | some error => cases h
  | none => exact (Except.ok.inj h).symm

/-! ## What a save makes of the providers -/

theorem bare_trim (s : Text) : bare (trim s) = bare s :=
  trimBy_trimBy fun c hc => by simp [hc]

theorem bare_trimJs (s : Text) : bare (trimBy isJsWhitespace s) = bare s :=
  trimBy_trimBy fun c hc => by simp [hc]

theorem AiProvider.trimmed_trimmed (provider : AiProviderSettings) :
    provider.trimmed.trimmed = provider.trimmed := by
  have hkey := congrArg Security.AiProviderSettings.apiKeyRef
    provider.keyPart.trimmed_trimmed
  obtain ⟨id, mode, vendor, name, baseUrl, model, key⟩ := provider
  simp only [AiProvider.trimmed, trim_trim]
  congr 1

theorem validateAiSettings_providers {settings checked : AiSettings}
    (h : validateAiSettings settings = .ok checked) :
    checked.providers = settings.providers.map AiProvider.trimmed := by
  obtain ⟨_, _, h⟩ := bind_eq_ok_iff.mp h
  cases h
  rfl

def AiSettings.Checked (settings : AiSettings) : Prop :=
  ∀ p ∈ settings.providers, p.trimmed = p

theorem AiSettings.Checked.map_trimmed {settings : AiSettings} (h : settings.Checked) :
    settings.providers.map AiProvider.trimmed = settings.providers := by
  conv_rhs => rw [← List.map_id settings.providers]
  exact List.map_congr_left h

theorem AiSettings.Checked.idsTrimmed {settings : AiSettings} (h : settings.Checked) :
    IdsTrimmed settings.providers := fun p hp => congrArg AiProvider.id (h p hp)

theorem checked_of_validate {settings checked : AiSettings}
    (h : validateAiSettings settings = .ok checked) : checked.Checked := by
  intro p hp
  rw [validateAiSettings_providers h] at hp
  obtain ⟨q, -, rfl⟩ := List.mem_map.mp hp
  exact q.trimmed_trimmed

variable {P : Primitives} {service : CryptoService} {file saved : AiSettings}

def keyAfter (P : Primitives) (service : CryptoService) (file : AiSettings)
    (provider : AiProviderInput) : Except EngineError (Option Text) :=
  match provider.key.effective with
  | .keep =>
    revealOptionalString P service ((currentProvider file provider.id).bind AiProvider.key)
  | .clear => .ok none
  | .replace value => .ok (some value)

/-- What a save makes of a provider. -/
structure SavedFrom (P : Primitives) (service : CryptoService) (file : AiSettings)
    (provider : AiProviderInput) (stored : AiProviderSettings) : Prop where
  id : stored.id = trim provider.id
  shown : trim provider.id = provider.id → stored.shown = provider.shown
  trimmed : stored.trimmed = stored
  key : revealOptionalString P service stored.key = keyAfter P service file provider

theorem map_trim_kept (hfile : file.Checked) (id : Text) :
    (((currentProvider file id).bind AiProvider.key).map trim).filter (· ≠ [])
      = (currentProvider file id).bind AiProvider.key := by
  cases hfound : currentProvider file id with
  | none => rfl
  | some provider =>
    have hmem : provider ∈ file.providers :=
      List.mem_reverse.mp (List.mem_of_find?_eq_some hfound)
    exact congrArg AiProvider.key (hfile provider hmem)

theorem apiKeyRef_ok (hP : P.Lawful) (hfile : file.Checked) {nonce : Security.Bytes}
    {provider : AiProviderInput} {key : Option Text}
    (h : apiKeyRef P service nonce file provider = .ok key) :
    revealOptionalString P service ((key.map trim).filter (· ≠ []))
      = keyAfter P service file provider := by
  rw [apiKeyRef] at h
  rw [keyAfter]
  cases hupdate : provider.key.effective with
  | keep =>
    simp only [hupdate] at h
    cases h
    rw [map_trim_kept hfile]
  | clear =>
    simp only [hupdate] at h
    cases h
    rfl
  | replace value =>
    simp only [hupdate] at h
    have hsealed := Security.sealed_of_protect hP.roundTrips h
    -- the value is not blank, so there is a token for it
    have hvalue : trim value = value ∧ value ≠ [] := by
      cases hkey : provider.key with
      | keep => simp [hkey, SecretFieldUpdate.effective] at hupdate
      | clear => simp [hkey, SecretFieldUpdate.effective] at hupdate
      | replace raw =>
        rw [hkey, SecretFieldUpdate.effective] at hupdate
        split at hupdate
        · cases hupdate
        · rename_i hne
          cases hupdate
          exact ⟨trim_trim raw, hne⟩
    have hblank : Security.isBlank value = false := by
      rw [Security.isBlank, hvalue.1]
      simpa using hvalue.2
    have hreveal := Security.reveal_of_sealed hsealed fun s hs => by
      cases hs
      exact hblank
    cases hsealed with
    | blank hs => rw [hblank] at hs; cases hs
    | @token _ t hs hpre hspace hdecrypt =>
      have hne : t ≠ [] := by
        rintro rfl
        exact absurd (List.prefix_nil.mp hpre) (by decide)
      simpa [Security.trim_token hspace, hne, Option.filter] using hreveal

/-- **What a save makes of the providers**, one by one. -/
theorem saveAiSettingsInput_ok (hP : P.Lawful) (hfile : file.Checked) {outcome : SaveOutcome}
    {input : AiSettingsSaveInput}
    (h : saveAiSettingsInput P service outcome file input = .ok saved) :
    List.Forall₂ (SavedFrom P service file) input.providers saved.providers := by
  obtain ⟨raw, hraw, h⟩ := bind_eq_ok_iff.mp h
  obtain ⟨current, hcurrent, h⟩ := bind_eq_ok_iff.mp h
  obtain ⟨service', hservice, h⟩ := bind_eq_ok_iff.mp h
  obtain ⟨next, hnext, h⟩ := bind_eq_ok_iff.mp h
  obtain ⟨validated, hvalidated, hwrite⟩ := bind_eq_ok_iff.mp h
  obtain ⟨built, hbuilt, hnext⟩ := bind_eq_ok_iff.mp hnext
  obtain rfl := eq_of_orFails hraw
  obtain rfl := eq_of_orFails hservice
  obtain rfl := eq_of_orFails hwrite
  -- reading and writing check again what has been checked
  have hproviders : current.providers = raw.providers :=
    (validateAiSettings_providers hcurrent).trans hfile.map_trimmed
  have hcurrentProvider : currentProvider current = currentProvider raw := by
    funext id
    rw [currentProvider, currentProvider, hproviders]
  have hsaved : saved.providers = built.map AiProvider.trimmed := by
    rw [validateAiSettings_providers hvalidated, (checked_of_validate hnext).map_trimmed,
      validateAiSettings_providers hnext]
  rw [hsaved, List.forall₂_map_right_iff]
  refine forall₂_of_collect (fun i provider stored hstored => ?_) hbuilt
  obtain ⟨key, hkey, hstored⟩ := bind_eq_ok_iff.mp hstored
  cases hstored
  refine ⟨rfl, fun hid => ?_, AiProvider.trimmed_trimmed _, ?_⟩
  · simp only [AiProvider.shown, AiProvider.trimmed, bare_trim, hid]
  · have hkey' : apiKeyRef P service' (outcome.nonce i) raw provider = .ok key := by
      rw [apiKeyRef, ← hcurrentProvider]
      exact hkey
    exact apiKeyRef_ok hP hfile hkey'

theorem sameProviders_of_forall₂ {ps : List AiProviderInput} {qs : List AiProviderSettings}
    (hids : IdsTrimmed ps) (h : List.Forall₂ (SavedFrom P service file) ps qs) :
    SameProviders qs ps := by
  induction h with
  | nil => rfl
  | cons hpq _ ih =>
    have hrest := ih fun p hp => hids p (List.mem_cons_of_mem _ hp)
    exact List.cons_eq_cons.mpr ⟨hpq.shown (hids _ List.mem_cons_self), hrest⟩

end FluxTerm.Ai
