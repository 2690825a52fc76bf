import FluxTerm.Security.Crypto

/-!
# FluxTerm — the stores that hold secrets

The records whose fields are secrets, and their encryption and decryption: SSH profiles
(`profile_secrets.rs`), credentials (`credential_store.rs`) and the AI settings (`ai_settings.rs`),
all under `src-tauri/src`. A store is the content that its file is read as; a missing file reads
as an empty store.
-/

namespace FluxTerm.Security

open FluxTerm.Engine FluxTerm.Lib

/-! ## One secret field -/

/-- `trim().is_empty()`. -/
def isBlank (s : Text) : Bool := trim s == []

/-- `SecretStore::protect_optional_string`. A blank plaintext is not stored. -/
def protectOptionalString (P : Primitives) (service : CryptoService) (nonce : Bytes)
    (value : Option Text) : Except EngineError (Option Text) :=
  match value with
  | some raw => if isBlank raw then .ok none else (service.encryptString P nonce raw).map some
  | none => .ok none

def revealOptionalString (P : Primitives) (service : CryptoService) (value : Option Text) :
    Except EngineError (Option Text) :=
  match value with
  | some raw =>
    if isBlank raw then .ok none
    else if ¬secretTokenPrefix.isPrefixOf raw then
      .error (.new "secret_format_unsupported"
        "Invalid credential format; only enc:v1 ciphertext is supported")
    else (service.decryptString P raw).map some
  | none => .ok none

/-! ## Records with secret fields -/

structure SshProxyConfig where
  passwordRef : Option Text
deriving DecidableEq

structure HostProfile where
  id : Text
  passwordRef : Option Text
  privateKeyPassphraseRef : Option Text
  proxyConfig : Option SshProxyConfig
deriving DecidableEq

structure Credential where
  id : Text
  passwordRef : Text
deriving DecidableEq

structure AiProviderSettings where
  id : Text
  apiKeyRef : Option Text
deriving DecidableEq

/-- The numeric limits of `AiSettings`. -/
structure AiLimits where
  selectionMaxChars : ℕ
  sessionRecentOutputMaxChars : ℕ
  sessionRecentOutputMaxSnippets : ℕ
  selectionRecentOutputMaxChars : ℕ
  selectionRecentOutputMaxSnippets : ℕ
  requestCacheTtlMs : ℕ
  requestTimeoutMs : ℕ
deriving DecidableEq

structure AiSettings where
  limits : AiLimits
  activeProviderId : Text
  providers : List AiProviderSettings
deriving DecidableEq

section MapSecrets

variable (f : ℕ → Option Text → Except EngineError (Option Text))

/-- A profile with `f` applied to its secret fields. -/
def HostProfile.mapSecrets (profile : HostProfile) : Except EngineError HostProfile := do
  let passwordRef ← f 0 profile.passwordRef
  let privateKeyPassphraseRef ← f 1 profile.privateKeyPassphraseRef
  match profile.proxyConfig with
  | none => return { profile with passwordRef, privateKeyPassphraseRef }
  | some proxyConfig =>
    let proxyPasswordRef ← f 2 proxyConfig.passwordRef
    return { profile with
      passwordRef
      privateKeyPassphraseRef
      proxyConfig := some { proxyConfig with passwordRef := proxyPasswordRef } }

/-- A credential with `f` applied to its password, which has to be there afterwards. -/
def Credential.mapSecret (absent : EngineError) (credential : Credential) :
    Except EngineError Credential := do
  match ← f 0 (some credential.passwordRef) with
  | some passwordRef => return { credential with passwordRef }
  | none => .error absent

/-- AI settings with `f` applied to the keys of the providers. -/
def AiSettings.mapSecrets (settings : AiSettings) : Except EngineError AiSettings := do
  let providers ← collect (fun i provider => do
    let apiKeyRef ← f i provider.apiKeyRef
    return { provider with apiKeyRef }) 0 settings.providers
  return { settings with providers }

end MapSecrets

def encryptProfileSecrets (P : Primitives) (service : CryptoService) (nonce : ℕ → Bytes)
    (profile : HostProfile) : Except EngineError HostProfile :=
  profile.mapSecrets fun field => protectOptionalString P service (nonce field)

def decryptProfileSecrets (P : Primitives) (service : CryptoService) (profile : HostProfile) :
    Except EngineError HostProfile :=
  profile.mapSecrets fun _ => revealOptionalString P service

/-- `encrypt_ssh_profiles`, with a nonce for each field of each profile. -/
def encryptSshProfiles (P : Primitives) (service : CryptoService) (nonce : ℕ → ℕ → Bytes)
    (profiles : List HostProfile) : Except EngineError (List HostProfile) :=
  collect (fun i => encryptProfileSecrets P service (nonce i)) 0 profiles

def decryptSshProfiles (P : Primitives) (service : CryptoService) (profiles : List HostProfile) :
    Except EngineError (List HostProfile) :=
  collect (fun _ => decryptProfileSecrets P service) 0 profiles

def encryptCredentials (P : Primitives) (service : CryptoService) (nonce : ℕ → Bytes)
    (credentials : List Credential) : Except EngineError (List Credential) :=
  collect (fun i => Credential.mapSecret (fun _ => protectOptionalString P service (nonce i))
    (.new "credential_password_required" "Credential password is required")) 0 credentials

def decryptCredentials (P : Primitives) (service : CryptoService)
    (credentials : List Credential) : Except EngineError (List Credential) :=
  collect (fun _ => Credential.mapSecret (fun _ => revealOptionalString P service)
    (.new "credential_password_missing" "Credential password is missing")) 0 credentials

/-! ## The AI settings -/

/-- The limit checks of `validate_ai_settings`. -/
def AiLimits.check (limits : AiLimits) : Except EngineError Unit :=
  if limits.selectionMaxChars = 0 then
    .error (.new "ai_settings_invalid"
      "selectionMaxChars in the terminal AI settings must be greater than zero")
  else if limits.sessionRecentOutputMaxChars = 0 ∨ limits.sessionRecentOutputMaxSnippets = 0
      ∨ limits.selectionRecentOutputMaxChars = 0 ∨ limits.selectionRecentOutputMaxSnippets = 0
      ∨ limits.requestCacheTtlMs = 0 ∨ limits.requestTimeoutMs = 0 then
    .error (.new "ai_settings_invalid" ("Context budgets, cache TTL, and request timeout in the "
      ++ "terminal AI settings must be greater than zero"))
  else .ok ()

def AiProviderSettings.trimmed (provider : AiProviderSettings) : AiProviderSettings where
  id := trim provider.id
  apiKeyRef := (provider.apiKeyRef.map trim).filter (· ≠ [])

/-- The loop of `validate_ai_settings` over the providers, with the ids seen so far. -/
def validateProviders : List Text → List AiProviderSettings →
    Except EngineError (List AiProviderSettings)
  | _, [] => .ok []
  | seenIds, provider :: providers =>
    if provider.trimmed.id = [] then
      .error (.new "ai_settings_invalid" "AI provider configuration id is required")
    else if provider.trimmed.id ∈ seenIds then
      .error (.new "ai_settings_invalid" "AI provider configuration ids must be unique")
    else do
      let providers ← validateProviders (provider.trimmed.id :: seenIds) providers
      return provider.trimmed :: providers

/-- The active provider after `validate_ai_settings`: an id that names no provider is cleared. -/
def validActiveProviderId (providers : List AiProviderSettings) (activeProviderId : Text) : Text :=
  if providers = [] then []
  else if activeProviderId ≠ [] ∧ ¬providers.any (·.id == activeProviderId) then []
  else activeProviderId

def validateAiSettings (settings : AiSettings) : Except EngineError AiSettings := do
  settings.limits.check
  let providers ← validateProviders [] settings.providers
  return { settings with
    providers
    activeProviderId := validActiveProviderId providers (trim settings.activeProviderId) }

def encryptAiSettings (P : Primitives) (service : CryptoService) (nonce : ℕ → Bytes)
    (settings : AiSettings) : Except EngineError AiSettings :=
  settings.mapSecrets fun i => protectOptionalString P service (nonce i)

/-- `decrypt_ai_settings`, which reads the settings first. -/
def decryptAiSettings (P : Primitives) (service : CryptoService) (file : AiSettings) :
    Except EngineError AiSettings := do
  let settings ← validateAiSettings file
  settings.mapSecrets fun _ => revealOptionalString P service

/-! ## The secret fields of a store -/

def HostProfile.refs (profile : HostProfile) : List (Option Text) :=
  profile.passwordRef :: profile.privateKeyPassphraseRef
    :: (profile.proxyConfig.map (·.passwordRef)).toList

def sshRefs (profiles : List HostProfile) : List (Option Text) := profiles.flatMap (·.refs)

def credentialRefs (credentials : List Credential) : List (Option Text) :=
  credentials.map fun credential => some credential.passwordRef

def AiSettings.refs (settings : AiSettings) : List (Option Text) :=
  settings.providers.map (·.apiKeyRef)

/-! ## Stores with related secret fields -/

section Related

variable {R R' : Option Text → Option Text → Prop}
  {f : ℕ → Option Text → Except EngineError (Option Text)}

/-- Two profiles that differ in their secret fields only, which `R` relates. -/
structure HostProfile.Related (R : Option Text → Option Text → Prop) (p q : HostProfile) : Prop where
  id : q.id = p.id
  passwordRef : R p.passwordRef q.passwordRef
  privateKeyPassphraseRef : R p.privateKeyPassphraseRef q.privateKeyPassphraseRef
  proxyConfig : Option.Rel (fun a b => R a.passwordRef b.passwordRef) p.proxyConfig q.proxyConfig

/-- Two credentials that differ in their password only, which `R` relates. -/
structure Credential.Related (R : Option Text → Option Text → Prop) (c d : Credential) : Prop where
  id : d.id = c.id
  passwordRef : R (some c.passwordRef) (some d.passwordRef)

/-- Two providers that differ in their key only, which `R` relates. -/
structure AiProviderSettings.Related (R : Option Text → Option Text → Prop)
    (a b : AiProviderSettings) : Prop where
  id : b.id = a.id
  apiKeyRef : R a.apiKeyRef b.apiKeyRef

/-- Two AI settings that differ in the keys of the providers only, which `R` relates. -/
structure AiSettings.Related (R : Option Text → Option Text → Prop) (s t : AiSettings) : Prop where
  limits : t.limits = s.limits
  activeProviderId : t.activeProviderId = s.activeProviderId
  providers : List.Forall₂ (AiProviderSettings.Related R) s.providers t.providers

theorem HostProfile.mapSecrets_eq_ok_iff {p q : HostProfile} : p.mapSecrets f = .ok q ↔
    q.id = p.id ∧ f 0 p.passwordRef = .ok q.passwordRef ∧
      f 1 p.privateKeyPassphraseRef = .ok q.privateKeyPassphraseRef ∧
      Option.Rel (fun a b => f 2 a.passwordRef = .ok b.passwordRef) p.proxyConfig q.proxyConfig := by
  obtain ⟨id, passwordRef, privateKeyPassphraseRef, proxyConfig⟩ := p
  obtain ⟨id', passwordRef', privateKeyPassphraseRef', proxyConfig'⟩ := q
  rw [HostProfile.mapSecrets, bind_eq_ok_iff]
  constructor
  · rintro ⟨v, hv, h⟩
    obtain ⟨w, hw, h⟩ := bind_eq_ok_iff.mp h
    cases proxyConfig with
    | none => cases h; exact ⟨rfl, hv, hw, .none⟩
    | some proxy =>
      obtain ⟨x, hx, h⟩ := bind_eq_ok_iff.mp h
      cases h
      exact ⟨rfl, hv, hw, .some hx⟩
  · rintro ⟨rfl, hv, hw, hx⟩
    refine ⟨_, hv, bind_eq_ok_iff.mpr ⟨_, hw, ?_⟩⟩
    cases hx with
    | none => rfl
    | some hx => exact bind_eq_ok_iff.mpr ⟨_, hx, rfl⟩

theorem Credential.mapSecret_eq_ok_iff {absent : EngineError} {c d : Credential} :
    c.mapSecret f absent = .ok d ↔
      d.id = c.id ∧ f 0 (some c.passwordRef) = .ok (some d.passwordRef) := by
  obtain ⟨id, passwordRef⟩ := d
  rw [Credential.mapSecret, bind_eq_ok_iff]
  constructor
  · rintro ⟨v, hv, h⟩
    cases v with
    | none => cases h
    | some v => cases h; exact ⟨rfl, hv⟩
  · rintro ⟨hid, hv⟩
    refine ⟨_, hv, ?_⟩
    subst hid
    rfl

theorem optionRel_imp {α β : Type} {S S' : α → β → Prop} (himp : ∀ a b, S a b → S' a b)
    {x : Option α} {y : Option β} (h : Option.Rel S x y) : Option.Rel S' x y := by
  cases h with
  | none => exact .none
  | some hab => exact .some (himp _ _ hab)

theorem HostProfile.related_of_mapSecrets (hf : ∀ i v w, f i v = .ok w → R v w)
    {p q : HostProfile} (h : p.mapSecrets f = .ok q) : HostProfile.Related R p q := by
  obtain ⟨hid, hv, hw, hx⟩ := HostProfile.mapSecrets_eq_ok_iff.mp h
  exact ⟨hid, hf 0 _ _ hv, hf 1 _ _ hw, optionRel_imp (fun _ _ hx => hf 2 _ _ hx) hx⟩

theorem HostProfile.mapSecrets_of_related (hf : ∀ i v w, R v w → f i v = .ok w)
    {p q : HostProfile} (h : HostProfile.Related R p q) : p.mapSecrets f = .ok q :=
  HostProfile.mapSecrets_eq_ok_iff.mpr ⟨h.id, hf 0 _ _ h.passwordRef,
    hf 1 _ _ h.privateKeyPassphraseRef,
    optionRel_imp (fun _ _ hx => hf 2 _ _ hx) h.proxyConfig⟩

theorem HostProfile.exists_mapSecrets (hf : ∀ i v, ∃ w, f i v = .ok w) (p : HostProfile) :
    ∃ q, p.mapSecrets f = .ok q := by
  obtain ⟨id, passwordRef, privateKeyPassphraseRef, proxyConfig⟩ := p
  obtain ⟨v, hv⟩ := hf 0 passwordRef
  obtain ⟨w, hw⟩ := hf 1 privateKeyPassphraseRef
  cases proxyConfig with
  | none => exact ⟨⟨id, v, w, none⟩, HostProfile.mapSecrets_eq_ok_iff.mpr ⟨rfl, hv, hw, .none⟩⟩
  | some proxy =>
    obtain ⟨x, hx⟩ := hf 2 proxy.passwordRef
    exact ⟨⟨id, v, w, some ⟨x⟩⟩, HostProfile.mapSecrets_eq_ok_iff.mpr ⟨rfl, hv, hw, .some hx⟩⟩

theorem HostProfile.Related.refs {p q : HostProfile} (h : HostProfile.Related R p q) :
    List.Forall₂ R p.refs q.refs := by
  obtain ⟨-, hv, hw, hproxy⟩ := h
  obtain ⟨id, passwordRef, privateKeyPassphraseRef, proxyConfig⟩ := p
  obtain ⟨id', passwordRef', privateKeyPassphraseRef', proxyConfig'⟩ := q
  refine .cons hv (.cons hw ?_)
  cases hproxy with
  | none => exact .nil
  | some hx => exact .cons hx .nil

theorem HostProfile.Related.flip {p q : HostProfile} (h : HostProfile.Related R p q)
    (hR : ∀ v ∈ p.refs, ∀ w, R v w → R' w v) : HostProfile.Related R' q p := by
  obtain ⟨hid, hv, hw, hproxy⟩ := h
  obtain ⟨id, passwordRef, privateKeyPassphraseRef, proxyConfig⟩ := p
  obtain ⟨id', passwordRef', privateKeyPassphraseRef', proxyConfig'⟩ := q
  refine ⟨hid.symm, hR _ (by simp [HostProfile.refs]) _ hv,
    hR _ (by simp [HostProfile.refs]) _ hw, ?_⟩
  cases hproxy with
  | none => exact .none
  | some hx => exact .some (hR _ (by simp [HostProfile.refs]) _ hx)

theorem HostProfile.Related.unique {p q q' : HostProfile} (h : HostProfile.Related R p q)
    (h' : HostProfile.Related R' p q') (hR : ∀ v w w', R v w → R' v w' → w = w') : q = q' := by
  obtain ⟨hid, hv, hw, hproxy⟩ := h
  obtain ⟨hid', hv', hw', hproxy'⟩ := h'
  obtain ⟨id, passwordRef, privateKeyPassphraseRef, proxyConfig⟩ := p
  obtain ⟨idQ, v, w, proxy⟩ := q
  obtain ⟨idQ', v', w', proxy'⟩ := q'
  have hproxyEq : proxy = proxy' := by
    cases hproxy with
    | none => cases hproxy'; rfl
    | some hx =>
      cases hproxy' with
      | some hx' => exact congrArg (fun ref => some (SshProxyConfig.mk ref)) (hR _ _ _ hx hx')
  have hidEq : idQ = idQ' := hid.trans hid'.symm
  have hvEq : v = v' := hR _ _ _ hv hv'
  have hwEq : w = w' := hR _ _ _ hw hw'
  rw [hidEq, hvEq, hwEq, hproxyEq]

theorem Credential.Related.unique {c d d' : Credential} (h : Credential.Related R c d)
    (h' : Credential.Related R' c d') (hR : ∀ v w w', R v w → R' v w' → w = w') : d = d' := by
  obtain ⟨_, _⟩ := d
  obtain ⟨_, _⟩ := d'
  have href := hR _ _ _ h.passwordRef h'.passwordRef
  have hid := h.id.trans h'.id.symm
  simp_all

theorem AiSettings.Related.unique {s t t' : AiSettings} (h : AiSettings.Related R s t)
    (h' : AiSettings.Related R' s t') (hR : ∀ v w w', R v w → R' v w' → w = w') : t = t' := by
  obtain ⟨_, _, _⟩ := t
  obtain ⟨_, _, _⟩ := t'
  have hproviders := forall₂_unique (fun a b b' (hb : AiProviderSettings.Related R a b)
    (hb' : AiProviderSettings.Related R' a b') => by
      obtain ⟨_, _⟩ := b
      obtain ⟨_, _⟩ := b'
      have hid := hb.id.trans hb'.id.symm
      have href := hR _ _ _ hb.apiKeyRef hb'.apiKeyRef
      simp_all) h.providers h'.providers
  have hlimits := h.limits.trans h'.limits.symm
  have hactive := h.activeProviderId.trans h'.activeProviderId.symm
  simp_all

theorem AiSettings.related_of_mapSecrets (hf : ∀ i v w, f i v = .ok w → R v w)
    {s t : AiSettings} (h : s.mapSecrets f = .ok t) : AiSettings.Related R s t := by
  obtain ⟨providers, hproviders, h⟩ := bind_eq_ok_iff.mp h
  cases h
  refine ⟨rfl, rfl, forall₂_of_collect (fun i a b hab => ?_) hproviders⟩
  obtain ⟨w, hw, hab⟩ := bind_eq_ok_iff.mp hab
  cases hab
  exact ⟨rfl, hf i _ _ hw⟩

theorem AiSettings.mapSecrets_of_related (hf : ∀ i v w, R v w → f i v = .ok w)
    {s t : AiSettings} (h : AiSettings.Related R s t) : s.mapSecrets f = .ok t := by
  obtain ⟨limits, activeProviderId, providers⟩ := t
  obtain ⟨hlimits, hactive, hproviders⟩ := h
  refine bind_eq_ok_iff.mpr
    ⟨providers, collect_of_forall₂ (fun i a b hab => ?_) hproviders 0, ?_⟩
  · obtain ⟨id, apiKeyRef⟩ := b
    obtain ⟨hid, href⟩ := hab
    refine bind_eq_ok_iff.mpr ⟨apiKeyRef, hf i _ _ href, ?_⟩
    subst hid
    rfl
  · subst hlimits hactive
    rfl

theorem AiSettings.exists_mapSecrets (hf : ∀ i v, ∃ w, f i v = .ok w) (s : AiSettings) :
    ∃ t, s.mapSecrets f = .ok t := by
  obtain ⟨providers, hproviders⟩ := exists_collect_eq_ok
    (f := fun i (provider : AiProviderSettings) => do
      let apiKeyRef ← f i provider.apiKeyRef
      return { provider with apiKeyRef }) (fun i provider (_ : provider ∈ s.providers) => by
        obtain ⟨w, hw⟩ := hf i provider.apiKeyRef
        exact ⟨_, bind_eq_ok_iff.mpr ⟨w, hw, rfl⟩⟩) 0
  exact ⟨_, bind_eq_ok_iff.mpr ⟨providers, hproviders, rfl⟩⟩

theorem sshRefs_related {ps qs : List HostProfile}
    (h : List.Forall₂ (HostProfile.Related R) ps qs) :
    List.Forall₂ R (sshRefs ps) (sshRefs qs) := by
  induction h with
  | nil => exact .nil
  | cons hpq _ ih =>
    rw [sshRefs, sshRefs, List.flatMap_cons, List.flatMap_cons]
    exact List.rel_append hpq.refs ih

theorem credentialRefs_related {cs ds : List Credential}
    (h : List.Forall₂ (Credential.Related R) cs ds) :
    List.Forall₂ R (credentialRefs cs) (credentialRefs ds) := by
  induction h with
  | nil => exact .nil
  | cons hcd _ ih => exact .cons hcd.passwordRef ih

theorem AiSettings.Related.refs {s t : AiSettings} (h : AiSettings.Related R s t) :
    List.Forall₂ R s.refs t.refs := by
  obtain ⟨-, -, hproviders⟩ := h
  rw [AiSettings.refs, AiSettings.refs]
  generalize s.providers = ps at hproviders ⊢
  generalize t.providers = qs at hproviders ⊢
  induction hproviders with
  | nil => exact .nil
  | cons hab _ ih => exact .cons hab.apiKeyRef ih

theorem AiSettings.Related.map_id {s t : AiSettings} (h : AiSettings.Related R s t) :
    t.providers.map (·.id) = s.providers.map (·.id) := by
  obtain ⟨-, -, hproviders⟩ := h
  generalize s.providers = ps at hproviders ⊢
  generalize t.providers = qs at hproviders ⊢
  induction hproviders with
  | nil => rfl
  | cons hab _ ih => rw [List.map_cons, List.map_cons, hab.id, ih]

theorem AiSettings.Related.flip {s t : AiSettings} (h : AiSettings.Related R s t)
    (hR : ∀ v ∈ s.refs, ∀ w, R v w → R' w v) : AiSettings.Related R' t s := by
  obtain ⟨hlimits, hactive, hproviders⟩ := h
  refine ⟨hlimits.symm, hactive.symm, ?_⟩
  rw [AiSettings.refs] at hR
  generalize s.providers = ps at hproviders hR ⊢
  generalize t.providers = qs at hproviders ⊢
  induction hproviders with
  | nil => exact .nil
  | cons hab _ ih =>
    exact .cons ⟨hab.id.symm, hR _ List.mem_cons_self _ hab.apiKeyRef⟩
      (ih fun v hv => hR v (List.mem_cons_of_mem _ hv))

end Related

/-! ## Valid AI settings -/

/-- What `validate_ai_settings` establishes. -/
structure AiSettings.Valid (settings : AiSettings) : Prop where
  limits : settings.limits.check = .ok ()
  trimmed : ∀ provider ∈ settings.providers, provider.trimmed = provider
  ids : ∀ provider ∈ settings.providers, provider.id ≠ []
  nodup : (settings.providers.map (·.id)).Nodup
  activeProviderId : validActiveProviderId settings.providers (trim settings.activeProviderId)
    = settings.activeProviderId

theorem trim_trim (s : Text) : trim (trim s) = trim s := trimBy_idem

theorem AiProviderSettings.trimmed_trimmed (provider : AiProviderSettings) :
    provider.trimmed.trimmed = provider.trimmed := by
  obtain ⟨id, apiKeyRef⟩ := provider
  simp only [AiProviderSettings.trimmed, trim_trim]
  congr 1
  cases apiKeyRef with
  | none => rfl
  | some ref => by_cases href : trim ref = [] <;> simp [href, trim_trim, Option.filter]

theorem validateProviders_eq_ok_iff {seenIds : List Text} {ps qs : List AiProviderSettings} :
    validateProviders seenIds ps = .ok qs ↔ qs = ps.map (·.trimmed) ∧
      (∀ q ∈ qs, q.id ≠ [] ∧ q.id ∉ seenIds) ∧ (qs.map (·.id)).Nodup := by
  induction ps generalizing seenIds qs with
  | nil =>
    rw [validateProviders, Except.ok.injEq, eq_comm]
    constructor
    · rintro rfl; simp
    · exact fun h => h.1
  | cons p ps ih =>
    rw [validateProviders]
    by_cases hempty : p.trimmed.id = []
    · rw [if_pos hempty]
      constructor
      · intro h; cases h
      · rintro ⟨rfl, h, -⟩
        exact absurd hempty (h p.trimmed (by simp)).1
    by_cases hseen : p.trimmed.id ∈ seenIds
    · rw [if_neg hempty, if_pos hseen]
      constructor
      · intro h; cases h
      · rintro ⟨rfl, h, -⟩
        exact absurd hseen (h p.trimmed (by simp)).2
    rw [if_neg hempty, if_neg hseen, bind_eq_ok_iff]
    constructor
    · rintro ⟨qs', hqs', h⟩
      cases h
      obtain ⟨hmap, hids, hnodup⟩ := ih.mp hqs'
      have hnew : ∀ q ∈ qs', q.id ≠ [] ∧ q.id ∉ seenIds ∧ q.id ≠ p.trimmed.id := fun q hq => by
        have h := hids q hq
        rw [List.mem_cons, not_or] at h
        exact ⟨h.1, h.2.2, h.2.1⟩
      refine ⟨by rw [hmap]; rfl, ?_, ?_⟩
      · intro q hq
        rcases List.mem_cons.mp hq with rfl | hq
        · exact ⟨hempty, hseen⟩
        · exact ⟨(hnew q hq).1, (hnew q hq).2.1⟩
      · rw [List.map_cons, List.nodup_cons]
        refine ⟨fun hmem => ?_, hnodup⟩
        obtain ⟨q, hq, heq⟩ := List.mem_map.mp hmem
        exact (hnew q hq).2.2 heq
    · rintro ⟨rfl, hids, hnodup⟩
      rw [List.map_cons, List.map_cons, List.nodup_cons] at hnodup
      refine ⟨ps.map (·.trimmed), ih.mpr ⟨rfl, fun q hq => ?_, hnodup.2⟩, rfl⟩
      have hq' := hids q (by rw [List.map_cons]; exact List.mem_cons_of_mem _ hq)
      refine ⟨hq'.1, ?_⟩
      rw [List.mem_cons, not_or]
      exact ⟨fun heq => hnodup.1 (heq ▸ List.mem_map_of_mem hq), hq'.2⟩

theorem validActiveProviderId_eq (providers : List AiProviderSettings) (id : Text) :
    validActiveProviderId providers id = [] ∨ validActiveProviderId providers id = id := by
  rw [validActiveProviderId]
  split
  · exact .inl rfl
  · split
    · exact .inl rfl
    · exact .inr rfl

theorem validActiveProviderId_idem (providers : List AiProviderSettings) (id : Text)
    (hid : trim id = id) : validActiveProviderId providers
      (trim (validActiveProviderId providers id)) = validActiveProviderId providers id := by
  rcases validActiveProviderId_eq providers id with h | h
  · rw [h]
    rcases validActiveProviderId_eq providers (trim []) with h' | h' <;> exact h'
  · rw [h, hid, h]

theorem validActiveProviderId_congr {ps qs : List AiProviderSettings}
    (h : ps.map (·.id) = qs.map (·.id)) (id : Text) :
    validActiveProviderId ps id = validActiveProviderId qs id := by
  have hnil : ps = [] ↔ qs = [] := by
    rw [← List.map_eq_nil_iff (f := (·.id)), h, List.map_eq_nil_iff]
  have hany : ps.any (·.id == id) = qs.any (·.id == id) := by
    have hmap (l : List AiProviderSettings) : l.any (·.id == id) = (l.map (·.id)).any (· == id) := by
      rw [List.any_map]
      rfl
    rw [hmap, hmap, h]
  simp only [validActiveProviderId, hnil, hany]

theorem valid_of_validateAiSettings {file settings : AiSettings}
    (h : validateAiSettings file = .ok settings) : settings.Valid ∧
      settings.providers = file.providers.map (·.trimmed) := by
  obtain ⟨⟨⟩, hlimits, h⟩ := bind_eq_ok_iff.mp h
  obtain ⟨providers, hproviders, h⟩ := bind_eq_ok_iff.mp h
  cases h
  obtain ⟨hmap, hids, hnodup⟩ := validateProviders_eq_ok_iff.mp hproviders
  refine ⟨⟨hlimits, ?_, fun p hp => (hids p hp).1, hnodup,
    validActiveProviderId_idem _ _ (trim_trim _)⟩, hmap⟩
  intro p hp
  rw [hmap] at hp
  obtain ⟨q, -, rfl⟩ := List.mem_map.mp hp
  exact q.trimmed_trimmed

theorem validateAiSettings_of_valid {settings : AiSettings} (h : settings.Valid) :
    validateAiSettings settings = .ok settings := by
  have hmap : settings.providers.map (·.trimmed) = settings.providers := by
    conv_rhs => rw [← List.map_id settings.providers]
    exact List.map_congr_left h.trimmed
  have hproviders : validateProviders [] settings.providers = .ok settings.providers :=
    validateProviders_eq_ok_iff.mpr
      ⟨hmap.symm, fun p hp => ⟨h.ids p hp, List.not_mem_nil⟩, h.nodup⟩
  rw [validateAiSettings, h.limits, hproviders]
  simp only [bind, Except.bind, pure, Except.pure, h.activeProviderId]

end FluxTerm.Security
