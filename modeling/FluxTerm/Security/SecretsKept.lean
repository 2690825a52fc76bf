import FluxTerm.Security.SecretsRead

/-!
# FluxTerm — stored secrets are read back

`profile_save` and `credential_save` (`src-tauri/src/commands/profile.rs`, `credential.rs`) against
the readers of `SecretsRead`.

* **`noPlaintext_run`** — no sequence of commands stores a plaintext.
-/

namespace FluxTerm.Security

open FluxTerm.Engine FluxTerm.Lib

/-! ## What is wanted -/

/-- A stored field is absent, or a ciphertext of what is saved. -/
inductive Enciphered (P : Primitives) (crypto : CryptoService) :
    Option Text → Option Text → Prop where
  | absent {v : Option Text} : Enciphered P crypto v none
  | token {s t : Text} {nonce : Bytes} (h : crypto.encryptString P nonce s = .ok t) :
      Enciphered P crypto (some s) (some t)

/-- Some service made the text of some plaintext. -/
def IsCiphertext (P : Primitives) (ref : Text) : Prop :=
  ∃ (service : CryptoService) (nonce : Bytes) (plaintext : Text),
    service.encryptString P nonce plaintext = .ok ref

/-- No secret field of the stores is a plaintext. -/
structure NoPlaintext (P : Primitives) (stores : SecretStores) : Prop where
  profiles : ∀ profile ∈ stores.profiles, ∀ ref, some ref ∈ profile.refs → IsCiphertext P ref
  credentials : ∀ credential ∈ stores.credentials, IsCiphertext P credential.passwordRef

section Wanted

variable (P : Primitives) (ctx : SecurityContext)

def givenSecrets (uuid : Text) (profile : StoredProfile) : HostProfile :=
  { profile.toHostProfile with
    id := savedId uuid profile
    passwordRef := if trimmedCredentialId profile = none then profile.passwordRef else none }

/-- `profile_save` keeps the secrets of the profile, and leaves all others alone. -/
structure ProfileKept (uuid : Text) (profile saved : StoredProfile)
    (stores stores' : SecretStores) : Prop where
  given : saved.toHostProfile = givenSecrets uuid profile
  enciphered : ∃ crypto stored, ctx.crypto = .ok crypto ∧
    stores'.profiles.find? (·.id = saved.id) = some stored ∧
      HostProfile.Related (Enciphered P crypto) saved.toHostProfile stored.toHostProfile
  listed : ∀ faults listed, profileList P ctx faults stores' = .ok listed →
    ∃ shown, listed.find? (·.id = saved.id) = some shown ∧
      HostProfile.Related ReadBack saved.toHostProfile shown.toHostProfile
  lists : (∃ listed, profileList P ctx .none
      { stores with profiles := stores.profiles.eraseP (·.id = saved.id) } = .ok listed) →
    ∃ listed, profileList P ctx .none stores' = .ok listed
  connected : ∃ connected, resolveConnectProfile P ctx .none stores' saved.id = .ok connected ∧
    ConnectsWith P ctx stores' saved connected
  jumped : ∃ connected, resolveJumpProfile P ctx .none stores' saved.id = .ok connected ∧
    ConnectsWith P ctx stores' saved connected
  others : stores'.profiles.eraseP (·.id = saved.id) = stores.profiles.eraseP (·.id = saved.id)
  credentials : stores'.credentials = stores.credentials
  otherConnects : ∀ ctx' faults id, saved.id ≠ id →
    resolveConnectProfile P ctx' faults stores' id = resolveConnectProfile P ctx' faults stores id
  noPlaintext : NoPlaintext P stores → NoPlaintext P stores'

/-- The id under which `credential_save` saves. -/
def savedCredentialId (uuid : Text) (input : CredentialSaveInput) : Text :=
  if trim input.id = [] then uuid else input.id

/-- `credential_save` keeps the password, and leaves all others alone. -/
structure CredentialKept (uuid : Text) (input : CredentialSaveInput)
    (stores stores' : SecretStores) : Prop where
  enciphered : ∀ password, input.password = some password → ∃ crypto nonce stored,
    ctx.crypto = .ok crypto ∧
      stores'.credentials.find? (·.id = savedCredentialId uuid input) = some stored ∧
        crypto.encryptString P nonce password = .ok stored.passwordRef
  copied : ∀ password, input.password = some password →
    credentialResolveForCopy P ctx .none stores' (savedCredentialId uuid input)
      = .ok ⟨trim input.username, password⟩
  unchanged : input.password = none →
    (credentialResolveForCopy P ctx .none stores' (savedCredentialId uuid input)).map (·.password)
      = (credentialResolveForCopy P ctx .none stores (savedCredentialId uuid input)).map
        (·.password)
  connected : ∀ password, input.password = some password → password ≠ [] ∧
    ∀ faults profile connected, resolveProfileCredential P ctx faults stores' profile
      = .ok connected → profile.credentialId = some (savedCredentialId uuid input) →
        connected.passwordRef = some password
  others : stores'.credentials.eraseP (·.id = savedCredentialId uuid input)
    = stores.credentials.eraseP (·.id = savedCredentialId uuid input)
  profiles : stores'.profiles = stores.profiles
  otherCopied : ∀ ctx' faults id, savedCredentialId uuid input ≠ id →
    credentialResolveForCopy P ctx' faults stores' id
      = credentialResolveForCopy P ctx' faults stores id
  noPlaintext : NoPlaintext P stores → NoPlaintext P stores'

end Wanted

/-- Nothing that is saved is blank, unless it is empty; the id is not even that. -/
structure NothingBlank (uuid : Text) (profile : StoredProfile) : Prop where
  id : trim (savedId uuid profile) ≠ []
  secrets : ∀ v ∈ (givenSecrets uuid profile).refs, Whole v

section Results

variable {P : Primitives} {ctx : SecurityContext} {crypto : CryptoService}
  {faults : CommandFaults} {stores stores' : SecretStores}

theorem enciphered_of_protect {nonce : Bytes} {v w : Option Text}
    (h : protectOptionalString P crypto nonce v = .ok w) : Enciphered P crypto v w := by
  unfold protectOptionalString at h
  split at h
  · split at h
    · cases h
      exact .absent
    · obtain ⟨t, hencrypt, rfl⟩ := map_eq_ok_iff.mp h
      exact .token hencrypt
  · cases h
    exact .absent

/-! ## A profile that was saved -/

theorem useCredential_eq_ok {profile resolved : StoredProfile}
    (h : useCredential P ctx faults stores profile = .ok resolved) :
    resolved.credentialId = profile.credentialId ∧
      resolved.toHostProfile = { profile.toHostProfile with
        passwordRef := if profile.credentialId = none then profile.passwordRef else none } ∧
      ∀ credentialId, profile.credentialId = some credentialId → ∃ password,
        resolveRuntimeCredential P ctx faults stores credentialId = .ok password := by
  unfold useCredential at h
  split at h
  · rename_i hnone
    cases h
    rw [if_pos hnone]
    refine ⟨rfl, rfl, fun credentialId hsome => ?_⟩
    rw [hnone] at hsome
    cases hsome
  · rename_i credentialId hsome
    obtain ⟨password, hresolve, rfl⟩ := map_eq_ok_iff.mp h
    rw [if_neg (by rw [hsome]; nofun)]
    refine ⟨rfl, rfl, fun other hother => ?_⟩
    rw [hsome, Option.some.injEq] at hother
    exact ⟨password, hother ▸ hresolve⟩

theorem replaceProfile_eq_putFirst (profile : StoredProfile) (profiles : List StoredProfile) :
    replaceProfile profile profiles = putFirst (·.id) profile profiles := by
  induction profiles with
  | nil => rfl
  | cons item items ih => rw [replaceProfile, putFirst, ih]

theorem replaceCredential_eq_putFirst (credential : StoredCredential)
    (credentials : List StoredCredential) :
    replaceCredential credential credentials = putFirst (·.id) credential credentials := by
  induction credentials with
  | nil => rfl
  | cons item items ih => rw [replaceCredential, putFirst, ih]

/-- What is saved of a profile, and how. -/
structure ProfileSaved (P : Primitives) (ctx : SecurityContext) (faults : CommandFaults)
    (crypto : CryptoService) (nonce : ℕ → Bytes) (uuid : Text)
    (profile saved encrypted : StoredProfile) (stores stores' : SecretStores) : Prop where
  loaded : ctx.crypto = .ok crypto
  given : saved.toHostProfile = givenSecrets uuid profile
  attached : Attached stores.credentials saved
  resolved : ∀ credentialId, saved.credentialId = some credentialId → ∃ password,
    resolveRuntimeCredential P ctx faults stores credentialId = .ok password
  encrypts : (saved.mapSecrets fun field => protectOptionalString P crypto (nonce field))
    = .ok encrypted
  written : stores' = { stores with profiles := putFirst (·.id) encrypted stores.profiles }

theorem profileSave_eq_ok {nonce : ℕ → Bytes} {uuid : Text} {profile saved : StoredProfile}
    (h : profileSave P ctx faults nonce uuid profile stores = .ok (saved, stores')) :
    ∃ crypto encrypted,
      ProfileSaved P ctx faults crypto nonce uuid profile saved encrypted stores stores' := by
  unfold profileSave at h
  obtain ⟨-, -, h⟩ := bind_eq_ok_iff.mp h
  obtain ⟨-, -, h⟩ := bind_eq_ok_iff.mp h
  obtain ⟨crypto, hcrypto, h⟩ := bind_eq_ok_iff.mp h
  obtain ⟨name, -, h⟩ := bind_eq_ok_iff.mp h
  obtain ⟨iconKey, -, h⟩ := bind_eq_ok_iff.mp h
  obtain ⟨tags, -, h⟩ := bind_eq_ok_iff.mp h
  obtain ⟨resolved, hresolved, h⟩ := bind_eq_ok_iff.mp h
  obtain ⟨encrypted, hencrypted, h⟩ := bind_eq_ok_iff.mp h
  obtain ⟨-, -, h⟩ := bind_eq_ok_iff.mp h
  cases h
  obtain ⟨hid, hsecrets, hcredential⟩ := useCredential_eq_ok hresolved
  exact ⟨crypto, encrypted, hcrypto, hsecrets, attached_of_useCredential hresolved,
    fun credentialId hsome => hcredential credentialId (hid ▸ hsome), hencrypted,
    by rw [replaceProfile_eq_putFirst]⟩

/-! ## No plaintext -/

theorem isCiphertext_of_related {plain stored : HostProfile}
    (h : HostProfile.Related (Enciphered P crypto) plain stored) {ref : Text}
    (href : some ref ∈ stored.refs) : IsCiphertext P ref := by
  obtain ⟨v, -, hv⟩ := (exists_mem_of_forall₂ h.refs).2 _ href
  cases hv with
  | token hencrypt => exact ⟨crypto, _, _, hencrypt⟩

theorem NoPlaintext.putProfile (h : NoPlaintext P stores) {stored : StoredProfile}
    (hstored : ∀ ref, some ref ∈ stored.refs → IsCiphertext P ref) :
    NoPlaintext P { stores with profiles := putFirst (·.id) stored stores.profiles } where
  profiles profile hprofile ref href := by
    rcases mem_putFirst hprofile with rfl | hother
    · exact hstored ref href
    · exact h.profiles profile (List.mem_of_mem_eraseP hother) ref href
  credentials := h.credentials

theorem NoPlaintext.putCredential (h : NoPlaintext P stores) {stored : StoredCredential}
    (hstored : IsCiphertext P stored.passwordRef) :
    NoPlaintext P { stores with credentials := putFirst (·.id) stored stores.credentials } where
  profiles := h.profiles
  credentials credential hcredential := by
    rcases mem_putFirst hcredential with rfl | hother
    · exact hstored
    · exact h.credentials credential (List.mem_of_mem_eraseP hother)

/-! ## Saving a profile -/

theorem resolveConnectProfile_of_find {id : Text} {encrypted : StoredProfile} (hid : trim id ≠ [])
    (hcrypto : ctx.crypto = .ok crypto)
    (hfind : stores.profiles.find? (·.id = id) = some encrypted) :
    resolveConnectProfile P ctx .none stores id
      = openProfile P ctx .none crypto stores encrypted := by
  unfold resolveConnectProfile
  rw [if_neg hid, hfind, hcrypto]
  rfl

theorem resolveJumpProfile_of_find {id : Text} {encrypted : StoredProfile}
    (hcrypto : ctx.crypto = .ok crypto)
    (hfind : stores.profiles.find? (·.id = id) = some encrypted) :
    resolveJumpProfile P ctx .none stores id = openProfile P ctx .none crypto stores encrypted := by
  unfold resolveJumpProfile
  rw [hfind, hcrypto]
  rfl

theorem related_of_profileList (hcrypto : ctx.crypto = .ok crypto) {listed : List StoredProfile}
    (h : profileList P ctx faults stores = .ok listed) : List.Forall₂
      (fun p q => listedProfile P crypto stores.credentials p = .ok q) stores.profiles listed := by
  obtain ⟨crypto', hcrypto', hcollect⟩ := profileList_eq_ok h
  obtain rfl : crypto = crypto' := Except.ok.inj (hcrypto.symm.trans hcrypto')
  exact forall₂_of_collect
    (R := fun p q => listedProfile P crypto stores.credentials p = .ok q) (fun _ _ _ hq => hq)
    hcollect

section ProfileSaved

variable {nonce : ℕ → Bytes} {uuid : Text} {profile saved encrypted : StoredProfile}
  (h : ProfileSaved P ctx faults crypto nonce uuid profile saved encrypted stores stores')

include h

theorem ProfileSaved.related :
    HostProfile.Related (Enciphered P crypto) saved.toHostProfile encrypted.toHostProfile := by
  refine HostProfile.related_of_mapSecrets (fun _ v w hv => ?_)
    (StoredProfile.mapSecrets_eq_ok_iff.mp h.encrypts).1
  exact enciphered_of_protect hv

theorem ProfileSaved.id :
    encrypted.id = saved.id := h.related.id

theorem ProfileSaved.find :
    stores'.profiles.find? (·.id = saved.id) = some encrypted := by
  rw [h.written, ← h.id]
  exact find?_putFirst

theorem ProfileSaved.credential
    (credentialId : Text) (hsome : saved.credentialId = some credentialId) :
    ∃ value, credentialResolveForCopy P ctx .none stores' credentialId = .ok value := by
  obtain ⟨password, hpassword⟩ := h.resolved credentialId hsome
  rw [resolveRuntimeCredential_eq] at hpassword
  obtain ⟨value, hvalue, -⟩ := map_eq_ok_iff.mp hpassword
  rw [h.written]
  exact ⟨value, credentialResolveForCopy_of_ok hvalue⟩

theorem ProfileSaved.listed (hP : P.RoundTrips)
    {faults' : CommandFaults} {listed : List StoredProfile}
    (hlist : profileList P ctx faults' stores' = .ok listed) :
    ∃ shown, listed.find? (·.id = saved.id) = some shown ∧
      shown.toHostProfile = saved.toHostProfile.withoutBlank := by
  have hrelated := related_of_profileList h.loaded hlist
  have hfind := find?_related (p := (·.id = saved.id)) (q := (·.id = saved.id)) (fun p q hq => by
    obtain ⟨shown, hshown, hq⟩ := listedProfile_eq_ok hq
    rw [show q.id = p.id from (congrArg HostProfile.id hq).trans (shownProfile_id hshown)])
    hrelated
  rw [h.find] at hfind
  generalize listed.find? (·.id = saved.id) = found at hfind
  cases hfind with
  | some hshown =>
    obtain ⟨shown, hlisted, hsecrets⟩ := exists_listedProfile stores'.credentials
      (reveal_encrypted hP h.encrypts)
    rw [hshown, Except.ok.injEq] at hlisted
    exact ⟨_, rfl, hlisted ▸ hsecrets⟩

theorem ProfileSaved.lists (hP : P.RoundTrips)
    {others : List StoredProfile} (hothers : profileList P ctx .none
      { stores with profiles := stores.profiles.eraseP (·.id = saved.id) } = .ok others) :
    ∃ listed, profileList P ctx .none stores' = .ok listed := by
  have hrelated := related_of_profileList h.loaded hothers
  have heach : ∀ p ∈ stores'.profiles,
      ∃ shown, listedProfile P crypto stores'.credentials p = .ok shown := by
    intro p hp
    rw [h.written] at hp ⊢
    rcases mem_putFirst hp with rfl | hother
    · obtain ⟨shown, hshown, -⟩ := exists_listedProfile stores.credentials
        (reveal_encrypted hP h.encrypts)
      exact ⟨shown, hshown⟩
    · rw [h.id] at hother
      obtain ⟨shown, -, hshown⟩ := (exists_mem_of_forall₂ hrelated).1 p hother
      exact ⟨shown, hshown⟩
  obtain ⟨listed, hlisted⟩ := exists_collect_eq_ok (fun _ : ℕ => heach) 0
  exact ⟨listed, profileList_of_collect h.loaded hlisted⟩

theorem ProfileSaved.otherConnects
    (ctx' : SecurityContext) (faults' : CommandFaults) {id : Text} (hid : saved.id ≠ id) :
    resolveConnectProfile P ctx' faults' stores' id
      = resolveConnectProfile P ctx' faults' stores id := by
  have hfind : stores'.profiles.find? (·.id = id) = stores.profiles.find? (·.id = id) := by
    rw [h.written]
    exact find?_putFirst_of_ne (h.id ▸ hid)
  unfold resolveConnectProfile
  rw [hfind, h.written]
  rfl

/-- **A saved profile is kept** exactly where nothing of it is blank. -/
theorem ProfileSaved.kept_iff (hP : P.RoundTrips) :
    ProfileKept P ctx uuid profile saved stores stores' ↔ NothingBlank uuid profile := by
  have hid : saved.id = savedId uuid profile := congrArg HostProfile.id h.given
  obtain ⟨connected, hresolve, hconnects⟩ :=
    exists_resolveProfileCredential h.attached h.credential
  rw [h.given] at hconnects
  have hopen : openProfile P ctx .none crypto stores' encrypted = .ok connected := by
    unfold openProfile
    rw [reveal_encrypted hP h.encrypts]
    exact hresolve
  constructor
  · intro hkept
    obtain ⟨read, hread, hwith⟩ := hkept.connected
    have htrim : trim saved.id ≠ [] := by
      intro hblank
      rw [resolveConnectProfile, if_pos hblank] at hread
      cases hread
    rw [resolveConnectProfile_of_find htrim h.loaded h.find, hopen, Except.ok.injEq] at hread
    exact ⟨hid ▸ htrim, hconnects.mp (hread ▸ hwith)⟩
  · intro hblank
    have hwith := hconnects.mpr hblank.secrets
    have hrelated : HostProfile.Related ReadBack saved.toHostProfile
        saved.toHostProfile.withoutBlank :=
      related_withoutBlank_iff.mpr (h.given ▸ hblank.secrets)
    refine ⟨h.given, ⟨crypto, encrypted, h.loaded, h.find, h.related⟩, ?_, ?_,
      ⟨connected, ?_, hwith⟩, ⟨connected, ?_, hwith⟩, ?_, ?_,
      fun ctx' faults' id => h.otherConnects ctx' faults', ?_⟩
    · intro faults' listed hlist
      obtain ⟨shown, hfind, hsecrets⟩ := h.listed hP hlist
      exact ⟨shown, hfind, hsecrets ▸ hrelated⟩
    · rintro ⟨others, hothers⟩
      exact h.lists hP hothers
    · rw [resolveConnectProfile_of_find (hid ▸ hblank.id) h.loaded h.find, hopen]
    · rw [resolveJumpProfile_of_find h.loaded h.find, hopen]
    · rw [h.written, ← h.id]
      exact eraseP_putFirst
    · rw [h.written]
    · intro hplain
      rw [h.written]
      exact hplain.putProfile fun ref => isCiphertext_of_related h.related

end ProfileSaved

/-! ## Saving a credential -/

theorem protectPassword_eq_ok {nonce : Bytes} {given : Option Text} {ref : Text}
    (h : protectPassword P crypto nonce given = .ok ref) :
    given ≠ none ∧ ∀ password, given = some password → password ≠ [] ∧
      protectOptionalString P crypto nonce (some password) = .ok (some ref) := by
  unfold protectPassword at h
  obtain ⟨s, hs, h⟩ := bind_eq_ok_iff.mp h
  obtain ⟨v, hv, h⟩ := bind_eq_ok_iff.mp h
  cases v with
  | none => cases h
  | some t =>
    cases h
    unfold requiredPassword at hs
    split at hs
    · rename_i hgiven
      cases hs
      obtain ⟨rfl, hne⟩ := Option.filter_eq_some_iff.mp hgiven
      refine ⟨nofun, fun password hpassword => ?_⟩
      cases hpassword
      exact ⟨of_decide_eq_true hne, hv⟩
    · cases hs

theorem token_of_protect {nonce : Bytes} {s ref : Text}
    (h : protectOptionalString P crypto nonce (some s) = .ok (some ref)) :
    isBlank s = false ∧ crypto.encryptString P nonce s = .ok ref := by
  unfold protectOptionalString at h
  dsimp only at h
  split at h
  · cases h
  · rename_i hblank
    obtain ⟨t, hencrypt, ht⟩ := map_eq_ok_iff.mp h
    cases ht
    exact ⟨Bool.eq_false_iff.mpr hblank, hencrypt⟩

/-- What is saved of a credential, and how. -/
structure CredentialSaved (P : Primitives) (ctx : SecurityContext) (crypto : CryptoService)
    (nonce : Bytes) (uuid : Text) (input : CredentialSaveInput) (stored : StoredCredential)
    (stores stores' : SecretStores) : Prop where
  loaded : ctx.crypto = .ok crypto
  id : stored.id = savedCredentialId uuid input
  username : stored.username = trim input.username
  encrypts : ∀ password, input.password = some password → password ≠ [] ∧
    protectOptionalString P crypto nonce (some password) = .ok (some stored.passwordRef)
  keeps : input.password = none → ∃ existing,
    stores.credentials.find? (·.id = savedCredentialId uuid input) = some existing ∧
      stored.passwordRef = existing.passwordRef
  written : stores' = { stores with credentials := putFirst (·.id) stored stores.credentials }

theorem credentialSave_eq_ok {nonce : Bytes} {uuid : Text} {input : CredentialSaveInput}
    (h : credentialSave P ctx faults nonce uuid input stores = .ok stores') :
    ∃ crypto stored, CredentialSaved P ctx crypto nonce uuid input stored stores stores' := by
  unfold credentialSave at h
  obtain ⟨-, -, h⟩ := bind_eq_ok_iff.mp h
  obtain ⟨name, -, h⟩ := bind_eq_ok_iff.mp h
  obtain ⟨username, husername, h⟩ := bind_eq_ok_iff.mp h
  obtain ⟨-, -, h⟩ := bind_eq_ok_iff.mp h
  obtain ⟨crypto, hcrypto, h⟩ := bind_eq_ok_iff.mp h
  obtain ⟨stored, hstored, h⟩ := bind_eq_ok_iff.mp h
  obtain ⟨-, -, h⟩ := bind_eq_ok_iff.mp h
  cases h
  have husername : username = trim input.username := by
    unfold requiredTrimmed at husername
    split at husername
    · cases husername
    · cases husername
      rfl
  refine ⟨crypto, stored, ?_⟩
  unfold savedCredential at hstored
  split at hstored
  · -- a new credential
    rename_i hnew
    obtain ⟨ref, href, hstored⟩ := bind_eq_ok_iff.mp hstored
    cases hstored
    obtain ⟨hgiven, hprotect⟩ := protectPassword_eq_ok href
    exact ⟨hcrypto, (if_pos hnew).symm, husername, hprotect, fun hnone => absurd hnone hgiven,
      by rw [replaceCredential_eq_putFirst]⟩
  · rename_i hold
    have hid : savedCredentialId uuid input = input.id := if_neg hold
    split at hstored
    · cases hstored
    · rename_i existing hfind
      have hexisting : existing.id = savedCredentialId uuid input := by
        rw [hid]
        have hfound := List.find?_some hfind
        exact of_decide_eq_true hfound
      split at hstored
      · -- the old password stays
        rename_i hnone
        cases hstored
        refine ⟨hcrypto, hexisting, husername, fun password hpassword => ?_,
          fun _ => ⟨existing, hid ▸ hfind, rfl⟩, by rw [replaceCredential_eq_putFirst]⟩
        rw [hnone] at hpassword
        cases hpassword
      · rename_i hgiven
        obtain ⟨ref, href, hstored⟩ := bind_eq_ok_iff.mp hstored
        cases hstored
        rw [← hgiven] at href
        obtain ⟨hsome, hprotect⟩ := protectPassword_eq_ok href
        exact ⟨hcrypto, hexisting, husername, hprotect, fun hnone => absurd hnone hsome,
          by rw [replaceCredential_eq_putFirst]⟩

section CredentialSaved

variable {nonce : Bytes} {uuid : Text} {input : CredentialSaveInput} {stored : StoredCredential}
  (h : CredentialSaved P ctx crypto nonce uuid input stored stores stores')

include h

theorem CredentialSaved.find :
    stores'.credentials.find? (·.id = savedCredentialId uuid input) = some stored := by
  rw [h.written, ← h.id]
  exact find?_putFirst

theorem CredentialSaved.copied (hP : P.RoundTrips)
    {password : Text}
    (hpassword : input.password = some password) :
    credentialResolveForCopy P ctx .none stores' (savedCredentialId uuid input)
      = .ok ⟨trim input.username, password⟩ := by
  obtain ⟨-, hprotect⟩ := h.encrypts password hpassword
  have hreveal := reveal_protected hP hprotect
  rw [nonBlank_of_not (token_of_protect hprotect).1] at hreveal
  have hrevealed : revealCredentialPassword P crypto stored = .ok password := by
    unfold revealCredentialPassword
    rw [hreveal]
    rfl
  unfold credentialResolveForCopy
  rw [h.find, h.loaded]
  show (do
    let password ← revealCredentialPassword P crypto stored
    return CredentialCopyValue.mk stored.username password) = _
  rw [hrevealed, h.username]
  rfl

theorem CredentialSaved.unchanged
    (hnone : input.password = none) :
    (credentialResolveForCopy P ctx .none stores' (savedCredentialId uuid input)).map (·.password)
      = (credentialResolveForCopy P ctx .none stores (savedCredentialId uuid input)).map
        (·.password) := by
  obtain ⟨existing, hexisting, href⟩ := h.keeps hnone
  rw [← resolveRuntimeCredential_eq, ← resolveRuntimeCredential_eq]
  unfold resolveRuntimeCredential
  rw [h.find, hexisting]
  dsimp only
  rw [href]

theorem CredentialSaved.otherCopied
    (ctx' : SecurityContext) (faults' : CommandFaults) {id : Text}
    (hid : savedCredentialId uuid input ≠ id) :
    credentialResolveForCopy P ctx' faults' stores' id
      = credentialResolveForCopy P ctx' faults' stores id := by
  have hfind : stores'.credentials.find? (·.id = id) = stores.credentials.find? (·.id = id) := by
    rw [h.written]
    exact find?_putFirst_of_ne (h.id ▸ hid)
  unfold credentialResolveForCopy
  rw [hfind]

theorem CredentialSaved.isCiphertext
    (hplain : NoPlaintext P stores) : IsCiphertext P stored.passwordRef := by
  cases hpassword : input.password with
  | none =>
    obtain ⟨existing, hexisting, href⟩ := h.keeps hpassword
    rw [href]
    exact hplain.credentials existing (List.mem_of_find?_eq_some hexisting)
  | some password =>
    obtain ⟨-, hprotect⟩ := h.encrypts password hpassword
    exact ⟨crypto, nonce, password, (token_of_protect hprotect).2⟩

/-- **A saved credential is kept.** -/
theorem CredentialSaved.kept (hP : P.RoundTrips) :
    CredentialKept P ctx uuid input stores stores' where
  enciphered password hpassword :=
    ⟨crypto, nonce, stored, h.loaded, h.find,
      (token_of_protect (h.encrypts password hpassword).2).2⟩
  copied password hpassword := h.copied hP hpassword
  unchanged := h.unchanged
  connected password hpassword := by
    refine ⟨(h.encrypts password hpassword).1, fun faults profile connected hresolve hid => ?_⟩
    obtain ⟨value, hvalue, rfl⟩ := resolveProfileCredential_eq_ok hid hresolve
    have hcopied := credentialResolveForCopy_of_ok hvalue
    rw [h.copied hP hpassword, Except.ok.injEq] at hcopied
    rw [← hcopied]
  others := by
    rw [h.written, ← h.id]
    exact eraseP_putFirst
  profiles := by rw [h.written]
  otherCopied ctx' faults' id := h.otherCopied ctx' faults'
  noPlaintext hplain := by
    rw [h.written]
    exact hplain.putCredential (h.isCiphertext hplain)

end CredentialSaved

/-! ## Sequences of commands -/

theorem NoPlaintext.detach (h : NoPlaintext P stores) (credentialId : Text) :
    NoPlaintext P
      { stores with profiles := stores.profiles.map (detachCredential credentialId) } where
  profiles profile hprofile ref href := by
    obtain ⟨old, hold, rfl⟩ := List.mem_map.mp hprofile
    refine h.profiles old hold ref ?_
    unfold detachCredential at href
    split at href
    · rcases List.mem_cons.mp href with hnone | href
      · cases hnone
      · exact List.mem_cons_of_mem _ href
    · exact href
  credentials := h.credentials

theorem NoPlaintext.credentialDelete (h : NoPlaintext P stores) (credentialId : Text)
    (detachReferences : Bool) : NoPlaintext P
      (credentialDelete ctx faults credentialId detachReferences stores).1 := by
  have hdrop : ∀ {kept : SecretStores}, NoPlaintext P kept → NoPlaintext P
      { kept with credentials := kept.credentials.filter (·.id ≠ credentialId) } := fun hkept =>
    ⟨hkept.profiles, fun credential hmem =>
      hkept.credentials credential (List.mem_of_mem_filter hmem)⟩
  unfold Security.credentialDelete
  split
  · exact h
  · rename_i referenced _
    dsimp only
    split
    · exact h
    · cases referenced with
      | true =>
        split
        · exact h.detach credentialId
        · exact hdrop (h.detach credentialId)
      | false =>
        split
        · exact h
        · exact hdrop h

/-- **The step lemma.** -/
theorem NoPlaintext.call (h : NoPlaintext P stores) (call : ReferenceCall) :
    NoPlaintext P (call.run P stores) := by
  unfold ReferenceCall.run
  split
  · rename_i nonce uuid input _
    cases hsave : credentialSave P call.ctx call.faults nonce uuid input stores with
    | error err => exact h
    | ok stores' =>
      obtain ⟨crypto, stored, hsaved⟩ := credentialSave_eq_ok hsave
      show NoPlaintext P stores'
      rw [hsaved.written]
      exact h.putCredential (hsaved.isCiphertext h)
  · exact h.credentialDelete _ _
  · rename_i nonce uuid profile _
    cases hsave : profileSave P call.ctx call.faults nonce uuid profile stores with
    | error err => exact h
    | ok result =>
      obtain ⟨saved, stores'⟩ := result
      obtain ⟨crypto, encrypted, hsaved⟩ := profileSave_eq_ok hsave
      show NoPlaintext P stores'
      rw [hsaved.written]
      exact h.putProfile fun ref => isCiphertext_of_related hsaved.related
  · rename_i profileId _
    cases hremove : profileRemove call.faults profileId stores with
    | error err => exact h
    | ok stores' =>
      obtain ⟨-, -, hremove⟩ := bind_eq_ok_iff.mp hremove
      obtain ⟨-, -, hremove⟩ := bind_eq_ok_iff.mp hremove
      cases hremove
      exact ⟨fun profile hmem => h.profiles profile (List.mem_of_mem_filter hmem), h.credentials⟩

/-- **No plaintext is stored**, by any sequence of commands. -/
theorem noPlaintext_run (P : Primitives) (calls : List ReferenceCall) :
    ∀ {stores : SecretStores}, NoPlaintext P stores →
      NoPlaintext P (calls.foldl (fun stores call => call.run P stores) stores) := by
  induction calls with
  | nil => exact fun h => h
  | cons call calls ih => exact fun h => ih (h.call call)

/-! ## The result -/

/-- **Saved secrets are kept**: those of a profile exactly where nothing of it is blank, and the
password of a credential always. -/
theorem secrets_kept_iff (P : Primitives) (hP : P.RoundTrips) (ctx : SecurityContext)
    (faults : CommandFaults) (stores stores' : SecretStores) (uuid : Text) :
    (∀ (nonce : ℕ → Bytes) (profile saved : StoredProfile),
      profileSave P ctx faults nonce uuid profile stores = .ok (saved, stores') →
        (ProfileKept P ctx uuid profile saved stores stores' ↔ NothingBlank uuid profile)) ∧
    (∀ (nonce : Bytes) (input : CredentialSaveInput),
      credentialSave P ctx faults nonce uuid input stores = .ok stores' →
        CredentialKept P ctx uuid input stores stores') := by
  constructor
  · intro nonce profile saved h
    obtain ⟨crypto, encrypted, hsaved⟩ := profileSave_eq_ok h
    exact hsaved.kept_iff hP
  · intro nonce input h
    obtain ⟨crypto, stored, hsaved⟩ := credentialSave_eq_ok h
    exact hsaved.kept hP

end Results

/-! ## A blank password -/

def sampleUnlocked : SecurityContext :=
  ⟨none, none, .key ⟨"config-1".toList, ⟨#[7]⟩, halfwayKeyId_prefix⟩,
    ⟨"config-1".toList, ⟨#[7]⟩, halfwayKeyId_prefix⟩⟩

def sampleNew (passwordRef privateKeyPassphraseRef : Option Text) : StoredProfile where
  id := []
  passwordRef
  privateKeyPassphraseRef
  proxyConfig := some ⟨some []⟩
  name := ['p']
  host := ['h']
  port := 22
  username := ['u']
  authType := .password
  credentialId := none
  iconKey := none
  tags := none

def sampleWhole : StoredProfile := sampleNew (some "enc:v1:x".toList) (some [' ', 'a', ' '])

theorem sampleWhole_nothingBlank : NothingBlank ['i'] sampleWhole where
  id := by decide
  secrets := by decide

theorem sampleWhole_kept :
    (∃ saved stores', profileSave standIn sampleUnlocked .none (fun _ => ⟨#[]⟩) ['i'] sampleWhole
        ⟨[], []⟩ = .ok (saved, stores') ∧
      ProfileKept standIn sampleUnlocked ['i'] sampleWhole saved ⟨[], []⟩ stores') ∧
    ∃ stores', credentialSave standIn sampleUnlocked .none ⟨#[]⟩ ['c']
        ⟨[], ['n'], ['u'], some [' ', 'a']⟩ ⟨[], []⟩ = .ok stores' ∧
      CredentialKept standIn sampleUnlocked ['c'] ⟨[], ['n'], ['u'], some [' ', 'a']⟩
        ⟨[], []⟩ stores' := by
  have hP := standIn_lawful.roundTrips
  constructor
  · have haccepted : (profileSave standIn sampleUnlocked .none (fun _ => ⟨#[]⟩) ['i'] sampleWhole
        ⟨[], []⟩).toBool = true := by decide
    cases hsave : profileSave standIn sampleUnlocked .none (fun _ => ⟨#[]⟩) ['i'] sampleWhole
        ⟨[], []⟩ with
    | error err =>
      rw [hsave] at haccepted
      cases haccepted
    | ok result =>
      obtain ⟨saved, stores'⟩ := result
      exact ⟨saved, stores', rfl, ((secrets_kept_iff standIn hP sampleUnlocked .none ⟨[], []⟩
        stores' ['i']).1 _ _ _ hsave).mpr sampleWhole_nothingBlank⟩
  · have haccepted : (credentialSave standIn sampleUnlocked .none ⟨#[]⟩ ['c']
        ⟨[], ['n'], ['u'], some [' ', 'a']⟩ ⟨[], []⟩).toBool = true := by decide
    cases hsave : credentialSave standIn sampleUnlocked .none ⟨#[]⟩ ['c']
        ⟨[], ['n'], ['u'], some [' ', 'a']⟩ ⟨[], []⟩ with
    | error err =>
      rw [hsave] at haccepted
      cases haccepted
    | ok stores' =>
      exact ⟨stores', rfl, (secrets_kept_iff standIn hP sampleUnlocked .none ⟨[], []⟩ stores'
        ['c']).2 _ _ hsave⟩

theorem noPlaintext_run_sampleWhole : NoPlaintext standIn
    ([⟨.profileSave (fun _ => ⟨#[]⟩) ['i'] sampleWhole, sampleUnlocked, .none⟩].foldl
      (fun stores (call : ReferenceCall) => call.run standIn stores) ⟨[], []⟩) :=
  noPlaintext_run standIn _ ⟨List.forall_mem_nil _, List.forall_mem_nil _⟩

def sampleBlank (passwordRef : Option Text) : StoredProfile :=
  { sampleNew passwordRef none with id := ['i'], proxyConfig := none }

/-- **A password of one space is lost.** The check before a connection accepts it, and it is not
there when connecting. -/
theorem blank_password_lost :
    profileSave standIn sampleUnlocked .none (fun _ => ⟨#[]⟩) ['j'] (sampleBlank (some [' ']))
        ⟨[], []⟩ = .ok (sampleBlank (some [' ']), ⟨[sampleBlank none], []⟩) ∧
      Ssh.validateSshConnectProfile (connectView none none (sampleBlank (some [' ']))) = .ok () ∧
      ¬ProfileKept standIn sampleUnlocked ['j'] (sampleBlank (some [' ']))
        (sampleBlank (some [' '])) ⟨[], []⟩ ⟨[sampleBlank none], []⟩ := by
  refine ⟨rfl, rfl, fun h => ?_⟩
  obtain ⟨connected, hconnected, hwith⟩ := h.connected
  have hread : resolveConnectProfile standIn sampleUnlocked .none ⟨[sampleBlank none], []⟩ ['i']
      = .ok (sampleBlank none) := rfl
  obtain rfl : connected = sampleBlank none := Except.ok.inj (hconnected.symm.trans hread)
  rcases hwith.passwordRef rfl with heq | ⟨heq, -⟩
  · cases heq
  · cases heq

end FluxTerm.Security
