import FluxTerm.Lib.PutFirst
import FluxTerm.Security.References
import FluxTerm.Ssh.HostKeyPlan

/-!
# FluxTerm — how stored secrets are read

`profile_list`, `credential_resolve_for_copy` and the connections of
`src-tauri/src/commands/ssh.rs`, as readers of what `profile_save` and `credential_save` store.
-/

namespace FluxTerm.Security

open FluxTerm.Engine FluxTerm.Lib

/-! ## Reading -/

structure CredentialCopyValue where
  username : Text
  password : Text

section Commands

variable (P : Primitives) (ctx : SecurityContext) (faults : CommandFaults)

def revealCredentialPassword (crypto : CryptoService) (credential : StoredCredential) :
    Except EngineError Text := do
  match ← revealOptionalString P crypto (some credential.passwordRef) with
  | some password => return password
  | none => .error (.new "credential_password_missing" "Credential password is missing")

/-- `credential_resolve_for_copy` and `resolve_runtime_credential`. There is one kind. -/
def credentialResolveForCopy (stores : SecretStores) (credentialId : Text) :
    Except EngineError CredentialCopyValue := do
  access faults.credentialsRead
  match stores.credentials.find? (·.id = credentialId) with
  | none => .error (.new "credential_not_found" "Credential not found")
  | some credential =>
    access faults.configRead
    let crypto ← ctx.crypto
    let password ← revealCredentialPassword P crypto credential
    return ⟨credential.username, password⟩

def resolveProfileCredential (stores : SecretStores) (profile : StoredProfile) :
    Except EngineError StoredProfile :=
  match profile.credentialId with
  | none => .ok profile
  | some credentialId =>
    (credentialResolveForCopy P ctx faults stores credentialId).map fun credential =>
      { profile with
        authType := .password
        username := credential.username
        passwordRef := some credential.password }

def openProfile (crypto : CryptoService) (stores : SecretStores) (encrypted : StoredProfile) :
    Except EngineError StoredProfile := do
  let profile ← encrypted.mapSecrets fun _ => revealOptionalString P crypto
  resolveProfileCredential P ctx faults stores profile

def resolveConnectProfile (stores : SecretStores) (requested : Text) :
    Except EngineError StoredProfile :=
  let notFound := EngineError.new "profile_not_found" "Profile not found"
  if trim requested = [] then .error notFound
  else do
    access faults.profilesRead
    match stores.profiles.find? (·.id = requested) with
    | none => .error notFound
    | some encrypted =>
      access faults.configRead
      let crypto ← ctx.crypto
      openProfile P ctx faults crypto stores encrypted

/-- `resolve_jump_profiles`, for one id of the chain. -/
def resolveJumpProfile (stores : SecretStores) (id : Text) : Except EngineError StoredProfile := do
  access faults.profilesRead
  access faults.configRead
  let crypto ← ctx.crypto
  match stores.profiles.find? (·.id = id) with
  | none => .error (.new "ssh_jump_profile_missing" "Jump host profile not found")
  | some encrypted => openProfile P ctx faults crypto stores encrypted

end Commands

/-- A profile as connecting reads it. No command here reads or writes the path of the key. -/
def connectView (privateKeyPath : Option Text) (jumpProfileIds : Option (List Text))
    (profile : StoredProfile) : Ssh.ConnectProfile where
  id := profile.id
  host := profile.host
  port := profile.port
  username := profile.username
  authType := profile.authType
  passwordRef := profile.passwordRef
  privateKeyPath
  jumpProfileIds

/-! ## What is wanted -/

def ReadBack (saved read : Option Text) : Prop := read = saved ∨ saved = some [] ∧ read = none

section Wanted

variable (P : Primitives) (ctx : SecurityContext)

/-- A connection has the secrets that were saved. With a credential the password is the
credential's. -/
structure ConnectsWith (stores : SecretStores) (saved connected : StoredProfile) : Prop where
  privateKeyPassphraseRef :
    ReadBack saved.privateKeyPassphraseRef connected.privateKeyPassphraseRef
  proxyConfig : Option.Rel (fun a b => ReadBack a.passwordRef b.passwordRef)
    saved.proxyConfig connected.proxyConfig
  passwordRef : saved.credentialId = none → ReadBack saved.passwordRef connected.passwordRef
  credential : ∀ credentialId, saved.credentialId = some credentialId →
    ∃ value, credentialResolveForCopy P ctx .none stores credentialId = .ok value ∧
      connected.passwordRef = some value.password
  accepted : ∀ privateKeyPath jumpProfileIds,
    Ssh.validateSshConnectProfile (connectView privateKeyPath jumpProfileIds saved) = .ok () →
    Ssh.validateSshConnectProfile (connectView privateKeyPath jumpProfileIds connected) = .ok ()

end Wanted

def Whole (v : Option Text) : Prop := ∀ s, v = some s → isBlank s = true → s = []

instance : DecidablePred Whole
  | none => .isTrue nofun
  | some s => decidable_of_iff (isBlank s = true → s = []) <| by
    constructor
    · rintro h s ⟨⟩
      exact h
    · exact fun h => h s rfl

/-! ## One field -/

section Results

variable {P : Primitives} {ctx : SecurityContext} {crypto : CryptoService}
  {faults : CommandFaults} {stores stores' : SecretStores}

def nonBlank (v : Option Text) : Option Text := v.filter (!isBlank ·)

theorem nonBlank_of_blank {s : Text} (h : isBlank s = true) : nonBlank (some s) = none := by
  simp [nonBlank, Option.filter, h]

theorem nonBlank_of_not {s : Text} (h : isBlank s = false) : nonBlank (some s) = some s := by
  simp [nonBlank, Option.filter, h]

theorem reveal_protected (hP : P.RoundTrips) {nonce : Bytes} {v w : Option Text}
    (h : protectOptionalString P crypto nonce v = .ok w) :
    revealOptionalString P crypto w = .ok (nonBlank v) := by
  have hsealed := sealed_of_protect hP h
  cases hsealed with
  | absent => rfl
  | blank hs => rw [nonBlank_of_blank hs]; rfl
  | token hs =>
    rw [nonBlank_of_not hs]
    refine reveal_of_sealed (sealed_of_protect hP h) ?_
    rintro s ⟨⟩
    exact hs

theorem readBack_nonBlank_iff {v : Option Text} : ReadBack v (nonBlank v) ↔ Whole v := by
  unfold ReadBack Whole
  cases v with
  | none => simp [nonBlank]
  | some s =>
    cases hs : isBlank s with
    | true => simp [nonBlank_of_blank hs, hs]
    | false => simp [nonBlank_of_not hs, hs]

/-! ## One profile -/

def HostProfile.withoutBlank (profile : HostProfile) : HostProfile := { profile with
  passwordRef := nonBlank profile.passwordRef
  privateKeyPassphraseRef := nonBlank profile.privateKeyPassphraseRef
  proxyConfig := profile.proxyConfig.map fun proxy => ⟨nonBlank proxy.passwordRef⟩ }

def StoredProfile.withoutBlank (profile : StoredProfile) : StoredProfile :=
  { profile with toHostProfile := profile.toHostProfile.withoutBlank }

theorem StoredProfile.mapSecrets_eq_ok_iff
    {f : ℕ → Option Text → Except EngineError (Option Text)} {profile mapped : StoredProfile} :
    profile.mapSecrets f = .ok mapped ↔
      profile.toHostProfile.mapSecrets f = .ok mapped.toHostProfile ∧
        mapped = { profile with toHostProfile := mapped.toHostProfile } := by
  rw [StoredProfile.mapSecrets, bind_eq_ok_iff]
  constructor
  · rintro ⟨secrets, hsecrets, h⟩
    cases h
    exact ⟨hsecrets, rfl⟩
  · rintro ⟨hsecrets, heq⟩
    exact ⟨_, hsecrets, by rw [heq]; rfl⟩

theorem HostProfile.reveal_encrypted (hP : P.RoundTrips) {nonce : ℕ → Bytes}
    {profile encrypted : HostProfile}
    (h : (profile.mapSecrets fun field => protectOptionalString P crypto (nonce field))
      = .ok encrypted) :
    (encrypted.mapSecrets fun _ => revealOptionalString P crypto) = .ok profile.withoutBlank := by
  obtain ⟨hid, hpassword, hpassphrase, hproxy⟩ := HostProfile.mapSecrets_eq_ok_iff.mp h
  refine HostProfile.mapSecrets_eq_ok_iff.mpr ⟨hid.symm, reveal_protected hP hpassword,
    reveal_protected hP hpassphrase, ?_⟩
  obtain ⟨id, passwordRef, privateKeyPassphraseRef, proxyConfig⟩ := profile
  obtain ⟨id', passwordRef', privateKeyPassphraseRef', proxyConfig'⟩ := encrypted
  cases hproxy with
  | none => exact .none
  | some href => exact .some (reveal_protected hP href)

/-- **What is read back of a profile** is what was saved, without the blank fields. -/
theorem reveal_encrypted (hP : P.RoundTrips) {nonce : ℕ → Bytes}
    {profile encrypted : StoredProfile}
    (h : (profile.mapSecrets fun field => protectOptionalString P crypto (nonce field))
      = .ok encrypted) :
    (encrypted.mapSecrets fun _ => revealOptionalString P crypto) = .ok profile.withoutBlank := by
  obtain ⟨hsecrets, heq⟩ := StoredProfile.mapSecrets_eq_ok_iff.mp h
  refine StoredProfile.mapSecrets_eq_ok_iff.mpr ⟨HostProfile.reveal_encrypted hP hsecrets, ?_⟩
  rw [heq]
  rfl

theorem related_withoutBlank_iff {profile : HostProfile} :
    HostProfile.Related ReadBack profile profile.withoutBlank ↔ ∀ v ∈ profile.refs, Whole v := by
  obtain ⟨id, passwordRef, privateKeyPassphraseRef, proxyConfig⟩ := profile
  constructor
  · rintro ⟨-, hpassword, hpassphrase, hproxy⟩ v hv
    rcases List.mem_cons.mp hv with rfl | hv
    · exact readBack_nonBlank_iff.mp hpassword
    rcases List.mem_cons.mp hv with rfl | hv
    · exact readBack_nonBlank_iff.mp hpassphrase
    · cases proxyConfig with
      | none => cases hv
      | some proxy =>
        obtain rfl := List.mem_singleton.mp hv
        cases hproxy with
        | some href => exact readBack_nonBlank_iff.mp href
  · intro h
    refine ⟨rfl, readBack_nonBlank_iff.mpr (h _ List.mem_cons_self),
      readBack_nonBlank_iff.mpr (h _ (List.mem_cons_of_mem _ List.mem_cons_self)), ?_⟩
    cases proxyConfig with
    | none => exact .none
    | some proxy => exact .some (readBack_nonBlank_iff.mpr (h _ (by simp [HostProfile.refs])))

/-! ## Connecting -/

theorem resolveRuntimeCredential_eq (credentialId : Text) :
    resolveRuntimeCredential P ctx faults stores credentialId
      = (credentialResolveForCopy P ctx faults stores credentialId).map (·.password) := by
  unfold resolveRuntimeCredential credentialResolveForCopy
  cases access faults.credentialsRead with
  | error err => rfl
  | ok _ =>
    show (match stores.credentials.find? (·.id = credentialId) with
      | none => _
      | some credential => _) = Except.map _ (match stores.credentials.find? (·.id = credentialId)
        with | none => _ | some credential => _)
    cases stores.credentials.find? (·.id = credentialId) with
    | none => rfl
    | some credential =>
      cases access faults.configRead with
      | error err => rfl
      | ok _ =>
        cases ctx.crypto with
        | error err => rfl
        | ok crypto =>
          show (do
            match ← revealOptionalString P crypto (some credential.passwordRef) with
            | some password => pure password
            | none => _) = Except.map _ (do
              let password ← revealCredentialPassword P crypto credential
              return CredentialCopyValue.mk credential.username password)
          unfold revealCredentialPassword
          cases revealOptionalString P crypto (some credential.passwordRef) with
          | error err => rfl
          | ok password => cases password <;> rfl

theorem credentialResolveForCopy_of_ok {credentialId : Text} {value : CredentialCopyValue}
    (h : credentialResolveForCopy P ctx faults stores credentialId = .ok value) :
    credentialResolveForCopy P ctx .none stores credentialId = .ok value := by
  unfold credentialResolveForCopy at h ⊢
  obtain ⟨-, -, h⟩ := bind_eq_ok_iff.mp h
  refine bind_eq_ok_iff.mpr ⟨(), rfl, ?_⟩
  cases hfind : stores.credentials.find? (·.id = credentialId) with
  | none =>
    rw [hfind] at h
    cases h
  | some credential =>
    rw [hfind] at h
    obtain ⟨-, -, h⟩ := bind_eq_ok_iff.mp h
    exact bind_eq_ok_iff.mpr ⟨(), rfl, h⟩

theorem validateSshConnectProfile_eq_ok_iff {profile : Ssh.ConnectProfile} :
    Ssh.validateSshConnectProfile profile = .ok () ↔
      trim profile.host ≠ [] ∧ trim profile.username ≠ [] ∧
        (profile.authType = .password → ∃ s, profile.passwordRef = some s ∧ s ≠ []) ∧
        (profile.authType = .privateKey →
          ∃ path, profile.privateKeyPath = some path ∧ trim path ≠ []) := by
  have hall : ∀ (v : Option Text) (f : Text → Text),
      v.all (f · = []) = true ↔ ¬∃ s, v = some s ∧ f s ≠ [] := by
    intro v f
    cases v <;> simp
  unfold Ssh.validateSshConnectProfile trim
  by_cases hhost : trimBy isWhitespace profile.host = []
  · simp [hhost]
  by_cases husername : trimBy isWhitespace profile.username = []
  · simp [hhost, husername]
  rw [if_neg hhost, if_neg husername]
  cases profile.authType with
  | password =>
    have hpassword := hall profile.passwordRef id
    simp only [id_eq] at hpassword
    simp [hhost, husername, hpassword]
  | privateKey =>
    have hpath := hall profile.privateKeyPath (trimBy isWhitespace)
    simp [hhost, husername, hpath]
  | agent => simp [hhost, husername]

theorem validate_withoutBlank {privateKeyPath : Option Text} {jumpProfileIds : Option (List Text)}
    {profile : StoredProfile} (hwhole : Whole profile.passwordRef)
    (h : Ssh.validateSshConnectProfile (connectView privateKeyPath jumpProfileIds profile)
      = .ok ()) :
    Ssh.validateSshConnectProfile
      (connectView privateKeyPath jumpProfileIds profile.withoutBlank) = .ok () := by
  obtain ⟨hhost, husername, hpassword, hpath⟩ := validateSshConnectProfile_eq_ok_iff.mp h
  refine validateSshConnectProfile_eq_ok_iff.mpr ⟨hhost, husername, fun hauth => ?_, hpath⟩
  obtain ⟨s, hs, hne⟩ := hpassword hauth
  refine ⟨s, ?_, hne⟩
  have hblank : isBlank s = false := by
    by_contra hblank
    exact hne (hwhole s hs (Bool.not_eq_false _ ▸ hblank))
  show nonBlank profile.passwordRef = some s
  rw [show profile.passwordRef = some s from hs, nonBlank_of_not hblank]

theorem resolveProfileCredential_of_some {profile : StoredProfile} {credentialId : Text}
    (hid : profile.credentialId = some credentialId) :
    resolveProfileCredential P ctx faults stores profile
      = (credentialResolveForCopy P ctx faults stores credentialId).map fun credential =>
        { profile with
          authType := .password
          username := credential.username
          passwordRef := some credential.password } := by
  unfold resolveProfileCredential
  split
  · rename_i hnone
    rw [hid] at hnone
    cases hnone
  · rename_i other hother
    rw [Option.some.inj (hid.symm.trans hother)]

theorem resolveProfileCredential_eq_ok {profile resolved : StoredProfile} {credentialId : Text}
    (hid : profile.credentialId = some credentialId)
    (h : resolveProfileCredential P ctx faults stores profile = .ok resolved) :
    ∃ value, credentialResolveForCopy P ctx faults stores credentialId = .ok value ∧
      { profile with
        authType := .password
        username := value.username
        passwordRef := some value.password } = resolved := by
  rw [resolveProfileCredential_of_some hid] at h
  exact map_eq_ok_iff.mp h

theorem exists_resolveProfileCredential {credentials : List StoredCredential}
    {saved : StoredProfile} (hattached : Attached credentials saved)
    (hresolved : ∀ credentialId, saved.credentialId = some credentialId →
      ∃ value, credentialResolveForCopy P ctx .none stores credentialId = .ok value) :
    ∃ connected,
      resolveProfileCredential P ctx .none stores saved.withoutBlank = .ok connected ∧
        (ConnectsWith P ctx stores saved connected ↔ ∀ v ∈ saved.refs, Whole v) := by
  cases hcredential : saved.credentialId with
  | none =>
    refine ⟨saved.withoutBlank, ?_, ?_⟩
    · rw [resolveProfileCredential, show saved.withoutBlank.credentialId = none from hcredential]
    · rw [← related_withoutBlank_iff]
      constructor
      · intro h
        exact ⟨rfl, h.passwordRef hcredential, h.privateKeyPassphraseRef, h.proxyConfig⟩
      · intro h
        refine ⟨h.privateKeyPassphraseRef, h.proxyConfig, fun _ => h.passwordRef, ?_, ?_⟩
        · intro credentialId hsome
          rw [hcredential] at hsome
          cases hsome
        · intro privateKeyPath jumpProfileIds
          exact validate_withoutBlank (readBack_nonBlank_iff.mp h.passwordRef)
  | some credentialId =>
    obtain ⟨value, hvalue⟩ := hresolved credentialId hcredential
    obtain ⟨husername, hpassword, -⟩ := hattached.bare (by rw [hcredential]; nofun)
    refine ⟨{ saved.withoutBlank with
      authType := .password, username := value.username, passwordRef := some value.password },
      ?_, ?_⟩
    · have hid : saved.withoutBlank.credentialId = some credentialId := hcredential
      rw [resolveProfileCredential_of_some hid, hvalue]
      rfl
    · rw [← related_withoutBlank_iff]
      constructor
      · intro h
        refine ⟨rfl, ?_, h.privateKeyPassphraseRef, h.proxyConfig⟩
        refine readBack_nonBlank_iff.mpr fun s hs => ?_
        rw [hpassword] at hs
        cases hs
      · intro h
        refine ⟨h.privateKeyPassphraseRef, h.proxyConfig, fun hnone => ?_, ?_, ?_⟩
        · rw [hcredential] at hnone
          cases hnone
        · intro other hother
          obtain rfl : credentialId = other := Option.some.inj (hcredential ▸ hother)
          exact ⟨value, hvalue, rfl⟩
        · intro privateKeyPath jumpProfileIds haccepted
          -- as it was saved it has no user name
          obtain ⟨-, hname, -⟩ := validateSshConnectProfile_eq_ok_iff.mp haccepted
          exact absurd (congrArg trim husername) hname

/-! ## Listing -/

theorem shownProfile_id {profile shown : StoredProfile}
    (h : shownProfile P crypto profile = .ok shown) : shown.id = profile.id := by
  unfold shownProfile at h
  split at h
  · rename_i decrypted hdecrypted
    cases h
    obtain ⟨hsecrets, -⟩ := StoredProfile.mapSecrets_eq_ok_iff.mp hdecrypted
    exact (HostProfile.mapSecrets_eq_ok_iff.mp hsecrets).1
  · split at h
    · cases h
      rfl
    · cases h

theorem listedProfile_eq_ok {credentials : List StoredCredential} {profile listed : StoredProfile}
    (h : listedProfile P crypto credentials profile = .ok listed) :
    ∃ shown, shownProfile P crypto profile = .ok shown ∧
      listed.toHostProfile = shown.toHostProfile := by
  obtain ⟨shown, hshown, rfl⟩ := map_eq_ok_iff.mp h
  exact ⟨shown, hshown, rfl⟩

theorem profileList_eq_ok {listed : List StoredProfile}
    (h : profileList P ctx faults stores = .ok listed) : ∃ crypto, ctx.crypto = .ok crypto ∧
      collect (fun _ => listedProfile P crypto stores.credentials) 0 stores.profiles
        = .ok listed := by
  obtain ⟨-, -, h⟩ := bind_eq_ok_iff.mp h
  obtain ⟨-, -, h⟩ := bind_eq_ok_iff.mp h
  obtain ⟨-, -, h⟩ := bind_eq_ok_iff.mp h
  exact bind_eq_ok_iff.mp h

theorem profileList_of_collect {listed : List StoredProfile} (hcrypto : ctx.crypto = .ok crypto)
    (h : collect (fun _ => listedProfile P crypto stores.credentials) 0 stores.profiles
      = .ok listed) : profileList P ctx .none stores = .ok listed := by
  unfold profileList
  rw [hcrypto]
  exact h

theorem exists_listedProfile (credentials : List StoredCredential)
    {profile decrypted : StoredProfile}
    (h : (profile.mapSecrets fun _ => revealOptionalString P crypto) = .ok decrypted) :
    ∃ listed, listedProfile P crypto credentials profile = .ok listed ∧
      listed.toHostProfile = decrypted.toHostProfile := by
  have hshown : shownProfile P crypto profile = .ok decrypted := by
    unfold shownProfile
    rw [h]
  unfold listedProfile
  rw [hshown]
  exact ⟨_, rfl, rfl⟩

end Results

end FluxTerm.Security
