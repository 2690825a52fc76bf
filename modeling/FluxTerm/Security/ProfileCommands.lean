import FluxTerm.Lib.Machine
import FluxTerm.Security.Sealed

/-!
# FluxTerm — the commands on SSH profiles and credentials

`profile_list`, `profile_save` (`src-tauri/src/commands/profile.rs`) and `credential_delete`
(`src-tauri/src/commands/credential.rs`), over the stores that they read and write.

There is one kind of credential. A file is written as a whole or not at all.
-/

namespace FluxTerm.Security

open FluxTerm.Engine FluxTerm.Lib

/-! ## The stores -/

inductive AuthType where
  | password
  | privateKey
  | agent
deriving DecidableEq

/-- `HostProfile` with what the commands read and change besides the secrets. -/
structure StoredProfile extends HostProfile where
  name : Text
  host : Text
  port : ℕ
  username : Text
  authType : AuthType
  credentialId : Option Text
  iconKey : Option Text
  tags : Option (List Text)
deriving DecidableEq

structure StoredCredential extends Credential where
  username : Text
deriving DecidableEq

structure SecretStores where
  profiles : List StoredProfile
  credentials : List StoredCredential
deriving DecidableEq

/-- What `CryptoService::load` is called with. -/
structure SecurityContext where
  config : Option SecretConfig
  session : Option UnlockedSecretSession
  file : KeyFile
  fresh : ConfigKey

def SecurityContext.crypto (ctx : SecurityContext) : Except EngineError CryptoService :=
  (CryptoService.load ctx.fresh ctx.file ctx.config ctx.session).map Prod.fst

structure CommandFaults where
  profilesRead : Option EngineError
  credentialsRead : Option EngineError
  configRead : Option EngineError
  profilesWrite : Option EngineError
  credentialsWrite : Option EngineError
deriving DecidableEq

def CommandFaults.none : CommandFaults := ⟨.none, .none, .none, .none, .none⟩

def access : Option EngineError → Except EngineError Unit
  | some err => .error err
  | none => .ok ()

/-! ## Reading the profiles -/

section Commands

variable (P : Primitives) (ctx : SecurityContext) (faults : CommandFaults)

/-- A profile with `f` applied to its secret fields. -/
def StoredProfile.mapSecrets (f : ℕ → Option Text → Except EngineError (Option Text))
    (profile : StoredProfile) : Except EngineError StoredProfile := do
  let secrets ← profile.toHostProfile.mapSecrets f
  return { profile with toHostProfile := secrets }

def redactProfileSecrets (profile : StoredProfile) : StoredProfile := { profile with
  passwordRef := none
  privateKeyPassphraseRef := none
  proxyConfig := profile.proxyConfig.map fun _ => ⟨none⟩ }

/-- A profile with its secrets, or without them if they are locked. -/
def shownProfile (crypto : CryptoService) (profile : StoredProfile) :
    Except EngineError StoredProfile :=
  match profile.mapSecrets fun _ => revealOptionalString P crypto with
  | .ok decrypted => .ok decrypted
  | .error err =>
    if err.code = "security_locked" ∧ crypto.providerKind = .userPassword then
      .ok (redactProfileSecrets profile)
    else .error err

/-- `profile_list` for one profile. -/
def listedProfile (crypto : CryptoService) (credentials : List StoredCredential)
    (profile : StoredProfile) : Except EngineError StoredProfile :=
  let credentialUsername := profile.credentialId.bind fun id =>
    (credentials.find? (·.id = id)).map (·.username)
  (shownProfile P crypto profile).map fun shown =>
    { shown with username := credentialUsername.getD shown.username }

def profileList (stores : SecretStores) : Except EngineError (List StoredProfile) := do
  access faults.profilesRead
  access faults.credentialsRead
  access faults.configRead
  let crypto ← ctx.crypto
  collect (fun _ => listedProfile P crypto stores.credentials) 0 stores.profiles

/-! ## Saving a profile -/

def validateProfileName (value : Text) : Except EngineError Text :=
  if trim value = [] then .error (.new "profile_name_required" "Profile name cannot be empty")
  else if (trim value).length > 14 then
    .error (.new "profile_name_too_long" "Profile name cannot exceed 14 characters")
  else .ok (trim value)

def allowedProfileIconKeys : List String :=
  ["linux", "ubuntu", "debian", "centos", "almalinux", "alpinelinux", "archlinux", "kali",
    "kubuntu", "opensuse", "redhat", "docker", "kubernetes", "nginx", "apache", "cloudflare",
    "mysql", "postgresql", "mongodb", "redis", "rabbitmq", "elasticsearch", "wordpress", "truenas",
    "unraid", "synology", "vmware", "laravel", "grafana", "prometheus", "jenkins", "gitlab",
    "laragon", "mariadb", "nodedotjs", "ollama", "openvpn", "steam", "proxmox", "webmin", "1panel"]

def normalizeProfileIconKey : Option Text → Except EngineError (Option Text)
  | none => .ok none
  | some value =>
    if trim value = [] then .ok none
    else if trim value ∈ allowedProfileIconKeys.map String.toList then .ok (some (trim value))
    else .error (.new "profile_icon_invalid" "Invalid profile icon")

/-- `normalize_profile_tags`. Only the first group counts. -/
def normalizeProfileTags : Option (List Text) → Except EngineError (Option (List Text))
  | none => .ok none
  | some values =>
    let normalized := trim (values.headD [])
    if normalized = [] then .ok none
    else if normalized.length > 12 then
      .error (.new "group_name_too_long" "Group name cannot exceed 12 characters")
    else .ok (some [normalized])

/-- `resolve_runtime_credential`, as far as it matters whether it succeeds. -/
def resolveRuntimeCredential (stores : SecretStores) (credentialId : Text) :
    Except EngineError Text := do
  access faults.credentialsRead
  match stores.credentials.find? (·.id = credentialId) with
  | none => .error (.new "credential_not_found" "Credential not found")
  | some credential =>
    access faults.configRead
    let crypto ← ctx.crypto
    match ← revealOptionalString P crypto (some credential.passwordRef) with
    | some password => return password
    | none => .error (.new "credential_password_missing" "Credential password is missing")

def trimmedCredentialId (profile : StoredProfile) : Option Text :=
  (profile.credentialId.map trim).filter (· ≠ [])

def savedId (uuid : Text) (profile : StoredProfile) : Text :=
  if profile.id = [] then uuid else profile.id

def replaceProfile (profile : StoredProfile) : List StoredProfile → List StoredProfile
  | [] => [profile]
  | item :: items =>
    if item.id = profile.id then profile :: items else item :: replaceProfile profile items

def useCredential (stores : SecretStores) (profile : StoredProfile) :
    Except EngineError StoredProfile :=
  match profile.credentialId with
  | none => .ok profile
  | some credentialId => (resolveRuntimeCredential P ctx faults stores credentialId).map fun _ =>
    { profile with authType := .password, username := [], passwordRef := none }

/-- `profile_save`: what is returned, and the stores after it. -/
def profileSave (nonce : ℕ → Bytes) (uuid : Text) (profile : StoredProfile)
    (stores : SecretStores) : Except EngineError (StoredProfile × SecretStores) := do
  access faults.profilesRead
  access faults.configRead
  let crypto ← ctx.crypto
  let name ← validateProfileName profile.name
  let iconKey ← normalizeProfileIconKey profile.iconKey
  let tags ← normalizeProfileTags profile.tags
  let profile := { profile with
    name
    iconKey
    tags
    id := savedId uuid profile
    port := if profile.port = 0 then 22 else profile.port
    credentialId := trimmedCredentialId profile }
  let profile ← useCredential P ctx faults stores profile
  let encrypted ← profile.mapSecrets fun field => protectOptionalString P crypto (nonce field)
  access faults.profilesWrite
  return (profile, { stores with profiles := replaceProfile encrypted stores.profiles })

/-! ## Deleting a credential -/

def refersTo (credentialId : Text) (profile : StoredProfile) : Bool :=
  profile.credentialId = some credentialId

def detachCredential (credentialId : Text) (profile : StoredProfile) : StoredProfile :=
  if refersTo credentialId profile then
    { profile with credentialId := none, username := [], passwordRef := none }
  else profile

def ensureDetachAllowed (referenced detachReferences : Bool) : Except EngineError Unit :=
  if referenced && !detachReferences then
    .error (.new "credential_in_use" "Credential is referenced by connection profiles")
  else .ok ()

/-- `credential_delete`, up to its first write. The flag tells whether a profile refers to the
credential. -/
def checkDelete (credentialId : Text) (detachReferences : Bool) (stores : SecretStores) :
    Except EngineError Bool := do
  access faults.configRead
  -- the service is only loaded
  let _ ← ctx.crypto
  access faults.credentialsRead
  match stores.credentials.find? (·.id = credentialId) with
  | none => .error (.new "credential_not_found" "Credential not found")
  | some credential =>
    access faults.profilesRead
    let referenced := stores.profiles.any (refersTo credential.id)
    ensureDetachAllowed referenced detachReferences
    return referenced

/-- `credential_delete`, with the stores after it. -/
def credentialDelete (credentialId : Text) (detachReferences : Bool) (stores : SecretStores) :
    SecretStores × Except EngineError Unit :=
  match checkDelete ctx faults credentialId detachReferences stores with
  | .error err => (stores, .error err)
  | .ok referenced =>
    let detached := { stores with profiles := stores.profiles.map (detachCredential credentialId) }
    match (if referenced then access faults.profilesWrite else .ok ()) with
    | .error err => (stores, .error err)
    | .ok () =>
      let stores := if referenced then detached else stores
      match access faults.credentialsWrite with
      | .error err => (stores, .error err)
      | .ok () =>
        ({ stores with credentials := stores.credentials.filter (·.id ≠ credentialId) }, .ok ())

end Commands

/-! ## Sequences of commands -/

inductive LockedCommand where
  | profileList (faults : CommandFaults)
  | profileSave (profile : StoredProfile) (nonce : ℕ → Bytes) (uuid : Text)
      (faults : CommandFaults)
  | credentialDelete (credentialId : Text) (detachReferences : Bool) (faults : CommandFaults)

structure CommandRecord where
  command : LockedCommand
  before : SecretStores
  failed : Bool
  after : SecretStores

structure LockedRun where
  stores : SecretStores
  listed : List StoredProfile
  done : List CommandRecord

namespace LockedRun

variable (P : Primitives) (ctx : SecurityContext) (s : LockedRun)

def record (command : LockedCommand) (failed : Bool) (stores : SecretStores)
    (listed : List StoredProfile) : LockedRun where
  stores
  listed := s.listed ++ listed
  done := s.done ++ [⟨command, s.stores, failed, stores⟩]

def IsEditOf (profile original : StoredProfile) : Prop :=
  profile = { original with name := profile.name, host := profile.host, tags := profile.tags }

instance (profile original : StoredProfile) : Decidable (IsEditOf profile original) :=
  inferInstanceAs (Decidable (_ = _))

/-- One command. What is saved is a listed profile, possibly edited. -/
def next (command : LockedCommand) : Option LockedRun :=
  match command with
  | .profileList faults =>
    match profileList P ctx faults s.stores with
    | .error _ => some (s.record command true s.stores [])
    | .ok listed => some (s.record command false s.stores listed)
  | .profileSave profile nonce uuid faults =>
    if ∃ original ∈ s.listed, IsEditOf profile original then
      match profileSave P ctx faults nonce uuid profile s.stores with
      | .error _ => some (s.record command true s.stores [])
      | .ok (saved, stores) => some (s.record command false stores [saved])
    else none
  | .credentialDelete credentialId detachReferences faults =>
    let (stores, result) := credentialDelete ctx faults credentialId detachReferences s.stores
    some (s.record command (result.toOption = none) stores [])

end LockedRun

def lockedMachine (P : Primitives) (ctx : SecurityContext) (stores : SecretStores) :
    Machine LockedRun LockedCommand :=
  .ofStep ⟨stores, [], []⟩ (LockedRun.next P ctx)

/-! ## What is wanted -/

/-- Every ciphertext is still in its field. -/
def KeepsRefs (before after : List (Option Text)) : Prop :=
  ∀ (field : ℕ) (ref : Text), before[field]? = some (some ref) → isBlank ref = false →
    after[field]? = some (some ref)

/-- Every ciphertext of the stores is still stored. -/
structure KeepsCiphertexts (before after : SecretStores) : Prop where
  profiles : ∀ (i : ℕ) (profile : StoredProfile), before.profiles[i]? = some profile →
    ∃ kept, after.profiles[i]? = some kept ∧ KeepsRefs profile.refs kept.refs
  credentials : ∀ (i : ℕ) (credential : StoredCredential),
    before.credentials[i]? = some credential → ∃ kept, after.credentials[i]? = some kept ∧
      KeepsRefs [credential.passwordRef] [kept.passwordRef]

def LockedCommand.isDelete : LockedCommand → Bool
  | credentialDelete .. => true
  | _ => false

/-- The command has failed and left the stores, or all ciphertexts are still there; and no
credential is deleted. -/
structure CommandRecord.Protects (r : CommandRecord) : Prop where
  kept : (r.failed = true ∧ r.after = r.before) ∨ KeepsCiphertexts r.before r.after
  refused : r.command.isDelete = true → r.failed = true

end FluxTerm.Security
