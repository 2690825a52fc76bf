import FluxTerm.Security.Sealed

/-!
# FluxTerm — changing the protection of the stored secrets

`src-tauri/src/commands/security.rs`: three commands decrypt all stores, encrypt them under
another key and rewrite four files one after the other. A write can fail and the process can stop
between any two of them.
-/

namespace FluxTerm.Security

open FluxTerm.Engine FluxTerm.Lib

/-! ## The files -/

structure Disk where
  sshProfiles : List HostProfile
  credentials : List Credential
  securityConfig : Option SecretConfig
  aiSettings : AiSettings
  configKey : KeyFile

structure Plain where
  sshProfiles : List HostProfile
  credentials : List Credential
  aiSettings : AiSettings
deriving DecidableEq

structure Randomness where
  configKey : ConfigKey
  salt : Bytes
  uuid : Text
  sshNonce : ℕ → ℕ → Bytes
  credentialNonce : ℕ → Bytes
  aiNonce : ℕ → Bytes

inductive Interruption where
  | none
  | writeFails (write : Fin 4) (err : EngineError)
  | stop (written : Fin 5)

def Interruption.reached : Interruption → ℕ
  | .none => 4
  | .writeFails write _ => write
  | .stop written => written

inductive Outcome where
  | returned (result : Except EngineError SecurityStatus)
  | stopped

structure Finish where
  disk : Disk
  session : Option UnlockedSecretSession
  outcome : Outcome

/-! ## The commands -/

def decryptStores (P : Primitives) (service : CryptoService) (disk : Disk) :
    Except EngineError Plain := do
  let sshProfiles ← decryptSshProfiles P service disk.sshProfiles
  let credentials ← decryptCredentials P service disk.credentials
  let aiSettings ← decryptAiSettings P service disk.aiSettings
  return ⟨sshProfiles, credentials, aiSettings⟩

structure Rewrite where
  sshProfiles : List HostProfile
  credentials : List Credential
  config : SecretConfig
  aiPlain : AiSettings
  next : CryptoService
  session : Option UnlockedSecretSession

/-- SSH profiles and credentials encrypted under `next`. The AI settings are encrypted when they
are written. -/
def encryptStores (P : Primitives) (rand : Randomness) (plain : Plain) (config : SecretConfig)
    (next : CryptoService) (session : Option UnlockedSecretSession) :
    Except EngineError Rewrite := do
  let sshProfiles ← encryptSshProfiles P next rand.sshNonce plain.sshProfiles
  let credentials ← encryptCredentials P next rand.credentialNonce plain.credentials
  return ⟨sshProfiles, credentials, config, plain.aiSettings, next, session⟩

/-- `security_status`, on the files and session that a command leaves. -/
def securityStatus (rand : Randomness) (disk : Disk) (session : Option UnlockedSecretSession) :
    Finish :=
  match CryptoService.load rand.configKey disk.configKey disk.securityConfig session with
  | .ok (service, configKey) => ⟨{ disk with configKey }, session, .returned (.ok service.status)⟩
  | .error err => ⟨disk, session, .returned (.error err)⟩

def writeStep (interruption : Interruption) (write : Fin 4) (session : Option UnlockedSecretSession)
    (disk : Disk) (next : Disk) (rest : Disk → Finish) : Finish :=
  match interruption with
  | .writeFails failing err =>
    if failing = write then ⟨disk, session, .returned (.error err)⟩ else rest next
  | .stop written => if written = write.castSucc then ⟨disk, session, .stopped⟩ else rest next
  | .none => rest next

/-- The end of each command: four writes, the session in memory and the status. -/
def rewriteStores (P : Primitives) (rand : Randomness) (interruption : Interruption)
    (session : Option UnlockedSecretSession) (disk : Disk) (rewrite : Rewrite) : Finish :=
  writeStep interruption 0 session disk { disk with sshProfiles := rewrite.sshProfiles } fun disk =>
  writeStep interruption 1 session disk { disk with credentials := rewrite.credentials } fun disk =>
  writeStep interruption 2 session disk { disk with securityConfig := some rewrite.config }
    fun disk =>
  match (do validateAiSettings (← encryptAiSettings P rewrite.next rand.aiNonce rewrite.aiPlain)) with
  | .error err => ⟨disk, session, .returned (.error err)⟩
  | .ok aiSettings =>
    writeStep interruption 3 session disk { disk with aiSettings } fun disk =>
    match interruption with
    | .stop _ => ⟨disk, session, .stopped⟩
    | _ => securityStatus rand disk rewrite.session

def prepareMaster (P : Primitives) (rand : Randomness) (current : CryptoService) (disk : Disk)
    (password : Text) : Except EngineError Rewrite := do
  let plain ← decryptStores P current disk
  let (config, session) ← CryptoService.buildUserPasswordConfig P rand.salt rand.uuid password
  let next ← CryptoService.new (some config) (some session)
  encryptStores P rand plain config next (some session)

def securityEnableStrongProtection (P : Primitives) (rand : Randomness)
    (interruption : Interruption) (disk : Disk) (session : Option UnlockedSecretSession)
    (password : Text) : Finish :=
  match CryptoService.load rand.configKey disk.configKey disk.securityConfig session with
  | .error err => ⟨disk, session, .returned (.error err)⟩
  | .ok (current, configKey) =>
    let disk := { disk with configKey }
    let prepared : Except EngineError Rewrite :=
      if current.providerKind ≠ .embedded then
        .error ((EngineError.new "security_enable_unavailable"
          "Strong protection mode is already enabled").withMessageKey
            "error.securityEnableUnavailable")
      else prepareMaster P rand current disk password
    match prepared with
    | .error err => ⟨disk, session, .returned (.error err)⟩
    | .ok rewrite => rewriteStores P rand interruption session disk rewrite

/-- The configuration that `security_change_password` needs. -/
def requireUserPassword (config : Option SecretConfig) : Except EngineError SecretConfig :=
  match config with
  | none => .error (.new "security_mode_invalid" "Security mode is not configured")
  | some config =>
    if providerName (some config) ≠ "user_password".toList then
      .error ((EngineError.new "security_change_unavailable"
        "Strong protection mode is not enabled").withMessageKey
          "error.securityChangeUnavailable")
    else .ok config

def securityChangePassword (P : Primitives) (rand : Randomness) (interruption : Interruption)
    (disk : Disk) (session : Option UnlockedSecretSession) (current next : Text) : Finish :=
  let opened : Except EngineError (CryptoService × KeyFile) := do
    let config ← requireUserPassword disk.securityConfig
    let unlocked ← CryptoService.unlockUserPassword P config current
    CryptoService.load rand.configKey disk.configKey disk.securityConfig (some unlocked)
  match opened with
  | .error err => ⟨disk, session, .returned (.error err)⟩
  | .ok (current, configKey) =>
    let disk := { disk with configKey }
    match prepareMaster P rand current disk next with
    | .error err => ⟨disk, session, .returned (.error err)⟩
    | .ok rewrite => rewriteStores P rand interruption session disk rewrite

def securityEnableWeakProtection (P : Primitives) (rand : Randomness)
    (interruption : Interruption) (disk : Disk) (session : Option UnlockedSecretSession) : Finish :=
  match CryptoService.load rand.configKey disk.configKey disk.securityConfig session with
  | .error err => ⟨disk, session, .returned (.error err)⟩
  | .ok (current, configKey) =>
    let disk := { disk with configKey }
    let decrypted : Except EngineError Plain :=
      if current.providerKind = .userPassword ∧ session = none then
        .error ((EngineError.new "security_locked" "Security data is locked").withMessageKey
          "error.securityLocked")
      else if current.providerKind = .embedded then
        .error ((EngineError.new "security_enable_unavailable"
          "Weak protection mode is already enabled").withMessageKey
            "error.securityEnableUnavailable")
      else decryptStores P current disk
    match decrypted with
    | .error err => ⟨disk, session, .returned (.error err)⟩
    | .ok plain =>
      match CryptoService.load rand.configKey disk.configKey none none with
      | .error err => ⟨disk, session, .returned (.error err)⟩
      | .ok (weak, configKey) =>
        let disk := { disk with configKey }
        match encryptStores P rand plain (CryptoService.buildEmbeddedConfig weak.keyId) weak
          none with
        | .error err => ⟨disk, session, .returned (.error err)⟩
        | .ok rewrite => rewriteStores P rand interruption session disk rewrite

inductive Command where
  | enableStrong (password : Text)
  | changePassword (current next : Text)
  | enableWeak

def Command.run (P : Primitives) (rand : Randomness) (interruption : Interruption) (disk : Disk)
    (session : Option UnlockedSecretSession) : Command → Finish
  | .enableStrong password =>
    securityEnableStrongProtection P rand interruption disk session password
  | .changePassword current next =>
    securityChangePassword P rand interruption disk session current next
  | .enableWeak => securityEnableWeakProtection P rand interruption disk session

def Command.newPassword : Command → Option Text
  | .enableStrong password => some password
  | .changePassword _ next => some next
  | .enableWeak => none

/-! ## Reading the stores back -/

def sessionOf (P : Primitives) (config : Option SecretConfig) (password : Option Text) :
    Except EngineError (Option UnlockedSecretSession) :=
  match password, config with
  | some password, some config => (CryptoService.unlockUserPassword P config password).map some
  | some _, none => .error (.new "security_mode_invalid" "Security mode is not configured")
  | none, _ => .ok none

def openWith (P : Primitives) (fresh : ConfigKey) (config : Option SecretConfig) (file : KeyFile)
    (password : Option Text) : Except EngineError CryptoService := do
  let session ← sessionOf P config password
  let (service, _) ← CryptoService.load fresh file config session
  return service

/-- All stores decrypt under the persisted configuration and the password, to `plain`. -/
def ReadableAs (P : Primitives) (disk : Disk) (password : Option Text) (plain : Plain) : Prop :=
  ∀ fresh, ∃ service, openWith P fresh disk.securityConfig disk.configKey password = .ok service ∧
    decryptStores P service disk = .ok plain

def Disk.secrets (disk : Disk) : List Text :=
  secretsOf (sshRefs disk.sshProfiles) ++ secretsOf (credentialRefs disk.credentials)
    ++ secretsOf (readAiRefs disk.aiSettings)

/-- A secret decrypts under the persisted configuration together with one of the passwords. -/
def Recoverable (P : Primitives) (disk : Disk) (passwords : List (Option Text)) (t : Text) : Prop :=
  ∀ fresh, ∃ password ∈ passwords, ∃ service s,
    openWith P fresh disk.securityConfig disk.configKey password = .ok service ∧
      service.decryptString P t = .ok s

/-- What a change of protection should leave behind: every secret in every store decrypts with the
old or the new password, and a command that succeeds has kept the plaintexts. -/
def NeverStrands (P : Primitives) (old new : Option Text) (plain : Plain) (finish : Finish) : Prop :=
  (∀ t ∈ finish.disk.secrets, Recoverable P finish.disk [old, new] t) ∧
    ((∃ status, finish.outcome = .returned (.ok status)) →
      ReadableAs P finish.disk new plain)

end FluxTerm.Security
