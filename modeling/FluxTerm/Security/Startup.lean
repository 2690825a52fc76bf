import FluxTerm.Security.ProfileCommands
import FluxTerm.Security.Rekey
import FluxTerm.Security.StandIn

/-!
# FluxTerm — the security storage at the start

`src-tauri/src/security_initialization.rs`: the start of the application checks the configuration
key against the security configuration and the stored ciphertexts, and creates a key if there is
none.

* **`startupLaw_iff_startupSafe`** — the result.
-/

namespace FluxTerm.Security

open FluxTerm.Engine FluxTerm.Lib

/-! ## The inspection of the stores -/

def encryptedPayloadKeyId (P : Primitives) (serialized : Text) :
    Except EngineError (Option Text) :=
  match serialized.dropPrefix? secretTokenPrefix with
  | none => .ok none
  | some payloadToken => (decodePayload P payloadToken).map fun payload => some payload.keyId

/-- The values that `collect_encrypted_key_ids` looks at. -/
def Disk.values (disk : Disk) : List Text :=
  (sshRefs disk.sshProfiles ++ credentialRefs disk.credentials
    ++ readAiRefs disk.aiSettings).filterMap id

/-- `collect_encrypted_key_ids`, on the stores as they are read. -/
def collectEncryptedKeyIds (P : Primitives) (disk : Disk) : Except EngineError (List Text) :=
  (collect (fun _ => encryptedPayloadKeyId P) 0 disk.values).map (·.filterMap id)

def IsConfigKeyId (keyId : Text) : Prop := configKeyPrefix <+: keyId

instance (keyId : Text) : Decidable (IsConfigKeyId keyId) :=
  inferInstanceAs (Decidable (_ <+: _))

def validateConfigKeyState (stored : Option ConfigKey) (config : Option SecretConfig)
    (encryptedKeyIds : List Text) : Except EngineError (Option ConfigKey) :=
  match stored with
  | none =>
    if (∃ keyId ∈ encryptedKeyIds, IsConfigKeyId keyId) ∨ (configuredKeyId config).isSome then
      .error (.new "config_key_missing" "The configuration key file is missing")
    else .ok none
  | some stored =>
    if (∃ keyId ∈ configuredKeyId config, keyId ≠ stored.keyId) ∨
        ∃ keyId ∈ encryptedKeyIds, IsConfigKeyId keyId ∧ keyId ≠ stored.keyId then
      .error (.new "config_key_mismatch"
        "The configuration key does not match encrypted data")
    else .ok (some stored)

/-! ## The start -/

inductive KeyCreation where
  | created
  | failed (err : EngineError)
  | unreadable (err : EngineError)
deriving DecidableEq

structure StartupFaults where
  configRead : Option EngineError
  profilesRead : Option EngineError
  credentialsRead : Option EngineError
  aiRead : Option EngineError
  keyCreation : KeyCreation
  configWrite : Option EngineError

section Startup

variable (P : Primitives) (fresh : ConfigKey) (faults : StartupFaults) (disk : Disk)

def readConfigKey : KeyFile → Except EngineError (Option ConfigKey)
  | .missing => .ok none
  | .invalid err => .error err
  | .key stored => .ok (some stored)

/-- `create_config_key` where the key file is missing: the file after it and what it returns. -/
def createConfigKey : KeyFile × Except EngineError ConfigKey :=
  match faults.keyCreation with
  | .created => (.key fresh, .ok fresh)
  | .failed err => (.missing, .error err)
  | .unreadable err => (.key fresh, .error err)

/-- The first part of `initialize_security_storage`: the provider is known and the key file is
read. -/
def readKeyFile : Except EngineError (Option ConfigKey) := do
  access faults.configRead
  if isEmbedded disk.securityConfig ∨
      providerName disk.securityConfig = "user_password".toList then
    readConfigKey disk.configKey
  else .error (.new "crypto_provider_invalid"
    "Secret config is invalid or uses an unsupported version")

/-- The configuration names a configuration key: the file must hold it. -/
def checkConfigured (configured : Text) (stored : Option ConfigKey) : Except EngineError Unit :=
  match stored with
  | none => .error (.new "config_key_missing" "The configuration key file is missing")
  | some stored =>
    if configured ≠ stored.keyId then
      .error (.new "config_key_mismatch"
        "The configuration key does not match the active key id")
    else .ok ()

def inspectStores (stored : Option ConfigKey) : Except EngineError (Option ConfigKey) := do
  access faults.profilesRead
  access faults.credentialsRead
  access faults.aiRead
  let _ ← validateAiSettings disk.aiSettings
  let encryptedKeyIds ← collectEncryptedKeyIds P disk
  validateConfigKeyState stored disk.securityConfig encryptedKeyIds

/-- The end of `initialize_security_storage`: the configuration names the key. -/
def nameConfigKey (configKey : ConfigKey) (disk : Disk) : Disk × Except EngineError Unit :=
  if (disk.securityConfig.bind (·.activeKeyId)).map trim ≠ some configKey.keyId then
    match access faults.configWrite with
    | .error err => (disk, .error err)
    | .ok () =>
      let written := CryptoService.buildEmbeddedConfig configKey.keyId
      ({ disk with securityConfig := some written }, .ok ())
  else (disk, .ok ())

/-- `initialize_security_storage`: the files after it and what it returns. -/
def initializeSecurityStorage : Disk × Except EngineError Unit :=
  match readKeyFile faults disk with
  | .error err => (disk, .error err)
  | .ok stored =>
    let (file, created) := createConfigKey fresh faults
    if providerName disk.securityConfig = "user_password".toList then
      match stored with
      | some _ => (disk, .ok ())
      | none => ({ disk with configKey := file }, created.map fun _ => ())
    else
      match configuredKeyId disk.securityConfig with
      | some configured => (disk, checkConfigured configured stored)
      | none =>
        match inspectStores P faults disk stored with
        | .error err => (disk, .error err)
        | .ok (some stored) => nameConfigKey faults stored disk
        | .ok none =>
          let disk := { disk with configKey := file }
          match created with
          | .error err => (disk, .error err)
          | .ok configKey => nameConfigKey faults configKey disk

/-! ## What is wanted -/

def Disk.StoredKeyId (keyId : Text) : Prop :=
  IsConfigKeyId keyId ∧ ∃ t ∈ disk.values, encryptedPayloadKeyId P t = .ok (some keyId)

/-- A new key is created only if no stored secret is a ciphertext under a configuration key; in
embedded mode a start that succeeds leaves the id of the stored key in the configuration, and every
ciphertext under a configuration key has that id; and one that fails changes neither file. -/
structure StartupLaw (before after : Disk) (result : Except EngineError Unit) : Prop where
  mints : ∀ key, before.configKey = .missing → after.configKey = .key key →
    ∀ keyId, ¬before.StoredKeyId P keyId
  agrees : result = .ok () → isEmbedded after.securityConfig = true →
    ∃ key, after.configKey = .key key ∧
      after.securityConfig.bind (·.activeKeyId) = some key.keyId ∧
        ∀ keyId, before.StoredKeyId P keyId → keyId = key.keyId
  keeps : ∀ err, result = .error err →
    after.configKey = before.configKey ∧ after.securityConfig = before.securityConfig

/-- The start creates a key, as far as the files before it go. -/
def Creates : Prop :=
  readKeyFile faults disk = .ok none ∧
    (providerName disk.securityConfig = "user_password".toList ∨
      configuredKeyId disk.securityConfig = none ∧ inspectStores P faults disk none = .ok none)

/-- Under a master password a missing key is created only if no ciphertext is under a configuration
key; a configuration that names a configuration key names it without blanks, and all ciphertexts
under a configuration key are under that one; and no file fails once the key has been created. -/
structure StartupSafe : Prop where
  mints : readKeyFile faults disk = .ok none →
    providerName disk.securityConfig = "user_password".toList → faults.keyCreation = .created →
      ∀ keyId, ¬disk.StoredKeyId P keyId
  agrees : ∀ key, readKeyFile faults disk = .ok (some key) →
    providerName disk.securityConfig ≠ "user_password".toList →
      configuredKeyId disk.securityConfig = some key.keyId →
        disk.securityConfig.bind (·.activeKeyId) = some key.keyId ∧
          ∀ keyId, disk.StoredKeyId P keyId → keyId = key.keyId
  keeps : Creates P faults disk → (∀ err, faults.keyCreation ≠ .unreadable err) ∧
    (providerName disk.securityConfig ≠ "user_password".toList → faults.keyCreation = .created →
      faults.configWrite = none)

end Startup

/-! ## The inspection finds every ciphertext -/

section Results

variable {P : Primitives} {fresh key : ConfigKey} {faults : StartupFaults} {disk : Disk}
  {stored found : Option ConfigKey} {keyId : Text}

theorem mem_of_collectEncryptedKeyIds {keyIds : List Text}
    (h : collectEncryptedKeyIds P disk = .ok keyIds) (hstored : disk.StoredKeyId P keyId) :
    keyId ∈ keyIds := by
  obtain ⟨-, t, ht, hkeyId⟩ := hstored
  unfold collectEncryptedKeyIds at h
  cases hread : collect (fun _ => encryptedPayloadKeyId P) 0 disk.values with
  | error err =>
    rw [hread] at h
    cases h
  | ok read =>
    rw [hread] at h
    cases h
    have hall : List.Forall₂ (fun t b => encryptedPayloadKeyId P t = .ok b) disk.values read := by
      refine forall₂_of_collect (fun _ _ _ h => ?_) hread
      exact h
    obtain ⟨b, hb, heq⟩ := (exists_mem_of_forall₂ hall).1 t ht
    rw [hkeyId, Except.ok.injEq] at heq
    exact List.mem_filterMap.mpr ⟨b, hb, heq.symm⟩

theorem inspectStores_eq_ok (h : inspectStores P faults disk stored = .ok found) :
    found = stored ∧ (stored = none → ∀ keyId, ¬disk.StoredKeyId P keyId) ∧
      ∀ key, stored = some key → ∀ keyId, disk.StoredKeyId P keyId → keyId = key.keyId := by
  unfold inspectStores at h
  obtain ⟨-, -, h⟩ := bind_eq_ok_iff.mp h
  obtain ⟨-, -, h⟩ := bind_eq_ok_iff.mp h
  obtain ⟨-, -, h⟩ := bind_eq_ok_iff.mp h
  obtain ⟨-, -, h⟩ := bind_eq_ok_iff.mp h
  obtain ⟨keyIds, hcollect, h⟩ := bind_eq_ok_iff.mp h
  unfold validateConfigKeyState at h
  split at h
  · split at h
    · cases h
    · rename_i hfree
      cases h
      refine ⟨rfl, fun _ keyId hstored => hfree (.inl ⟨keyId, ?_, hstored.1⟩), nofun⟩
      exact mem_of_collectEncryptedKeyIds hcollect hstored
  · rename_i key
    split at h
    · cases h
    · rename_i hfree
      cases h
      refine ⟨rfl, nofun, ?_⟩
      rintro _ ⟨⟩ keyId hstored
      by_contra hne
      exact hfree (.inr ⟨keyId, mem_of_collectEncryptedKeyIds hcollect hstored, hstored.1, hne⟩)

/-! ## The exits of the start -/

theorem configKey_of_readKeyFile (h : readKeyFile faults disk = .ok stored) :
    (stored = none → disk.configKey = .missing) ∧ ∀ key, stored = some key →
      disk.configKey = .key key := by
  unfold readKeyFile at h
  obtain ⟨-, -, h⟩ := bind_eq_ok_iff.mp h
  split at h
  · unfold readConfigKey at h
    split at h
    · rename_i hfile
      cases h
      exact ⟨fun _ => hfile, nofun⟩
    · cases h
    · rename_i key hfile
      cases h
      refine ⟨nofun, ?_⟩
      rintro _ ⟨⟩
      exact hfile
  · cases h

theorem isEmbedded_of_readKeyFile (h : readKeyFile faults disk = .ok stored)
    (hprovider : providerName disk.securityConfig ≠ "user_password".toList) :
    isEmbedded disk.securityConfig = true := by
  unfold readKeyFile at h
  obtain ⟨-, -, h⟩ := bind_eq_ok_iff.mp h
  split at h
  · rename_i hknown
    exact hknown.resolve_right hprovider
  · cases h

theorem startupLaw_of_error (err : EngineError) : StartupLaw P disk disk (.error err) where
  mints key hbefore hafter := by
    rw [hbefore] at hafter
    cases hafter
  agrees := nofun
  keeps _ _ := ⟨rfl, rfl⟩

theorem nameConfigKey_eq (key : ConfigKey) (h : configuredKeyId disk.securityConfig = none) :
    nameConfigKey faults key disk = match access faults.configWrite with
      | .error err => (disk, .error err)
      | .ok () => ({ disk with
          securityConfig := some (CryptoService.buildEmbeddedConfig key.keyId) }, .ok ()) := by
  unfold nameConfigKey
  rw [if_pos]
  intro hnamed
  unfold configuredKeyId at h
  rw [hnamed, Option.filter_some, if_pos] at h
  · cases h
  · exact List.isPrefixOf_iff_prefix.mpr key.keyId_prefix

theorem law_iff_of_userPassword (hread : readKeyFile faults disk = .ok stored)
    (hprovider : providerName disk.securityConfig = "user_password".toList) :
    StartupLaw P disk (initializeSecurityStorage P fresh faults disk).1
        (initializeSecurityStorage P fresh faults disk).2 ↔ StartupSafe P faults disk := by
  obtain ⟨hmissing, hheld⟩ := configKey_of_readKeyFile hread
  have hother := isEmbedded_of_userPassword hprovider
  unfold initializeSecurityStorage
  rw [hread]
  dsimp only
  rw [if_pos hprovider]
  cases stored with
  | some key =>
    -- the key is there, and nothing happens
    refine iff_of_true ⟨?_, ?_, nofun⟩ ⟨?_, ?_, ?_⟩
    · intro key' hbefore hafter
      rw [hbefore] at hafter
      cases hafter
    · intro _ hembedded
      rw [hother] at hembedded
      cases hembedded
    · intro hnone
      rw [hread] at hnone
      cases hnone
    · exact fun _ _ hne => absurd hprovider hne
    · rintro ⟨hnone, -⟩
      rw [hread] at hnone
      cases hnone
  | none =>
    have hfile := hmissing rfl
    dsimp only
    unfold createConfigKey
    cases hcreation : faults.keyCreation with
    | created =>
      -- a key is created without a look at the stores
      constructor
      · intro hlaw
        refine ⟨fun _ _ _ => hlaw.mints fresh hfile rfl, ?_, fun _ => ⟨?_, ?_⟩⟩
        · exact fun _ _ hne => absurd hprovider hne
        · rw [hcreation]
          exact fun _ => nofun
        · exact fun hne => absurd hprovider hne
      · intro hsafe
        refine ⟨fun _ _ _ => hsafe.mints hread hprovider hcreation, ?_, nofun⟩
        intro _ hembedded
        change isEmbedded disk.securityConfig = true at hembedded
        rw [hother] at hembedded
        cases hembedded
    | failed err =>
      have hsame : { disk with configKey := KeyFile.missing } = disk := by rw [← hfile]
      dsimp only
      rw [hsame]
      refine iff_of_true (startupLaw_of_error err) ⟨?_, ?_, fun _ => ⟨?_, ?_⟩⟩
      · rw [hcreation]
        exact fun _ _ => nofun
      · exact fun _ _ hne => absurd hprovider hne
      · rw [hcreation]
        exact fun _ => nofun
      · exact fun hne => absurd hprovider hne
    | unreadable err =>
      -- a key that cannot be read back stays
      refine iff_of_false (fun hlaw => ?_) fun hsafe => ?_
      · have hkept := (hlaw.keeps err rfl).1
        rw [hfile] at hkept
        cases hkept
      · exact (hsafe.keeps ⟨hread, .inl hprovider⟩).1 err hcreation

theorem law_iff_of_configured {configured : Text} (hread : readKeyFile faults disk = .ok stored)
    (hprovider : providerName disk.securityConfig ≠ "user_password".toList)
    (hconfigured : configuredKeyId disk.securityConfig = some configured) :
    StartupLaw P disk (initializeSecurityStorage P fresh faults disk).1
        (initializeSecurityStorage P fresh faults disk).2 ↔ StartupSafe P faults disk := by
  have hheld := (configKey_of_readKeyFile hread).2
  have hembedded := isEmbedded_of_readKeyFile hread hprovider
  have hminted : readKeyFile faults disk = .ok none →
      providerName disk.securityConfig = "user_password".toList → faults.keyCreation = .created →
        ∀ keyId, ¬disk.StoredKeyId P keyId := fun _ h => absurd h hprovider
  have hnone : ¬Creates P faults disk := by
    rintro ⟨-, h | ⟨h, -⟩⟩
    · exact hprovider h
    · rw [hconfigured] at h
      cases h
  unfold initializeSecurityStorage
  rw [hread]
  dsimp only
  rw [if_neg hprovider, hconfigured]
  dsimp only
  unfold checkConfigured
  cases stored with
  | none =>
    refine iff_of_true (startupLaw_of_error _) ⟨hminted, ?_, fun h => absurd h hnone⟩
    intro key hsome
    rw [hread] at hsome
    cases hsome
  | some key =>
    have hfile := hheld key rfl
    dsimp only
    split
    · rename_i hne
      refine iff_of_true (startupLaw_of_error _) ⟨hminted, ?_, fun h => absurd h hnone⟩
      intro key' hsome _ hnamed
      rw [hread] at hsome
      cases hsome
      rw [hconfigured, Option.some.injEq] at hnamed
      exact absurd hnamed hne
    · rename_i heq
      have heq := not_not.mp heq
      constructor
      · intro hlaw
        refine ⟨hminted, ?_, fun h => absurd h hnone⟩
        intro key' hsome _ _
        rw [hread] at hsome
        cases hsome
        obtain ⟨held, hheld, hagrees⟩ := hlaw.agrees rfl hembedded
        rw [hfile] at hheld
        cases hheld
        exact hagrees
      · intro hsafe
        refine ⟨?_, fun _ _ => ⟨key, hfile, ?_⟩, nofun⟩
        · intro key' hbefore
          rw [hfile] at hbefore
          cases hbefore
        · exact hsafe.agrees key hread hprovider (heq ▸ hconfigured)

theorem law_iff_of_inspected (hread : readKeyFile faults disk = .ok stored)
    (hprovider : providerName disk.securityConfig ≠ "user_password".toList)
    (hconfigured : configuredKeyId disk.securityConfig = none) :
    StartupLaw P disk (initializeSecurityStorage P fresh faults disk).1
        (initializeSecurityStorage P fresh faults disk).2 ↔ StartupSafe P faults disk := by
  obtain ⟨hmissing, hheld⟩ := configKey_of_readKeyFile hread
  have hminted : readKeyFile faults disk = .ok none →
      providerName disk.securityConfig = "user_password".toList → faults.keyCreation = .created →
        ∀ keyId, ¬disk.StoredKeyId P keyId := fun _ h => absurd h hprovider
  have hagreed : ∀ key, readKeyFile faults disk = .ok (some key) →
      providerName disk.securityConfig ≠ "user_password".toList →
        configuredKeyId disk.securityConfig = some key.keyId →
          disk.securityConfig.bind (·.activeKeyId) = some key.keyId ∧
            ∀ keyId, disk.StoredKeyId P keyId → keyId = key.keyId := by
    intro key _ _ hnamed
    rw [hconfigured] at hnamed
    cases hnamed
  unfold initializeSecurityStorage
  rw [hread]
  dsimp only
  rw [if_neg hprovider, hconfigured]
  dsimp only
  cases hinspect : inspectStores P faults disk stored with
  | error err =>
    refine iff_of_true (startupLaw_of_error err) ⟨hminted, hagreed, ?_⟩
    rintro ⟨hnone, h | ⟨-, h⟩⟩
    · exact absurd h hprovider
    · rw [hread] at hnone
      cases hnone
      rw [hinspect] at h
      cases h
  | ok found =>
    obtain ⟨rfl, hfree, hsame⟩ := inspectStores_eq_ok hinspect
    cases found with
    | some key =>
      have hfile := hheld key rfl
      have hsafe : StartupSafe P faults disk := by
        refine ⟨hminted, hagreed, ?_⟩
        rintro ⟨hnone, -⟩
        rw [hread] at hnone
        cases hnone
      dsimp only
      rw [nameConfigKey_eq key hconfigured]
      cases access faults.configWrite with
      | error err => exact iff_of_true (startupLaw_of_error err) hsafe
      | ok _ =>
        refine iff_of_true ⟨?_, fun _ _ => ⟨key, hfile, rfl, hsame key rfl⟩, nofun⟩ hsafe
        intro key' hbefore
        rw [hfile] at hbefore
        cases hbefore
    | none =>
      have hfile := hmissing rfl
      have hcreates : Creates P faults disk := ⟨hread, .inr ⟨hconfigured, hinspect⟩⟩
      dsimp only
      unfold createConfigKey
      cases hcreation : faults.keyCreation with
      | created =>
        dsimp only
        have hcreated : configuredKeyId { disk with configKey := .key fresh }.securityConfig = none :=
          hconfigured
        rw [nameConfigKey_eq fresh hcreated]
        cases hwrite : faults.configWrite with
        | some err =>
          -- the key has been created and is not named
          refine iff_of_false (fun hlaw => ?_) fun hsafe => ?_
          · have hkept := (hlaw.keeps err rfl).1
            rw [hfile] at hkept
            cases hkept
          · have hnone := (hsafe.keeps hcreates).2 hprovider hcreation
            rw [hwrite] at hnone
            cases hnone
        | none =>
          refine iff_of_true ⟨?_, ?_, nofun⟩ ⟨hminted, hagreed, fun _ => ⟨?_, fun _ _ => hwrite⟩⟩
          · exact fun _ _ _ => hfree rfl
          · exact fun _ _ => ⟨fresh, rfl, rfl, fun keyId h => absurd h (hfree rfl keyId)⟩
          · rw [hcreation]
            exact fun _ => nofun
      | failed err =>
        have hsame : { disk with configKey := KeyFile.missing } = disk := by rw [← hfile]
        dsimp only
        rw [hsame]
        refine iff_of_true (startupLaw_of_error err) ⟨hminted, hagreed, fun _ => ⟨?_, ?_⟩⟩
        · rw [hcreation]
          exact fun _ => nofun
        · rw [hcreation]
          exact fun _ => nofun
      | unreadable err =>
        refine iff_of_false (fun hlaw => ?_) fun hsafe => ?_
        · have hkept := (hlaw.keeps err rfl).1
          rw [hfile] at hkept
          cases hkept
        · exact (hsafe.keeps hcreates).1 err hcreation

/-- **The start.** It does what it should exactly when it is safe. -/
theorem startupLaw_iff_startupSafe (P : Primitives) (fresh : ConfigKey) (faults : StartupFaults)
    (disk : Disk) :
    StartupLaw P disk (initializeSecurityStorage P fresh faults disk).1
        (initializeSecurityStorage P fresh faults disk).2 ↔ StartupSafe P faults disk := by
  cases hread : readKeyFile faults disk with
  | error err =>
    have hexit : initializeSecurityStorage P fresh faults disk = (disk, .error err) := by
      unfold initializeSecurityStorage
      rw [hread]
    rw [hexit]
    refine iff_of_true (startupLaw_of_error err) ⟨?_, ?_, ?_⟩
    · rw [hread]
      exact nofun
    · rw [hread]
      exact fun _ => nofun
    · rintro ⟨hnone, -⟩
      rw [hread] at hnone
      cases hnone
  | ok stored =>
    by_cases hprovider : providerName disk.securityConfig = "user_password".toList
    · exact law_iff_of_userPassword hread hprovider
    · cases hconfigured : configuredKeyId disk.securityConfig with
      | some configured => exact law_iff_of_configured hread hprovider hconfigured
      | none => exact law_iff_of_inspected hread hprovider hconfigured

theorem encryptedPayloadKeyId_encodeToken (hP : P.Lawful) (payload : EncryptedPayload) :
    encryptedPayloadKeyId P (encodeToken P payload) = .ok (some payload.keyId) := by
  have hdecode := CryptoService.decodeToken_encodeToken hP.roundTrips payload
  unfold decodeToken at hdecode
  unfold encryptedPayloadKeyId
  revert hdecode
  cases (encodeToken P payload).dropPrefix? secretTokenPrefix with
  | none => exact nofun
  | some payloadToken =>
    intro hdecode
    dsimp only at hdecode ⊢
    rw [hdecode]
    rfl

end Results

/-! ## A master password and a lost key file -/

def sampleCiphertext : EncryptedPayload where
  provider := .embedded
  algorithm := .aes256Gcm
  keyId := "config-1".toList
  nonce := []
  ciphertext := []

def sampleLostKey : Disk where
  sshProfiles := [⟨"p".toList, some (encodeToken standIn sampleCiphertext), none, none⟩]
  credentials := []
  securityConfig := some ⟨1, "user_password".toList, some "master-1".toList, none, none⟩
  aiSettings := ⟨⟨1, 1, 1, 1, 1, 1, 1⟩, [], []⟩
  configKey := .missing

def sampleFresh : ConfigKey := ⟨"config-2".toList, .empty, ['2'], rfl⟩

def sampleNoFaults : StartupFaults := ⟨none, none, none, none, .created, none⟩

theorem sampleLostKey_mints :
    (∃ keyId, sampleLostKey.StoredKeyId standIn keyId) ∧
      (initializeSecurityStorage standIn sampleFresh sampleNoFaults sampleLostKey).1.configKey
        = .key sampleFresh ∧
      ¬StartupLaw standIn sampleLostKey
        (initializeSecurityStorage standIn sampleFresh sampleNoFaults sampleLostKey).1
        (initializeSecurityStorage standIn sampleFresh sampleNoFaults sampleLostKey).2 := by
  have hstored : sampleLostKey.StoredKeyId standIn "config-1".toList := by
    refine ⟨⟨['1'], rfl⟩, encodeToken standIn sampleCiphertext, ?_, ?_⟩
    · exact List.mem_filterMap.mpr ⟨some _, List.mem_cons_self, rfl⟩
    · exact encryptedPayloadKeyId_encodeToken standIn_lawful sampleCiphertext
  refine ⟨⟨_, hstored⟩, rfl, fun hlaw => ?_⟩
  exact hlaw.mints sampleFresh rfl rfl _ hstored

end FluxTerm.Security
