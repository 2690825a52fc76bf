import FluxTerm.Security.Handover
import FluxTerm.Security.StandIn

/-!
# FluxTerm — when a change of protection strands secrets

The exact condition under which the three commands of `Security.Rekey` keep every secret readable.

* **`rekey_neverStrands_iff`** — a command strands no secret exactly when it does not begin to
  write or is cut off at a safe point.
-/

namespace FluxTerm.Security

open FluxTerm.Engine FluxTerm.Lib

variable {P : Primitives}

/-! ## One plaintext -/

theorem reveal_unique (hP : P.Lawful) {service service' : CryptoService} {v w w' : Option Text}
    (h : revealOptionalString P service v = .ok w)
    (h' : revealOptionalString P service' v = .ok w') : w = w' := by
  cases v with
  | none => cases h; cases h'; rfl
  | some t =>
    rw [revealOptionalString] at h h'
    by_cases hblank : isBlank t = true
    · rw [if_pos hblank] at h h'
      cases h; cases h'; rfl
    · rw [if_neg hblank] at h h'
      split at h
      · cases h
      · rename_i hpre
        rw [if_neg hpre] at h'
        cases hs : service.decryptString P t with
        | error err => rw [hs] at h; cases h
        | ok s =>
          cases hs' : service'.decryptString P t with
          | error err => rw [hs'] at h'; cases h'
          | ok s' =>
            rw [hs] at h
            rw [hs'] at h'
            cases h; cases h'
            rw [CryptoService.decryptString_unique hP hs hs']

theorem decryptStores_unique (hP : P.Lawful) {service service' : CryptoService} {disk : Disk}
    {plain plain' : Plain} (h : decryptStores P service disk = .ok plain)
    (h' : decryptStores P service' disk = .ok plain') : plain = plain' := by
  have hR (v w w' : Option Text) (hw : revealOptionalString P service v = .ok w)
      (hw' : revealOptionalString P service' v = .ok w') : w = w' := reveal_unique hP hw hw'
  obtain ⟨hssh, hcred, hai⟩ := decryptStores_eq_ok_iff.mp h
  obtain ⟨hssh', hcred', hai'⟩ := decryptStores_eq_ok_iff.mp h'
  obtain ⟨profiles, credentials, aiSettings⟩ := plain
  obtain ⟨profiles', credentials', aiSettings'⟩ := plain'
  obtain ⟨settings, hread, hrelated⟩ := bind_eq_ok_iff.mp hai
  obtain ⟨settings', hread', hrelated'⟩ := bind_eq_ok_iff.mp hai'
  rw [hread, Except.ok.injEq] at hread'
  subst hread'
  have hprofiles : profiles = profiles' :=
    forall₂_unique (fun p q q' hq hq' => hq.unique hq' hR) (reveal_sshProfiles hssh)
      (reveal_sshProfiles hssh')
  have hcredentials : credentials = credentials' :=
    forall₂_unique (fun c d d' hd hd' => hd.unique hd' hR) (reveal_credentials hcred)
      (reveal_credentials hcred')
  have hsettings : aiSettings = aiSettings' := by
    have hsame : AiSettings.Related (fun v w => revealOptionalString P service v = .ok w)
        settings aiSettings :=
      AiSettings.related_of_mapSecrets (fun i v w hv => by exact hv) hrelated
    have hsame' : AiSettings.Related (fun v w => revealOptionalString P service' v = .ok w)
        settings aiSettings' :=
      AiSettings.related_of_mapSecrets (fun i v w hv => by exact hv) hrelated'
    exact hsame.unique hsame' hR
  rw [hprofiles, hcredentials, hsettings]

/-! ## A new master password -/

def masterKeyId (rand : Randomness) : Text := "master-".toList ++ rand.uuid

/-- A password that `build_user_password_config` takes. -/
def PasswordAccepted (P : Primitives) (rand : Randomness) (password : Text) : Prop :=
  4 ≤ (trim password).length ∧
    ∃ derived, P.argon2 (utf8Bytes (trim password)) rand.salt = .ok derived

section MasterPassword

variable {rand : Randomness} {password : Text}

theorem trim_masterKeyId_ne_nil (rand : Randomness) : trim (masterKeyId rand) ≠ [] := by
  intro h
  have hm := trimBy_eq_nil_iff.mp h 'm' List.mem_cons_self
  exact absurd hm (by decide)

theorem derivePasswordMaterial_eq_ok_iff {salt derived : Bytes} (hne : password ≠ []) :
    CryptoService.derivePasswordMaterial P password salt = .ok derived ↔
      P.argon2 (utf8Bytes password) salt = .ok derived := by
  rw [CryptoService.derivePasswordMaterial, if_neg hne]
  cases P.argon2 (utf8Bytes password) salt <;> simp

theorem buildUserPasswordConfig_eq_ok_iff {config : SecretConfig}
    {session : UnlockedSecretSession} :
    CryptoService.buildUserPasswordConfig P rand.salt rand.uuid password = .ok (config, session) ↔
      4 ≤ (trim password).length ∧
      ∃ derived, P.argon2 (utf8Bytes (trim password)) rand.salt = .ok derived ∧
        config = ⟨1, "user_password".toList, some (masterKeyId rand),
          some (P.base64Encode rand.salt),
          some (P.base64Encode (CryptoService.verifyOf derived))⟩ ∧
        session = ⟨masterKeyId rand, CryptoService.keyOf derived⟩ := by
  rw [CryptoService.buildUserPasswordConfig]
  split
  · rename_i hshort
    constructor
    · intro h; cases h
    · exact fun h => absurd h.1 (by omega)
  · rename_i hlong
    have hne : trim password ≠ [] := fun h => hlong (by simp [h])
    rw [bind_eq_ok_iff]
    constructor
    · rintro ⟨derived, hderived, h⟩
      cases h
      exact ⟨by omega, derived, (derivePasswordMaterial_eq_ok_iff hne).mp hderived, rfl, rfl⟩
    · rintro ⟨-, derived, hderived, rfl, rfl⟩
      exact ⟨derived, (derivePasswordMaterial_eq_ok_iff hne).mpr hderived, rfl⟩

theorem exists_buildUserPasswordConfig_iff :
    (∃ built, CryptoService.buildUserPasswordConfig P rand.salt rand.uuid password = .ok built) ↔
      PasswordAccepted P rand password := by
  constructor
  · rintro ⟨⟨config, session⟩, h⟩
    obtain ⟨hlong, derived, hderived, -⟩ := buildUserPasswordConfig_eq_ok_iff.mp h
    exact ⟨hlong, derived, hderived⟩
  · rintro ⟨hlong, derived, hderived⟩
    exact ⟨(_, _), buildUserPasswordConfig_eq_ok_iff.mpr ⟨hlong, derived, hderived, rfl, rfl⟩⟩

/-- **A new master password** gives a service under a fresh key id, and unlocking its configuration
with the password gives that service again. -/
theorem exists_masterService (hP : P.Lawful) {config : SecretConfig}
    {session : UnlockedSecretSession}
    (h : CryptoService.buildUserPasswordConfig P rand.salt rand.uuid password
      = .ok (config, session)) :
    ∃ service, CryptoService.new (some config) (some session) = .ok service ∧
      service.providerKind = .userPassword ∧ service.keyId = masterKeyId rand ∧
      (∃ provider, service.provider = some provider) ∧
      isEmbedded (some config) = false ∧
      ∀ fresh file, openWith P fresh (some config) file (some password) = .ok service := by
  obtain ⟨hlong, derived, hderived, rfl, rfl⟩ := buildUserPasswordConfig_eq_ok_iff.mp h
  have hne : trim password ≠ [] := fun h => by rw [h] at hlong; simp at hlong
  set config : SecretConfig := ⟨1, "user_password".toList, some (masterKeyId rand),
    some (P.base64Encode rand.salt), some (P.base64Encode (CryptoService.verifyOf derived))⟩
  set session : UnlockedSecretSession := ⟨masterKeyId rand, CryptoService.keyOf derived⟩
  have hactive : CryptoService.activeKeyId (some config) = .ok (masterKeyId rand) :=
    CryptoService.activeKeyId_eq_ok_iff.mpr ⟨rfl, trim_masterKeyId_ne_nil rand⟩
  have hembedded : isEmbedded (some config) = false := by rfl
  have hnew : CryptoService.new (some config) (some session)
      = .ok (CryptoService.unlocked (masterKeyId rand) (CryptoService.keyOf derived)) := by
    have hname : providerName (some config) = "user_password".toList := by rfl
    rw [CryptoService.new, hembedded, if_neg Bool.false_ne_true, if_pos hname, hactive]
    simp only [bind, Except.bind, pure, Except.pure, CryptoService.forSession, Option.filter,
      session, decide_true, if_true]
  have hunlock : CryptoService.unlockUserPassword P config password = .ok session := by
    rw [CryptoService.unlockUserPassword, hactive]
    simp only [config, bind, Except.bind, CryptoService.requireField, CryptoService.decodeSalt,
      hP.base64Decode_base64Encode, (derivePasswordMaterial_eq_ok_iff hne).mpr hderived,
      ne_eq, not_true, if_false, pure, Except.pure, session]
  refine ⟨_, hnew, rfl, rfl, ⟨_, rfl⟩, hembedded, fun fresh file => ?_⟩
  refine bind_eq_ok_iff.mpr ⟨some session, ?_, bind_eq_ok_iff.mpr ⟨(_, file), ?_, rfl⟩⟩
  · rw [sessionOf, hunlock]
    rfl
  · exact (CryptoService.load_of_not_embedded hembedded).mpr ⟨hnew, rfl⟩

end MasterPassword

/-! ## Handovers of the commands -/

section Handovers

variable {rand : Randomness} {disk : Disk} {old : Option Text} {plain : Plain}

theorem encryptStores_eq_ok (hP : P.Lawful) {config : SecretConfig} {next : CryptoService}
    {session : Option UnlockedSecretSession} {rewrite : Rewrite}
    (h : encryptStores P rand plain config next session = .ok rewrite) :
    List.Forall₂ (HostProfile.Related (Sealed P next)) plain.sshProfiles rewrite.sshProfiles ∧
      List.Forall₂ (Credential.Related (Sealed P next)) plain.credentials rewrite.credentials ∧
      rewrite.config = config ∧ rewrite.aiPlain = plain.aiSettings ∧ rewrite.next = next ∧
      rewrite.session = session := by
  obtain ⟨profiles, hprofiles, h⟩ := bind_eq_ok_iff.mp h
  obtain ⟨credentials, hcredentials, h⟩ := bind_eq_ok_iff.mp h
  cases h
  exact ⟨sealed_sshProfiles hP hprofiles, sealed_credentials hP hcredentials, rfl, rfl, rfl, rfl⟩

theorem exists_encryptStores_iff (hP : P.Lawful) {config : SecretConfig} {next : CryptoService}
    {session : Option UnlockedSecretSession}
    (hprovider : ∃ provider, next.provider = some provider) :
    (∃ rewrite, encryptStores P rand plain config next session = .ok rewrite) ↔
      ∀ c ∈ plain.credentials, isBlank c.passwordRef = false := by
  obtain ⟨provider, hprovider⟩ := hprovider
  rw [← exists_encryptCredentials_iff hP hprovider rand.credentialNonce]
  constructor
  · rintro ⟨rewrite, h⟩
    obtain ⟨profiles, -, hrest⟩ := bind_eq_ok_iff.mp h
    obtain ⟨credentials, hcredentials, -⟩ := bind_eq_ok_iff.mp hrest
    exact ⟨credentials, hcredentials⟩
  · rintro ⟨credentials, hcredentials⟩
    obtain ⟨profiles, hprofiles⟩ :=
      exists_encryptSshProfiles (P := P) hprovider rand.sshNonce plain.sshProfiles
    exact ⟨_, bind_eq_ok_iff.mpr ⟨profiles, hprofiles,
      bind_eq_ok_iff.mpr ⟨credentials, hcredentials, rfl⟩⟩⟩

def CredentialsAccepted (plain : Plain) : Prop :=
  ∀ c ∈ plain.credentials, isBlank c.passwordRef = false

theorem exists_prepareMaster_iff (hP : P.Lawful) {current : CryptoService} {password : Text}
    (hdecrypt : decryptStores P current disk = .ok plain) :
    (∃ rewrite, prepareMaster P rand current disk password = .ok rewrite) ↔
      PasswordAccepted P rand password ∧ CredentialsAccepted plain := by
  rw [← exists_buildUserPasswordConfig_iff]
  constructor
  · rintro ⟨rewrite, h⟩
    obtain ⟨plain', hdecrypt', h⟩ := bind_eq_ok_iff.mp h
    rw [hdecrypt, Except.ok.injEq] at hdecrypt'
    subst hdecrypt'
    obtain ⟨⟨config, session⟩, hbuild, h⟩ := bind_eq_ok_iff.mp h
    obtain ⟨next, hnew, hencrypt⟩ := bind_eq_ok_iff.mp h
    obtain ⟨service, hservice, -, -, hprovider, -⟩ := exists_masterService hP hbuild
    rw [hnew, Except.ok.injEq] at hservice
    subst hservice
    exact ⟨⟨_, hbuild⟩, (exists_encryptStores_iff hP hprovider).mp ⟨rewrite, hencrypt⟩⟩
  · rintro ⟨⟨⟨config, session⟩, hbuild⟩, hcredentials⟩
    obtain ⟨service, hservice, -, -, hprovider, -⟩ := exists_masterService hP hbuild
    have hencrypts : ∃ rewrite, encryptStores P rand plain config service (some session)
        = .ok rewrite := (exists_encryptStores_iff hP hprovider).mpr hcredentials
    obtain ⟨rewrite, hencrypt⟩ := hencrypts
    exact ⟨rewrite, bind_eq_ok_iff.mpr ⟨plain, hdecrypt, bind_eq_ok_iff.mpr
      ⟨(config, session), hbuild, bind_eq_ok_iff.mpr ⟨service, hservice, hencrypt⟩⟩⟩⟩

/-- **Setting a master password hands over** to a service that no configuration with another kind
or another key id gives. -/
theorem handover_prepareMaster (hP : P.Lawful) {current : CryptoService} {password : Text}
    {rewrite : Rewrite} (hread : ReadableAs P disk old plain)
    (hdecrypt : decryptStores P current disk = .ok plain)
    (hother : isEmbedded disk.securityConfig = true ∨
      disk.securityConfig.bind (·.activeKeyId) ≠ some (masterKeyId rand))
    (h : prepareMaster P rand current disk password = .ok rewrite) :
    Handover P rand disk old (some password) plain rewrite True := by
  obtain ⟨plain', hdecrypt', h⟩ := bind_eq_ok_iff.mp h
  rw [hdecrypt, Except.ok.injEq] at hdecrypt'
  subst hdecrypt'
  obtain ⟨⟨config, session⟩, hbuild, h⟩ := bind_eq_ok_iff.mp h
  obtain ⟨next, hnew, hencrypt⟩ := bind_eq_ok_iff.mp h
  obtain ⟨service, hservice, hkind, hid, hprovider, hembedded, hopen⟩ :=
    exists_masterService hP hbuild
  rw [hnew, Except.ok.injEq] at hservice
  subst hservice
  obtain ⟨hprofiles, hcredentials, rfl, haiPlain, rfl, hsession⟩ := encryptStores_eq_ok hP hencrypt
  refine
    { readable := hread
      sealedProfiles := hprofiles
      sealedCredentials := hcredentials
      aiPlain := haiPlain
      unlocked := hprovider
      other := ?_
      same := ?_
      opened := fun _ fresh => hopen fresh disk.configKey
      closed := fun h => absurd trivial h
      status := fun _ => ⟨rewrite.next, ?_⟩
      noStatus := fun h => absurd trivial h }
  · rintro fresh password' service hopen' ⟨hkind', hid'⟩
    rcases openWith_eq_ok hopen' with ⟨-, hold⟩ | ⟨hold, -, hactive⟩
    · rw [hkind', hkind] at hold
      cases hold
    · rcases hother with hother | hother
      · rw [hold] at hother
        cases hother
      · rw [hid', hid] at hactive
        exact hother hactive
  · intro fresh password' service hopen'
    rcases openWith_eq_ok hopen' with ⟨hold, -⟩ | ⟨-, hkind', hactive⟩
    · rw [hembedded] at hold
      cases hold
    · have hnext := (CryptoService.new_eq_ok hnew).2
      rw [hactive, Option.some.injEq] at hnext
      exact ⟨hkind'.trans hkind.symm, hnext⟩
  · rw [hsession]
    exact (CryptoService.load_of_not_embedded hembedded).mpr ⟨hnew, rfl⟩

/-! ### Configuration keys -/

def weakKey (rand : Randomness) (file : KeyFile) : ConfigKey :=
  match file with
  | .key stored => stored
  | _ => rand.configKey

theorem load_none (file : KeyFile) (hvalid : ∀ err, file ≠ .invalid err) :
    CryptoService.load rand.configKey file none none
      = .ok (CryptoService.fromConfigKey (weakKey rand file), .key (weakKey rand file)) := by
  cases file with
  | invalid err => exact absurd rfl (hvalid err)
  | missing => rfl
  | key stored => rfl

theorem configuredKeyId_embeddedConfig (key : ConfigKey) :
    configuredKeyId (some (CryptoService.buildEmbeddedConfig key.keyId))
      = some (trim key.keyId) := by
  have hpre : configKeyPrefix <+: trim key.keyId :=
    prefix_trimBy (by decide) (forall_not_of_all (by decide)) key.keyId_prefix
  simp only [configuredKeyId, Option.bind_some, CryptoService.buildEmbeddedConfig,
    Option.map_some, Option.filter]
  rw [if_pos (List.isPrefixOf_iff_prefix.mpr hpre)]

theorem load_embeddedConfig (fresh key : ConfigKey) (session : Option UnlockedSecretSession) :
    (trim key.keyId = key.keyId →
      CryptoService.load fresh (.key key) (some (CryptoService.buildEmbeddedConfig key.keyId))
        session = .ok (CryptoService.fromConfigKey key, .key key)) ∧
    (trim key.keyId ≠ key.keyId → ∃ err,
      CryptoService.load fresh (.key key) (some (CryptoService.buildEmbeddedConfig key.keyId))
        session = .error err) := by
  have hembedded : isEmbedded (some (CryptoService.buildEmbeddedConfig key.keyId)) = true := by rfl
  rw [CryptoService.load, if_pos hembedded, loadOrCreateConfigKey, configuredKeyId_embeddedConfig]
  constructor
  · intro htrim
    simp only [htrim, ne_eq, not_true, if_false]
    rfl
  · intro htrim
    have hne : key.keyId ≠ trim key.keyId := fun h => htrim h.symm
    simp only [hne, ne_eq, not_false_iff, if_true]
    exact ⟨_, rfl⟩

/-- **Going back to the configuration key hands over** to a service of another kind, which its
configuration gives again unless the id of the key has white space at its end. -/
theorem handover_weak (hP : P.Lawful) {rewrite : Rewrite} {key : ConfigKey}
    (hread : ReadableAs P disk old plain) (hembedded : isEmbedded disk.securityConfig = false)
    (hfile : disk.configKey = .key key)
    (h : encryptStores P rand plain (CryptoService.buildEmbeddedConfig key.keyId)
      (CryptoService.fromConfigKey key) none = .ok rewrite) :
    Handover P rand disk old none plain rewrite (trim key.keyId = key.keyId) := by
  obtain ⟨hprofiles, hcredentials, hconfig, haiPlain, hnext, hsession⟩ := encryptStores_eq_ok hP h
  have hclosed (hopens : trim key.keyId ≠ key.keyId) (fresh : ConfigKey) (password : Option Text)
      (service : CryptoService) :
      openWith P fresh (some rewrite.config) disk.configKey password ≠ .ok service := by
    intro hopen
    obtain ⟨session, file', hload⟩ := exists_load_of_openWith hopen
    obtain ⟨err, herr⟩ := (load_embeddedConfig fresh key session).2 hopens
    rw [hconfig, hfile, herr] at hload
    cases hload
  refine
    { readable := hread
      sealedProfiles := hnext ▸ hprofiles
      sealedCredentials := hnext ▸ hcredentials
      aiPlain := haiPlain
      unlocked := hnext ▸ ⟨_, rfl⟩
      other := ?_
      same := ?_
      opened := fun hopens fresh => ?_
      closed := hclosed
      status := fun hopens => ?_
      noStatus := fun hopens => ?_ }
  · rintro fresh password service hopen ⟨hkind, -⟩
    rcases openWith_eq_ok hopen with ⟨hold, -⟩ | ⟨-, hold, -⟩
    · rw [hembedded] at hold
      cases hold
    · rw [hold, hnext] at hkind
      cases hkind
  · intro fresh password service hopen
    by_cases hopens : trim key.keyId = key.keyId
    · obtain ⟨session, file', hload⟩ := exists_load_of_openWith hopen
      rw [hconfig, hfile, (load_embeddedConfig fresh key session).1 hopens] at hload
      cases hload
      rw [hnext]
      exact ⟨rfl, rfl⟩
    · exact absurd hopen (hclosed hopens fresh password service)
  · rw [hconfig, hfile, hnext]
    refine bind_eq_ok_iff.mpr ⟨none, rfl, bind_eq_ok_iff.mpr
      ⟨_, (load_embeddedConfig fresh key none).1 hopens, rfl⟩⟩
  · rw [hconfig, hfile, hsession]
    exact ⟨_, (load_embeddedConfig _ key none).1 hopens⟩
  · rw [hconfig, hfile, hsession]
    exact (load_embeddedConfig _ key none).2 hopens

end Handovers

/-! ## The commands -/

section Commands

variable {rand : Randomness} {interruption : Interruption} {disk : Disk}
  {session : Option UnlockedSecretSession} {old new : Option Text} {plain : Plain}

/-- The inputs on which a command begins to write. -/
def Command.Accepts (P : Primitives) (rand : Randomness) (disk : Disk)
    (session : Option UnlockedSecretSession) (plain : Plain) : Command → Prop
  | .enableStrong password => isEmbedded disk.securityConfig = true ∧
      PasswordAccepted P rand password ∧ CredentialsAccepted plain
  | .changePassword current next => isEmbedded disk.securityConfig = false ∧
      (∃ service, openWith P rand.configKey disk.securityConfig disk.configKey (some current)
        = .ok service ∧ decryptStores P service disk = .ok plain) ∧
      PasswordAccepted P rand next ∧ CredentialsAccepted plain
  | .enableWeak => isEmbedded disk.securityConfig = false ∧ session ≠ none ∧
      (∃ service, CryptoService.new disk.securityConfig session = .ok service ∧
        decryptStores P service disk = .ok plain) ∧
      (∀ err, disk.configKey ≠ .invalid err) ∧ CredentialsAccepted plain

def Command.Opens (rand : Randomness) (disk : Disk) : Command → Prop
  | .enableWeak => trim (weakKey rand disk.configKey).keyId = (weakKey rand disk.configKey).keyId
  | _ => True

/-- A command either refuses, with the stores as they were, or goes into the four writes out of a
handover; it does the latter when it accepts. -/
inductive Settles (P : Primitives) (rand : Randomness) (interruption : Interruption) (disk : Disk)
    (session : Option UnlockedSecretSession) (old new : Option Text) (plain : Plain)
    (opens accepts : Prop) : Finish → Prop where
  | refused (hrefuses : ¬accepts) (file : KeyFile) (err : EngineError)
      (hread : ReadableAs P { disk with configKey := file } old plain) :
      Settles P rand interruption disk session old new plain opens accepts
        ⟨{ disk with configKey := file }, session, .returned (.error err)⟩
  | rewrites (haccepts : accepts) (file : KeyFile) (rewrite : Rewrite)
      (h : Handover P rand { disk with configKey := file } old new plain rewrite opens) :
      Settles P rand interruption disk session old new plain opens accepts
        (rewriteStores P rand interruption session { disk with configKey := file } rewrite)

theorem Settles.neverStrands_iff (hP : P.Lawful) {opens accepts : Prop} {finish : Finish}
    (hstart : ReadableAs P disk old plain)
    (h : Settles P rand interruption disk session old new plain opens accepts finish) :
    NeverStrands P old new plain finish ↔
      (accepts → SafePoint opens disk plain interruption) := by
  cases h with
  | refused hrefuses file err hread =>
    refine iff_of_true ⟨fun t ht => hread.recoverable ht, ?_⟩ fun haccepts =>
      absurd haccepts hrefuses
    rintro ⟨status, hstatus⟩
    cases hstatus
  | rewrites haccepts file rewrite h =>
    obtain ⟨service, -, hdecrypt⟩ := hstart rand.configKey
    obtain ⟨settings, hvalid, -, hrelated⟩ :=
      reveal_aiSettings (decryptStores_eq_ok_iff.mp hdecrypt).2.2
    rw [neverStrands_rewriteStores_iff hP h ⟨settings, hvalid, _, hrelated⟩]
    exact ⟨fun hsafe _ => hsafe, fun hsafe => hsafe haccepts⟩

theorem openWith_embedded_unique (hembedded : isEmbedded disk.securityConfig = true)
    {service service' : CryptoService} {fresh : ConfigKey} {file' : KeyFile} {password : Option Text}
    (hload : CryptoService.load fresh disk.configKey disk.securityConfig session
      = .ok (service, file'))
    (hopen : openWith P fresh disk.securityConfig disk.configKey password = .ok service') :
    service' = service := by
  obtain ⟨session', file'', hload'⟩ := exists_load_of_openWith hopen
  obtain ⟨key, hkey, rfl⟩ := (CryptoService.load_of_embedded hembedded).mp hload
  obtain ⟨key', hkey', rfl⟩ := (CryptoService.load_of_embedded hembedded).mp hload'
  rw [hkey, Except.ok.injEq, Prod.mk.injEq] at hkey'
  rw [hkey'.1]

theorem settles_enableStrong (hP : P.Lawful) (hstart : ReadableAs P disk old plain)
    (password : Text) :
    Settles P rand interruption disk session old (some password) plain True
      ((Command.enableStrong password).Accepts P rand disk session plain)
      (securityEnableStrongProtection P rand interruption disk session password) := by
  obtain ⟨service, hopen, hdecrypt⟩ := hstart rand.configKey
  rw [securityEnableStrongProtection]
  cases hload : CryptoService.load rand.configKey disk.configKey disk.securityConfig session with
  | error err =>
    refine .refused ?_ disk.configKey err hstart
    -- an embedded configuration loads whatever the session
    rintro ⟨hembedded, -⟩
    obtain ⟨session', file', hload'⟩ := exists_load_of_openWith hopen
    rw [CryptoService.load, if_pos hembedded] at hload hload'
    rw [hload] at hload'
    cases hload'
  | ok loaded =>
    obtain ⟨current, file⟩ := loaded
    have hread := hstart.of_load hload
    simp only
    cases hembedded : isEmbedded disk.securityConfig with
    | false =>
      obtain ⟨hnew, rfl⟩ := (CryptoService.load_of_not_embedded hembedded).mp hload
      have hkind : current.providerKind ≠ .embedded := by
        rw [(CryptoService.new_eq_ok hnew).1]
        exact fun h => by cases h
      rw [if_pos hkind]
      exact .refused (fun h => Bool.false_ne_true (hembedded.symm.trans h.1)) _ _ hread
    | true =>
      have hkind : ¬current.providerKind ≠ .embedded := by
        obtain ⟨key, -, rfl⟩ := (CryptoService.load_of_embedded hembedded).mp hload
        exact fun h => h rfl
      have hservice := openWith_embedded_unique hembedded hload hopen
      subst hservice
      have hdecrypt' : decryptStores P service { disk with configKey := file } = .ok plain :=
        hdecrypt
      rw [if_neg hkind]
      cases hprepare : prepareMaster P rand service { disk with configKey := file } password with
      | error err =>
        refine .refused (fun h => ?_) _ _ hread
        obtain ⟨rewrite, hrewrite⟩ := (exists_prepareMaster_iff hP hdecrypt').mpr h.2
        rw [hprepare] at hrewrite
        cases hrewrite
      | ok rewrite =>
        exact .rewrites ⟨hembedded, (exists_prepareMaster_iff hP hdecrypt').mp ⟨_, hprepare⟩⟩ _ _
          (handover_prepareMaster hP hread hdecrypt' (.inl hembedded) hprepare)

theorem requireUserPassword_eq_ok_iff {config : Option SecretConfig} {found : SecretConfig} :
    requireUserPassword config = .ok found ↔
      config = some found ∧ providerName config = "user_password".toList := by
  cases config with
  | none => simp [requireUserPassword]
  | some config =>
    simp only [requireUserPassword]
    by_cases hname : providerName (some config) = "user_password".toList
    · rw [if_neg (not_not_intro hname)]
      simp only [Except.ok.injEq, Option.some.injEq, hname, and_true]
    · rw [if_pos hname]
      simp only [hname, and_false, reduceCtorEq]

theorem providerName_of_new {config : Option SecretConfig}
    {session : Option UnlockedSecretSession} {service : CryptoService}
    (h : CryptoService.new config session = .ok service) :
    providerName config = "user_password".toList := by
  rw [CryptoService.new] at h
  split at h
  · cases h
  · split at h
    · assumption
    · cases h

theorem openWith_not_embedded (hembedded : isEmbedded disk.securityConfig = false)
    {file file' : KeyFile} {fresh : ConfigKey} {password : Option Text} {service : CryptoService}
    (h : openWith P fresh disk.securityConfig file password = .ok service) :
    openWith P fresh disk.securityConfig file' password = .ok service := by
  obtain ⟨session, hsession, h⟩ := bind_eq_ok_iff.mp h
  obtain ⟨⟨service', file''⟩, hload, h⟩ := bind_eq_ok_iff.mp h
  cases h
  have hnew := ((CryptoService.load_of_not_embedded hembedded).mp hload).1
  exact bind_eq_ok_iff.mpr ⟨session, hsession, bind_eq_ok_iff.mpr
    ⟨_, (CryptoService.load_of_not_embedded hembedded).mpr ⟨hnew, rfl⟩, rfl⟩⟩

theorem ReadableAs.of_configKey (h : ReadableAs P disk old plain)
    (hembedded : isEmbedded disk.securityConfig = false) (file : KeyFile) :
    ReadableAs P { disk with configKey := file } old plain := by
  intro fresh
  obtain ⟨service, hopen, hdecrypt⟩ := h fresh
  exact ⟨service, openWith_not_embedded hembedded hopen, hdecrypt⟩

theorem changePassword_opened_iff {current : Text} {service : CryptoService} {file : KeyFile} :
    (do
      let config ← requireUserPassword disk.securityConfig
      let unlocked ← CryptoService.unlockUserPassword P config current
      CryptoService.load rand.configKey disk.configKey disk.securityConfig (some unlocked))
      = Except.ok (service, file) ↔
    isEmbedded disk.securityConfig = false ∧ file = disk.configKey ∧
      openWith P rand.configKey disk.securityConfig disk.configKey (some current) = .ok service := by
  rw [bind_eq_ok_iff]
  constructor
  · rintro ⟨config, hconfig, h⟩
    obtain ⟨unlocked, hunlocked, hload⟩ := bind_eq_ok_iff.mp h
    obtain ⟨hsome, hname⟩ := requireUserPassword_eq_ok_iff.mp hconfig
    have hembedded := isEmbedded_of_userPassword hname
    refine ⟨hembedded, ((CryptoService.load_of_not_embedded hembedded).mp hload).2, ?_⟩
    refine bind_eq_ok_iff.mpr ⟨some unlocked, ?_, bind_eq_ok_iff.mpr ⟨_, hload, rfl⟩⟩
    rw [hsome, sessionOf, hunlocked]
    rfl
  · rintro ⟨hembedded, rfl, hopen⟩
    obtain ⟨session, hsession, h⟩ := bind_eq_ok_iff.mp hopen
    obtain ⟨⟨service', file'⟩, hload, h⟩ := bind_eq_ok_iff.mp h
    cases h
    obtain ⟨hnew, rfl⟩ := (CryptoService.load_of_not_embedded hembedded).mp hload
    have hname := providerName_of_new hnew
    cases hconfig : disk.securityConfig with
    | none => rw [hconfig] at hsession; cases hsession
    | some config =>
      rw [hconfig, sessionOf] at hsession
      cases hunlock : CryptoService.unlockUserPassword P config current with
      | error err => rw [hunlock] at hsession; cases hsession
      | ok unlocked =>
        rw [hunlock] at hsession
        cases hsession
        rw [hconfig] at hname hload
        exact ⟨config, requireUserPassword_eq_ok_iff.mpr ⟨rfl, hname⟩,
          bind_eq_ok_iff.mpr ⟨unlocked, hunlock, hload⟩⟩

theorem settles_changePassword (hP : P.Lawful) (hstart : ReadableAs P disk old plain)
    (hfresh : disk.securityConfig.bind (·.activeKeyId) ≠ some (masterKeyId rand))
    (current next : Text) :
    Settles P rand interruption disk session old (some next) plain True
      ((Command.changePassword current next).Accepts P rand disk session plain)
      (securityChangePassword P rand interruption disk session current next) := by
  obtain ⟨service, hopen, hdecrypt⟩ := hstart rand.configKey
  rw [securityChangePassword]
  have hiff := fun service file => @changePassword_opened_iff P rand disk current service file
  revert hiff
  generalize (do
    let config ← requireUserPassword disk.securityConfig
    let unlocked ← CryptoService.unlockUserPassword P config current
    CryptoService.load rand.configKey disk.configKey disk.securityConfig (some unlocked)
    : Except EngineError (CryptoService × KeyFile)) = opened
  intro hiff
  cases opened with
  | error err =>
    refine .refused ?_ disk.configKey err hstart
    rintro ⟨hembedded, ⟨service', hopen', -⟩, -⟩
    exact absurd ((hiff service' disk.configKey).mpr ⟨hembedded, rfl, hopen'⟩) (by simp)
  | ok loaded =>
    obtain ⟨service', file⟩ := loaded
    obtain ⟨hembedded, rfl, hopen'⟩ := (hiff service' file).mp rfl
    simp only
    cases hprepare : prepareMaster P rand service' disk next with
    | error err =>
      refine .refused ?_ disk.configKey err hstart
      rintro ⟨-, ⟨service'', hopen'', hdecrypt''⟩, haccepted⟩
      rw [hopen', Except.ok.injEq] at hopen''
      subst hopen''
      obtain ⟨rewrite, hrewrite⟩ := (exists_prepareMaster_iff hP hdecrypt'').mpr haccepted
      rw [hprepare] at hrewrite
      cases hrewrite
    | ok rewrite =>
      obtain ⟨plain', hdecrypt', -⟩ := bind_eq_ok_iff.mp hprepare
      have hplain := decryptStores_unique hP hdecrypt hdecrypt'
      subst hplain
      exact .rewrites ⟨hembedded, ⟨service', hopen', hdecrypt'⟩,
        (exists_prepareMaster_iff hP hdecrypt').mp ⟨_, hprepare⟩⟩ disk.configKey rewrite
        (handover_prepareMaster hP hstart hdecrypt' (.inr hfresh) hprepare)

theorem settles_enableWeak (hP : P.Lawful) (hstart : ReadableAs P disk old plain) :
    Settles P rand interruption disk session old none plain
      (Command.enableWeak.Opens rand disk) (Command.enableWeak.Accepts P rand disk session plain)
      (securityEnableWeakProtection P rand interruption disk session) := by
  obtain ⟨service, hopen, hdecrypt⟩ := hstart rand.configKey
  rw [securityEnableWeakProtection]
  cases hload : CryptoService.load rand.configKey disk.configKey disk.securityConfig session with
  | error err =>
    refine .refused ?_ disk.configKey err hstart
    rintro ⟨hembedded, -, ⟨service', hnew, -⟩, -⟩
    rw [(CryptoService.load_of_not_embedded hembedded).mpr ⟨hnew, rfl⟩] at hload
    cases hload
  | ok loaded =>
    obtain ⟨current, file⟩ := loaded
    have hread := hstart.of_load hload
    simp only
    cases hembedded : isEmbedded disk.securityConfig with
    | true =>
      obtain ⟨key, -, rfl⟩ := (CryptoService.load_of_embedded hembedded).mp hload
      have hkind : (CryptoService.fromConfigKey key).providerKind = .embedded := rfl
      rw [if_neg (by rw [hkind]; rintro ⟨h, -⟩; cases h), if_pos hkind]
      exact .refused (fun h => Bool.false_ne_true (h.1.symm.trans hembedded)) _ _ hread
    | false =>
      obtain ⟨hnew, rfl⟩ := (CryptoService.load_of_not_embedded hembedded).mp hload
      have hkind := (CryptoService.new_eq_ok hnew).1
      by_cases hsession : session = none
      · rw [if_pos ⟨hkind, hsession⟩]
        exact .refused (fun h => h.2.1 hsession) _ _ hread
      · rw [if_neg fun h => hsession h.2, if_neg (by rw [hkind]; exact fun h => by cases h)]
        cases hdecrypt' : decryptStores P current disk with
        | error err =>
          refine .refused ?_ disk.configKey err hstart
          rintro ⟨-, -, ⟨service', hnew', hdecrypt''⟩, -⟩
          rw [hnew, Except.ok.injEq] at hnew'
          subst hnew'
          rw [hdecrypt'] at hdecrypt''
          cases hdecrypt''
        | ok plain' =>
          have hplain := decryptStores_unique hP hdecrypt hdecrypt'
          subst hplain
          simp only
          by_cases hvalid : ∀ err, disk.configKey ≠ .invalid err
          · rw [load_none disk.configKey hvalid]
            simp only
            have hprovider : ∃ provider, (CryptoService.fromConfigKey
              (weakKey rand disk.configKey)).provider = some provider := ⟨_, rfl⟩
            cases hencrypt : encryptStores P rand plain (CryptoService.buildEmbeddedConfig
              (CryptoService.fromConfigKey (weakKey rand disk.configKey)).keyId)
              (CryptoService.fromConfigKey (weakKey rand disk.configKey)) none with
            | error err =>
              refine .refused ?_ (.key (weakKey rand disk.configKey)) err
                (hstart.of_configKey hembedded _)
              rintro ⟨-, -, -, -, hcredentials⟩
              obtain ⟨rewrite, hrewrite⟩ := (exists_encryptStores_iff hP hprovider).mpr hcredentials
              rw [hencrypt] at hrewrite
              cases hrewrite
            | ok rewrite =>
              exact .rewrites ⟨hembedded, hsession, ⟨current, hnew, hdecrypt'⟩, hvalid,
                (exists_encryptStores_iff hP hprovider).mp ⟨_, hencrypt⟩⟩ _ rewrite
                (handover_weak hP (hstart.of_configKey hembedded _) hembedded rfl hencrypt)
          · obtain ⟨err, herr⟩ := not_forall_not.mp hvalid
            have hfail : CryptoService.load rand.configKey disk.configKey none none
                = .error err := by
              rw [herr]
              rfl
            rw [hfail]
            exact .refused (fun h => hvalid h.2.2.2.1) _ _ hread

/-- **When a change of protection strands no secret.** From files that decrypt with the old
password, a command leaves every secret readable with the old or the new password, and a command
that succeeds has kept the plaintexts, exactly when it does not begin to write or is cut off, or
ends, at a safe point. -/
theorem rekey_neverStrands_iff (hP : P.Lawful) (hstart : ReadableAs P disk old plain)
    (hfresh : disk.securityConfig.bind (·.activeKeyId) ≠ some (masterKeyId rand))
    (command : Command) :
    NeverStrands P old command.newPassword plain (command.run P rand interruption disk session) ↔
      (command.Accepts P rand disk session plain →
        SafePoint (command.Opens rand disk) disk plain interruption) := by
  cases command with
  | enableStrong password =>
    exact (settles_enableStrong hP hstart password).neverStrands_iff hP hstart
  | changePassword current next =>
    exact (settles_changePassword hP hstart hfresh current next).neverStrands_iff hP hstart
  | enableWeak => exact (settles_enableWeak hP hstart).neverStrands_iff hP hstart

end Commands

/-! ## A store with one secret -/

theorem sampleKeyId_prefix : configKeyPrefix <+: "config-1".toList := ⟨['1'], rfl⟩

def sampleKey : ConfigKey := ⟨"config-1".toList, ofList [1, 2], sampleKeyId_prefix⟩

def sampleRand : Randomness where
  configKey := ⟨"config-2".toList, ofList [3, 4], by decide⟩
  salt := ofList [5, 6]
  uuid := "7".toList
  sshNonce _ _ := ofList [8]
  credentialNonce _ := ofList [9]
  aiNonce _ := ofList [10]

def sampleAiSettings : AiSettings := ⟨⟨1, 1, 1, 1, 1, 1, 1⟩, [], []⟩

def samplePlain : Plain where
  sshProfiles := [⟨"p".toList, some "pw".toList, none, none⟩]
  credentials := []
  aiSettings := sampleAiSettings

/-- The profile's password as the configuration key's service stores it. -/
def sampleDisk : Disk where
  sshProfiles := [⟨"p".toList, some (encodeToken standIn
    { provider := .embedded
      algorithm := .aes256Gcm
      keyId := "config-1".toList
      nonce := standIn.base64Encode (ofList [8])
      ciphertext := standIn.base64Encode
        (standIn.aesEncrypt (ofList [1, 2]) (ofList [8]) (utf8Bytes "pw".toList)) }), none, none⟩]
  credentials := []
  securityConfig := none
  aiSettings := sampleAiSettings
  configKey := .key sampleKey

theorem sampleDisk_readable : ReadableAs standIn sampleDisk none samplePlain := by
  intro fresh
  refine ⟨CryptoService.fromConfigKey sampleKey, rfl, ?_⟩
  rfl

/-- A master password set without interruption keeps the profile's password. -/
theorem enableStrong_sample_keeps :
    NeverStrands standIn none (some "pass".toList) samplePlain
      ((Command.enableStrong "pass".toList).run standIn sampleRand .none sampleDisk none) := by
  refine (rekey_neverStrands_iff standIn_lawful sampleDisk_readable (by decide)
    (.enableStrong "pass".toList)).mpr fun _ => ⟨.inl trivial, fun _ _ v hv => ?_⟩
  have hmem : v = some "pw".toList ∨ v = none := by
    simpa [samplePlain, sampleAiSettings, sshRefs, HostProfile.refs, AiSettings.refs] using hv
  rintro s rfl
  rcases hmem with h | h
  · cases h; decide
  · cases h

/-- When the second write fails, the profile's password is already encrypted under a key whose
salt was never stored: no password opens it. -/
theorem enableStrong_sample_strands :
    standIn.Lawful ∧ ReadableAs standIn sampleDisk none samplePlain ∧
      ¬NeverStrands standIn none (some "pass".toList) samplePlain
        ((Command.enableStrong "pass".toList).run standIn sampleRand
          (.writeFails 1 (.new "file_write_failed" "Failed to create the temporary file"))
          sampleDisk none) := by
  refine ⟨standIn_lawful, sampleDisk_readable, fun h => ?_⟩
  have hsettles := @settles_enableStrong standIn sampleRand
    (.writeFails 1 (.new "file_write_failed" "Failed to create the temporary file")) sampleDisk none
    none samplePlain standIn_lawful sampleDisk_readable "pass".toList
  have haccepts : (Command.enableStrong "pass".toList).Accepts standIn sampleRand sampleDisk none
      samplePlain :=
        ⟨by decide, ⟨by decide, _, rfl⟩, fun c hc => absurd hc List.not_mem_nil⟩
  obtain ⟨hkept, -⟩ :=
    (hsettles.neverStrands_iff standIn_lawful sampleDisk_readable).mp h haccepts
  have hempty : secretsOf (sshRefs samplePlain.sshProfiles) = [] := hkept
  exact absurd hempty (by decide)

end FluxTerm.Security
