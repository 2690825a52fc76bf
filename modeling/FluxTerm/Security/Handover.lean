import FluxTerm.Security.Rekey
import Mathlib.Data.Fintype.Basic
import Mathlib.Tactic.FinCases

/-!
# FluxTerm — handing the stores over to another key

What holds while a command rewrites the stores one after the other.
-/

namespace FluxTerm.Security

open FluxTerm.Engine FluxTerm.Lib

variable {P : Primitives}

/-! ## What a configuration gives -/

namespace CryptoService

theorem activeKeyId_eq_ok_iff {config : Option SecretConfig} {keyId : Text} :
    activeKeyId config = .ok keyId ↔ config.bind (·.activeKeyId) = some keyId ∧ trim keyId ≠ [] := by
  rw [activeKeyId]
  cases config.bind (·.activeKeyId) with
  | none => simp
  | some id =>
    by_cases hid : trim id = []
    · simp only [hid, if_true, Option.some.injEq]
      constructor
      · intro h; cases h
      · rintro ⟨rfl, h⟩; exact absurd hid h
    · simp only [hid, if_false, Except.ok.injEq, Option.some.injEq]
      constructor
      · rintro rfl; exact ⟨rfl, hid⟩
      · exact fun h => h.1

theorem forSession_eq (keyId : Text) (session : Option UnlockedSecretSession) :
    (forSession keyId session).providerKind = .userPassword ∧
      (forSession keyId session).keyId = keyId := by
  rw [forSession]
  split <;> exact ⟨rfl, rfl⟩

theorem new_eq_ok {config : Option SecretConfig} {session : Option UnlockedSecretSession}
    {service : CryptoService} (h : new config session = .ok service) :
    service.providerKind = .userPassword ∧
      config.bind (·.activeKeyId) = some service.keyId := by
  rw [new] at h
  split at h
  · cases h
  · split at h
    · obtain ⟨keyId, hkeyId, h⟩ := bind_eq_ok_iff.mp h
      cases h
      obtain ⟨hkind, hid⟩ := forSession_eq keyId session
      exact ⟨hkind, hid.symm ▸ (activeKeyId_eq_ok_iff.mp hkeyId).1⟩
    · cases h

theorem load_of_embedded {config : Option SecretConfig} (hembedded : isEmbedded config = true)
    {fresh : ConfigKey} {file file' : KeyFile} {session : Option UnlockedSecretSession}
    {service : CryptoService} : load fresh file config session = .ok (service, file') ↔
      ∃ key, loadOrCreateConfigKey fresh file config = .ok (key, file') ∧
        service = fromConfigKey key := by
  rw [load, if_pos hembedded, bind_eq_ok_iff]
  constructor
  · rintro ⟨⟨key, file⟩, hkey, h⟩
    cases h
    exact ⟨key, hkey, rfl⟩
  · rintro ⟨key, hkey, rfl⟩
    exact ⟨(key, file'), hkey, rfl⟩

theorem load_of_not_embedded {config : Option SecretConfig} (hembedded : isEmbedded config = false)
    {fresh : ConfigKey} {file file' : KeyFile} {session : Option UnlockedSecretSession}
    {service : CryptoService} : load fresh file config session = .ok (service, file') ↔
      new config session = .ok service ∧ file' = file := by
  rw [load, hembedded, if_neg Bool.false_ne_true, bind_eq_ok_iff]
  constructor
  · rintro ⟨service, hservice, h⟩
    cases h
    exact ⟨hservice, rfl⟩
  · rintro ⟨hservice, rfl⟩
    exact ⟨service, hservice, rfl⟩

end CryptoService

theorem loadOrCreateConfigKey_eq_ok {fresh key : ConfigKey} {file file' : KeyFile}
    {config : Option SecretConfig} (h : loadOrCreateConfigKey fresh file config = .ok (key, file')) :
    file' = .key key ∧ ∀ fresh', loadOrCreateConfigKey fresh' file' config = .ok (key, file') := by
  cases hconfigured : configuredKeyId config with
  | none =>
    cases file with
    | invalid err => simp [loadOrCreateConfigKey] at h
    | key stored =>
      simp only [loadOrCreateConfigKey, hconfigured] at h
      cases h
      exact ⟨rfl, fun _ => by simp only [loadOrCreateConfigKey, hconfigured]⟩
    | missing =>
      simp only [loadOrCreateConfigKey, hconfigured] at h
      cases h
      exact ⟨rfl, fun _ => by simp only [loadOrCreateConfigKey, hconfigured]⟩
  | some configured =>
    cases file with
    | invalid err => simp [loadOrCreateConfigKey] at h
    | missing => simp [loadOrCreateConfigKey, hconfigured] at h
    | key stored =>
      simp only [loadOrCreateConfigKey, hconfigured] at h
      split at h
      · cases h
      · rename_i hmatch
        cases h
        exact ⟨rfl, fun _ => by simp only [loadOrCreateConfigKey, hconfigured, if_neg hmatch]⟩

section OpenWith

variable {config : Option SecretConfig} {file file' : KeyFile} {fresh : ConfigKey}
  {password : Option Text} {service : CryptoService}

theorem exists_load_of_openWith (h : openWith P fresh config file password = .ok service) :
    ∃ session file', CryptoService.load fresh file config session = .ok (service, file') := by
  obtain ⟨session, -, h⟩ := bind_eq_ok_iff.mp h
  obtain ⟨⟨service', file'⟩, hload, h⟩ := bind_eq_ok_iff.mp h
  cases h
  exact ⟨session, file', hload⟩

theorem openWith_eq_ok (h : openWith P fresh config file password = .ok service) :
    (isEmbedded config = true ∧ service.providerKind = .embedded) ∨
      (isEmbedded config = false ∧ service.providerKind = .userPassword ∧
        config.bind (·.activeKeyId) = some service.keyId) := by
  obtain ⟨session, file', hload⟩ := exists_load_of_openWith h
  cases hembedded : isEmbedded config with
  | true =>
    obtain ⟨key, -, rfl⟩ := (CryptoService.load_of_embedded hembedded).mp hload
    exact .inl ⟨rfl, rfl⟩
  | false =>
    obtain ⟨hnew, -⟩ := (CryptoService.load_of_not_embedded hembedded).mp hload
    exact .inr ⟨rfl, CryptoService.new_eq_ok hnew⟩

theorem openWith_of_load {session : Option UnlockedSecretSession}
    (hload : CryptoService.load fresh file config session = .ok (service, file'))
    (fresh' : ConfigKey) : ∃ fresh'', ∀ password,
      ∀ opened, openWith P fresh'' config file password = .ok opened →
        openWith P fresh' config file' password = .ok opened := by
  cases hembedded : isEmbedded config with
  | false =>
    obtain ⟨-, rfl⟩ := (CryptoService.load_of_not_embedded hembedded).mp hload
    exact ⟨fresh', fun _ _ h => h⟩
  | true =>
    obtain ⟨key, hkey, -⟩ := (CryptoService.load_of_embedded hembedded).mp hload
    refine ⟨fresh, fun password opened hopened => ?_⟩
    obtain ⟨session', hsession, h⟩ := bind_eq_ok_iff.mp hopened
    obtain ⟨⟨service', file''⟩, hload', h⟩ := bind_eq_ok_iff.mp h
    cases h
    obtain ⟨key', hkey', rfl⟩ := (CryptoService.load_of_embedded hembedded).mp hload'
    rw [hkey, Except.ok.injEq, Prod.mk.injEq] at hkey'
    obtain ⟨rfl, rfl⟩ := hkey'
    refine bind_eq_ok_iff.mpr ⟨session', hsession, bind_eq_ok_iff.mpr
      ⟨(CryptoService.fromConfigKey key, file'), ?_, rfl⟩⟩
    exact (CryptoService.load_of_embedded hembedded).mpr
      ⟨key, (loadOrCreateConfigKey_eq_ok hkey).2 fresh', rfl⟩

end OpenWith

theorem ReadableAs.of_load {disk : Disk} {password : Option Text} {plain : Plain}
    (h : ReadableAs P disk password plain) {fresh : ConfigKey}
    {session : Option UnlockedSecretSession} {service : CryptoService} {file' : KeyFile}
    (hload : CryptoService.load fresh disk.configKey disk.securityConfig session
      = .ok (service, file')) :
    ReadableAs P { disk with configKey := file' } password plain := by
  intro fresh'
  obtain ⟨fresh'', hopen⟩ := openWith_of_load (P := P) hload fresh'
  obtain ⟨opened, hopened, hdecrypt⟩ := h fresh''
  exact ⟨opened, hopen password opened hopened, hdecrypt⟩

/-! ## Secrets of readable stores -/

theorem decryptStores_eq_ok_iff {service : CryptoService} {disk : Disk} {plain : Plain} :
    decryptStores P service disk = .ok plain ↔
      decryptSshProfiles P service disk.sshProfiles = .ok plain.sshProfiles ∧
      decryptCredentials P service disk.credentials = .ok plain.credentials ∧
      decryptAiSettings P service disk.aiSettings = .ok plain.aiSettings := by
  rw [decryptStores, bind_eq_ok_iff]
  constructor
  · rintro ⟨profiles, hprofiles, h⟩
    obtain ⟨credentials, hcredentials, h⟩ := bind_eq_ok_iff.mp h
    obtain ⟨aiSettings, hai, h⟩ := bind_eq_ok_iff.mp h
    cases h
    exact ⟨hprofiles, hcredentials, hai⟩
  · rintro ⟨hprofiles, hcredentials, hai⟩
    exact ⟨_, hprofiles, bind_eq_ok_iff.mpr ⟨_, hcredentials, bind_eq_ok_iff.mpr ⟨_, hai, rfl⟩⟩⟩

section Decrypts

variable {service : CryptoService} {disk : Disk} {plain : Plain} {t : Text}

theorem decrypt_of_mem_ssh (h : decryptStores P service disk = .ok plain)
    (ht : t ∈ secretsOf (sshRefs disk.sshProfiles)) : ∃ s, service.decryptString P t = .ok s :=
  decrypt_of_mem_secretsOf
    (sshRefs_related (reveal_sshProfiles (decryptStores_eq_ok_iff.mp h).1)) ht

theorem decrypt_of_mem_credentials (h : decryptStores P service disk = .ok plain)
    (ht : t ∈ secretsOf (credentialRefs disk.credentials)) :
    ∃ s, service.decryptString P t = .ok s :=
  decrypt_of_mem_secretsOf
    (credentialRefs_related (reveal_credentials (decryptStores_eq_ok_iff.mp h).2.1)) ht

theorem decrypt_of_mem_ai (h : decryptStores P service disk = .ok plain)
    (ht : t ∈ secretsOf (readAiRefs disk.aiSettings)) :
    ∃ s, service.decryptString P t = .ok s := by
  obtain ⟨settings, -, hrefs, hrelated⟩ := reveal_aiSettings (decryptStores_eq_ok_iff.mp h).2.2
  exact decrypt_of_mem_secretsOf (hrefs ▸ hrelated.refs) ht

theorem recoverable_of_decrypt {passwords : List (Option Text)} {password : Option Text}
    (hpassword : password ∈ passwords)
    (h : ∀ fresh, ∃ service, openWith P fresh disk.securityConfig disk.configKey password
      = .ok service ∧ ∃ s, service.decryptString P t = .ok s) :
    Recoverable P disk passwords t := by
  intro fresh
  obtain ⟨service, hopen, s, hs⟩ := h fresh
  exact ⟨password, hpassword, service, s, hopen, hs⟩

theorem ReadableAs.recoverable {old new : Option Text} (h : ReadableAs P disk old plain)
    (ht : t ∈ disk.secrets) : Recoverable P disk [old, new] t := by
  refine recoverable_of_decrypt List.mem_cons_self fun fresh => ?_
  obtain ⟨service, hopen, hdecrypt⟩ := h fresh
  refine ⟨service, hopen, ?_⟩
  rcases List.mem_append.mp ht with ht | ht
  · rcases List.mem_append.mp ht with ht | ht
    · exact decrypt_of_mem_ssh hdecrypt ht
    · exact decrypt_of_mem_credentials hdecrypt ht
  · exact decrypt_of_mem_ai hdecrypt ht

end Decrypts

/-! ## Four writes -/

/-- The files after the first `n` of the four writes. -/
def Rewrite.written (rewrite : Rewrite) (aiSettings : AiSettings) (disk : Disk) (n : ℕ) : Disk :=
  { disk with
    sshProfiles := if 1 ≤ n then rewrite.sshProfiles else disk.sshProfiles
    credentials := if 2 ≤ n then rewrite.credentials else disk.credentials
    securityConfig := if 3 ≤ n then some rewrite.config else disk.securityConfig
    aiSettings := if 4 ≤ n then aiSettings else disk.aiSettings }

section Written

variable (rewrite : Rewrite) (aiSettings : AiSettings) (disk : Disk) {n : ℕ}

@[simp] theorem Rewrite.written_configKey :
    (rewrite.written aiSettings disk n).configKey = disk.configKey := rfl

theorem Rewrite.written_config_of_lt (hn : n < 3) :
    (rewrite.written aiSettings disk n).securityConfig = disk.securityConfig :=
  if_neg (Nat.not_le_of_lt hn)

theorem Rewrite.written_config_of_le (hn : 3 ≤ n) :
    (rewrite.written aiSettings disk n).securityConfig = some rewrite.config := if_pos hn

end Written

section Rewriting

variable {rand : Randomness} {session : Option UnlockedSecretSession} {disk : Disk}
  {rewrite : Rewrite} {aiSettings : AiSettings}

theorem rewriteStores_cut
    (hencrypt : encryptAiSettings P rewrite.next rand.aiNonce rewrite.aiPlain = .ok aiSettings)
    (hvalid : validateAiSettings aiSettings = .ok aiSettings) {interruption : Interruption}
    (hcut : interruption ≠ .none) :
    (rewriteStores P rand interruption session disk rewrite).disk
        = rewrite.written aiSettings disk interruption.reached ∧
      ∀ status, (rewriteStores P rand interruption session disk rewrite).outcome
        ≠ .returned (.ok status) := by
  have hai : (do validateAiSettings (← encryptAiSettings P rewrite.next rand.aiNonce
      rewrite.aiPlain)) = Except.ok aiSettings := bind_eq_ok_iff.mpr ⟨_, hencrypt, hvalid⟩
  cases interruption with
  | none => exact absurd rfl hcut
  | writeFails write err =>
    fin_cases write <;>
      simp [rewriteStores, writeStep, hai, Rewrite.written, Interruption.reached]
  | stop written =>
    fin_cases written <;>
      simp [rewriteStores, writeStep, hai, Rewrite.written, Interruption.reached]

theorem rewriteStores_uncut
    (hencrypt : encryptAiSettings P rewrite.next rand.aiNonce rewrite.aiPlain = .ok aiSettings)
    (hvalid : validateAiSettings aiSettings = .ok aiSettings) :
    rewriteStores P rand .none session disk rewrite
      = securityStatus rand (rewrite.written aiSettings disk 4) rewrite.session := by
  have hai : (do validateAiSettings (← encryptAiSettings P rewrite.next rand.aiNonce
      rewrite.aiPlain)) = Except.ok aiSettings := bind_eq_ok_iff.mpr ⟨_, hencrypt, hvalid⟩
  simp [rewriteStores, writeStep, hai, Rewrite.written]

end Rewriting

/-! ## Handovers -/

/-- What is known when a command begins to write. `opens` says that the new configuration can be
loaded. -/
structure Handover (P : Primitives) (rand : Randomness) (disk : Disk) (old new : Option Text)
    (plain : Plain) (rewrite : Rewrite) (opens : Prop) : Prop where
  readable : ReadableAs P disk old plain
  sealedProfiles : List.Forall₂ (HostProfile.Related (Sealed P rewrite.next))
    plain.sshProfiles rewrite.sshProfiles
  sealedCredentials : List.Forall₂ (Credential.Related (Sealed P rewrite.next))
    plain.credentials rewrite.credentials
  aiPlain : rewrite.aiPlain = plain.aiSettings
  unlocked : ∃ provider, rewrite.next.provider = some provider
  other : ∀ fresh password service,
    openWith P fresh disk.securityConfig disk.configKey password = .ok service →
      ¬(service.providerKind = rewrite.next.providerKind ∧ service.keyId = rewrite.next.keyId)
  same : ∀ fresh password service,
    openWith P fresh (some rewrite.config) disk.configKey password = .ok service →
      service.providerKind = rewrite.next.providerKind ∧ service.keyId = rewrite.next.keyId
  opened : opens → ∀ fresh, openWith P fresh (some rewrite.config) disk.configKey new
    = .ok rewrite.next
  closed : ¬opens → ∀ fresh password service,
    openWith P fresh (some rewrite.config) disk.configKey password ≠ .ok service
  status : opens → ∃ service, CryptoService.load rand.configKey disk.configKey
    (some rewrite.config) rewrite.session = .ok (service, disk.configKey)
  noStatus : ¬opens → ∃ err, CryptoService.load rand.configKey disk.configKey
    (some rewrite.config) rewrite.session = .error err

/-- No secret is stranded after `n` of the four writes: what is rewritten before the configuration
is unreadable until then, and what is rewritten after it is unreadable from then on. -/
def SecretsKept (opens : Prop) (disk : Disk) (plain : Plain) (n : ℕ) : Prop :=
  let profilesEmpty := secretsOf (sshRefs plain.sshProfiles) = []
  let credentialsEmpty := secretsOf (credentialRefs plain.credentials) = []
  match n with
  | 0 => True
  | 1 => profilesEmpty
  | 2 => profilesEmpty ∧ credentialsEmpty
  | 3 => secretsOf (readAiRefs disk.aiSettings) = [] ∧ (opens ∨ profilesEmpty ∧ credentialsEmpty)
  | _ => opens ∨ profilesEmpty ∧ credentialsEmpty ∧ secretsOf plain.aiSettings.refs = []

/-- The points at which a command can be cut off, or end, without stranding or losing a secret. -/
def SafePoint (opens : Prop) (disk : Disk) (plain : Plain) (interruption : Interruption) : Prop :=
  SecretsKept opens disk plain interruption.reached ∧
    (opens → interruption = .none →
      ∀ v ∈ sshRefs plain.sshProfiles ++ plain.aiSettings.refs, NotBlank v)

section Handover

variable {rand : Randomness} {disk : Disk} {old new : Option Text} {plain : Plain}
  {rewrite : Rewrite} {opens : Prop} {aiSettings : AiSettings} {n : ℕ} {t : Text}

theorem Handover.not_recoverable_old (h : Handover P rand disk old new plain rewrite opens)
    (hn : n < 3) (ht : ∃ s, rewrite.next.decryptString P t = .ok s) (passwords : List (Option Text)) :
    ¬Recoverable P (rewrite.written aiSettings disk n) passwords t := by
  intro hrec
  obtain ⟨password, -, service, s, hopen, hs⟩ := hrec rand.configKey
  obtain ⟨s', hs'⟩ := ht
  rw [rewrite.written_config_of_lt aiSettings disk hn, rewrite.written_configKey] at hopen
  exact h.other _ _ _ hopen (CryptoService.provider_eq_of_decryptString hs hs')

theorem Handover.not_recoverable_new (h : Handover P rand disk old new plain rewrite opens)
    (hn : 3 ≤ n) {service : CryptoService} (hopen : openWith P rand.configKey disk.securityConfig
      disk.configKey old = .ok service) (ht : ∃ s, service.decryptString P t = .ok s)
    (passwords : List (Option Text)) :
    ¬Recoverable P (rewrite.written aiSettings disk n) passwords t := by
  intro hrec
  obtain ⟨password, -, service', s', hopen', hs'⟩ := hrec rand.configKey
  obtain ⟨s, hs⟩ := ht
  rw [rewrite.written_config_of_le aiSettings disk hn, rewrite.written_configKey] at hopen'
  obtain ⟨hkind, hid⟩ := h.same _ _ _ hopen'
  obtain ⟨hkind', hid'⟩ := CryptoService.provider_eq_of_decryptString hs hs'
  exact h.other _ _ _ hopen ⟨hkind'.trans hkind, hid'.trans hid⟩

theorem Handover.not_recoverable_closed (h : Handover P rand disk old new plain rewrite opens)
    (hopens : ¬opens) (hn : 3 ≤ n) (passwords : List (Option Text)) :
    ¬Recoverable P (rewrite.written aiSettings disk n) passwords t := by
  intro hrec
  obtain ⟨password, -, service, s, hopen, -⟩ := hrec rand.configKey
  rw [rewrite.written_config_of_le aiSettings disk hn, rewrite.written_configKey] at hopen
  exact h.closed hopens _ _ _ hopen

theorem Handover.recoverable_new (h : Handover P rand disk old new plain rewrite opens)
    (hopens : opens) (hn : 3 ≤ n) (ht : ∃ s, rewrite.next.decryptString P t = .ok s) :
    Recoverable P (rewrite.written aiSettings disk n) [old, new] t := by
  have hnew : new ∈ [old, new] := List.mem_cons_of_mem _ List.mem_cons_self
  refine recoverable_of_decrypt hnew fun fresh => ⟨rewrite.next, ?_, ht⟩
  rw [rewrite.written_config_of_le aiSettings disk hn, rewrite.written_configKey]
  exact h.opened hopens fresh

theorem Handover.recoverable_old (h : Handover P rand disk old new plain rewrite opens)
    (hn : n < 3) (ht : t ∈ disk.secrets) :
    Recoverable P (rewrite.written aiSettings disk n) [old, new] t := by
  have hrec : Recoverable P disk [old, new] t := h.readable.recoverable ht
  intro fresh
  rw [rewrite.written_config_of_lt aiSettings disk hn, rewrite.written_configKey]
  exact hrec fresh

/-! ## The safe points of four writes -/

theorem Handover.decrypt_next (h : Handover P rand disk old new plain rewrite opens) :
    (∀ t ∈ secretsOf (sshRefs rewrite.sshProfiles),
      ∃ s, rewrite.next.decryptString P t = .ok s) ∧
    (∀ t ∈ secretsOf (credentialRefs rewrite.credentials),
      ∃ s, rewrite.next.decryptString P t = .ok s) :=
  ⟨fun _ ht => decrypt_of_mem_sealed (sshRefs_related h.sealedProfiles) ht,
    fun _ ht => decrypt_of_mem_sealed (credentialRefs_related h.sealedCredentials) ht⟩

theorem Handover.secrets_eq_nil_iff (h : Handover P rand disk old new plain rewrite opens) :
    (secretsOf (sshRefs rewrite.sshProfiles) = [] ↔
      secretsOf (sshRefs plain.sshProfiles) = []) ∧
    (secretsOf (credentialRefs rewrite.credentials) = [] ↔
      secretsOf (credentialRefs plain.credentials) = []) :=
  ⟨secretsOf_sealed_eq_nil_iff (sshRefs_related h.sealedProfiles),
    secretsOf_sealed_eq_nil_iff (credentialRefs_related h.sealedCredentials)⟩

theorem mem_secrets {disk : Disk} {t : Text} : t ∈ disk.secrets ↔
    t ∈ secretsOf (sshRefs disk.sshProfiles) ∨ t ∈ secretsOf (credentialRefs disk.credentials) ∨
      t ∈ secretsOf (readAiRefs disk.aiSettings) := by
  rw [Disk.secrets, List.mem_append, List.mem_append, or_assoc]

theorem Handover.written_recoverable_iff (h : Handover P rand disk old new plain rewrite opens)
    (hai : AiSettings.Related (Sealed P rewrite.next) plain.aiSettings aiSettings)
    (hvalid : aiSettings.Valid) (hn : n ≤ 4) :
    (∀ t ∈ (rewrite.written aiSettings disk n).secrets,
      Recoverable P (rewrite.written aiSettings disk n) [old, new] t) ↔
    SecretsKept opens disk plain n := by
  obtain ⟨hssh, hcred⟩ := h.secrets_eq_nil_iff
  obtain ⟨hnextSsh, hnextCred⟩ := h.decrypt_next
  obtain ⟨service, hopen, hdecrypt⟩ := h.readable rand.configKey
  match n, hn with
  | 0, _ => exact iff_true_intro fun t ht => h.recoverable_old (by omega) ht
  | 1, _ =>
    rw [SecretsKept, ← hssh, List.eq_nil_iff_forall_not_mem]
    constructor
    · intro hrec t ht
      exact h.not_recoverable_old (by omega) (hnextSsh t ht) _ (hrec t (mem_secrets.mpr (.inl ht)))
    · intro hnone t ht
      rcases mem_secrets.mp ht with ht | ht
      · exact absurd ht (hnone t)
      · exact h.recoverable_old (by omega) (mem_secrets.mpr (.inr ht))
  | 2, _ =>
    rw [SecretsKept, ← hssh, ← hcred, List.eq_nil_iff_forall_not_mem, List.eq_nil_iff_forall_not_mem]
    constructor
    · intro hrec
      exact ⟨fun t ht => h.not_recoverable_old (by omega) (hnextSsh t ht) _
          (hrec t (mem_secrets.mpr (.inl ht))),
        fun t ht => h.not_recoverable_old (by omega) (hnextCred t ht) _
          (hrec t (mem_secrets.mpr (.inr (.inl ht))))⟩
    · rintro ⟨hnoSsh, hnoCred⟩ t ht
      rcases mem_secrets.mp ht with ht | ht | ht
      · exact absurd ht (hnoSsh t)
      · exact absurd ht (hnoCred t)
      · exact h.recoverable_old (by omega) (mem_secrets.mpr (.inr (.inr ht)))
  | 3, _ =>
    rw [SecretsKept, ← hssh, ← hcred]
    constructor
    · intro hrec
      constructor
      · rw [List.eq_nil_iff_forall_not_mem]
        intro t ht
        exact h.not_recoverable_new (by omega) hopen (decrypt_of_mem_ai hdecrypt ht) _
          (hrec t (mem_secrets.mpr (.inr (.inr ht))))
      · by_cases hopens : opens
        · exact .inl hopens
        · refine .inr ⟨?_, ?_⟩ <;> rw [List.eq_nil_iff_forall_not_mem] <;> intro t ht
          · exact h.not_recoverable_closed hopens (by omega) _ (hrec t (mem_secrets.mpr (.inl ht)))
          · exact h.not_recoverable_closed hopens (by omega) _
              (hrec t (mem_secrets.mpr (.inr (.inl ht))))
    · rintro ⟨hnoAi, hrest⟩ t ht
      have hold : t ∈ secretsOf (sshRefs rewrite.sshProfiles) ∨
          t ∈ secretsOf (credentialRefs rewrite.credentials) := by
        rcases mem_secrets.mp ht with ht | ht | ht
        · exact .inl ht
        · exact .inr ht
        · exact absurd (hnoAi ▸ ht) List.not_mem_nil
      rcases hrest with hopens | ⟨hnoSsh, hnoCred⟩
      · exact h.recoverable_new hopens (by omega) (hold.elim (hnextSsh t) (hnextCred t))
      · rw [hnoSsh, hnoCred] at hold
        exact (hold.elim List.not_mem_nil List.not_mem_nil).elim
  | 4, _ =>
    have hrefs : readAiRefs aiSettings = aiSettings.refs :=
      List.map_congr_left fun p hp => congrArg _ (hvalid.trimmed p hp)
    have haiNil := secretsOf_sealed_eq_nil_iff hai.refs
    have hnextAi : ∀ t ∈ secretsOf (readAiRefs aiSettings),
        ∃ s, rewrite.next.decryptString P t = .ok s := fun t ht =>
      decrypt_of_mem_sealed hai.refs (hrefs ▸ ht)
    have hkept : SecretsKept opens disk plain 4 ↔ opens ∨
        secretsOf (sshRefs rewrite.sshProfiles) = [] ∧
          secretsOf (credentialRefs rewrite.credentials) = [] ∧
          secretsOf (readAiRefs aiSettings) = [] := by
      rw [hssh, hcred, hrefs, haiNil]
      exact Iff.rfl
    rw [hkept]
    constructor
    · intro hrec
      by_cases hopens : opens
      · exact .inl hopens
      · have hnone (t : Text) (ht : t ∈ (rewrite.written aiSettings disk 4).secrets) : False :=
          h.not_recoverable_closed hopens (by omega) _ (hrec t ht)
        refine .inr ⟨?_, ?_, ?_⟩ <;> rw [List.eq_nil_iff_forall_not_mem] <;> intro t ht
        · exact hnone t (mem_secrets.mpr (.inl ht))
        · exact hnone t (mem_secrets.mpr (.inr (.inl ht)))
        · exact hnone t (mem_secrets.mpr (.inr (.inr ht)))
    · rintro hrest t ht
      rcases hrest with hopens | ⟨hnoSsh, hnoCred, hnoAi⟩
      · refine h.recoverable_new hopens (by omega) ?_
        rcases mem_secrets.mp ht with ht | ht | ht
        · exact hnextSsh t ht
        · exact hnextCred t ht
        · exact hnextAi t ht
      · have hnone : (rewrite.written aiSettings disk 4).secrets = [] := by
          simp [Disk.secrets, Rewrite.written, hnoSsh, hnoCred, hnoAi]
        exact absurd (hnone ▸ ht) List.not_mem_nil

theorem Handover.readable_written_iff (h : Handover P rand disk old new plain rewrite opens)
    (hai : AiSettings.Related (Sealed P rewrite.next) plain.aiSettings aiSettings)
    (hvalid : aiSettings.Valid) (hopens : opens) :
    ReadableAs P (rewrite.written aiSettings disk 4) new plain ↔
      ∀ v ∈ sshRefs plain.sshProfiles ++ plain.aiSettings.refs, NotBlank v := by
  constructor
  · intro hread v hv
    obtain ⟨service, -, hdecrypt⟩ := hread rand.configKey
    obtain ⟨hssh, -, hsettings⟩ := decryptStores_eq_ok_iff.mp hdecrypt
    rcases List.mem_append.mp hv with hv | hv
    · exact notBlank_of_reveal (sshRefs_related h.sealedProfiles)
        (sshRefs_related (reveal_sshProfiles hssh)) v hv
    · obtain ⟨settings, hsettingsValid, hrefs, hrelated⟩ := reveal_aiSettings hsettings
      have hread : readAiRefs aiSettings = aiSettings.refs :=
        List.map_congr_left fun p hp => congrArg _ (hvalid.trimmed p hp)
      have hreveal := hrelated.refs
      rw [hrefs] at hreveal
      exact notBlank_of_reveal hai.refs (hread ▸ hreveal) v hv
  · intro hblank fresh
    refine ⟨rewrite.next, ?_, decryptStores_eq_ok_iff.mpr ⟨?_, ?_, ?_⟩⟩
    · rw [rewrite.written_config_of_le aiSettings disk (by omega), rewrite.written_configKey]
      exact h.opened hopens fresh
    · exact decryptSshProfiles_of_sealed h.sealedProfiles fun v hv =>
        hblank v (List.mem_append_left _ hv)
    · exact decryptCredentials_of_sealed h.sealedCredentials
    · exact decryptAiSettings_of_sealed hvalid hai fun v hv =>
        hblank v (List.mem_append_right _ hv)

theorem Handover.securityStatus_eq (h : Handover P rand disk old new plain rewrite opens)
    (aiSettings : AiSettings) (hopens : opens) : ∃ status,
      securityStatus rand (rewrite.written aiSettings disk 4) rewrite.session
        = ⟨rewrite.written aiSettings disk 4, rewrite.session, .returned (.ok status)⟩ := by
  obtain ⟨service, hload⟩ := h.status hopens
  refine ⟨service.status, ?_⟩
  rw [securityStatus, rewrite.written_config_of_le aiSettings disk (by omega),
    rewrite.written_configKey, hload]
  rfl

theorem Handover.securityStatus_eq_error (h : Handover P rand disk old new plain rewrite opens)
    (aiSettings : AiSettings) (hopens : ¬opens) : ∃ err,
      securityStatus rand (rewrite.written aiSettings disk 4) rewrite.session
        = ⟨rewrite.written aiSettings disk 4, rewrite.session, .returned (.error err)⟩ := by
  obtain ⟨err, hload⟩ := h.noStatus hopens
  refine ⟨err, ?_⟩
  rw [securityStatus, rewrite.written_config_of_le aiSettings disk (by omega),
    rewrite.written_configKey, hload]

/-- **Four writes out of a handover** strand no secret exactly at the safe points. -/
theorem neverStrands_rewriteStores_iff (hP : P.Lawful)
    (h : Handover P rand disk old new plain rewrite opens)
    (hvalidPlain : ∃ settings, AiSettings.Valid settings ∧
      ∃ R, AiSettings.Related R settings plain.aiSettings)
    (session : Option UnlockedSecretSession) (interruption : Interruption) :
    NeverStrands P old new plain (rewriteStores P rand interruption session disk rewrite) ↔
      SafePoint opens disk plain interruption := by
  obtain ⟨provider, hprovider⟩ := h.unlocked
  obtain ⟨aiSettings, hencrypt⟩ :=
    exists_encryptAiSettings (P := P) hprovider rand.aiNonce rewrite.aiPlain
  have hai : AiSettings.Related (Sealed P rewrite.next) plain.aiSettings aiSettings :=
    h.aiPlain ▸ sealed_aiSettings hP hencrypt
  obtain ⟨settings, hsettings, R, hR⟩ := hvalidPlain
  have hvalid : aiSettings.Valid := valid_of_sealed hsettings hR hai
  have hcheck := validateAiSettings_of_valid hvalid
  by_cases hcut : interruption = .none
  · -- all writes are done: what is left is the status
    subst hcut
    have hrec := h.written_recoverable_iff hai hvalid (n := 4) le_rfl
    rw [rewriteStores_uncut hencrypt hcheck]
    by_cases hopens : opens
    · obtain ⟨status, hstatus⟩ := h.securityStatus_eq aiSettings hopens
      rw [hstatus, NeverStrands, hrec, h.readable_written_iff hai hvalid hopens, SafePoint]
      have hsuccess : ∃ status', Outcome.returned (.ok status) = .returned (.ok status') :=
        ⟨status, rfl⟩
      simp only [hsuccess, hopens, true_imp_iff]
      rfl
    · obtain ⟨err, herr⟩ := h.securityStatus_eq_error aiSettings hopens
      rw [herr, NeverStrands, hrec, SafePoint]
      simp [hopens, Interruption.reached]
  · obtain ⟨hdisk, houtcome⟩ := @rewriteStores_cut P rand session disk rewrite aiSettings hencrypt
      hcheck interruption hcut
    have hn : interruption.reached ≤ 4 := by
      cases interruption with
      | none => exact absurd rfl hcut
      | writeFails write err => exact Nat.le_of_lt write.isLt
      | stop written => exact Nat.le_of_lt_succ written.isLt
    have hsuccess : ¬∃ status, (rewriteStores P rand interruption session disk rewrite).outcome
        = .returned (.ok status) := fun ⟨status, hstatus⟩ => houtcome status hstatus
    rw [NeverStrands, hdisk, h.written_recoverable_iff hai hvalid hn, SafePoint]
    simp only [hsuccess, false_imp_iff, and_true, hcut, implies_true]

end Handover

end FluxTerm.Security
