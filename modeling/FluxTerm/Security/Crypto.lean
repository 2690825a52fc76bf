import FluxTerm.Engine.Error
import FluxTerm.Lib.Fallible
import FluxTerm.Lib.Text

/-!
# FluxTerm — the crypto service

`src-tauri/src/security/crypto.rs` and `secret_store.rs`: which key a security configuration
selects, and the token a secret is stored as.
-/

namespace FluxTerm.Security

open FluxTerm.Engine FluxTerm.Lib

/-! ## Payloads and primitives -/

abbrev Bytes := ByteArray

instance : DecidableEq Bytes := fun _ _ => decidable_of_iff _ ByteArray.ext_iff.symm

inductive EncryptionProviderKind where
  | embedded
  | userPassword
deriving DecidableEq

inductive EncryptionAlgorithm where
  | aes256Gcm
deriving DecidableEq

/-- `EncryptedPayload`: nonce and ciphertext are Base64. -/
structure EncryptedPayload where
  provider : EncryptionProviderKind
  algorithm : EncryptionAlgorithm
  keyId : Text
  nonce : Text
  ciphertext : Text
deriving DecidableEq

/-- The library functions of the crypto service. `argon2` derives the 64 bytes of key material
from a password and a salt. -/
structure Primitives where
  aesEncrypt : (key nonce plaintext : Bytes) → Bytes
  aesDecrypt : (key nonce ciphertext : Bytes) → Option Bytes
  argon2 : (password salt : Bytes) → Except String Bytes
  base64Encode : Bytes → Text
  base64Decode : Text → Except String Bytes
  jsonToVec : EncryptedPayload → Bytes
  jsonFromSlice : Bytes → Except String EncryptedPayload

/-- What a token needs to be read back: the cipher undoes itself under the same key, the codecs
decode what they encoded, and Base64 has no white space. -/
structure Primitives.RoundTrips (P : Primitives) : Prop where
  aesDecrypt_aesEncrypt : ∀ key nonce plaintext,
    P.aesDecrypt key nonce (P.aesEncrypt key nonce plaintext) = some plaintext
  base64Decode_base64Encode : ∀ bytes, P.base64Decode (P.base64Encode bytes) = .ok bytes
  base64Encode_not_space : ∀ bytes, ∀ c ∈ P.base64Encode bytes, isWhitespace c = false
  jsonFromSlice_jsonToVec : ∀ payload, P.jsonFromSlice (P.jsonToVec payload) = .ok payload

/-- What the service relies on: the cipher undoes itself under the same key and rejects what
another key decrypts, the codecs decode what they encoded, and Base64 has no white space. -/
structure Primitives.Lawful (P : Primitives) : Prop where
  aesDecrypt_aesEncrypt : ∀ key nonce plaintext,
    P.aesDecrypt key nonce (P.aesEncrypt key nonce plaintext) = some plaintext
  aesDecrypt_other_key : ∀ key key' nonce ciphertext, key ≠ key' →
    (P.aesDecrypt key nonce ciphertext).isSome → P.aesDecrypt key' nonce ciphertext = none
  base64Decode_base64Encode : ∀ bytes, P.base64Decode (P.base64Encode bytes) = .ok bytes
  base64Encode_not_space : ∀ bytes, ∀ c ∈ P.base64Encode bytes, isWhitespace c = false
  jsonFromSlice_jsonToVec : ∀ payload, P.jsonFromSlice (P.jsonToVec payload) = .ok payload

theorem Primitives.Lawful.roundTrips {P : Primitives} (hP : P.Lawful) : P.RoundTrips :=
  ⟨hP.aesDecrypt_aesEncrypt, hP.base64Decode_base64Encode, hP.base64Encode_not_space,
    hP.jsonFromSlice_jsonToVec⟩

def trim (s : Text) : Text := trimBy isWhitespace s

/-! ## Configurations, sessions and keys -/

structure SecretConfig where
  version : ℕ
  provider : Text
  activeKeyId : Option Text
  kdfSalt : Option Text
  verifyHash : Option Text
deriving DecidableEq

structure UnlockedSecretSession where
  keyId : Text
  encryptionKey : Bytes
deriving DecidableEq

def configKeyPrefix : Text := "config-".toList

/-- `ConfigKey`. `decode_config_key` accepts no other ids. -/
structure ConfigKey where
  keyId : Text
  keyMaterial : Bytes
  keyId_prefix : configKeyPrefix <+: keyId

/-- What `read_config_key` finds. -/
inductive KeyFile where
  | missing
  | invalid (err : EngineError)
  | key (stored : ConfigKey)

/-- `EncryptionProvider`: the two providers differ in their kind only. -/
structure Provider where
  kind : EncryptionProviderKind
  keyId : Text
  encryptionKey : Bytes
deriving DecidableEq

structure SecurityStatus where
  provider : EncryptionProviderKind
  locked : Bool
  encryptionEnabled : Bool
deriving DecidableEq

/-- `CryptoService`: an unlocked one holds a provider of its own kind and key id. -/
structure CryptoService where
  providerKind : EncryptionProviderKind
  keyId : Text
  provider : Option Provider
  locked : Bool
  provider_eq : ∀ held, provider = some held → held.kind = providerKind ∧ held.keyId = keyId

/-- The provider name of a configuration, `embedded` without one. -/
def providerName (config : Option SecretConfig) : Text :=
  match config with
  | some config => asciiLower (trim config.provider)
  | none => "embedded".toList

def isEmbedded (config : Option SecretConfig) : Bool :=
  providerName config == "embedded".toList || providerName config == []

theorem isEmbedded_of_userPassword {config : Option SecretConfig}
    (h : providerName config = "user_password".toList) : isEmbedded config = false := by
  rw [isEmbedded, h]
  rfl

namespace CryptoService

def fromConfigKey (configKey : ConfigKey) : CryptoService where
  providerKind := .embedded
  keyId := configKey.keyId
  provider := some ⟨.embedded, configKey.keyId, configKey.keyMaterial⟩
  locked := false
  provider_eq := by rintro held ⟨⟩; exact ⟨rfl, rfl⟩

def unlocked (keyId : Text) (encryptionKey : Bytes) : CryptoService where
  providerKind := .userPassword
  keyId := keyId
  provider := some ⟨.userPassword, keyId, encryptionKey⟩
  locked := false
  provider_eq := by rintro held ⟨⟩; exact ⟨rfl, rfl⟩

def lockedFor (keyId : Text) : CryptoService where
  providerKind := .userPassword
  keyId := keyId
  provider := none
  locked := true
  provider_eq := by rintro held ⟨⟩

def activeKeyId (config : Option SecretConfig) : Except EngineError Text :=
  match config.bind (·.activeKeyId) with
  | some keyId =>
    if trim keyId = [] then
      .error (.new "crypto_provider_invalid" "Master password config is missing keyId")
    else .ok keyId
  | none => .error (.new "crypto_provider_invalid" "Master password config is missing keyId")

def forSession (keyId : Text) (session : Option UnlockedSecretSession) : CryptoService :=
  match session.filter fun session => session.keyId = keyId with
  | none => lockedFor keyId
  | some session => unlocked keyId session.encryptionKey

def new (config : Option SecretConfig) (session : Option UnlockedSecretSession) :
    Except EngineError CryptoService :=
  if isEmbedded config then
    .error (.new "crypto_provider_invalid"
      "Embedded protection must be loaded from the configuration directory")
  else if providerName config = "user_password".toList then do
    let keyId ← activeKeyId config
    return forSession keyId session
  else
    .error (.new "crypto_provider_invalid"
      "Secret config is invalid or uses an unsupported version")

end CryptoService

def configuredKeyId (config : Option SecretConfig) : Option Text :=
  ((config.bind (·.activeKeyId)).map trim).filter fun keyId => configKeyPrefix.isPrefixOf keyId

/-- `load_or_create_config_key`: the key, and the key file after it. A created key is `fresh`. -/
def loadOrCreateConfigKey (fresh : ConfigKey) (file : KeyFile) (config : Option SecretConfig) :
    Except EngineError (ConfigKey × KeyFile) :=
  match file with
  | .invalid err => .error err
  | .key stored =>
    match configuredKeyId config with
    | some configured =>
      if stored.keyId ≠ configured then
        .error (.new "config_key_mismatch"
          "The configuration key does not match the active key id")
      else .ok (stored, .key stored)
    | none => .ok (stored, .key stored)
  | .missing =>
    match configuredKeyId config with
    | some _ => .error (.new "config_key_missing" "The configuration key file is missing")
    | none => .ok (fresh, .key fresh)

namespace CryptoService

/-- `CryptoService::load`: the service, and the key file after it. -/
def load (fresh : ConfigKey) (file : KeyFile) (config : Option SecretConfig)
    (session : Option UnlockedSecretSession) : Except EngineError (CryptoService × KeyFile) :=
  if isEmbedded config then do
    let (configKey, file) ← loadOrCreateConfigKey fresh file config
    return (fromConfigKey configKey, file)
  else do
    let service ← new config session
    return (service, file)

def buildEmbeddedConfig (keyId : Text) : SecretConfig where
  version := 1
  provider := "embedded".toList
  activeKeyId := some keyId
  kdfSalt := none
  verifyHash := none

def derivePasswordMaterial (P : Primitives) (password : Text) (salt : Bytes) :
    Except EngineError Bytes :=
  if password = [] then
    .error (.new "security_password_required" "Security password is required")
  else
    match P.argon2 (utf8Bytes password) salt with
    | .ok output => .ok output
    | .error err =>
      .error (.withDetail "crypto_init_failed" "Failed to derive master password key material" err)

def keyOf (derived : Bytes) : Bytes := derived.extract 0 32

def verifyOf (derived : Bytes) : Bytes := derived.extract 32 derived.size

/-- `CryptoService::build_user_password_config`, with the salt and the key id it draws. -/
def buildUserPasswordConfig (P : Primitives) (salt : Bytes) (uuid password : Text) :
    Except EngineError (SecretConfig × UnlockedSecretSession) :=
  if (trim password).length < 4 then
    .error ((EngineError.new "security_password_too_short"
      "Security password must be at least 4 characters").withMessageKey
        "error.securityPasswordTooShort")
  else do
    let keyId := "master-".toList ++ uuid
    let derived ← derivePasswordMaterial P (trim password) salt
    return (⟨1, "user_password".toList, some keyId, some (P.base64Encode salt),
      some (P.base64Encode (verifyOf derived))⟩, ⟨keyId, keyOf derived⟩)

def requireField (field : Option Text) (message : String) : Except EngineError Text :=
  match field with
  | some value => .ok value
  | none => .error (.new "crypto_provider_invalid" message)

def decodeSalt (P : Primitives) (saltB64 : Text) : Except EngineError Bytes :=
  match P.base64Decode saltB64 with
  | .ok salt => .ok salt
  | .error err =>
    .error (.withDetail "crypto_provider_invalid" "Master password config is invalid" err)

def unlockUserPassword (P : Primitives) (config : SecretConfig) (password : Text) :
    Except EngineError UnlockedSecretSession := do
  let keyId ← activeKeyId (some config)
  let saltB64 ← requireField config.kdfSalt "Master password config is missing kdfSalt"
  let verifyHash ← requireField config.verifyHash "Master password config is missing verifyHash"
  let salt ← decodeSalt P saltB64
  let derived ← derivePasswordMaterial P (trim password) salt
  if P.base64Encode (verifyOf derived) ≠ verifyHash then
    .error ((EngineError.new "security_password_invalid"
      "Security password is incorrect").withMessageKey "error.securityPasswordInvalid")
  else
    return ⟨keyId, keyOf derived⟩

/-- `CryptoService::require_provider_for_encryption` and `require_provider_for_decryption`. -/
def requireProvider (service : CryptoService) : Except EngineError Provider :=
  match service.provider with
  | some provider => .ok provider
  | none =>
    .error ((EngineError.new "security_locked"
      "Security data is locked. Unlock it with the security password first.").withMessageKey
        "error.securityLocked")

def status (service : CryptoService) : SecurityStatus :=
  match service.provider with
  | some provider => ⟨provider.kind, false, true⟩
  | none => ⟨service.providerKind, service.locked, true⟩

end CryptoService

/-! ## Tokens -/

def secretTokenPrefix : Text := "enc:v1:".toList

def encodeToken (P : Primitives) (payload : EncryptedPayload) : Text :=
  secretTokenPrefix ++ P.base64Encode (P.jsonToVec payload)

/-- The payload behind the prefix of a token. -/
def decodePayload (P : Primitives) (payloadToken : Text) : Except EngineError EncryptedPayload :=
  match P.base64Decode payloadToken with
  | .error err =>
    .error (.withDetail "secret_format_invalid"
      "Invalid secret format: enc:v1 payload is not valid Base64" err)
  | .ok payloadBytes =>
    match P.jsonFromSlice payloadBytes with
    | .error err =>
      .error (.withDetail "secret_format_invalid"
        "Invalid secret format: enc:v1 payload is not valid JSON" err)
    | .ok payload => .ok payload

def decodeToken (P : Primitives) (serialized : Text) : Except EngineError EncryptedPayload :=
  match serialized.dropPrefix? secretTokenPrefix with
  | none =>
    .error (.new "secret_format_unsupported"
      "Unsupported secret format: only enc:v1 payloads are accepted")
  | some payloadToken => decodePayload P payloadToken

def decodeField (P : Primitives) (field : Text) : Except EngineError Bytes :=
  match P.base64Decode field with
  | .ok bytes => .ok bytes
  | .error err => .error (.withDetail "secret_format_invalid" "Invalid secret format" err)

namespace CryptoService

/-- `CryptoService::encrypt_string`, with the nonce it draws. -/
def encryptString (P : Primitives) (service : CryptoService) (nonce : Bytes) (plaintext : Text) :
    Except EngineError Text := do
  let provider ← service.requireProvider
  return encodeToken P
    { provider := provider.kind
      algorithm := .aes256Gcm
      keyId := provider.keyId
      nonce := P.base64Encode nonce
      ciphertext := P.base64Encode
        (P.aesEncrypt provider.encryptionKey nonce (utf8Bytes plaintext)) }

def decryptString (P : Primitives) (service : CryptoService) (serialized : Text) :
    Except EngineError Text := do
  let payload ← decodeToken P serialized
  if payload.algorithm ≠ .aes256Gcm then
    .error (.new "secret_algorithm_unsupported" "Unsupported encryption algorithm")
  else
    let provider ← service.requireProvider
    if payload.provider ≠ provider.kind ∨ payload.keyId ≠ provider.keyId then
      .error (.new "secret_provider_mismatch"
        "The current security mode cannot decrypt this secret")
    else
      let nonce ← decodeField P payload.nonce
      let ciphertext ← decodeField P payload.ciphertext
      match P.aesDecrypt provider.encryptionKey nonce ciphertext with
      | none => .error (.new "secret_decrypt_failed" "Failed to decrypt the credential")
      | some plaintext =>
        match fromUtf8 plaintext with
        | some plaintext => return plaintext
        | none =>
          .error (.withDetail "secret_decrypt_failed" "Decrypted secret is not valid UTF-8"
            "invalid utf-8 sequence")

/-! ## Which service opens a token -/

section Lawful

variable {P : Primitives} {service service' : CryptoService} {t s s' : Text}

theorem decodeToken_encodeToken (hP : P.RoundTrips) (payload : EncryptedPayload) :
    decodeToken P (encodeToken P payload) = .ok payload := by
  have hdrop : (encodeToken P payload).dropPrefix? secretTokenPrefix
      = some (P.base64Encode (P.jsonToVec payload)) :=
    List.dropPrefix?_append_of_beq _ (beq_self_eq_true _)
  rw [decodeToken, hdrop]
  simp only [decodePayload, hP.base64Decode_base64Encode, hP.jsonFromSlice_jsonToVec]

theorem decodeField_base64Encode (hP : P.RoundTrips) (bytes : Bytes) :
    decodeField P (P.base64Encode bytes) = .ok bytes := by
  rw [decodeField, hP.base64Decode_base64Encode]

theorem requireProvider_eq_ok_iff {provider : Provider} :
    service.requireProvider = .ok provider ↔ service.provider = some provider := by
  rw [requireProvider]
  cases service.provider <;> simp

theorem decryptString_eq_ok_iff : decryptString P service t = .ok s ↔
    ∃ payload provider nonce ciphertext bytes,
      decodeToken P t = .ok payload ∧ service.provider = some provider ∧
      (payload.provider = provider.kind ∧ payload.keyId = provider.keyId) ∧
      decodeField P payload.nonce = .ok nonce ∧ decodeField P payload.ciphertext = .ok ciphertext ∧
      P.aesDecrypt provider.encryptionKey nonce ciphertext = some bytes ∧
      fromUtf8 bytes = some s := by
  have halg (payload : EncryptedPayload) : ¬payload.algorithm ≠ .aes256Gcm := by
    cases payload.algorithm
    simp
  rw [decryptString, bind_eq_ok_iff]
  constructor
  · rintro ⟨payload, hpayload, h⟩
    rw [if_neg (halg payload), bind_eq_ok_iff] at h
    obtain ⟨provider, hprovider, h⟩ := h
    rw [requireProvider_eq_ok_iff] at hprovider
    split at h
    · cases h
    · rename_i hmatch
      rw [not_or, not_not, not_not] at hmatch
      obtain ⟨nonce, hnonce, h⟩ := bind_eq_ok_iff.mp h
      obtain ⟨ciphertext, hciphertext, h⟩ := bind_eq_ok_iff.mp h
      split at h
      · cases h
      · rename_i bytes hbytes
        split at h
        · rename_i plaintext hutf8
          cases h
          exact ⟨payload, provider, nonce, ciphertext, bytes, hpayload, hprovider, hmatch, hnonce,
            hciphertext, hbytes, hutf8⟩
        · cases h
  · rintro ⟨payload, provider, nonce, ciphertext, bytes, hpayload, hprovider, hmatch, hnonce,
      hciphertext, hbytes, hutf8⟩
    refine ⟨payload, hpayload, ?_⟩
    rw [if_neg (halg payload), requireProvider_eq_ok_iff.mpr hprovider]
    simp only [bind, Except.bind, hmatch, ne_eq, not_true, or_self, if_false, hnonce, hciphertext,
      hbytes, hutf8, pure, Except.pure]

/-- **A token decrypts under the service that made it.** -/
theorem decryptString_encryptString (hP : P.RoundTrips) {nonce : Bytes}
    (h : encryptString P service nonce s = .ok t) : decryptString P service t = .ok s := by
  obtain ⟨provider, hprovider, ht⟩ := bind_eq_ok_iff.mp h
  cases ht
  exact decryptString_eq_ok_iff.mpr ⟨_, provider, nonce, _, _, decodeToken_encodeToken hP _,
    requireProvider_eq_ok_iff.mp hprovider, ⟨rfl, rfl⟩, decodeField_base64Encode hP _,
    decodeField_base64Encode hP _, hP.aesDecrypt_aesEncrypt _ _ _, fromUtf8_utf8Bytes s⟩

/-- **A token names its provider.** Services that open the same token have the same kind and
key id. -/
theorem provider_eq_of_decryptString (h : decryptString P service t = .ok s)
    (h' : decryptString P service' t = .ok s') :
    service.providerKind = service'.providerKind ∧ service.keyId = service'.keyId := by
  obtain ⟨payload, provider, -, -, -, hpayload, hprovider, hmatch, -⟩ :=
    decryptString_eq_ok_iff.mp h
  obtain ⟨payload', provider', -, -, -, hpayload', hprovider', hmatch', -⟩ :=
    decryptString_eq_ok_iff.mp h'
  rw [hpayload, Except.ok.injEq] at hpayload'
  subst hpayload'
  obtain ⟨hkind, hid⟩ := service.provider_eq provider hprovider
  obtain ⟨hkind', hid'⟩ := service'.provider_eq provider' hprovider'
  exact ⟨by rw [← hkind, ← hkind', ← hmatch.1, hmatch'.1],
    by rw [← hid, ← hid', ← hmatch.2, hmatch'.2]⟩

theorem decryptString_unique (hP : P.Lawful) (h : decryptString P service t = .ok s)
    (h' : decryptString P service' t = .ok s') : s = s' := by
  obtain ⟨payload, provider, nonce, ciphertext, bytes, hpayload, -, -, hnonce, hciphertext, hbytes,
    hutf8⟩ := decryptString_eq_ok_iff.mp h
  obtain ⟨payload', provider', nonce', ciphertext', bytes', hpayload', -, -, hnonce', hciphertext',
    hbytes', hutf8'⟩ := decryptString_eq_ok_iff.mp h'
  rw [hpayload, Except.ok.injEq] at hpayload'
  subst hpayload'
  rw [hnonce, Except.ok.injEq] at hnonce'
  rw [hciphertext, Except.ok.injEq] at hciphertext'
  subst hnonce' hciphertext'
  -- the ciphertext opens under both keys, so they are one key
  have hkey : provider.encryptionKey = provider'.encryptionKey := by
    by_contra hne
    have hnone := hP.aesDecrypt_other_key _ _ nonce ciphertext hne (by simp [hbytes])
    rw [hbytes'] at hnone
    cases hnone
  rw [hkey, hbytes', Option.some.injEq] at hbytes
  rw [← hbytes, hutf8', Option.some.injEq] at hutf8
  exact hutf8.symm

theorem exists_encryptString {provider : Provider} (hprovider : service.provider = some provider)
    (nonce : Bytes) (s : Text) : ∃ t, encryptString P service nonce s = .ok t :=
  ⟨_, bind_eq_ok_iff.mpr ⟨provider, requireProvider_eq_ok_iff.mpr hprovider, rfl⟩⟩

/-! ## The shape of tokens -/

theorem secretTokenPrefix_not_space : ∀ c ∈ secretTokenPrefix, isWhitespace c = false :=
  forall_not_of_all (by decide)

theorem token_of_encryptString (hP : P.RoundTrips) {nonce : Bytes}
    (h : encryptString P service nonce s = .ok t) :
    secretTokenPrefix <+: t ∧ ∀ c ∈ t, isWhitespace c = false := by
  obtain ⟨provider, -, ht⟩ := bind_eq_ok_iff.mp h
  cases ht
  refine ⟨List.prefix_append _ _, fun c hc => ?_⟩
  rcases List.mem_append.mp hc with hc | hc
  · exact secretTokenPrefix_not_space c hc
  · exact hP.base64Encode_not_space _ c hc

end Lawful

end CryptoService

end FluxTerm.Security
