import FluxTerm.Security.Crypto

/-!
# FluxTerm — primitives that meet the laws

A small instance of `Primitives`, in which the laws of the crypto service can be evaluated: the
cipher puts the key in front of the plaintext and checks it, the codecs write every field behind
its length. Nothing about the service depends on it.
-/

namespace FluxTerm.Security

open FluxTerm.Lib

/-! ## Framing -/

def frame (xs : List UInt8) : List UInt8 := List.replicate xs.length 1 ++ 0 :: xs

def unframe : ℕ → List UInt8 → Option (List UInt8 × List UInt8)
  | n, b :: bs =>
    if b = 1 then unframe (n + 1) bs
    else if n ≤ bs.length then some (bs.take n, bs.drop n) else none
  | _, [] => none

theorem unframe_replicate (n k : ℕ) (bs : List UInt8) :
    unframe n (List.replicate k 1 ++ bs) = unframe (n + k) bs := by
  induction k generalizing n with
  | zero => rfl
  | succ k ih =>
    rw [List.replicate_succ, List.cons_append, unframe, if_pos rfl, ih]
    congr 1
    omega

theorem unframe_frame (xs ys : List UInt8) : unframe 0 (frame xs ++ ys) = some (xs, ys) := by
  rw [frame, List.append_assoc, unframe_replicate, List.cons_append, unframe,
    if_neg (by decide), if_pos (by simp)]
  simp

/-! ## The instance -/

def ofList (xs : List UInt8) : Bytes := ⟨xs.toArray⟩

def toList (bytes : Bytes) : List UInt8 := bytes.data.toList

theorem toList_ofList (xs : List UInt8) : toList (ofList xs) = xs := by simp [toList, ofList]

theorem ofList_toList (bytes : Bytes) : ofList (toList bytes) = bytes := by
  simp [toList, ofList]

def charOfByte (b : UInt8) : Char := Char.ofNat (b.toNat + 0x100)

def byteOfChar (c : Char) : Option UInt8 :=
  if 0x100 ≤ c.toNat ∧ c.toNat < 0x200 then some (UInt8.ofNat (c.toNat - 0x100)) else none

theorem toNat_charOfByte (b : UInt8) : (charOfByte b).toNat = b.toNat + 0x100 := by
  have hb : b.toNat < 256 := b.toNat_lt
  have hvalid : (b.toNat + 0x100).isValidChar := Or.inl (by omega)
  rw [charOfByte, Char.ofNat, dif_pos hvalid]
  rfl

theorem byteOfChar_charOfByte (b : UInt8) : byteOfChar (charOfByte b) = some b := by
  have hb : b.toNat < 256 := b.toNat_lt
  rw [byteOfChar, toNat_charOfByte, if_pos (by omega)]
  simp

def byteOfKind : EncryptionProviderKind → UInt8
  | .embedded => 0
  | .userPassword => 1

def kindOfByte (b : UInt8) : EncryptionProviderKind := if b = 0 then .embedded else .userPassword

def payloadBytes (payload : EncryptedPayload) : List UInt8 :=
  byteOfKind payload.provider :: (frame (toList (utf8Bytes payload.keyId))
    ++ (frame (toList (utf8Bytes payload.nonce)) ++ frame (toList (utf8Bytes payload.ciphertext))))

def takeText (bs : List UInt8) : Option (Text × List UInt8) := do
  let (field, rest) ← unframe 0 bs
  let text ← fromUtf8 (ofList field)
  return (text, rest)

theorem takeText_frame (s : Text) (rest : List UInt8) :
    takeText (frame (toList (utf8Bytes s)) ++ rest) = some (s, rest) := by
  simp [takeText, unframe_frame, ofList_toList, fromUtf8_utf8Bytes]

/-- The payload of such bytes. -/
def payloadOfBytes (bs : List UInt8) : Option EncryptedPayload :=
  match bs with
  | [] => none
  | kind :: bs => do
    let (keyId, bs) ← takeText bs
    let (nonce, bs) ← takeText bs
    let (ciphertext, _) ← takeText bs
    return ⟨kindOfByte kind, .aes256Gcm, keyId, nonce, ciphertext⟩

theorem payloadOfBytes_payloadBytes (payload : EncryptedPayload) :
    payloadOfBytes (payloadBytes payload) = some payload := by
  obtain ⟨kind, algorithm, keyId, nonce, ciphertext⟩ := payload
  have hkind : kindOfByte (byteOfKind kind) = kind := by cases kind <;> rfl
  have hlast := takeText_frame ciphertext []
  rw [List.append_nil] at hlast
  cases algorithm
  simp [payloadOfBytes, payloadBytes, takeText_frame, hlast, hkind]

/-- The stand-in primitives. -/
def standIn : Primitives where
  aesEncrypt key _ plaintext := ofList (frame (toList key) ++ toList plaintext)
  aesDecrypt key _ ciphertext :=
    match unframe 0 (toList ciphertext) with
    | some (key', plaintext) => if key' = toList key then some (ofList plaintext) else none
    | none => none
  argon2 password salt := .ok (ofList (List.replicate 32 (UInt8.ofNat password.size)
    ++ List.replicate 32 (UInt8.ofNat salt.size)))
  base64Encode bytes := (toList bytes).map charOfByte
  base64Decode text :=
    match text.mapM byteOfChar with
    | some bytes => .ok (ofList bytes)
    | none => .error "Invalid byte"
  jsonToVec payload := ofList (payloadBytes payload)
  jsonFromSlice bytes :=
    match payloadOfBytes (toList bytes) with
    | some payload => .ok payload
    | none => .error "expected value"

/-- **The stand-in primitives are lawful.** -/
theorem standIn_lawful : standIn.Lawful where
  aesDecrypt_aesEncrypt key nonce plaintext := by
    simp [standIn, toList_ofList, unframe_frame, ofList_toList]
  aesDecrypt_other_key key key' nonce ciphertext hne hsome := by
    simp only [standIn] at hsome ⊢
    cases hframe : unframe 0 (toList ciphertext) with
    | none => rfl
    | some read =>
      obtain ⟨held, plaintext⟩ := read
      rw [hframe] at hsome
      -- the ciphertext names its key
      have hheld : held = toList key := by
        by_contra hother
        simp [hother] at hsome
      have hother : held ≠ toList key' := fun h => hne <| by
        rw [← ofList_toList key, ← hheld, h, ofList_toList]
      simp [hother]
  base64Decode_base64Encode bytes := by
    have hmap : ((toList bytes).map charOfByte).mapM byteOfChar = some (toList bytes) := by
      induction toList bytes with
      | nil => rfl
      | cons b bs ih => simp [byteOfChar_charOfByte, ih]
    simp only [standIn, hmap, ofList_toList]
  base64Encode_not_space bytes c hc := by
    obtain ⟨b, -, rfl⟩ := List.mem_map.mp hc
    have hb : b.toNat < 256 := b.toNat_lt
    simp only [isWhitespace, toNat_charOfByte]
    have h : 0x100 ≤ b.toNat + 0x100 ∧ b.toNat + 0x100 < 0x200 := ⟨by omega, by omega⟩
    generalize b.toNat + 0x100 = n at h
    simp
    omega
  jsonFromSlice_jsonToVec payload := by
    simp [standIn, toList_ofList, payloadOfBytes_payloadBytes]

end FluxTerm.Security
