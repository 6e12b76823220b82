import StogasVerifier.Channel.Suite

/-! Key pairs (`ratchet/keys.rs`) and encrypted fixed-width headers
(`ratchet/header.rs`). -/

namespace StogasVerifier.Channel

variable {S : Suite}

/-- The X25519 and ML-KEM public keys of one turn, 1,216 bytes on the wire. -/
structure PublicKeys (S : Suite) where
  dh : S.DhPublic
  kem : S.KemPublic

namespace PublicKeys

def encode (keys : PublicKeys S) : S.Bytes := S.encodeKeys (keys.dh, keys.kem)

def decode (bytes : S.Bytes) : PublicKeys S :=
  let (dh, kem) := S.decodeKeys bytes
  ⟨dh, kem⟩

def validate (keys : PublicKeys S) : Except Error Unit :=
  if S.validatePublicKey keys.kem then .ok () else .error .authentication

def encapsulate (keys : PublicKeys S) (randomness : S.Secret) : S.Ciphertext × S.Secret :=
  S.encapsulate keys.kem randomness

end PublicKeys

structure KeyPair (S : Suite) where
  dh : S.Secret
  kem : S.KemPrivate
  publicKeys : PublicKeys S

namespace KeyPair

def fromSeed (seed : S.Secret) : KeyPair S :=
  let dh := S.clamp (S.expand .keyGeneration seed 0)
  let (kem, kemPublic) := S.generateKeyPair (S.expand .keyGeneration seed 1) (S.expand .keyGeneration seed 2)
  { dh, kem, publicKeys := ⟨S.secretToPublic dh, kemPublic⟩ }

def agree (keys : KeyPair S) (remote : PublicKeys S) : Except Error S.Secret :=
  match S.ecdh remote.dh keys.dh with
  | some shared => .ok shared
  | none => .error .authentication

def decapsulate (keys : KeyPair S) (ciphertext : S.Ciphertext) : S.Secret :=
  S.decapsulate keys.kem ciphertext

end KeyPair

def fieldsBytes : Nat := publicKeyBytes + ciphertextBytes + 16
def headerBytes : Nat := fieldsBytes + 16

def protocol (S : Suite) : S.Bytes := S.text "stogas.e2ee.pqdr.v1_X25519_MLKEM768_HKDFSHA512_AES256GCM"

/-- The visible number of a request or record as a 96-bit GCM nonce. -/
def nonce (S : Suite) (request : Nat) : S.Bytes := List.replicate 4 (S.u8 0) ++ S.be 8 request

structure Header (S : Suite) where
  publicKeys : PublicKeys S
  ciphertext : S.Ciphertext
  previous : Nat
  number : Nat

namespace Header

def encode (header : Header S) : S.Bytes :=
  header.publicKeys.encode ++ S.encodeCiphertext header.ciphertext ++ S.be 8 header.previous ++ S.be 8 header.number

def decode (bytes : S.Bytes) : Header S where
  publicKeys := PublicKeys.decode (bytes.take publicKeyBytes)
  ciphertext := S.decodeCiphertext ((bytes.take (fieldsBytes - 16)).drop publicKeyBytes)
  previous := S.number ((bytes.take (fieldsBytes - 8)).drop (fieldsBytes - 16))
  number := S.number ((bytes.take fieldsBytes).drop (fieldsBytes - 8))

def turn (header : Header S) : S.Digest :=
  S.sha256 (header.publicKeys.encode ++ S.encodeCiphertext header.ciphertext ++ S.be 8 header.previous)

end Header

structure HeaderCipher (S : Suite) where
  key : S.Secret

namespace HeaderCipher

def sealHeader (cipher : HeaderCipher S) (header : Header S) (request : Nat) : Except Error S.Bytes :=
  match S.encrypt cipher.key (nonce S request) (protocol S) header.encode with
  | some bytes => .ok bytes
  | none => .error .crypto

def openHeader (cipher : HeaderCipher S) (encoded : S.Bytes) (request : Nat) : Except Error (Header S) :=
  if encoded.length ≠ headerBytes then .error .record
  else match S.decrypt cipher.key (nonce S request) (protocol S) encoded with
    | some plaintext => .ok (Header.decode plaintext)
    | none => .error .authentication

end HeaderCipher

theorem Header.encode_length (header : Header S) : header.encode.length = fieldsBytes := by
  simp only [Header.encode, PublicKeys.encode, List.length_append, S.encodeKeys_length, S.encodeCiphertext_length,
    Lib.toBe_length, fieldsBytes]

theorem Header.decode_encode (header : Header S) (previous : header.previous ≤ u64Max) (number : header.number ≤ u64Max) :
    Header.decode header.encode = header := by
  have keys : header.publicKeys.encode.length = publicKeyBytes := S.encodeKeys_length _
  have ciphertext := S.encodeCiphertext_length header.ciphertext
  have fits : ∀ {count : Nat}, count ≤ u64Max → S.number (S.be 8 count) = count := by
    intro count bound
    exact Lib.ofBe_toBe _ _ _ (by simp only [u64Max] at bound; omega)
  have front : (header.publicKeys.encode ++ S.encodeCiphertext header.ciphertext).length = fieldsBytes - 16 := by
    simp [keys, ciphertext, fieldsBytes]
  have middle : (header.publicKeys.encode ++ S.encodeCiphertext header.ciphertext ++ S.be 8 header.previous).length =
      fieldsBytes - 8 := by
    simp [keys, ciphertext, fieldsBytes]
    omega
  unfold Header.decode
  congr 1
  · rw [encode, List.append_assoc, List.append_assoc, List.take_left' keys]
    simp [PublicKeys.decode, PublicKeys.encode, S.decodeKeys_encodeKeys]
  · rw [encode, List.append_assoc _ _ (S.be 8 header.number), List.take_left' front, List.drop_left' keys,
      S.decodeCiphertext_encodeCiphertext]
  · rw [encode, List.take_left' middle, List.drop_left' front, fits previous]
  · rw [List.take_of_length_le (Nat.le_of_eq header.encode_length), encode, List.drop_left' middle, fits number]

namespace HeaderCipher

theorem sealHeader_ok {cipher : HeaderCipher S} {header : Header S} {request : Nat} {bytes : S.Bytes} :
    cipher.sealHeader header request = .ok bytes ↔
      S.encrypt cipher.key (nonce S request) (protocol S) header.encode = some bytes := by
  unfold sealHeader
  cases S.encrypt cipher.key (nonce S request) (protocol S) header.encode <;> simp

theorem openHeader_ok {cipher : HeaderCipher S} {encoded : S.Bytes} {request : Nat} {header : Header S}
    (opened : cipher.openHeader encoded request = .ok header) :
    ∃ plaintext, S.decrypt cipher.key (nonce S request) (protocol S) encoded = some plaintext ∧
      header = Header.decode plaintext := by
  unfold openHeader at opened
  split at opened
  · cases opened
  · split at opened
    next plaintext found => cases opened; exact ⟨plaintext, found, rfl⟩
    next => cases opened

theorem sealHeader_length (sealing : S.Sealing) {cipher : HeaderCipher S} {header : Header S} {request : Nat} {bytes : S.Bytes}
    (sent : cipher.sealHeader header request = .ok bytes) : bytes.length = headerBytes := by
  rw [sealing.length _ _ _ _ _ (sealHeader_ok.mp sent), header.encode_length, headerBytes]

theorem openHeader_sealHeader (sealing : S.Sealing) {cipher : HeaderCipher S} {header : Header S} {request : Nat} {bytes : S.Bytes}
    (previous : header.previous ≤ u64Max) (number : header.number ≤ u64Max)
    (sent : cipher.sealHeader header request = .ok bytes) : cipher.openHeader bytes request = .ok header := by
  have opens := sealing.opens _ _ _ _ _ (sealHeader_ok.mp sent)
  simp [openHeader, sealHeader_length sealing sent, opens, header.decode_encode previous number]

theorem openHeader_key (committing : S.Committing) {cipher other : HeaderCipher S} {header opened : Header S}
    {request number : Nat} {bytes : S.Bytes} (sent : cipher.sealHeader header request = .ok bytes)
    (unsealed : other.openHeader bytes number = .ok opened) : other = cipher := by
  obtain ⟨plaintext, found, -⟩ := openHeader_ok unsealed
  obtain ⟨same, -⟩ := committing _ _ _ _ _ (sealHeader_ok.mp sent) _ _ _ _ found
  cases other
  cases cipher
  exact congrArg _ same

end HeaderCipher
end StogasVerifier.Channel
