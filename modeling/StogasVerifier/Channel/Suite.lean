import StogasVerifier.Lib.BigEndian

/-! Errors and tags of the encrypted channel, and the primitives it takes from
other packages: HKDF, X25519, ML-KEM-768, SHA-256 and AES-256-GCM. A suite gives
each of them as a function; what the channel relies on is stated separately, so
every result says which laws it uses. -/

namespace StogasVerifier.Channel

inductive Error where
  | record | authentication | limit | closed | truncated | pending | crypto
  deriving DecidableEq, Repr

inductive Kind where
  | metadata | data | finished | keepalive
  deriving DecidableEq, Repr

def Kind.code : Kind → Nat
  | .metadata => 1
  | .data => 2
  | .finished => 3
  | .keepalive => 4

def Kind.tryFrom : Nat → Except Error Kind
  | 1 => .ok .metadata
  | 2 => .ok .data
  | 3 => .ok .finished
  | 4 => .ok .keepalive
  | _ => .error .record

@[simp]
theorem Kind.tryFrom_code (kind : Kind) : Kind.tryFrom kind.code = .ok kind := by
  cases kind <;> rfl

theorem Kind.code_lt (kind : Kind) : kind.code < 256 := by
  cases kind <;> decide

inductive Direction where
  | request | response
  deriving DecidableEq, Repr

def Direction.code : Direction → Nat
  | .request => 1
  | .response => 2

/-- The labels of the unsalted ratchet KDF. The salted one is always `:Root`. -/
inductive Label where
  | initialization | keyGeneration | chain
  deriving DecidableEq, Repr

def u64Max : Nat := 2 ^ 64 - 1

def checkedSub (first second : Nat) (error : Error) : Except Error Nat :=
  if second ≤ first then .ok (first - second) else .error error

def checkedAdd (first second : Nat) (error : Error) : Except Error Nat :=
  if first + second ≤ u64Max then .ok (first + second) else .error error

def reject (condition : Prop) [Decidable condition] (error : Error) : Except Error Unit :=
  if condition then .error error else .ok ()

def saturatingAdd (first second : Nat) : Nat := min (first + second) u64Max

def publicKeyBytes : Nat := 32 + 1184
def ciphertextBytes : Nat := 1088

/-- Third-party primitives. Secrets are the 32-byte arrays of the source, and
KDF outputs are numbered by their 32-byte blocks. Wire bytes come from an
alphabet that contains the octets. -/
structure Suite extends Lib.Octets where
  Secret : Type
  /-- A block of `expand(None, input, label)`. -/
  expand : Label → Secret → Nat → Secret
  /-- A block of `expand(Some(root), dh || kem, ":Root")`. -/
  expandRoot : Secret → Secret → Secret → Nat → Secret
  /-- A block of HKDF-SHA256 expansion from a pseudorandom key. -/
  expandRecord : Secret → List Symbol → Nat → Secret
  DhPublic : Type
  clamp : Secret → Secret
  secretToPublic : Secret → DhPublic
  /-- X25519, which rejects an all-zero result. -/
  ecdh : DhPublic → Secret → Option Secret
  KemPublic : Type
  KemPrivate : Type
  Ciphertext : Type
  generateKeyPair : Secret → Secret → KemPrivate × KemPublic
  validatePublicKey : KemPublic → Bool
  encapsulate : KemPublic → Secret → Ciphertext × Secret
  decapsulate : KemPrivate → Ciphertext → Secret
  encodeKeys : DhPublic × KemPublic → List Symbol
  decodeKeys : List Symbol → DhPublic × KemPublic
  encodeKeys_length : ∀ keys, (encodeKeys keys).length = publicKeyBytes
  decodeKeys_encodeKeys : ∀ keys, decodeKeys (encodeKeys keys) = keys
  encodeCiphertext : Ciphertext → List Symbol
  decodeCiphertext : List Symbol → Ciphertext
  encodeCiphertext_length : ∀ ciphertext, (encodeCiphertext ciphertext).length = ciphertextBytes
  decodeCiphertext_encodeCiphertext : ∀ ciphertext, decodeCiphertext (encodeCiphertext ciphertext) = ciphertext
  Digest : Type
  digestEq : DecidableEq Digest
  sha256 : List Symbol → Digest
  /-- AES-256-GCM under a key, nonce and associated data. The tag ends the output. -/
  encrypt : Secret → List Symbol → List Symbol → List Symbol → Option (List Symbol)
  decrypt : Secret → List Symbol → List Symbol → List Symbol → Option (List Symbol)

instance (S : Suite) : DecidableEq S.Digest := S.digestEq

namespace Suite
variable (S : Suite)

abbrev Bytes : Type := List S.Symbol

abbrev be (width number : Nat) : S.Bytes := Lib.toBe S.toOctets width number

abbrev number (bytes : S.Bytes) : Nat := Lib.ofBe S.toOctets bytes

def text (literal : String) : S.Bytes := literal.toUTF8.toList.map fun octet => S.u8 octet.toNat

theorem text_length (literal : String) : (S.text literal).length = literal.utf8ByteSize := Lib.text_length S.toOctets literal

/-- Decryption undoes encryption, which succeeds on every header and record. -/
structure Sealing : Prop where
  total : ∀ key nonce aad plaintext, plaintext.length ≤ 64 * 1024 →
    ∃ bytes, S.encrypt key nonce aad plaintext = some bytes
  length : ∀ key nonce aad plaintext bytes, S.encrypt key nonce aad plaintext = some bytes →
    bytes.length = plaintext.length + 16
  opens : ∀ key nonce aad plaintext bytes, S.encrypt key nonce aad plaintext = some bytes →
    S.decrypt key nonce aad bytes = some plaintext

def InPlace : Prop :=
  ∀ key nonce aad bytes plaintext, S.decrypt key nonce aad bytes = some plaintext → bytes.length = plaintext.length + 16

/-- An ideal AEAD: a ciphertext opens only under the key, nonce and associated
data that sealed it. -/
def Committing : Prop :=
  ∀ key nonce aad plaintext bytes, S.encrypt key nonce aad plaintext = some bytes →
    ∀ key' nonce' aad' plaintext', S.decrypt key' nonce' aad' bytes = some plaintext' →
      key' = key ∧ nonce' = nonce ∧ aad' = aad

/-- X25519 agreement commutes between generated keys. -/
def Commutes : Prop :=
  ∀ first second, S.ecdh (S.secretToPublic (S.clamp first)) (S.clamp second) =
    S.ecdh (S.secretToPublic (S.clamp second)) (S.clamp first)

/-- Agreement between generated keys is never all zero. -/
def Contributory : Prop :=
  ∀ first second, (S.ecdh (S.secretToPublic (S.clamp first)) (S.clamp second)).isSome

def Decapsulates : Prop :=
  ∀ first second randomness,
    S.decapsulate (S.generateKeyPair first second).1
      (S.encapsulate (S.generateKeyPair first second).2 randomness).1 =
    (S.encapsulate (S.generateKeyPair first second).2 randomness).2

def Validates : Prop :=
  ∀ first second, S.validatePublicKey (S.generateKeyPair first second).2 = true

/-- Distinct KDF inputs give distinct outputs. -/
structure CollisionFree : Prop where
  expand : ∀ {label label' input input' block block'},
    S.expand label input block = S.expand label' input' block' → label = label' ∧ input = input' ∧ block = block'
  root : ∀ {root root' dh dh' kem kem' block block'},
    S.expandRoot root dh kem block = S.expandRoot root' dh' kem' block' →
      root = root' ∧ dh = dh' ∧ kem = kem' ∧ block = block'
  separate : ∀ {label input block root dh kem block'},
    S.expand label input block ≠ S.expandRoot root dh kem block'

/-- Distinct inputs of the record KDF give distinct outputs. -/
def RecordFree : Prop :=
  ∀ key key' info info' block block', S.expandRecord key info block = S.expandRecord key' info' block' →
    key = key' ∧ info = info' ∧ block = block'

/-- The laws that make two honest ends agree. -/
structure Ideal : Prop where
  sealing : S.Sealing
  committing : S.Committing
  commutes : S.Commutes
  decapsulates : S.Decapsulates
  collisionFree : S.CollisionFree

end Suite
end StogasVerifier.Channel
