import StogasVerifier.Channel.Header

/-! A suite of free terms. Every KDF block, agreement and encapsulated secret is
a term of its own, so it satisfies all the laws stated for a suite. Clamping is
the identity: terms have no bits to fix. -/

namespace StogasVerifier.Channel

deriving instance Encodable for Label

inductive Term where
  | atom (name : Nat)
  | expand (label : Label) (input : Term) (block : Nat)
  | expandRoot (root dh kem : Term) (block : Nat)
  | expandRecord (key : Term) (info : List Nat) (block : Nat)
  | agreed (first second : Term)
  | encapsulated (d z randomness : Term)
  /-- The implicit rejection of a ciphertext made for another key. -/
  | rejected (d z : Term) (otherD otherZ randomness : Term)
  deriving DecidableEq, Encodable

structure Point where
  scalar : Term
  deriving DecidableEq, Encodable

/-- An ML-KEM key, named by the two seeds that generate it. -/
structure KemKey where
  d : Term
  z : Term
  deriving DecidableEq, Encodable

/-- A ciphertext, named by its recipient and the randomness it was made with. -/
structure Encapsulation where
  recipient : KemKey
  randomness : Term
  deriving DecidableEq, Encodable

namespace Symbolic

/-- Agreement does not depend on the order of its two scalars. -/
def agreement (first second : Term) : Term :=
  if Encodable.encode first ≤ Encodable.encode second then .agreed first second else .agreed second first

theorem agreement_comm (first second : Term) : agreement first second = agreement second first := by
  unfold agreement
  split <;> split
  next forth back =>
    cases Encodable.encode_injective (Nat.le_antisymm forth back)
    rfl
  · rfl
  · rfl
  · omega

def decapsulate (key : KemKey) (ciphertext : Encapsulation) : Term :=
  if ciphertext.recipient = key then .encapsulated key.d key.z ciphertext.randomness
  else .rejected key.d key.z ciphertext.recipient.d ciphertext.recipient.z ciphertext.randomness

/-- A structured value of a fixed width on the wire: its code in every cell. -/
def pack {α : Type} [Encodable α] (width : Nat) (value : α) : List Nat := List.replicate width (Encodable.encode value)

def unpack (α : Type) [Encodable α] (bytes : List Nat) : Option α := bytes.head?.bind fun cell => Encodable.decode cell

@[simp]
theorem pack_length {α : Type} [Encodable α] (width : Nat) (value : α) : (pack width value).length = width := by
  simp [pack]

@[simp]
theorem unpack_pack {α : Type} [Encodable α] (width : Nat) (value : α) : unpack α (pack (width + 1) value) = some value := by
  simp [pack, unpack, List.replicate_succ]

/-- What an AEAD ciphertext seals: key, nonce, associated data and plaintext. -/
abbrev Box := Term × List Nat × List Nat × List Nat

def encrypt (key : Term) (nonce aad plaintext : List Nat) : List Nat :=
  pack (plaintext.length + 16) ((key, nonce, aad, plaintext) : Box)

def decrypt (key : Term) (nonce aad bytes : List Nat) : Option (List Nat) :=
  (unpack Box bytes).bind fun box => if box.1 = key ∧ box.2.1 = nonce ∧ box.2.2.1 = aad then some box.2.2.2 else none

end Symbolic

open Symbolic in
def symbolic : Suite where
  Symbol := Nat
  u8 := id
  value := id
  value_u8 _ _ := rfl
  Secret := Term
  expand := .expand
  expandRoot := .expandRoot
  expandRecord := .expandRecord
  DhPublic := Point
  clamp := id
  secretToPublic := Point.mk
  ecdh point scalar := some (agreement point.scalar scalar)
  KemPublic := KemKey
  KemPrivate := KemKey
  Ciphertext := Encapsulation
  generateKeyPair d z := (⟨d, z⟩, ⟨d, z⟩)
  validatePublicKey _ := true
  encapsulate key randomness := (⟨key, randomness⟩, .encapsulated key.d key.z randomness)
  decapsulate := decapsulate
  encodeKeys := pack publicKeyBytes
  decodeKeys bytes := (unpack (Point × KemKey) bytes).getD (⟨.atom 0⟩, ⟨.atom 0, .atom 0⟩)
  encodeKeys_length _ := pack_length _ _
  decodeKeys_encodeKeys keys := by rw [publicKeyBytes, unpack_pack, Option.getD_some]
  encodeCiphertext := pack ciphertextBytes
  decodeCiphertext bytes := (unpack Encapsulation bytes).getD ⟨⟨.atom 0, .atom 0⟩, .atom 0⟩
  encodeCiphertext_length _ := pack_length _ _
  decodeCiphertext_encodeCiphertext ciphertext := by rw [ciphertextBytes, unpack_pack, Option.getD_some]
  Digest := List Nat
  digestEq := inferInstance
  sha256 := id
  encrypt key nonce aad plaintext := some (encrypt key nonce aad plaintext)
  decrypt := decrypt

namespace Symbolic

theorem decrypt_encrypt {key key' : Term} {nonce nonce' aad aad' plaintext plaintext' : List Nat} :
    decrypt key' nonce' aad' (encrypt key nonce aad plaintext) = some plaintext' ↔
      key = key' ∧ nonce = nonce' ∧ aad = aad' ∧ plaintext = plaintext' := by
  simp [decrypt, encrypt, and_assoc]

theorem sealing : symbolic.Sealing where
  total key nonce aad plaintext _ := ⟨_, rfl⟩
  length key nonce aad plaintext bytes sent := by
    cases sent
    exact pack_length _ _
  opens key nonce aad plaintext bytes sent := by
    cases sent
    exact decrypt_encrypt.mpr ⟨rfl, rfl, rfl, rfl⟩

theorem committing : symbolic.Committing := by
  intro key nonce aad plaintext bytes sent key' nonce' aad' plaintext' opened
  cases sent
  obtain ⟨rfl, rfl, rfl, -⟩ := decrypt_encrypt.mp opened
  exact ⟨rfl, rfl, rfl⟩

theorem commutes : symbolic.Commutes := fun first second => congrArg some (agreement_comm first second)

theorem contributory : symbolic.Contributory := fun _ _ => rfl

theorem decapsulates : symbolic.Decapsulates := fun _ _ _ => if_pos rfl

theorem validates : symbolic.Validates := fun _ _ => rfl

theorem collisionFree : symbolic.CollisionFree where
  expand same := by
    cases same
    exact ⟨rfl, rfl, rfl⟩
  root same := by
    cases same
    exact ⟨rfl, rfl, rfl, rfl⟩
  separate := nofun

theorem recordFree : symbolic.RecordFree := by
  intro key key' info info' block block' same
  cases same
  exact ⟨rfl, rfl, rfl⟩

theorem ideal : symbolic.Ideal := ⟨sealing, committing, commutes, decapsulates, collisionFree⟩

end Symbolic
end StogasVerifier.Channel
