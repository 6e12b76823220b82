import StogasVerifier.Lib.BigEndian

/-! Hash functions with digests of a fixed width, and the node hashes of RFC 9162
made from them. -/

namespace StogasVerifier.Lib

/-- A hash function over an alphabet that contains the octets. -/
structure Hashing (width : Nat) extends Octets where
  symbolEq : DecidableEq Symbol
  hash : List Symbol → List.Vector Symbol width

namespace Hashing

variable {width : Nat} (H : Hashing width)

instance : DecidableEq H.Symbol := H.symbolEq

abbrev Bytes : Type := List H.Symbol
abbrev Digest : Type := List.Vector H.Symbol width

/-- No two inputs have the same digest. -/
def CollisionFree : Prop := Function.Injective H.hash

def leafHash (body : H.Bytes) : H.Digest := H.hash (H.u8 0 :: body)

def nodeHash (left right : H.Digest) : H.Digest := H.hash (H.u8 1 :: (left.toList ++ right.toList))

variable {H}

theorem CollisionFree.leaf (free : H.CollisionFree) {body other : H.Bytes} (same : H.leafHash body = H.leafHash other) :
    body = other :=
  List.tail_eq_of_cons_eq (free same)

theorem CollisionFree.node (free : H.CollisionFree) {left right left' right' : H.Digest}
    (same : H.nodeHash left right = H.nodeHash left' right') : left = left' ∧ right = right' := by
  have inputs := List.tail_eq_of_cons_eq (free same)
  obtain ⟨lefts, rights⟩ := List.append_inj inputs (by rw [List.Vector.toList_length, List.Vector.toList_length])
  exact ⟨List.Vector.eq _ _ lefts, List.Vector.eq _ _ rights⟩

def free (width : Nat) : Hashing (width + 1) where
  Symbol := Nat
  u8 octet := octet
  value octet := octet
  value_u8 _ _ := rfl
  symbolEq := inferInstance
  hash bytes := ⟨Encodable.encode bytes :: List.replicate width 0, by simp⟩

theorem free_collisionFree (width : Nat) : (free width).CollisionFree := by
  intro first second same
  have codes := List.head_eq_of_cons_eq (congrArg Subtype.val same)
  exact Encodable.encode_injective (α := List Nat) codes

def bytes {width : Nat} (hash : List UInt8 → List.Vector UInt8 width) : Hashing width where
  Symbol := UInt8
  u8 := UInt8.ofNat
  value := UInt8.toNat
  value_u8 := fun _ fits => UInt8.toNat_ofNat_of_lt' fits
  symbolEq := inferInstance
  hash

theorem bytes_exact {width : Nat} (hash : List UInt8 → List.Vector UInt8 width) : (bytes hash).toOctets.Exact :=
  ⟨UInt8.toNat_lt, fun _ => UInt8.ofNat_toNat⟩

end Hashing
end StogasVerifier.Lib
