import Mathlib

/-! JSON values as a parser returns them. The members of an object stand in the
order of the text. -/

namespace StogasVerifier.Lib

/-- A number is kept as an unsigned or a negative integer if it is one that fits
64 bits, and otherwise as the bits of a binary64. -/
inductive Number where
  | posInt (value : UInt64)
  | negInt (value : Int)
  | float (bits : UInt64)
  deriving DecidableEq, Repr

inductive Json where
  | null
  | bool (value : Bool)
  | number (value : Number)
  | string (text : String)
  | array (items : List Json)
  | object (entries : List (String × Json))

namespace Json

def get (value : Json) (key : String) : Option Json :=
  match value with
  | .object entries => entries.lookup key
  | _ => none

def member (value : Json) (key : String) : Json := (value.get key).getD .null

def isObject : Json → Bool
  | .object _ => true
  | _ => false

def asObject : Json → Option (List (String × Json))
  | .object entries => some entries
  | _ => none

def asArray : Json → Option (List Json)
  | .array items => some items
  | _ => none

def asStr : Json → Option String
  | .string text => some text
  | _ => none

def asU64 : Json → Option Nat
  | .number (.posInt value) => some value.toNat
  | _ => none

theorem asU64_lt {value : Json} {number : Nat} (read : value.asU64 = some number) : number < 2 ^ 64 := by
  unfold asU64 at read
  split at read
  next value =>
    cases read
    exact value.toNat_lt
  next => cases read

end Json
end StogasVerifier.Lib
