import StogasVerifier.Lib.Json
import StogasVerifier.Receipt.Stream

/-! The receipt of a buffered response: a last member of its object, cut off without
parsing the rest (`split_buffered_response` of `receipt/http.rs`). The strict JSON parser
is a parameter. -/

namespace StogasVerifier.Receipt
open Lib
open Sigstore (Bytes)

def bufferedStogasField : Bytes := ascii ",\"stogas\":"
def bufferedOnlyStogasField : Bytes := ascii "\x7b\"stogas\":"
def emptyObject : Bytes := ascii "\x7b\x7d"

/-- The limit that `Signed::buffered` gives. -/
def maxBufferedBody : Nat := 64 * 1024 * 1024

/-- The start of the member, the start of its value, and whether it is the only one. -/
def locateField (responseBody : Bytes) : Option (Nat × Nat × Bool) :=
  match searchLast bufferedStogasField responseBody with
  | some position => some (position, position + bufferedStogasField.length, false)
  | none => if bufferedOnlyStogasField.isPrefixOf responseBody then some (0, bufferedOnlyStogasField.length, true) else none

def splitBufferedResponse (strictJson : Bytes → Except String Json) (responseBody : Bytes) (maxBodyBytes : Nat) :
    Except Error (Bytes × Bytes) := do
  let limit := maxBodyBytes + maxProofBytes + 16
  rejectIf (limit < responseBody.length) (.responseProof s!"buffered response exceeds {limit} bytes")
  rejectIf (responseBody.head? ≠ some 123 ∨ responseBody.getLast? ≠ some 125)
    (.responseProof "buffered response must be compact JSON with a final stogas object")
  let (fieldStart, proofStart, emptyResponse) ← required (locateField responseBody)
    (.responseProof "buffered response has no final stogas object")
  rejectIf (responseBody.length - 1 < proofStart) .panic
  let proof := (responseBody.take (responseBody.length - 1)).drop proofStart
  rejectIf (proof.isEmpty ∨ maxProofBytes < proof.length) (.responseProof "buffered response stogas object has an invalid size")
  let value ← (strictJson proof).mapError fun error => .responseProof s!"invalid stogas object: {error}"
  rejectIf (¬ value.isObject) (.responseProof "buffered response stogas field must be an object")
  let unsigned := if emptyResponse then emptyObject else responseBody.take fieldStart ++ [125]
  rejectIf (maxBodyBytes < unsigned.length)
    (.responseProof s!"response body must not exceed {maxBodyBytes} bytes in one-shot verification")
  return (proof, unsigned)

end StogasVerifier.Receipt
