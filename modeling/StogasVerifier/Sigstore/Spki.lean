import StogasVerifier.Sigstore.Publication
import StogasVerifier.Lib.Fallible

/-! Signatures under a `SubjectPublicKeyInfo` on the curve P-256 (`verify_spki` of
`crypto.rs` for ECDSA with SHA-256). -/

namespace StogasVerifier.Sigstore
open Lib

structure Spki where
  algorithm : String
  /-- The parameters, if they are an object identifier. -/
  parameters : Option String
  subjectPublicKey : Bytes

def idEcPublicKey : String := "1.2.840.10045.2.1"
def secp256r1 : String := "1.2.840.10045.3.1.7"

/-- What the check takes from other libraries. -/
structure EllipticLibraries where
  parseSpki : Bytes → Except String Spki
  /-- A public key: a point of the curve. -/
  Point : Type
  /-- The point of a compressed or an uncompressed encoding. -/
  fromSec1 : Bytes → Except String Point
  Signature : Type
  signatureFromDer : Bytes → Except String Signature
  verify : Point → Bytes → Signature → Except String Unit

namespace EllipticLibraries
variable (E : EllipticLibraries)

def verifySpki (spkiDer message signature : Bytes) : Except String Unit := do
  let spki ← (E.parseSpki spkiDer).mapError fun error => s!"invalid SubjectPublicKeyInfo: {error}"
  rejectIf (¬ (spki.algorithm = idEcPublicKey ∧ spki.parameters = some secp256r1)) "signature scheme does not match the public key"
  let key ← (E.fromSec1 spki.subjectPublicKey).mapError fun error => s!"invalid P-256 key: {error}"
  let signature ← (E.signatureFromDer signature).mapError fun error => s!"invalid P-256 signature: {error}"
  (E.verify key message signature).mapError fun error => s!"P-256 signature verification failed: {error}"

def keyPoint (spkiDer : Bytes) : Option E.Point := do
  let spki ← (E.parseSpki spkiDer).toOption
  if spki.algorithm = idEcPublicKey ∧ spki.parameters = some secp256r1 then (E.fromSec1 spki.subjectPublicKey).toOption else none

def Valid (point : E.Point) (message signature : Bytes) : Prop :=
  ∃ decoded, E.signatureFromDer signature = .ok decoded ∧ E.verify point message decoded = .ok ()

end EllipticLibraries
end StogasVerifier.Sigstore
