import StogasVerifier.Attestation.Batch
import StogasVerifier.Lib.Framing

/-! The framing of session evidence (`attestation/evidence.rs`) and of the certificate
extension that carries it (`attestation/certificate.rs`). -/

namespace StogasVerifier.Attestation
open Lib

variable {H : Hashing 64}

namespace SessionEvidence

def maxEvidenceBytes : Nat := 58 * 1024
def reportBytes : Nat := 1184

inductive Error where
  | tooLarge | framing
  | proof (error : Attestation.Error)
  /-- An index out of range. -/
  | panic
  deriving DecidableEq

end SessionEvidence

structure SessionEvidence (H : Hashing 64) where
  report : H.Bytes
  proof : BatchProof H
  bootDocument : H.Bytes
  bootInclusion : H.Bytes

namespace SessionEvidence

def take (input : H.Bytes) (length : Nat) : Except Error (H.Bytes × H.Bytes) := required (splitAtChecked input length) .framing

/-- `take_field` -/
def takeField (input : H.Bytes) : Except Error (H.Bytes × H.Bytes) := do
  let (front, input) ← take input 4
  rejectIf (ofBe H.toOctets front = 0) .framing
  take input (ofBe H.toOctets front)

def fromBytes (payload : H.Bytes) : Except Error (SessionEvidence H) := do
  rejectIf (maxEvidenceBytes < payload.length) .tooLarge
  let (report, payload) ← take payload reportBytes
  let (proofLen, payload) ← take payload 2
  let high ← required proofLen[0]? .panic
  let low ← required proofLen[1]? .panic
  let (proof, payload) ← take payload (ofBe H.toOctets [high, low])
  let proof ← (BatchProof.fromBytes proof).mapError .proof
  let (bootDocument, payload) ← takeField payload
  let (bootInclusion, payload) ← takeField payload
  rejectIf (payload ≠ []) .framing
  return { report, proof, bootDocument, bootInclusion }

def encodeField (field : H.Bytes) : Except Error H.Bytes := do
  rejectIf (2 ^ 32 ≤ field.length) .framing
  return toBe H.toOctets 4 field.length ++ field

def encode (report : H.Bytes) (proof : BatchProof H) (bootDocument bootInclusion : H.Bytes) : Except Error H.Bytes := do
  let proof := proof.toBytes
  rejectIf (report.length ≠ reportBytes ∨ bootDocument = [] ∨ bootInclusion = []) .framing
  rejectIf (maxEvidenceBytes < reportBytes + 2 + proof.length + 4 + bootDocument.length + 4 + bootInclusion.length) .tooLarge
  rejectIf (2 ^ 16 ≤ proof.length) .framing
  let first ← encodeField bootDocument
  let second ← encodeField bootInclusion
  return report ++ toBe H.toOctets 2 proof.length ++ proof ++ first ++ second

end SessionEvidence

namespace Certificate

def mediaType (H : Hashing 64) : H.Bytes := text H.toOctets "application/vnd.stogas.native-tls.v1"

inductive Error where
  | evidence (error : SessionEvidence.Error)
  | certificate | extension | tooLarge | framing
  | proof (error : Attestation.Error)
  /-- A slice or an index out of range. -/
  | panic
  deriving DecidableEq

/-- `cmw[..3]` of this profile. -/
def recordHead (H : Hashing 64) : H.Bytes := [H.u8 0x82, H.u8 0x78, H.u8 (mediaType H).length]

/-- `u8::try_from` of the length of the media type. -/
def headByte (H : Hashing 64) : Except Error H.Bytes := do
  rejectIf (256 ≤ (mediaType H).length) .framing
  return recordHead H

/-- The condition on the front of the record, left to right. -/
def rejectsFront (cmw : H.Bytes) : Except Error Bool := do
  let prefixLen := 3 + (mediaType H).length + 3
  if cmw.length < prefixLen then return true
  let head ← required (slice cmw 0 3) .panic
  if head ≠ (← headByte H) then return true
  let media ← required (slice cmw 3 (3 + (mediaType H).length)) .panic
  if media ≠ mediaType H then return true
  let tag ← required cmw[3 + (mediaType H).length]? .panic
  return tag ≠ H.u8 0x59

/-- The part of `from_extension` on the record. -/
def fromRecord (cmw : H.Bytes) : Except Error (SessionEvidence H) := do
  let prefixLen := 3 + (mediaType H).length + 3
  let rejects ← rejectsFront cmw
  rejectIf rejects .extension
  let high ← required cmw[prefixLen - 2]? .panic
  let low ← required cmw[prefixLen - 1]? .panic
  let size := ofBe H.toOctets [high, low]
  rejectIf (SessionEvidence.maxEvidenceBytes < size) .tooLarge
  rejectIf (cmw.length < prefixLen) .panic
  rejectIf (size ≠ cmw.length - prefixLen) .framing
  let payload ← required (slice cmw prefixLen cmw.length) .panic
  (SessionEvidence.fromBytes payload).mapError .evidence

def fromExtension (encoded : H.Bytes) : Except Error (SessionEvidence H) := do
  rejectIf (SessionEvidence.maxEvidenceBytes + (mediaType H).length + 10 < encoded.length) .tooLarge
  rejectIf (encoded.length < 4) .extension
  let tag ← required (slice encoded 0 2) .panic
  rejectIf (tag ≠ [H.u8 0x04, H.u8 0x82]) .extension
  let high ← required encoded[2]? .panic
  let low ← required encoded[3]? .panic
  rejectIf (ofBe H.toOctets [high, low] ≠ encoded.length - 4) .extension
  let cmw ← required (slice encoded 4 encoded.length) .panic
  fromRecord cmw

/-- `u16::try_from` of a length, in two bytes. -/
def size (length : Nat) : Except Error H.Bytes := do
  rejectIf (2 ^ 16 ≤ length) .tooLarge
  return toBe H.toOctets 2 length

def extension (payload : H.Bytes) : Except Error H.Bytes := do
  rejectIf (SessionEvidence.maxEvidenceBytes < payload.length) .tooLarge
  let head ← headByte H
  let payloadSize ← size payload.length
  let cmw := head ++ mediaType H ++ [H.u8 0x59] ++ payloadSize ++ payload
  let cmwSize ← size cmw.length
  return [H.u8 0x04, H.u8 0x82] ++ cmwSize ++ cmw

end Certificate
end StogasVerifier.Attestation
