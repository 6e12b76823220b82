import StogasVerifier.Receipt.Signed

/-! The documents of the gateway: its boot document and its receipts (`gateway.rs`). -/

namespace StogasVerifier.Gateway
open Lib
open Sigstore (Bytes hexEncode)

inductive Error where
  | input (reason : String)
  | authentication
  | signing (error : String)
  deriving DecidableEq, Repr

/-- The keys of one boot. A signature need not be the same each time. -/
structure NodeKeys where
  signingPublicKey : List.Vector UInt8 Receipt.signingPublicKeyBytes
  sign : Bytes → Except String (List.Vector UInt8 Receipt.signatureBytes)
  recipientPublic : String

namespace NodeKeys

def signReceipt (L : Receipt.Libraries) (keys : NodeKeys) (bootSha256 request response : Receipt.Digest) (metadata : Bytes) :
    Except Error Receipt.ContentReceipt := do
  rejectIf (Receipt.maxMetadataBytes < metadata.length) (.input "receipt metadata size")
  let value ← (L.strictJson metadata).mapError fun _ => .input "receipt metadata"
  let digest ← (L.metadataDigest value).mapError fun _ => .input "receipt metadata"
  let signature ← (keys.sign (Receipt.message request response digest)).mapError .signing
  return {
    schema := Receipt.schema
    bootSha256 := hexEncode bootSha256.toList
    requestSha256 := hexEncode request.toList
    responseSha256 := hexEncode response.toList
    signature := L.urlSafeEncode signature.toList }

def bootReportData (L : Evidence.Libraries) (keys : NodeKeys) (environment : Approvals.Environment) (tlsSpkiSha256 challenge : Receipt.Digest) :
    Evidence.BootReportData where
  schema := Evidence.reportDataSchema
  environment := environment
  signingPublicKey := L.urlSafeEncode keys.signingPublicKey.toList
  hpkePublicKey := keys.recipientPublic
  tlsSpkiSha256 := hexEncode tlsSpkiSha256.toList
  registrationChallenge := hexEncode challenge.toList

def reportData (L : Evidence.Libraries) (keys : NodeKeys) (environment : Approvals.Environment) (tlsSpkiSha256 challenge : Receipt.Digest) :
    Except Error Bytes :=
  (L.commitment (keys.bootReportData L environment tlsSpkiSha256 challenge)).mapError fun _ => .input "boot report data"

/-- The document of a boot, for a quote over `reportData` of the same inputs. -/
def bootDocument (L : Evidence.Libraries) (keys : NodeKeys) (environment : Approvals.Environment) (tlsSpkiSha256 challenge : Receipt.Digest)
    (report : Bytes) (gatewayReleaseId : Receipt.Digest) : Except Error Bytes := do
  let data := keys.bootReportData L environment tlsSpkiSha256 challenge
  let commitment ← (L.commitment data).mapError fun _ => .input "boot report data"
  rejectIf (report.length ≠ Evidence.reportBytes ∨ Evidence.slice report 0x50 0x90 ≠ commitment) (.input "boot quote commits other report data")
  let value ← (L.recordValue {
    schema := Evidence.bootSchema
    gatewayReleaseId := hexEncode gatewayReleaseId.toList
    report := L.urlSafeEncode report
    reportData := data }).mapError fun _ => .input "boot document"
  let canonical ← (L.canonicalJson value).mapError fun _ => .input "boot document"
  return canonical.toUTF8.toList

end NodeKeys
end StogasVerifier.Gateway
