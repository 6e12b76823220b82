import StogasVerifier.Evidence.Session
import StogasVerifier.Evidence.Verifier

/-! What evidence acquisition gives to the channels that depend on it
(`evidence_client.rs`, `prepare` of `native_http.rs`). -/

namespace StogasVerifier.Sdk
open Sigstore (Bytes)
open Evidence (Snapshot VerifiedSession)

inductive ClientError where
  | deadline | cooldown | delivery | http (status : Nat) | tooLarge | missingRepresentation
  | verification (error : Evidence.Error) | state

/-- What comes back from an origin: nothing, or a status with a body in chunks that
may break off. -/
inductive Response where
  | failed
  | answered (status : Nat) (contentLength : Option Nat) (etag : Option String) (chunks : List Bytes) (complete : Bool)

structure RequestContext (L : Evidence.Libraries) where
  snapshot : Snapshot L
  session : VerifiedSession

/-- The errors of `prepare`. -/
inductive PrepareError where
  | evidence (error : ClientError)
  | recovery (verification : Evidence.Error) (acquisition : ClientError)

end StogasVerifier.Sdk
