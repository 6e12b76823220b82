import StogasVerifier.Evidence.Collateral
import StogasVerifier.Receipt.Signed

/-! Responses of the gateway and their optional content receipts (`receipt_http.rs`). What
a read of the network gives is an argument. -/

namespace StogasVerifier.Sdk
open Lib
open Sigstore (Bytes)

/-- A body that is still to be read, one that was read in full, and one whose receipt
is checked while it is read. -/
inductive Body where
  | incoming
  | full (bytes : Bytes)
  | receipted (request : Receipt.Digest)

/-- A header value is absent if it is not visible text. -/
abbrev Headers := List (String × Option String)

structure HttpResponse where
  status : Nat
  headers : Headers
  body : Body
  /-- The `Refused` extension. -/
  refused : Bool

/-- `is_success` -/
def HttpResponse.isSuccess (response : HttpResponse) : Bool := 200 ≤ response.status ∧ response.status < 300

/-- Whether the first media type of a value is that of server-sent events. -/
def isEventStream (value : String) : Bool :=
  (Evidence.trim (String.ofList (value.toList.takeWhile (· ≠ ';')))).toList.map Char.toLower = "text/event-stream".toList

def Headers.text (headers : Headers) (name : String) : Option String := (headers.lookup name).join

def HttpResponse.streaming (response : HttpResponse) : Bool :=
  (Headers.text response.headers "content-type").any isEventStream

/-- The value of `Stogas-Metadata`, of which there is at most one: whether the caller
wants a receipt. -/
def requested {α : Type} [DecidableEq α] (version : α) : List α → Option Bool
  | [] => some false
  | [value] => if value = version then some true else none
  | _ => none

/-- What `to_bytes` gives before the deadline. -/
inductive ReadBody where
  | late | broken
  | bytes (bytes : Bytes)

namespace ReceiptHttp

inductive Error where
  | deadline | body
  | receipt (error : Receipt.Signed.Error)

variable (L : Receipt.Libraries)

/-- `verify_buffered` -/
def verifyBuffered (boot : Evidence.VerifiedBoot) (request : Receipt.Digest) (body : Bytes) :
    Except Receipt.Signed.Error Receipt.VerifiedMetadata := do
  let signed ← Receipt.Signed.buffered L request body
  signed.verify L boot

/-- A stream goes on to the caller, who reads it through the check. -/
def verify (response : HttpResponse) (boot : Evidence.VerifiedBoot) (request : Receipt.Digest) (read : ReadBody) :
    Except Error HttpResponse :=
  if ¬ response.isSuccess then .ok response
  else if response.streaming then .ok { response with body := .receipted request }
  else match read with
    | .late => .error .deadline
    | .broken => .error .body
    | .bytes bytes => do
      let _ ← (verifyBuffered L boot request bytes).mapError .receipt
      return { response with body := .full bytes }

end ReceiptHttp

/-- `read_refusal`, which reads at most 1024 bytes. -/
def readRefusal (response : HttpResponse) : ReadBody → Option HttpResponse
  | .bytes bytes => if bytes.length ≤ 1024 then some { response with body := .full bytes } else none
  | _ => none

end StogasVerifier.Sdk
