import StogasVerifier.Sdk.EncryptedClient

/-! What the local proxy reports of a failed request (`Failure` of `proxy.rs`). -/

namespace StogasVerifier.Sdk.Proxy

inductive Phase where
  | request | setup | response
  deriving DecidableEq

/-- Whether the gateway may have executed the request. -/
inductive Submission where
  | notSent | executionUnknown
  deriving DecidableEq

structure Failure where
  status : Nat
  phase : Phase
  submission : Submission
  deriving DecidableEq

namespace Failure

/-- A failed exchange with the gateway, by whether the request was submitted. -/
def exchange (submitted : Bool) : Failure where
  status := 502
  phase := if submitted then .response else .setup
  submission := if submitted then .executionUnknown else .notSent

def native (error : NativeHttp.Error) : Failure :=
  exchange <| match error with
    | .receipt _ => true
    | .pool .responseDeadline => true
    | .pool (.request notSent) => !notSent
    | _ => false

def encrypted (error : EncryptedClient.Error) : Failure :=
  exchange <| match error with
    | .receipt _ => true
    | .http .deadline => true
    | .http .http => true
    | .http .response => true
    | .http .metadata => true
    | .http (.record _) => true
    | _ => false

end Failure
end StogasVerifier.Sdk.Proxy
