import StogasVerifier.Lib.OrderedMap
import StogasVerifier.Approvals.Keys
import StogasVerifier.Sigstore.Attestation
import StogasVerifier.Evidence.Report

/-! Vendor collateral and the revocations that were learned about it
(`evidence/collateral.rs`, `evidence/amd.rs`). Revocations sit behind a mutex in the
source; a poisoned lock is not modelled. -/

namespace StogasVerifier.Evidence
open Lib Std
open Sigstore (Bytes isWhitespace)

inductive Error where
  | tooLarge
  | invalid (reason : String)
  | approval (error : Approvals.Error)
  | collateral (reason : String)
  | missingCollateral
  | collateralExpired
  | revoked
  | crlOrder
  | attestation (reason : String)
  deriving DecidableEq, Repr

structure Validity where
  notBeforeUnixMs : Int
  notAfterUnixMs : Int
  deriving DecidableEq, Repr

namespace Validity

def at_ (validity : Validity) (nowUnixMs : Int) : Except Error Validity :=
  if nowUnixMs < validity.notBeforeUnixMs ∨ validity.notAfterUnixMs ≤ nowUnixMs then .error .collateralExpired
  else .ok validity

def intersect (validity other : Validity) : Validity where
  notBeforeUnixMs := max validity.notBeforeUnixMs other.notBeforeUnixMs
  notAfterUnixMs := min validity.notAfterUnixMs other.notAfterUnixMs

end Validity

/-- An issuer is named by the hexadecimal SHA-384 of its key. -/
abbrev IssuerId := String

structure Crl where
  /-- The source keeps 20 big-endian bytes, which compare as the number does. -/
  number : Nat
  contents : List.Vector UInt8 32
  der : Bytes
  validity : Validity
  revoked : List Bytes
  deriving DecidableEq

structure Issuer where
  certificate : Bytes
  latest : Option Crl
  conflicting : Bool
  deriving DecidableEq

/-- An authenticated CRL is retained, unless it is older or back-dated. -/
def Issuer.learn (issuer : Issuer) (crl : Crl) : Except Error Unit × Issuer :=
  match issuer.latest with
  | none => (.ok (), { issuer with latest := some crl, conflicting := false })
  | some old =>
    if crl.number < old.number then (.error .crlOrder, issuer)
    else if crl.number = old.number then
      let conflicting := issuer.conflicting || crl.contents ≠ old.contents
      (rejectIf conflicting .crlOrder, { issuer with conflicting })
    else if crl.validity.notBeforeUnixMs < old.validity.notBeforeUnixMs then (.error .crlOrder, issuer)
    else (.ok (), { issuer with latest := some crl, conflicting := false })

abbrev Revocations := TreeMap IssuerId Issuer compare

def Revocations.validity (issuers : Revocations) (issuerId : IssuerId) (serial : Bytes) (certificates : Validity) (now : Int) :
    Except Error Validity := do
  let issuer ← required issuers[issuerId]? .missingCollateral
  let crl ← required issuer.latest .missingCollateral
  rejectIf issuer.conflicting .crlOrder
  rejectIf (serial ∈ crl.revoked) .revoked
  (certificates.intersect crl.validity).at_ now

structure Platform where
  digest : String
  issuer : IssuerId
  askSerial : Bytes
  certificates : Validity
  vcek : Bytes
  deriving DecidableEq, Repr

abbrev Store := TreeMap String Platform compare

def trim (text : String) : String :=
  String.ofList ((text.toList.dropWhile isWhitespace).reverse.dropWhile isWhitespace).reverse

variable (toLowercase : String → String)

def amdPlatformKey (chipId reportedTcb : String) : String := toLowercase (trim chipId) ++ ":" ++ toLowercase (trim reportedTcb)

namespace Store

def validity (store : Store) (issuers : Revocations) (chip tcb : String) (now : Int) : Except Error Validity := do
  let platform ← required store[amdPlatformKey toLowercase chip tcb]? .missingCollateral
  issuers.validity platform.issuer platform.askSerial platform.certificates now

def vcek (store : Store) (chip tcb : String) : Except Error Bytes :=
  required (store[amdPlatformKey toLowercase chip tcb]?.map Platform.vcek) .missingCollateral

end Store
end StogasVerifier.Evidence
