import StogasVerifier.Evidence.Report
import StogasVerifier.Lib.Json

/-! Sigstore's TUF roots (`tuf.rs`): metadata files, the keys and roles of a root,
the thresholds of its signatures, and the move from a trusted root to the newest. -/

namespace StogasVerifier.Tuf
open Lib
open Sigstore (Bytes)
open Evidence (hexDecode)

/-- What the TUF checks take from other libraries. -/
structure Libraries extends Sigstore.Libraries where
  /-- A parsed value as a tree. -/
  tree : Value → Json
  parseRfc3339 : String → Option Int
  /-- The largest `usize` of the target. -/
  usizeMax : Nat

def roles : List String := ["root", "targets", "snapshot", "timestamp"]

def bytesOf (text : String) : Bytes := text.toUTF8.toList

def writeString (text : String) : Bytes :=
  [34] ++ ((bytesOf text).flatMap fun byte => if byte = 34 ∨ byte = 92 then [92, byte] else [byte]) ++ [34]

mutual
/-- The canonical JSON that TUF signs: sorted keys, no whitespace, integers only,
and only quotation marks and backslashes escaped in strings. -/
def writeCanonical : Json → Except String Bytes
  | .null => .ok (bytesOf "null")
  | .bool value => .ok (bytesOf (if value then "true" else "false"))
  | .number (.posInt value) => .ok (bytesOf (toString value.toNat))
  | .number (.negInt value) => .ok (bytesOf (toString value))
  | .number (.float _) => .error "fractional numbers have no canonical form"
  | .string text => .ok (writeString text)
  | .array items => do
    let items ← (writeItems items).mapM fun item => item
    return [91] ++ [44].intercalate items ++ [93]
  | .object entries => do
    let sorted := (writeEntries entries).mergeSort fun left right => decide (left.1 ≤ right.1)
    let entries ← sorted.mapM fun entry => do return writeString entry.1 ++ [58] ++ (← entry.2)
    return [123] ++ [44].intercalate entries ++ [125]

def writeItems : List Json → List (Except String Bytes)
  | [] => []
  | item :: items => writeCanonical item :: writeItems items

/-- What the item of each member is written as. -/
def writeEntries : List (String × Json) → List (String × Except String Bytes)
  | [] => []
  | (key, item) :: entries => (key, writeCanonical item) :: writeEntries entries
end

structure Metadata where
  signed : Json
  version : Nat
  expires : Int
  canonical : Bytes
  signatures : List (String × Bytes)

namespace Metadata

def invalid (kind reason : String) : String := s!"invalid Sigstore {kind} metadata: {reason}"

/-- The body of the loop over the signatures. -/
def addSignature (kind : String) (signatures : List (String × Bytes)) (entry : Json) : Except String (List (String × Bytes)) := do
  let keyid ← required (entry.member "keyid").asStr (invalid kind "malformed signature")
  let signature ← required (entry.member "sig").asStr (invalid kind "malformed signature")
  let signature ← required (hexDecode signature) (invalid kind "malformed signature")
  rejectIf (keyid ∈ signatures.map Prod.fst) (invalid kind "duplicate signature key id")
  return signatures ++ [(keyid, signature)]

def parse (L : Libraries) (bytes : Bytes) (kind : String) : Except String Metadata := do
  let value ← (L.strictJson bytes).mapError (invalid kind)
  let value := L.tree value
  let signed ← required ((value.get "signed").filter Json.isObject) (invalid kind "missing signed object")
  rejectIf ((signed.member "_type").asStr ≠ some kind) (invalid kind "wrong metadata type")
  rejectIf (¬ (signed.member "spec_version").asStr.any (·.startsWith "1."))
    (invalid kind "unsupported TUF specification version")
  let version ← required ((signed.member "version").asU64.filter (0 < ·)) (invalid kind "invalid version")
  let expires ← required ((signed.member "expires").asStr.bind L.parseRfc3339) (invalid kind "invalid expiry")
  let entries ← required (value.member "signatures").asArray (invalid kind "missing signatures")
  let signatures ← entries.foldlM (addSignature kind) []
  let canonical ← (writeCanonical signed).mapError (invalid kind)
  return { signed, version, expires, canonical, signatures }

end Metadata

structure Role where
  keyids : List String
  threshold : Nat

structure Root where
  version : Nat
  expires : Int
  /-- Supported keys by key ID, as `SubjectPublicKeyInfo` DER. -/
  keys : List (String × Bytes)
  roles : List (String × Role)

namespace Root
variable (L : Libraries)

def supported (key : Json) : Bool :=
  (key.member "keytype").asStr = some "ecdsa" && (key.member "scheme").asStr = some "ecdsa-sha2-nistp256"

def parseKey (entry : String × Json) : Except String (String × Bytes) := do
  let pem := ((entry.2.member "keyval").member "public").asStr.bind fun text => L.parsePem (bytesOf text)
  let keyid := entry.1
  let (_, contents) ← required (pem.filter fun pem => pem.1 = "PUBLIC KEY") s!"invalid Sigstore root key {keyid}"
  return (keyid, contents)

def parseRole (signed : Json) (name : String) : Except String (String × Role) := do
  let role := (signed.member "roles").member name
  let items ← required (role.member "keyids").asArray s!"Sigstore root lacks the {name} role"
  let keyids ← required (items.mapM Json.asStr) s!"invalid Sigstore {name} key ids"
  rejectIf (¬ keyids.Nodup) s!"duplicate Sigstore {name} key id"
  let threshold ← required ((role.member "threshold").asU64.filter fun threshold => threshold ≤ L.usizeMax ∧ 0 < threshold)
    s!"invalid Sigstore {name} threshold"
  return (name, ⟨keyids, threshold⟩)

def parse (metadata : Metadata) : Except String Root := do
  let entries ← required (metadata.signed.member "keys").asObject "Sigstore root lists no keys"
  let keys ← (entries.filter fun entry => supported entry.2).mapM (parseKey L)
  let roles ← Tuf.roles.mapM (parseRole L metadata.signed)
  return ⟨metadata.version, metadata.expires, keys, roles⟩

def signer (root : Root) (metadata : Metadata) (keyid : String) : Option Bytes :=
  match root.keys.lookup keyid, metadata.signatures.lookup keyid with
  | some key, some signature =>
    match L.verifySpki key .ecdsaP256Sha256 metadata.canonical signature with
    | .ok () => some key
    | .error _ => none
  | _, _ => none

def verify (root : Root) (metadata : Metadata) : Except String Unit := do
  let name := (metadata.signed.member "_type").asStr.getD ""
  let role ← required (root.roles.lookup name) s!"no Sigstore role signs {name} metadata"
  let signers := (role.keyids.filterMap (root.signer L metadata)).dedup
  rejectIf (signers.length < role.threshold) s!"Sigstore {name} metadata lacks a threshold of valid signatures"

/-- The body of the loop of `newest_root`. -/
def advance (current : Root) (bytes : Bytes) : Except String Root := do
  let metadata ← Metadata.parse L bytes "root"
  let next := if current.version + 1 < 2 ^ 64 then some (current.version + 1) else none
  rejectIf (next ≠ some metadata.version) "Sigstore roots must continue the trusted root's version"
  current.verify L metadata
  let next ← parse L metadata
  next.verify L metadata
  return next

end Root

def newestRoot (L : Libraries) (trusted : Root) (files : List Bytes) : Except String Root := files.foldlM (Root.advance L) trusted

end StogasVerifier.Tuf
