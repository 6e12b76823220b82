import StogasVerifier.Attestation.Evidence
import StogasVerifier.Channel.Session
import StogasVerifier.Evidence.Report

/-! The setup of encrypted sessions (`channel/setup.rs`): the client's hello, the server's
response, and the client's completion. Secure randomness is an argument. -/

namespace StogasVerifier.Channel
open Lib
open Approvals (Environment)
open Attestation (SessionEvidence environmentByte)

/-- A suite with HPKE over X-Wing that only exports, and with SHA-2 whose digests are bytes. -/
structure SetupSuite extends Suite where
  symbolEq : DecidableEq Symbol
  hash256 : List Symbol → List.Vector Symbol 32
  hash512 : List Symbol → List.Vector Symbol 64
  /-- A secret as the array that it is. -/
  secret : List.Vector Symbol 32 → Secret
  PrivateKey : Type
  PublicKey : Type
  EncappedKey : Type
  Context : Type
  privateKeyFromBytes : List.Vector Symbol 32 → Option PrivateKey
  skToPk : PrivateKey → PublicKey
  publicKeyToBytes : PublicKey → List.Vector Symbol 1216
  publicKeyFromBytes : List Symbol → Option PublicKey
  encappedToBytes : EncappedKey → List.Vector Symbol 1120
  encappedFromBytes : List Symbol → Option EncappedKey
  /-- Whether X25519 with a fixed scalar rejects a public key. -/
  lowOrder : List Symbol → Bool
  /-- `setup_sender` with the randomness that it draws. -/
  setupSender : PublicKey → List Symbol → Secret → Option (EncappedKey × Context)
  setupReceiver : PrivateKey → EncappedKey → List Symbol → Option Context
  exportSecret : Context → List Symbol → Option (List.Vector Symbol 32)

namespace SetupSuite

abbrev Bytes (S : SetupSuite) : Type := List S.Symbol
abbrev Array32 (S : SetupSuite) : Type := List.Vector S.Symbol 32

instance (S : SetupSuite) : DecidableEq S.Symbol := S.symbolEq

abbrev hashing (S : SetupSuite) : Hashing 64 where
  toOctets := S.toOctets
  symbolEq := S.symbolEq
  hash := S.hash512

variable (S : SetupSuite)

def clientHeader : S.Bytes := S.text "STGS\x01\x01"
def serverHeader : S.Bytes := S.text "STGS\x01\x02"
def infoDomain : S.Bytes := S.text "stogas.e2ee.setup.v1\x00"
def transcriptDomain : S.Bytes := S.text "stogas.e2ee.transcript.v1\x00"
def rootDomain : S.Bytes := S.text "stogas.e2ee.root.v1\x00"
def confirmationDomain : S.Bytes := S.text "stogas.e2ee.confirmation.v1\x00"

end SetupSuite

def clientSetupBytes : Nat := 6 + 1 + 32 + 1216
def serverPrefixBytes : Nat := 6 + 32 + 4 + 1120 + publicKeyBytes
def maxServerSetupBytes : Nat := serverPrefixBytes + 32 + 4 + SessionEvidence.maxEvidenceBytes

variable {S : SetupSuite}

/-- HPKE binds the hello; the exports bind the rest as well. -/
def setupInfo (hello : S.Bytes) : S.Bytes := S.infoDomain ++ (S.hash256 hello).toList

def transcriptHash (hello serverPrefix : S.Bytes) (bootHash : S.Array32) : S.Array32 :=
  S.hash256 (S.transcriptDomain ++ hello ++ serverPrefix ++ bootHash.toList)

/-- What the server draws at random. -/
structure ServerEntropy (S : SetupSuite) where
  encapsulation : S.Secret
  sessionId : Except Error S.Array32
  initial : Except Error S.Secret

structure PreparedServerSetup (S : SetupSuite) where
  session : ServerSession S.toSuite
  sessionId : S.Array32
  transcript : S.Array32
  responsePrefix : S.Bytes

def prepareServerSetup (environment : Environment) (hello : S.Bytes) (idleSeconds : UInt32) (bootHash : S.Array32)
    (entropy : ServerEntropy S) : Except Error (PreparedServerSetup S) := do
  rejectIf (hello.length ≠ clientSetupBytes ∨ hello.take 6 ≠ S.clientHeader ∨ hello[6]? ≠ some (S.u8 (environmentByte environment)) ∨
    idleSeconds = 0) .record
  rejectIf (S.lowOrder (hello.drop (clientSetupBytes - 32))) .record
  let publicKey ← required (S.publicKeyFromBytes (hello.drop (6 + 1 + 32))) .record
  let (enc, sender) ← required (S.setupSender publicKey (setupInfo hello) entropy.encapsulation) .crypto
  let sessionId ← entropy.sessionId
  let initial := KeyPair.fromSeed (← entropy.initial)
  let serverPrefix := S.serverHeader ++ sessionId.toList ++ S.be 4 idleSeconds.toNat ++ (S.encappedToBytes enc).toList ++
    initial.publicKeys.encode
  let transcript := transcriptHash hello serverPrefix bootHash
  let root ← required (S.exportSecret sender (S.rootDomain ++ transcript.toList)) .crypto
  let confirmation ← required (S.exportSecret sender (S.confirmationDomain ++ transcript.toList)) .crypto
  return {
    session := ServerSession.new (S.secret root) sessionId.toList initial
    sessionId, transcript
    responsePrefix := serverPrefix ++ confirmation.toList }

inductive SetupError where
  | protocol (error : Error)
  | evidence (error : SessionEvidence.Error)
  | binding (error : Attestation.Error)
  | verification (error : Evidence.ReportError)
  deriving DecidableEq

structure SetupEvidence (S : SetupSuite) where
  serverPrefix : S.Bytes
  enc : S.Bytes
  confirmation : S.Bytes
  ratchetKey : S.Bytes
  sessionId : S.Bytes
  idleSeconds : Nat
  evidence : SessionEvidence S.hashing

def byteRange (bytes : S.Bytes) (start finish : Nat) : S.Bytes := (bytes.take finish).drop start

def SetupEvidence.parse (response : S.Bytes) : Except SetupError (SetupEvidence S) := do
  rejectIf (response.length < serverPrefixBytes + 36 ∨ maxServerSetupBytes < response.length ∨ response.take 6 ≠ S.serverHeader)
    (.protocol .record)
  let idleSeconds := S.number (byteRange response (6 + 32) (6 + 36))
  rejectIf (idleSeconds = 0) (.protocol .record)
  let length := S.number (byteRange response (serverPrefixBytes + 32) (serverPrefixBytes + 36))
  let payload := response.drop (serverPrefixBytes + 36)
  rejectIf (length ≠ payload.length) (.protocol .record)
  let evidence ← (@SessionEvidence.fromBytes S.hashing payload).mapError .evidence
  return {
    serverPrefix := response.take serverPrefixBytes
    enc := byteRange response (6 + 36) (serverPrefixBytes - publicKeyBytes)
    ratchetKey := byteRange response (serverPrefixBytes - publicKeyBytes) serverPrefixBytes
    confirmation := byteRange response serverPrefixBytes (serverPrefixBytes + 32)
    sessionId := byteRange response 6 (6 + 32)
    idleSeconds, evidence }

/-- What the client draws at random. -/
structure ClientEntropy (S : SetupSuite) where
  seed : Except Error S.Array32
  challenge : Except Error S.Array32

structure PendingSetup (S : SetupSuite) where
  privateKey : Option S.PrivateKey
  hello : S.Bytes
  environment : Environment

namespace PendingSetup

def new (environment : Environment) (entropy : ClientEntropy S) : Except SetupError (PendingSetup S) := do
  let seed ← entropy.seed.mapError .protocol
  let privateKey ← required (S.privateKeyFromBytes seed) (.protocol .crypto)
  let challenge ← entropy.challenge.mapError .protocol
  return {
    privateKey := some privateKey
    hello := S.clientHeader ++ [S.u8 (environmentByte environment)] ++ challenge.toList ++ (S.publicKeyToBytes (S.skToPk privateKey)).toList
    environment }

def transcript (pending : PendingSetup S) (parsed : SetupEvidence S) : S.Array32 :=
  transcriptHash pending.hello parsed.serverPrefix (S.hash256 parsed.evidence.bootDocument)

def reportData (report : S.Bytes) : Option (List.Vector S.Symbol 64) :=
  if sized : (byteRange report 0x50 0x90).length = 64 then some ⟨byteRange report 0x50 0x90, sized⟩ else none

def inspect (pending : PendingSetup S) (response : S.Bytes) : Except SetupError (SetupEvidence S) := do
  rejectIf pending.privateKey.isNone (.protocol .closed)
  let parsed ← SetupEvidence.parse response
  let reportData ← required (reportData parsed.evidence.report) (.protocol .record)
  (parsed.evidence.proof.verify
    (.e2eeSession pending.environment (S.hash256 parsed.evidence.bootDocument) (pending.transcript parsed)) reportData).mapError .binding
  return parsed

def establish (pending : PendingSetup S) (parsed : SetupEvidence S) (privateKey : S.PrivateKey) (enc : S.EncappedKey) :
    Except Error (ClientSession S.toSuite × Shared S.toSuite) := do
  let recipient ← required (S.setupReceiver privateKey enc (setupInfo pending.hello)) .crypto
  let transcript := pending.transcript parsed
  let confirmation ← required (S.exportSecret recipient (S.confirmationDomain ++ transcript.toList)) .crypto
  rejectIf (confirmation.toList ≠ parsed.confirmation) .authentication
  let root ← required (S.exportSecret recipient (S.rootDomain ++ transcript.toList)) .crypto
  ClientSession.new (S.secret root) parsed.sessionId parsed.idleSeconds (PublicKeys.decode parsed.ratchetKey)

def finish (pending : PendingSetup S) (parsed : SetupEvidence S) :
    Except SetupError (ClientSession S.toSuite × Shared S.toSuite) × PendingSetup S :=
  match S.encappedFromBytes parsed.enc with
  | none => (.error (.protocol .crypto), pending)
  | some enc =>
    match pending.privateKey with
    | none => (.error (.protocol .closed), pending)
    | some privateKey => ((pending.establish parsed privateKey enc).mapError .protocol, { pending with privateKey := none })

def complete (pending : PendingSetup S) (response : S.Bytes) (verify : SessionEvidence S.hashing → Except Evidence.ReportError Unit) :
    Except SetupError (ClientSession S.toSuite × Shared S.toSuite) × PendingSetup S :=
  let inspected : Except SetupError (SetupEvidence S) := do
    let parsed ← pending.inspect response
    (verify parsed.evidence).mapError .verification
    return parsed
  match inspected with
  | .error error => (.error error, pending)
  | .ok parsed => pending.finish parsed

end PendingSetup
end StogasVerifier.Channel
