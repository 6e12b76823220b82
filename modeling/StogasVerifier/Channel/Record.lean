import StogasVerifier.Channel.Peer

/-! The record layer (`record.rs` and `record/keys.rs`): framing, ordering and
limits of one direction of one request. Record encryption takes its key from a
chain of its own, seeded with one message secret. -/

namespace StogasVerifier.Channel

def maxRecordBytes : Nat := 64 * 1024
def recordOverhead : Nat := 4 + 1 + 16
def maxRecordPlaintext : Nat := maxRecordBytes - recordOverhead
def maxRecords : Nat := 2 ^ 24
def maxRequestBody : Nat := 128 * 1024 * 1024
def maxResponseBody : Nat := 64 * 1024 * 1024

variable {S : Suite}

/-- The chain key of a direction, and its step to the next record key. -/
structure Keys (S : Suite) where
  chain : S.Secret

namespace Keys

def new (secret : S.Secret) (sessionId : S.Bytes) (number : Nat) (direction : Direction) : Keys S :=
  ⟨S.expandRecord secret
    (S.text "stogas.e2ee.record.v1\x00" ++ sessionId ++ S.be 8 number ++ [S.u8 direction.code]) 0⟩

def next (keys : Keys S) (sequence : Nat) : S.Secret × S.Bytes × Keys S :=
  let info := S.text "stogas.e2ee.record-key.v1\x00" ++ S.be 8 sequence
  (S.expandRecord keys.chain info 1, nonce S sequence, ⟨S.expandRecord keys.chain info 0⟩)

end Keys

inductive Phase where
  /-- Before the single metadata record; a response may first send keepalives. -/
  | metadata
  | body
  /-- After a short request data record; only completion may follow. -/
  | tail
  | finished
  | failed
  deriving DecidableEq

structure Records (S : Suite) where
  keys : Option (Keys S)
  header : Option S.Bytes
  sequence : Nat
  bodyBytes : Nat
  direction : Direction
  phase : Phase

/-- The complete encoded length announced by a four-byte length. -/
def recordSize (lengthBytes : S.Bytes) : Except Error Nat := do
  reject (lengthBytes.length ≠ 4) .record
  let value := S.number lengthBytes
  reject (value < recordOverhead ∨ maxRecordBytes < value) .record
  return value

def startHeader (encoded : S.Bytes) : Except Error S.Bytes := do
  reject (encoded.length < 6 + headerBytes + 17) .record
  let size ← recordSize (encoded.take 4)
  reject (size ≠ encoded.length) .record
  let length := S.number ((encoded.drop 4).take 2)
  reject (length ≠ headerBytes ∨ encoded.length < 6 + length + 17) .record
  return (encoded.drop 6).take length

/-- AES-GCM decryption of a ciphertext with its tag (`decrypt_now`). -/
def decryptNow (key : S.Secret) (nonceBytes aad sealedBytes : S.Bytes) : Except Error S.Bytes :=
  if sealedBytes.length < 16 then .error .record
  else match S.decrypt key nonceBytes aad sealedBytes with
    | some plaintext => .ok plaintext
    | none => .error .authentication

/-- AES-GCM encryption with the tag appended (`encrypt_now`). -/
def encryptNow (key : S.Secret) (nonceBytes aad plaintext : S.Bytes) : Except Error S.Bytes :=
  match S.encrypt key nonceBytes aad plaintext with
  | some bytes => .ok bytes
  | none => .error .crypto

namespace Records

def fromKeys (keys : Keys S) (direction : Direction) (header : Option S.Bytes) : Records S :=
  ⟨some keys, header, 0, 0, direction, .metadata⟩

def new (secret : S.Secret) (sessionId : S.Bytes) (number : Nat) (direction : Direction) (header : S.Bytes) : Records S :=
  fromKeys (Keys.new secret sessionId number direction) direction (some header)

def nextKey (records : Records S) : Except Error (S.Secret × S.Bytes × Records S) :=
  match records.keys with
  | none => .error .closed
  | some keys =>
    let (key, nonceBytes, keys) := keys.next records.sequence
    .ok (key, nonceBytes, { records with keys := some keys })

def close (records : Records S) : Records S := { records with phase := .failed, keys := none }

def maxBody : Direction → Nat
  | .request => maxRequestBody
  | .response => maxResponseBody

/-- Whether a record of this kind and content size may come next. -/
def check (records : Records S) (kind : Kind) (size : Nat) : Except Error Unit := do
  reject (records.phase = .finished ∨ records.phase = .failed) .closed
  reject (maxRecords ≤ records.sequence ∨ maxRecordPlaintext < size) .limit
  match kind with
  | .metadata => reject (records.phase ≠ .metadata ∨ size = 0) .record
  | .data => do
    reject (records.phase ≠ .body ∨ size = 0) .record
    reject (maxBody records.direction < records.bodyBytes ∨ maxBody records.direction - records.bodyBytes < size) .limit
  | .finished => reject (records.phase = .metadata ∨ size ≠ 0) .record
  | .keepalive => reject (records.direction ≠ .response ∨ size ≠ 0) .record

def advance (records : Records S) (kind : Kind) (size : Nat) : Records S :=
  let records := { records with header := none, sequence := records.sequence + 1 }
  match kind with
  | .metadata => { records with phase := .body }
  | .data => { records with
      bodyBytes := records.bodyBytes + size
      phase := if records.direction = .request ∧ size < maxRecordPlaintext then .tail else records.phase }
  | .finished => { records with phase := .finished, keys := none }
  | .keepalive => records

def encode (records : Records S) (kind : Kind) (content : S.Bytes) : Except Error S.Bytes := do
  records.check kind content.length
  let header ← (if records.sequence = 0 then
      match records.header with
      | none => .error .closed
      | some header => .ok (some header)
    else .ok none)
  let length := recordOverhead + content.length + header.elim 0 fun header => 2 + header.length
  reject (maxRecordBytes < length) .limit
  reject (header.elim 0 List.length ≥ 2 ^ 16) .limit
  return S.be 4 length ++ (header.elim [] fun header => S.be 2 header.length ++ header) ++ [S.u8 kind.code] ++ content

/-- How many bytes of a frame are authenticated but not encrypted. -/
def prefixSize (records : Records S) (encoded : S.Bytes) : Except Error Nat :=
  if records.sequence = 0 then do
    reject (encoded.length < 6) .record
    let length := S.number ((encoded.drop 4).take 2)
    reject (length ≠ headerBytes ∨ encoded.length < 6 + length + 1) .record
    return 6 + length
  else .ok 4

def checkEncoded (records : Records S) (encoded : S.Bytes) : Except Error Nat := do
  reject (records.phase = .finished ∨ records.phase = .failed) .closed
  reject (maxRecords ≤ records.sequence) .limit
  reject (encoded.length < recordOverhead) .record
  let size ← recordSize (encoded.take 4)
  reject (size ≠ encoded.length) .record
  let offset ← records.prefixSize encoded
  reject (encoded.length < offset + 17) .record
  return offset

def acceptOpen (records : Records S) (plaintext : S.Bytes) : Except Error (Records S × Kind × S.Bytes) :=
  match plaintext with
  | [] => .error .record
  | first :: content => do
    let kind ← Kind.tryFrom (S.value first)
    records.check kind content.length
    return (records.advance kind content.length, kind, content)

def authenticateStart (secret : S.Secret) (sessionId : S.Bytes) (number : Nat) (direction : Direction) (encoded : S.Bytes) :
    Except Error (Records S × Kind × S.Bytes) := do
  let header ← startHeader encoded
  let offset := header.length + 6
  let (key, nonceBytes, records) ← (fromKeys (Keys.new secret sessionId number direction) direction none).nextKey
  let plaintext ← decryptNow key nonceBytes (encoded.take offset) (encoded.drop offset)
  records.acceptOpen plaintext

/-- The body of `seal`, before its failure would close the direction. -/
def sealing (records : Records S) (kind : Kind) (content : S.Bytes) : Except Error (S.Bytes × Records S) := do
  let encoded ← records.encode kind content
  let offset ← records.prefixSize encoded
  let (key, nonceBytes, records) ← records.nextKey
  let bytes ← encryptNow key nonceBytes (encoded.take offset) (encoded.drop offset)
  return (encoded.take offset ++ bytes, records.advance kind content.length)

def sealRecord (records : Records S) (kind : Kind) (content : S.Bytes) : Except Error S.Bytes × Records S :=
  match records.sealing kind content with
  | .ok (bytes, records) => (.ok bytes, records)
  | .error error => (.error error, records.close)

/-- The body of `open`, before its failure would close the direction. -/
def opening (records : Records S) (encoded : S.Bytes) : Except Error ((Kind × S.Bytes) × Records S) := do
  let offset ← records.checkEncoded encoded
  let (key, nonceBytes, records) ← records.nextKey
  let plaintext ← decryptNow key nonceBytes (encoded.take offset) (encoded.drop offset)
  let (records, kind, content) ← records.acceptOpen plaintext
  return ((kind, content), records)

def openRecord (records : Records S) (encoded : S.Bytes) : Except Error (Kind × S.Bytes) × Records S :=
  match records.opening encoded with
  | .ok (output, records) => (.ok output, records)
  | .error error => (.error error, records.close)

def complete (records : Records S) : Except Error Unit × Records S :=
  if records.phase = .finished then (.ok (), records) else (.error .truncated, records.close)

end Records
end StogasVerifier.Channel
