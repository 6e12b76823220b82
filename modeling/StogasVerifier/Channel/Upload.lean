import StogasVerifier.Channel.Session

/-! The request side of the encrypted HTTP client (`encrypted_http.rs`): the
metadata of a request, and the upload that carries it with the body. -/

namespace StogasVerifier.Channel

def maxMetadataBytes : Nat := 16 * 1024
def maxRequestBytes : Nat := 128 * 1024 * 1024

variable {S : Suite}

/-- The errors of `send` before the response. -/
inductive SendError where
  | request | notSentDeadline | deadline
  | record (error : Error)

/-- A request of the application. The value of a header is absent if it is not
visible text. -/
structure HttpRequest (S : Suite) where
  method : String
  path : String
  query : Option String
  headers : List (String × Option String)
  body : S.Bytes

namespace HttpRequest

def postPaths : List String :=
  ["/v1/chat/completions", "/v1/responses", "/v1/policies/validate", "/v1/policies/simulate"]

def hopHeaders : List String :=
  ["host", "connection", "transfer-encoding", "te", "trailer", "upgrade", "expect", "stogas-node-id", "forwarded",
    "x-forwarded-for", "x-forwarded-host", "x-forwarded-proto"]

def collectHeaders : List (String × Option String) → List (String × String) → Except SendError (List (String × String))
  | [], headers => .ok headers
  | (name, value) :: rest, headers =>
    if name = "content-length" then collectHeaders rest headers
    else if name ∈ hopHeaders ∨ name ∈ headers.map Prod.fst then .error .request
    else match value with
      | none => .error .request
      | some text => collectHeaders rest (headers ++ [(name, text)])

def quote (text : String) : String :=
  "\"" ++ String.join (text.toList.map fun character =>
    if character = '"' then "\\\"" else if character = '\\' then "\\\\" else if character = '\t' then "\\t"
    else String.singleton character) ++ "\""

def json (request : HttpRequest S) (headers : List (String × String)) : String :=
  "\x7b\"method\":" ++ quote request.method ++ ",\"path\":" ++ quote request.path ++ ",\"headers\":\x7b" ++
    ",".intercalate (headers.map fun header => quote header.1 ++ ":" ++ quote header.2) ++ "\x7d\x7d"

/-- `request_metadata`. -/
def metadata (request : HttpRequest S) : Except SendError S.Bytes :=
  if request.query.isSome ∨ maxRequestBytes < request.body.length ∨
      ¬ ((request.method = "POST" ∧ request.path ∈ postPaths) ∨
        (request.method = "DELETE" ∧ request.path = "/v1/session" ∧ request.body = [])) then .error .request
  else match collectHeaders request.headers [] with
    | .error error => .error error
    | .ok headers =>
      let bytes := S.text (request.json headers)
      if maxMetadataBytes < bytes.length then .error .request else .ok bytes

end HttpRequest

def requestHeader (S : Suite) : S.Bytes := S.text "STGS\x01\x03"

def RequestEncoder.prefixBytes (encoder : RequestEncoder S) : S.Bytes :=
  requestHeader S ++ encoder.sessionId ++ S.be 8 encoder.number

def requestPrefixBytes : Nat := 6 + 32 + 8

/-- Metadata, full data records with a short one after them, and completion. -/
def maxRequestRecords : Nat := (maxRequestBody + maxRecordPlaintext - 1) / maxRecordPlaintext + 2

def maxRequestWireBytes : Nat :=
  requestPrefixBytes + maxRequestBody + maxRecordPlaintext + maxRequestRecords * recordOverhead + 2 + headerBytes

def maxResponseWireBytes : Nat :=
  maxResponseBody + maxRecordPlaintext + maxRecords * recordOverhead + 2 + headerBytes

structure Upload (S : Suite) where
  encoder : RequestEncoder S
  body : S.Bytes
  initial : List S.Bytes
  finished : Bool
  cancelled : Bool
  deadline : Nat

namespace Upload

/-- The part of `send` that creates the upload. -/
def create (request : HttpRequest S) (exchange : ClientRequest S) (now deadline : Nat) : Except SendError (Upload S) :=
  match request.metadata with
  | .error error => .error error
  | .ok metadata =>
    if deadline ≤ now then .error .notSentDeadline
    else match exchange.writer.sealRecord .metadata metadata with
      | (.error _, _) => .error .request
      | (.ok first, encoder) =>
        .ok ⟨encoder, request.body, [exchange.writer.prefixBytes, first], false, false, deadline⟩

def sealNext (upload : Upload S) (kind : Kind) (content : S.Bytes) : Except SendError (Option S.Bytes) × Upload S :=
  match upload.encoder.sealRecord kind content with
  | (.error error, encoder) => (.error (.record error), { upload with encoder })
  | (.ok bytes, encoder) => (.ok (some bytes), { upload with encoder })

def next (upload : Upload S) (now : Nat) : Except SendError (Option S.Bytes) × Upload S :=
  if upload.cancelled then (.ok none, upload)
  else if upload.deadline ≤ now then (.error .deadline, upload)
  else match upload.initial with
    | bytes :: rest => (.ok (some bytes), { upload with initial := rest })
    | [] =>
      if upload.body ≠ [] then
        let size := min upload.body.length maxRecordPlaintext
        { upload with body := upload.body.drop size }.sealNext .data (upload.body.take size)
      else if upload.finished then (.ok none, upload)
      else { upload with finished := true }.sealNext .finished []

/-- Call `next` until it ends or fails, if that takes at most so many calls.
Each call reads the clock. -/
def drain (clock : Nat → Nat) : Nat → Upload S → Option (Except SendError (List S.Bytes))
  | 0, _ => none
  | count + 1, upload =>
    match upload.next (clock count) with
    | (.error error, _) => some (.error error)
    | (.ok none, _) => some (.ok [])
    | (.ok (some bytes), upload) =>
      match upload.drain clock count with
      | some (.ok rest) => some (.ok (bytes :: rest))
      | ended => ended

/-- The loop of a server over the records of an upload (`clients.rs`), once for
each byte of input at most. -/
def splitRecords : Nat → S.Bytes → Except Error (List S.Bytes)
  | 0, _ => .ok []
  | count + 1, input =>
    if input = [] then .ok []
    else match recordSize (input.take 4) with
      | .error error => .error error
      | .ok size =>
        match splitRecords count (input.drop size) with
        | .error error => .error error
        | .ok rest => .ok (input.take size :: rest)

end Upload
end StogasVerifier.Channel
