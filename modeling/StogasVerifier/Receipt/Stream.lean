import StogasVerifier.Lib.Delimited
import StogasVerifier.Lib.Fallible
import StogasVerifier.Sigstore.Publication

/-! The filter for server-sent events (`receipt/http.rs`, `Stream` and
`StreamCompletion` of `receipt.rs`). The hasher is modelled by the bytes given to it. -/

namespace StogasVerifier.Receipt
open Lib
open Sigstore (Bytes)

inductive Error where
  | responseProof (message : String)
  /-- A slice out of range. -/
  | panic
  deriving DecidableEq

def streamError (message : String) : Error := .responseProof message

def ascii (text : String) : Bytes := text.toUTF8.toList

def maxMetadataBytes : Nat := 16 * 1024
def maxProofBytes : Nat := maxMetadataBytes
def sseReceiptPrefix : Bytes := ascii ": stogas "
def sseChatTerminalPrefix : Bytes := ascii "data: [DONE]"
def sseResponsesTerminalPrefix : Bytes := ascii "event: response.completed\n"
def sseResponsesIncompleteTerminalPrefix : Bytes := ascii "event: response.incomplete\n"
def sseEventEnd : Bytes := ascii "\n\n"
def sseKeepalive : Bytes := ascii ": STOGAS PROCESSING\n\n"
def partBytes : Nat := 64 * 1024
def maxStreamBytes : Nat := 64 * 1024 * 1024 + maxProofBytes + 64 * 1024

/-- `find_bytes`: the first position of the needle. -/
def findBytes (haystack needle : Bytes) : Option Nat := search needle haystack

/-- `chunks` of a slice. -/
def parts (size : Nat) (bytes : Bytes) : List Bytes :=
  if size = 0 ∨ bytes.isEmpty then [] else bytes.take size :: parts size (bytes.drop size)
termination_by bytes.length
decreasing_by
  rename_i split
  rw [not_or, List.isEmpty_iff] at split
  have := List.length_pos_of_ne_nil split.2
  rw [List.length_drop]
  omega

inductive SseState where
  | boundary | regular | keepalive | receipt | chatTerminal | responsesTerminal | afterTerminal
  deriving DecidableEq

inductive PushAction where
  | goOn | stop
  deriving DecidableEq

inductive BoundaryKind where
  | needMore | receipt | chatTerminal | responsesTerminal | regular | keepalive
  deriving DecidableEq

def boundaryPrefixes : List (Bytes × BoundaryKind) :=
  [(sseReceiptPrefix, .receipt), (sseKeepalive, .keepalive), (sseChatTerminalPrefix, .chatTerminal),
    (sseResponsesTerminalPrefix, .responsesTerminal), (sseResponsesIncompleteTerminalPrefix, .responsesTerminal)]

def classifySseBoundary (buffer : Bytes) : BoundaryKind :=
  match boundaryPrefixes.find? fun entry => entry.1.isPrefixOf buffer with
  | some (_, kind) => kind
  | none => if boundaryPrefixes.any fun entry => buffer.isPrefixOf entry.1 then .needMore else .regular

structure SseBody where
  /-- What the hasher was given. -/
  hashed : Bytes
  buffer : Bytes
  state : SseState
  proofBytes : Option Bytes
  receiptFrame : Option Bytes
  failed : Bool
  received : Nat
  receiptRequired : Bool

namespace SseBody

def new : SseBody := ⟨[], [], .boundary, none, none, false, 0, true⟩

def transport : SseBody := { new with receiptRequired := false }

/-- `take_buffer_prefix` -/
def takeBufferPrefix (body : SseBody) (length : Nat) : Except Error (Bytes × SseBody) :=
  if body.buffer.length < length then .error .panic
  else .ok (body.buffer.take length, { body with buffer := body.buffer.drop length })

def hashAndForward (body : SseBody) (bytes : Bytes) : List Bytes × SseBody := ([bytes], { body with hashed := body.hashed ++ bytes })

/-- All but a last line feed, which may begin the end of the event. -/
def safeIncompleteLength (body : SseBody) : Nat := body.buffer.length - if body.buffer.getLast? = some 10 then 1 else 0

def beginTerminal (body : SseBody) (state : SseState) : Except Error (List Bytes × SseBody) :=
  match body.receiptFrame with
  | some receipt => .ok ([receipt], { body with receiptFrame := none, state })
  | none =>
    if body.receiptRequired then .error (streamError "terminal event arrived before the receipt")
    else .ok ([], { body with state })

def pushBoundary (body : SseBody) : Except Error (PushAction × List Bytes × SseBody) := do
  if body.buffer.isEmpty then return (.stop, [], body)
  match classifySseBoundary body.buffer with
  | .needMore => return (.stop, [], body)
  | .receipt =>
    rejectIf (body.proofBytes.isSome) (streamError "stream contains more than one receipt")
    return (.goOn, [], { body with state := .receipt })
  | .chatTerminal =>
    let (output, body) ← body.beginTerminal .chatTerminal
    return (.goOn, output, body)
  | .responsesTerminal =>
    let (output, body) ← body.beginTerminal .responsesTerminal
    return (.goOn, output, body)
  | .regular =>
    rejectIf (body.proofBytes.isSome) (streamError "the receipt is not immediately before the terminal event")
    return (.goOn, [], { body with state := .regular })
  | .keepalive =>
    rejectIf (body.proofBytes.isSome) (streamError "the receipt is not immediately before the terminal event")
    return (.goOn, [], { body with state := .keepalive })

/-- What is left of an incomplete event when all that is safe has gone. -/
def forwardSafe (body : SseBody) : Except Error (PushAction × List Bytes × SseBody) :=
  let safe := body.safeIncompleteLength
  if 0 < safe then do
    let (bytes, body) ← body.takeBufferPrefix safe
    let (output, body) := body.hashAndForward bytes
    return (.stop, output, body)
  else return (.stop, [], body)

def pushRegular (body : SseBody) : Except Error (PushAction × List Bytes × SseBody) :=
  match findBytes body.buffer sseEventEnd with
  | some position => do
    let (bytes, body) ← body.takeBufferPrefix (position + sseEventEnd.length)
    let (output, body) := body.hashAndForward bytes
    return (.goOn, output, { body with state := .boundary })
  | none => body.forwardSafe

def pushKeepalive (body : SseBody) : Except Error (PushAction × List Bytes × SseBody) := do
  let (bytes, body) ← body.takeBufferPrefix sseKeepalive.length
  return (.goOn, [bytes], { body with state := .boundary })

def pushReceipt (body : SseBody) : Except Error (PushAction × List Bytes × SseBody) :=
  match findBytes body.buffer sseEventEnd with
  | none => do
    rejectIf (sseReceiptPrefix.length + maxProofBytes + sseEventEnd.length < body.buffer.length)
      (streamError "stream receipt exceeds its size limit")
    return (.stop, [], body)
  | some position => do
    let (frame, body) ← body.takeBufferPrefix (position + sseEventEnd.length)
    let proofEnd := frame.length - sseEventEnd.length
    rejectIf (proofEnd < sseReceiptPrefix.length) .panic
    let proof := (frame.take proofEnd).drop sseReceiptPrefix.length
    rejectIf (proof.isEmpty ∨ maxProofBytes < proof.length ∨ 10 ∈ proof) (streamError "stream receipt has an invalid size or encoding")
    return (.goOn, [], { body with proofBytes := some proof, receiptFrame := some frame, state := .boundary })

def pushAfterTerminal (body : SseBody) : Except Error PushAction := do
  rejectIf (¬ body.buffer.isEmpty) (streamError "stream contains bytes after its terminal event")
  return .stop

def finishTerminalFrame (body : SseBody) (frame : Bytes) : Except Error (List Bytes × SseBody) := do
  let body := { body with hashed := body.hashed ++ frame, state := .afterTerminal }
  let _ ← body.pushAfterTerminal
  return ([frame.take (frame.length - sseEventEnd.length)], body)

def pushChatTerminal (body : SseBody) : Except Error (PushAction × List Bytes × SseBody) := do
  let expected := sseChatTerminalPrefix ++ sseEventEnd
  if body.buffer.length < expected.length then
    rejectIf (¬ body.buffer.isPrefixOf expected) (streamError "Chat terminal event is malformed")
    return (.stop, [], body)
  else
    let (frame, body) ← body.takeBufferPrefix expected.length
    rejectIf (frame ≠ expected) (streamError "Chat terminal event is malformed")
    let (output, body) ← body.finishTerminalFrame frame
    return (.stop, output, body)

def pushResponsesTerminal (body : SseBody) : Except Error (PushAction × List Bytes × SseBody) :=
  match findBytes body.buffer sseEventEnd with
  | some position => do
    let (frame, body) ← body.takeBufferPrefix (position + sseEventEnd.length)
    let (output, body) ← body.finishTerminalFrame frame
    return (.stop, output, body)
  | none => body.forwardSafe

/-- One turn of the loop of `push_part`. -/
def turn (body : SseBody) : Except Error (PushAction × List Bytes × SseBody) :=
  match body.state with
  | .boundary => body.pushBoundary
  | .regular => body.pushRegular
  | .keepalive => body.pushKeepalive
  | .receipt => body.pushReceipt
  | .chatTerminal => body.pushChatTerminal
  | .responsesTerminal => body.pushResponsesTerminal
  | .afterTerminal => body.pushAfterTerminal.map fun action => (action, [], body)

/-- A turn that goes on leaves the boundary or takes an event from the buffer. -/
def size (body : SseBody) : Nat := 2 * body.buffer.length + if body.state = .boundary then 1 else 0

theorem takeBufferPrefix_ok {body next : SseBody} {length : Nat} {bytes : Bytes}
    (taken : body.takeBufferPrefix length = .ok (bytes, next)) : length ≤ body.buffer.length ∧ bytes = body.buffer.take length ∧
      next = { body with buffer := body.buffer.drop length } := by
  unfold takeBufferPrefix at taken
  split at taken
  · cases taken
  next enough =>
    cases taken
    exact ⟨Nat.le_of_not_lt enough, rfl, rfl⟩

theorem beginTerminal_ok {body next : SseBody} {state : SseState} {output : List Bytes} (begun : body.beginTerminal state = .ok (output, next)) :
    output = body.receiptFrame.toList ∧ (body.receiptFrame = none → body.receiptRequired = false) ∧
      next = { body with receiptFrame := none, state } := by
  unfold beginTerminal at begun
  split at begun
  next receipt held =>
    cases begun
    rw [held]
    exact ⟨rfl, nofun, rfl⟩
  next missing =>
    split at begun
    · cases begun
    next optional =>
      cases begun
      rw [missing]
      exact ⟨rfl, fun _ => Bool.eq_false_iff.mpr optional, by rw [← missing]⟩

theorem forwardSafe_stops {body next : SseBody} {action : PushAction} {output : List Bytes}
    (forwarded : body.forwardSafe = .ok (action, output, next)) : action = .stop := by
  simp only [forwardSafe] at forwarded
  split at forwarded
  · obtain ⟨_, -, stopped⟩ := bind_ok.mp forwarded
    cases stopped
    rfl
  · cases forwarded
    rfl

theorem size_boundary {body : SseBody} (boundary : body.state = .boundary) {next : SseBody} (buffer : next.buffer = body.buffer)
    (state : next.state ≠ .boundary) : next.size < body.size := by
  simp only [size, boundary, buffer, if_true, if_neg state]
  omega

theorem size_taken {body next : SseBody} {length : Nat} (long : 2 ≤ length) (enough : length ≤ body.buffer.length)
    (buffer : next.buffer = body.buffer.drop length) : next.size < body.size := by
  simp only [size, buffer, List.length_drop]
  split <;> split <;> omega

/-- Each turn that goes on makes the body smaller. -/
theorem turn_size {body next : SseBody} {output : List Bytes} (turned : body.turn = .ok (.goOn, output, next)) : next.size < body.size := by
  have long : 2 ≤ sseEventEnd.length := by decide +kernel
  unfold turn at turned
  split at turned
  next boundary =>
    unfold pushBoundary at turned
    split at turned
    · cases turned
    · split at turned
      · cases turned
      · obtain ⟨_, -, turned⟩ := bind_ok.mp turned
        cases turned
        exact size_boundary boundary rfl (by simp)
      · obtain ⟨⟨_, _⟩, begun, turned⟩ := bind_ok.mp turned
        obtain ⟨-, -, rfl⟩ := beginTerminal_ok begun
        cases turned
        exact size_boundary boundary rfl (by simp)
      · obtain ⟨⟨_, _⟩, begun, turned⟩ := bind_ok.mp turned
        obtain ⟨-, -, rfl⟩ := beginTerminal_ok begun
        cases turned
        exact size_boundary boundary rfl (by simp)
      · obtain ⟨_, -, turned⟩ := bind_ok.mp turned
        cases turned
        exact size_boundary boundary rfl (by simp)
      · obtain ⟨_, -, turned⟩ := bind_ok.mp turned
        cases turned
        exact size_boundary boundary rfl (by simp)
  next regular =>
    unfold pushRegular at turned
    split at turned
    · obtain ⟨⟨_, _⟩, taken, turned⟩ := bind_ok.mp turned
      obtain ⟨enough, -, rfl⟩ := takeBufferPrefix_ok taken
      cases turned
      exact size_taken (Nat.le_add_left_of_le long) enough rfl
    · cases forwardSafe_stops turned
  next keepalive =>
    obtain ⟨⟨_, _⟩, taken, turned⟩ := bind_ok.mp turned
    obtain ⟨enough, -, rfl⟩ := takeBufferPrefix_ok taken
    cases turned
    exact size_taken (by decide +kernel) enough rfl
  next receipt =>
    unfold pushReceipt at turned
    split at turned
    · obtain ⟨_, -, turned⟩ := bind_ok.mp turned
      cases turned
    · obtain ⟨⟨_, _⟩, taken, turned⟩ := bind_ok.mp turned
      obtain ⟨enough, -, rfl⟩ := takeBufferPrefix_ok taken
      obtain ⟨_, -, turned⟩ := bind_ok.mp turned
      obtain ⟨_, -, turned⟩ := bind_ok.mp turned
      cases turned
      exact size_taken (Nat.le_add_left_of_le long) enough rfl
  next chat =>
    simp only [pushChatTerminal] at turned
    split at turned
    · obtain ⟨_, -, turned⟩ := bind_ok.mp turned
      cases turned
    · obtain ⟨_, -, turned⟩ := bind_ok.mp turned
      obtain ⟨_, -, turned⟩ := bind_ok.mp turned
      obtain ⟨_, -, turned⟩ := bind_ok.mp turned
      cases turned
  next responses =>
    unfold pushResponsesTerminal at turned
    split at turned
    · obtain ⟨_, -, turned⟩ := bind_ok.mp turned
      obtain ⟨_, -, turned⟩ := bind_ok.mp turned
      cases turned
    · cases forwardSafe_stops turned
  next after =>
    obtain ⟨action, checked, same⟩ := map_ok.mp turned
    obtain ⟨_, -, stopped⟩ := bind_ok.mp checked
    cases stopped
    cases same

/-- The loop of `push_part`. -/
def loop (body : SseBody) : Except Error (List Bytes × SseBody) :=
  match _turned : body.turn with
  | .error error => .error error
  | .ok (.stop, output, next) => .ok (output, next)
  | .ok (.goOn, output, next) => next.loop.map fun result => (output ++ result.1, result.2)
termination_by body.size
decreasing_by exact turn_size _turned

def pushPart (body : SseBody) (chunk : Bytes) : Except Error (List Bytes × SseBody) := do
  rejectIf (body.state = .afterTerminal ∧ ¬ chunk.isEmpty) (streamError "stream contains bytes after its terminal event")
  loop { body with buffer := body.buffer ++ chunk }

def pushParts (body : SseBody) : List Bytes → Except Error (List Bytes × SseBody)
  | [] => .ok ([], body)
  | part :: parts => do
    let (output, body) ← body.pushPart part
    let (rest, body) ← body.pushParts parts
    return (output ++ rest, body)

/-- A failed body keeps nothing that is read again. -/
def push (body : SseBody) (chunk : Bytes) : Except Error (List Bytes) × SseBody :=
  if body.failed ∨ maxStreamBytes - body.received < chunk.length then
    (.error (streamError "response stream is closed or exceeds its byte limit"), { body with failed := true })
  else
    match { body with received := body.received + chunk.length }.pushParts (parts partBytes chunk) with
    | .ok (output, body) => (.ok output, body)
    | .error error => (.error error, { body with failed := true, buffer := [] })

def requireComplete (body : SseBody) : Except Error Unit :=
  rejectIf (body.failed ∨ body.state ≠ .afterTerminal ∨ ¬ body.buffer.isEmpty) (streamError "stream ended before its signed terminal event")

def finish (body : SseBody) : Except Error (Bytes × Bytes) := do
  body.requireComplete
  let proof ← required body.proofBytes (streamError "stream has no receipt")
  return (proof, body.hashed)

end SseBody
end StogasVerifier.Receipt
