import StogasVerifier.Channel.Record

/-! Record operations over any cipher (`seal_async` and `open_async` in
`record.rs`), with what each derives and hands to the cipher. The cipher answers
as it likes, and the caller may drop an operation while it waits for the cipher;
a future that is never polled has not begun an operation. -/

namespace StogasVerifier.Channel

/-- What the key schedule and the cipher do in one operation. -/
inductive Reply (T : Type) where
  /-- The KDF fails, before the chain is replaced. -/
  | underived (error : Error)
  /-- `from_key` fails. -/
  | unkeyed (error : Error)
  | failed (error : Error)
  /-- The operation is dropped while it waits. -/
  | cancelled
  | returned (value : T)

variable {S : Suite}

/-- A record key leaves the chain, or goes into one cipher operation. -/
inductive KeyEvent (S : Suite) where
  | derived (key : S.Secret)
  | used (key : S.Secret) (nonceBytes : S.Bytes)

/-- How far an operation got. Without a result it was dropped. -/
structure Operation (S : Suite) (T : Type) where
  result : Option (Except Error T)
  records : Records S
  events : List (KeyEvent S)

/-- The part of an operation that runs on a direction. -/
def Attempt (S : Suite) (T : Type) : Type := Records S → Operation S T

namespace Attempt

variable {T U : Type}

def bind (first : Attempt S T) (next : T → Attempt S U) : Attempt S U := fun records =>
  match first records with
  | ⟨some (.ok value), records, events⟩ =>
    let second := next value records
    ⟨second.result, second.records, events ++ second.events⟩
  | ⟨some (.error error), records, events⟩ => ⟨some (.error error), records, events⟩
  | ⟨none, records, events⟩ => ⟨none, records, events⟩

instance : Monad (Attempt S) where
  pure value := fun records => ⟨some (.ok value), records, []⟩
  bind := bind

def check (test : Records S → Except Error T) : Attempt S T := fun records => ⟨some (test records), records, []⟩

/-- `next_key`, `from_key` and one cipher call. -/
def cipher (reply : S.Secret → S.Bytes → Reply T) : Attempt S T := fun records =>
  match records.keys with
  | none => ⟨some (.error .closed), records, []⟩
  | some keys =>
    let (key, nonceBytes, next) := keys.next records.sequence
    let stepped := { records with keys := some next }
    match reply key nonceBytes with
    | .underived error => ⟨some (.error error), records, []⟩
    | .unkeyed error => ⟨some (.error error), stepped, [.derived key]⟩
    | .failed error => ⟨some (.error error), stepped, [.derived key, .used key nonceBytes]⟩
    | .cancelled => ⟨none, stepped, [.derived key, .used key nonceBytes]⟩
    | .returned value => ⟨some (.ok value), stepped, [.derived key, .used key nonceBytes]⟩

def adopt (change : Records S → Except Error (Records S × T)) : Attempt S T := fun records =>
  match change records with
  | .ok (records, value) => ⟨some (.ok value), records, []⟩
  | .error error => ⟨some (.error error), records, []⟩

/-- The drop guard: an operation that does not complete closes its direction. -/
def guarded (attempt : Attempt S T) : Attempt S T := fun records =>
  match attempt records with
  | ⟨some (.ok value), records, events⟩ => ⟨some (.ok value), records, events⟩
  | ⟨result, records, events⟩ => ⟨result, records.close, events⟩

end Attempt

abbrev CipherCall (S : Suite) := S.Secret → S.Bytes → S.Bytes → S.Bytes → Reply S.Bytes

def softwareReply (call : S.Secret → S.Bytes → S.Bytes → S.Bytes → Except Error S.Bytes) : CipherCall S :=
  fun key nonceBytes aad text =>
    match call key nonceBytes aad text with
    | .ok bytes => .returned bytes
    | .error error => .failed error

namespace Records

def sealAsync (kind : Kind) (content : S.Bytes) (reply : CipherCall S) : Attempt S S.Bytes :=
  Attempt.guarded do
    let encoded ← Attempt.check (·.encode kind content)
    let offset ← Attempt.check (·.prefixSize encoded)
    let bytes ← Attempt.cipher fun key nonceBytes => reply key nonceBytes (encoded.take offset) (encoded.drop offset)
    Attempt.adopt fun records => .ok (records.advance kind content.length, encoded.take offset ++ bytes)

def openAsync (encoded : S.Bytes) (reply : CipherCall S) : Attempt S (Kind × S.Bytes) :=
  Attempt.guarded do
    let offset ← Attempt.check (·.checkEncoded encoded)
    let plaintext ← Attempt.cipher fun key nonceBytes => reply key nonceBytes (encoded.take offset) (encoded.drop offset)
    Attempt.adopt (·.acceptOpen plaintext)

end Records

inductive RecordCall (S : Suite) where
  | sealNow (kind : Kind) (content : S.Bytes)
  | openNow (encoded : S.Bytes)
  | sealAsync (kind : Kind) (content : S.Bytes) (reply : CipherCall S)
  | openAsync (encoded : S.Bytes) (reply : CipherCall S)

/-- What a call returns: an encoded record, or an opened one. -/
abbrev CallOutput (S : Suite) := S.Bytes ⊕ (Kind × S.Bytes)

namespace Records

def perform : RecordCall S → Attempt S (CallOutput S)
  | .sealNow kind content => Sum.inl <$> sealAsync kind content (softwareReply encryptNow)
  | .openNow encoded => Sum.inr <$> openAsync encoded (softwareReply decryptNow)
  | .sealAsync kind content reply => Sum.inl <$> sealAsync kind content reply
  | .openAsync encoded reply => Sum.inr <$> openAsync encoded reply

def performAll (records : Records S) : List (RecordCall S) → List (Operation S (CallOutput S))
  | [] => []
  | call :: rest => perform call records :: (perform call records).records.performAll rest

end Records
end StogasVerifier.Channel
