/-! Root decisions about online keys (`approvals/keys.rs`, and the documents it
uses from `approvals.rs`). A learned decision sits behind a mutex in the source;
each function below runs in one critical section. -/

namespace StogasVerifier.Approvals

inductive Environment where
  | production | staging
  deriving DecidableEq, Repr

inductive Error where
  | tooLarge
  | invalid (reason : String)
  | authority
  | transparency (reason : String)
  | sigstore (reason : String)
  | inactiveKey
  | expired
  | signature
  | rollback
  | equivocation
  | notApproved (what : String)
  | evidence (reason : String)
  deriving DecidableEq, Repr

structure OnlineKey where
  keyId : String
  publicKey : String
  rekorPublicKey : String
  deriving DecidableEq, Repr

def OnlineKey.sameSigner (key other : OnlineKey) : Bool := key.keyId = other.keyId ∧ key.publicKey = other.publicKey

structure KeyManifest where
  schema : String
  environment : Environment
  generation : Nat
  expiresAt : String
  activeKey : OnlineKey
  retiredKeys : List OnlineKey
  deriving DecidableEq, Repr

structure VerifiedKeys where
  document : KeyManifest
  digest : String
  deriving DecidableEq, Repr

structure Learned where
  keys : VerifiedKeys
  conflicting : Bool
  deriving DecidableEq, Repr

def Learned.check (previous : Learned) (keys : KeyManifest) (digest : String) : Except Error Unit :=
  let old := previous.keys.document
  if keys.generation < old.generation then .error .rollback
  else if keys.generation = old.generation ∧ (previous.conflicting = true ∨ digest ≠ previous.keys.digest) then .error .equivocation
  else .ok ()

/-- The latest root decision, and whether another one contradicts it. -/
abbrev KeyState := Option Learned

namespace KeyState

def learn (state : KeyState) (keys : VerifiedKeys) : Except Error Unit × KeyState :=
  match state with
  | none => (.ok (), some ⟨keys, false⟩)
  | some previous =>
    if keys.document.generation = previous.keys.document.generation ∧ keys.digest ≠ previous.keys.digest then
      (.error .equivocation, some { previous with conflicting := true })
    else match previous.check keys.document keys.digest with
      | .error error => (.error error, some previous)
      | .ok () => (.ok (), some ⟨keys, false⟩)

def check (state : KeyState) (keys : KeyManifest) (digest : String) : Except Error Unit :=
  match state with
  | none => .ok ()
  | some previous => previous.check keys digest

def requireCurrent (state : KeyState) (keys : KeyManifest) : Except Error Unit :=
  match state with
  | none => .error .inactiveKey
  | some learned =>
    let current := learned.keys.document
    if learned.conflicting then .error .equivocation
    else if keys.generation ≠ current.generation ∧ (current.generation < keys.generation ∨
        ¬ keys.activeKey.sameSigner current.activeKey ∨ current.expiresAt < keys.expiresAt) then .error .rollback
    else .ok ()

/-- Learn decisions one after the other, whatever becomes of each. -/
def learnAll (state : KeyState) (deliveries : List VerifiedKeys) : KeyState :=
  deliveries.foldl (fun state keys => (state.learn keys).2) state

end KeyState
end StogasVerifier.Approvals
