import StogasVerifier.Channel.Symbolic
import StogasVerifier.Channel.Peer

/-! A symbolic attacker. It applies every operation of the suite to the terms it
knows. Public keys and ciphertexts cost it nothing, so it reads every header. -/

namespace StogasVerifier.Channel

/-- The terms that an attacker can compute from what it knows and from any
public keys and ciphertexts. -/
inductive Derivable (known : Set Term) : Term → Prop where
  | known {term : Term} (member : term ∈ known) : Derivable known term
  | expand {input : Term} (label : Label) (block : Nat) (derived : Derivable known input) :
      Derivable known (.expand label input block)
  | expandRoot {root dh kem : Term} (block : Nat) (salt : Derivable known root) (agreed : Derivable known dh)
      (shared : Derivable known kem) : Derivable known (.expandRoot root dh kem block)
  | expandRecord {key : Term} (info : List Nat) (block : Nat) (derived : Derivable known key) :
      Derivable known (.expandRecord key info block)
  | agree {scalar : Term} (point : Point) (derived : Derivable known scalar) :
      Derivable known (Symbolic.agreement point.scalar scalar)
  | encapsulate {randomness : Term} (key : KemKey) (derived : Derivable known randomness) :
      Derivable known (.encapsulated key.d key.z randomness)
  | decapsulate {d z : Term} (ciphertext : Encapsulation) (first : Derivable known d) (second : Derivable known z) :
      Derivable known (Symbolic.decapsulate ⟨d, z⟩ ciphertext)

/-- A set of terms that can only be computed from one of them. -/
structure Guarded (hidden : Set Term) : Prop where
  expand : ∀ {label input block}, .expand label input block ∈ hidden → input ∈ hidden
  expandRoot : ∀ {root dh kem block}, .expandRoot root dh kem block ∈ hidden → root ∈ hidden ∨ dh ∈ hidden ∨ kem ∈ hidden
  expandRecord : ∀ {key info block}, .expandRecord key info block ∈ hidden → key ∈ hidden
  agreed : ∀ {first second}, .agreed first second ∈ hidden → first ∈ hidden ∧ second ∈ hidden
  encapsulated : ∀ {d z randomness}, .encapsulated d z randomness ∈ hidden → randomness ∈ hidden ∧ (d ∈ hidden ∨ z ∈ hidden)
  rejected : ∀ {d z otherD otherZ randomness}, .rejected d z otherD otherZ randomness ∈ hidden → d ∈ hidden ∨ z ∈ hidden

theorem Guarded.underivable {hidden known : Set Term} (guarded : Guarded hidden) (apart : Disjoint known hidden) {term : Term}
    (derived : Derivable known term) : term ∉ hidden := by
  induction derived with
  | known member => exact Set.disjoint_left.mp apart member
  | expand label block _ ih => exact fun inside => ih (guarded.expand inside)
  | expandRoot block _ _ _ salt agreed shared =>
    intro inside
    rcases guarded.expandRoot inside with here | here | here
    · exact salt here
    · exact agreed here
    · exact shared here
  | expandRecord info block _ ih => exact fun inside => ih (guarded.expandRecord inside)
  | agree point _ ih =>
    intro inside
    unfold Symbolic.agreement at inside
    split at inside
    · exact ih (guarded.agreed inside).2
    · exact ih (guarded.agreed inside).1
  | encapsulate key _ ih => exact fun inside => ih (guarded.encapsulated inside).1
  | decapsulate ciphertext _ _ first second =>
    intro inside
    unfold Symbolic.decapsulate at inside
    split at inside
    · exact (guarded.encapsulated inside).2.elim first second
    · exact (guarded.rejected inside).elim first second

/-- Names and blocks of the ratchet KDF, as opposed to record keys and shared secrets. -/
def Term.Ratchet : Term → Prop
  | .atom _ | .expand .. | .expandRoot .. => True
  | _ => False

/-- Every secret in the complete state of a peer. -/
inductive Peer.Holds (peer : Peer symbolic) : Term → Prop where
  | root : Holds peer peer.active.root
  | localDh {keys : KeyPair symbolic} (held : peer.active.localKeys = some keys) : Holds peer keys.dh
  | localKemD {keys : KeyPair symbolic} (held : peer.active.localKeys = some keys) : Holds peer (KemKey.d keys.kem)
  | localKemZ {keys : KeyPair symbolic} (held : peer.active.localKeys = some keys) : Holds peer (KemKey.z keys.kem)
  | sendChain {sending : Sending symbolic} (present : peer.active.send = some sending) : Holds peer sending.chain.secret
  | sendHeader {sending : Sending symbolic} (present : peer.active.send = some sending) : Holds peer sending.cipher.key
  | receiveChain {receive : Receiving symbolic} (present : peer.active.receive = some receive) :
      Holds peer receive.chain.secret
  | receiveHeader {receive : Receiving symbolic} (present : peer.active.receive = some receive) :
      Holds peer receive.header.cipher.key
  | nextSend : Holds peer peer.active.nextSend.key
  | nextReceive : Holds peer peer.active.nextReceive.key
  | skippedHeader {epoch : Nat} {group : Group symbolic} (present : peer.skipped[epoch]? = some group) :
      Holds peer group.header.cipher.key
  | skippedKey {epoch number : Nat} {group : Group symbolic} {key : Skipped symbolic}
      (present : peer.skipped[epoch]? = some group) (found : group.keys[number]? = some key) : Holds peer key.secret

def captured (peer : Peer symbolic) (unknown : Set Nat) : Set Term :=
  {term | peer.Holds term ∨ ∃ name, name ∉ unknown ∧ term = .atom name}

end StogasVerifier.Channel
