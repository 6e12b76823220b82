import StogasVerifier.Channel.Setup
import StogasVerifier.Channel.Symbolic
import StogasVerifier.Proofs.EvidenceFraming

/-! Both ends of a setup agree (`channel/setup.rs`): the client reads the fields that the
server wrote, hashes the same transcript and derives the same root. -/

namespace StogasVerifier.Channel
open Lib
open Approvals (Environment)
open Attestation (SessionEvidence environmentByte)

variable {S : SetupSuite}

/-- What is assumed of HPKE: encapsulated keys survive their encoding, and what the holder of
the private key exports is what the sender to its public key exports. -/
structure SetupSuite.Agrees (S : SetupSuite) : Prop where
  encapped : ∀ enc, S.encappedFromBytes (S.encappedToBytes enc).toList = some enc
  exports : ∀ privateKey publicKey info randomness enc sender,
    S.publicKeyFromBytes (S.publicKeyToBytes (S.skToPk privateKey)).toList = some publicKey →
    S.setupSender publicKey info randomness = some (enc, sender) →
    ∃ recipient, S.setupReceiver privateKey enc info = some recipient ∧
      ∀ context, S.exportSecret recipient context = S.exportSecret sender context

private structure HeaderSizes : Prop where
  client : "STGS\x01\x01".utf8ByteSize = 6
  server : "STGS\x01\x02".utf8ByteSize = 6

private theorem headerSizes : HeaderSizes := by constructor <;> decide +kernel

theorem clientHeader_length : S.clientHeader.length = 6 := (S.text_length _).trans headerSizes.client

theorem serverHeader_length : S.serverHeader.length = 6 := (S.text_length _).trans headerSizes.server

theorem byteRange_middle {front middle rest : S.Bytes} {start finish : Nat} (starts : front.length = start)
    (finishes : start + middle.length = finish) : byteRange (front ++ middle ++ rest) start finish = middle :=
  (slice_some.mp (slice_middle starts finishes)).2

/-! ## The hello -/

variable {environment : Environment} {pending : PendingSetup S}

theorem PendingSetup.new_ok {entropy} (created : PendingSetup.new environment entropy = .ok pending) :
    ∃ privateKey, ∃ challenge : S.Array32, pending.privateKey = some privateKey ∧
      pending.hello = S.clientHeader ++ [S.u8 (environmentByte environment)] ++ challenge.toList ++
        (S.publicKeyToBytes (S.skToPk privateKey)).toList := by
  simp only [PendingSetup.new, bind_ok, mapError_ok, required_ok, pure_ok] at created
  obtain ⟨_, -, privateKey, -, challenge, -, rfl⟩ := created
  exact ⟨privateKey, challenge, rfl, rfl⟩

theorem PendingSetup.new_length {entropy}
    (created : PendingSetup.new environment entropy = .ok pending) : pending.hello.length = clientSetupBytes := by
  obtain ⟨_, _, -, hello⟩ := PendingSetup.new_ok created
  rw [hello]
  simp only [List.length_append, clientHeader_length, List.length_singleton, List.Vector.toList_length, clientSetupBytes]

theorem PendingSetup.new_keys {entropy} (created : PendingSetup.new environment entropy = .ok pending) :
    ∃ privateKey, pending.privateKey = some privateKey ∧
      pending.hello.drop (6 + 1 + 32) = (S.publicKeyToBytes (S.skToPk privateKey)).toList := by
  obtain ⟨privateKey, challenge, kept, hello⟩ := PendingSetup.new_ok created
  refine ⟨privateKey, kept, ?_⟩
  rw [hello, List.drop_left']
  simp only [List.length_append, clientHeader_length, List.length_singleton, List.Vector.toList_length]

/-! ## The response -/

def serverFields (sessionId : S.Array32) (idleSeconds : UInt32) (enc : S.EncappedKey) (ratchet : PublicKeys S.toSuite) : S.Bytes :=
  S.serverHeader ++ sessionId.toList ++ S.be 4 idleSeconds.toNat ++ (S.encappedToBytes enc).toList ++ ratchet.encode

theorem serverFields_length (sessionId : S.Array32) (idleSeconds : UInt32) (enc : S.EncappedKey) (ratchet : PublicKeys S.toSuite) :
    (serverFields sessionId idleSeconds enc ratchet).length = serverPrefixBytes := by
  simp only [serverFields, List.length_append, serverHeader_length, List.Vector.toList_length, Suite.be, toBe_length, PublicKeys.encode,
    S.encodeKeys_length, serverPrefixBytes]

theorem prepareServerSetup_ok {hello : S.Bytes} {idleSeconds : UInt32} {bootHash entropy prepared}
    (made : prepareServerSetup environment hello idleSeconds bootHash entropy = .ok prepared) :
    hello.length = clientSetupBytes ∧ idleSeconds ≠ 0 ∧
      ∃ publicKey enc sender seed root, ∃ confirmation : S.Array32,
        S.publicKeyFromBytes (hello.drop (6 + 1 + 32)) = some publicKey ∧
        S.setupSender publicKey (setupInfo hello) entropy.encapsulation = some (enc, sender) ∧
        prepared.transcript = transcriptHash hello (serverFields prepared.sessionId idleSeconds enc (KeyPair.fromSeed seed).publicKeys) bootHash ∧
        S.exportSecret sender (S.rootDomain ++ prepared.transcript.toList) = some root ∧
        S.exportSecret sender (S.confirmationDomain ++ prepared.transcript.toList) = some confirmation ∧
        prepared.session = ServerSession.new (S.secret root) prepared.sessionId.toList (KeyPair.fromSeed seed) ∧
        prepared.responsePrefix =
          serverFields prepared.sessionId idleSeconds enc (KeyPair.fromSeed seed).publicKeys ++ confirmation.toList := by
  simp only [prepareServerSetup, bind_ok, rejectIf_ok, required_ok, pure_ok, exists_unit, not_or, not_not] at made
  obtain ⟨⟨sized, -, -, awake⟩, -, publicKey, read, ⟨enc, sender⟩, sent, sessionId, -, seed, -, root, rooted, confirmation, confirmed, rfl⟩ :=
    made
  exact ⟨sized, awake, publicKey, enc, sender, seed, root, confirmation, read, sent, rfl, rooted, confirmed, rfl, rfl⟩

theorem fromBytes_small {H : Hashing 64} {payload : H.Bytes} {evidence : SessionEvidence H}
    (decoded : SessionEvidence.fromBytes payload = .ok evidence) : payload.length ≤ SessionEvidence.maxEvidenceBytes := by
  simp only [SessionEvidence.fromBytes, bind_ok, rejectIf_ok, exists_unit] at decoded
  exact Nat.not_lt.mp decoded.1

/-- The client reads every field that the server wrote. -/
theorem parse_written (sessionId : S.Array32) {idleSeconds : UInt32} (awake : idleSeconds ≠ 0) (enc : S.EncappedKey)
    (ratchet : PublicKeys S.toSuite) (confirmation : S.Array32) {payload : S.Bytes} {evidence : SessionEvidence S.hashing}
    (decoded : @SessionEvidence.fromBytes S.hashing payload = .ok evidence) :
    SetupEvidence.parse (serverFields sessionId idleSeconds enc ratchet ++ confirmation.toList ++ S.be 4 payload.length ++ payload) =
      .ok ⟨serverFields sessionId idleSeconds enc ratchet, (S.encappedToBytes enc).toList, confirmation.toList, ratchet.encode,
        sessionId.toList, idleSeconds.toNat, evidence⟩ := by
  have small := fromBytes_small decoded
  have idles : idleSeconds.toNat < 256 ^ 4 := idleSeconds.toNat_lt
  have fields := serverFields_length sessionId idleSeconds enc ratchet
  generalize written : serverFields sessionId idleSeconds enc ratchet ++ confirmation.toList ++ S.be 4 payload.length ++ payload = response
  have size : response.length = serverPrefixBytes + 36 + payload.length := by
    rw [← written]
    simp only [List.length_append, fields, List.Vector.toList_length, Suite.be, toBe_length]
  have whole : response.take serverPrefixBytes = serverFields sessionId idleSeconds enc ratchet := by
    rw [← written, ← fields, List.append_assoc, List.append_assoc, List.take_left]
  have header : response.take 6 = S.serverHeader := by
    rw [← written]
    simp only [serverFields, List.append_assoc]
    rw [← serverHeader_length, List.take_left]
  have tail : response.drop (serverPrefixBytes + 36) = payload := by
    rw [← written, List.drop_left']
    simp only [List.length_append, fields, List.Vector.toList_length, Suite.be, toBe_length]
  have idle : byteRange response (6 + 32) (6 + 36) = S.be 4 idleSeconds.toNat := by
    rw [← written, serverFields]
    simp only [List.append_assoc]
    rw [← List.append_assoc, ← List.append_assoc]
    exact byteRange_middle (by simp [serverHeader_length]) (by simp)
  have identity : byteRange response 6 (6 + 32) = sessionId.toList := by
    rw [← written, serverFields]
    simp only [List.append_assoc]
    rw [← List.append_assoc]
    exact byteRange_middle serverHeader_length (by simp)
  have encapped : byteRange response (6 + 36) (serverPrefixBytes - publicKeyBytes) = (S.encappedToBytes enc).toList := by
    rw [← written, serverFields]
    simp only [List.append_assoc]
    rw [← List.append_assoc, ← List.append_assoc, ← List.append_assoc]
    exact byteRange_middle (by simp [serverHeader_length]) (by simp [serverPrefixBytes])
  have ratcheted : byteRange response (serverPrefixBytes - publicKeyBytes) serverPrefixBytes = ratchet.encode := by
    rw [← written, serverFields]
    simp only [List.append_assoc]
    rw [← List.append_assoc, ← List.append_assoc, ← List.append_assoc, ← List.append_assoc]
    exact byteRange_middle (by simp [serverHeader_length, serverPrefixBytes])
      (by simp [serverPrefixBytes, PublicKeys.encode, S.encodeKeys_length])
  have confirmed : byteRange response serverPrefixBytes (serverPrefixBytes + 32) = confirmation.toList := by
    rw [← written, List.append_assoc]
    exact byteRange_middle fields (by simp)
  have spelled : byteRange response (serverPrefixBytes + 32) (serverPrefixBytes + 36) = S.be 4 payload.length := by
    rw [← written]
    exact byteRange_middle (by simp [fields]) (by simp)
  simp only [SetupEvidence.parse, bind_ok, rejectIf_ok, mapError_ok, pure_ok, exists_unit, not_or, not_not, header, idle, spelled, tail, whole,
    identity, encapped, ratcheted, confirmed]
  have idleRead : S.number (S.be 4 idleSeconds.toNat) = idleSeconds.toNat := ofBe_toBe S.toOctets 4 _ idles
  have lengthRead : S.number (S.be 4 payload.length) = payload.length := by
    apply ofBe_toBe
    simp only [SessionEvidence.maxEvidenceBytes] at small
    omega
  refine ⟨⟨?_, ?_, trivial⟩, ?_, lengthRead, evidence, decoded, ?_⟩
  · omega
  · rw [maxServerSetupBytes]
    omega
  · rw [idleRead]
    exact fun zero => awake (UInt32.toNat_inj.mp zero)
  · rw [idleRead]

/-! ## The session -/

theorem ClientSession.new_generated (validates : S.toSuite.Validates) (root seed : S.Secret) (id : S.Bytes) (idleSeconds : Nat) :
    ClientSession.new root id idleSeconds (KeyPair.fromSeed seed).publicKeys =
      .ok (⟨true, id, idleSeconds⟩, ⟨Starts.default, Peer.new root none (some (KeyPair.fromSeed seed).publicKeys) true⟩) := by
  have valid : (KeyPair.fromSeed (S := S.toSuite) seed).publicKeys.validate = .ok () := if_pos (validates _ _)
  refine bind_ok.mpr ⟨_, bind_ok.mpr ⟨(), valid, rfl⟩, rfl⟩

theorem PublicKeys.decode_encode (keys : PublicKeys S.toSuite) : PublicKeys.decode keys.encode = keys := by
  simp only [PublicKeys.decode, PublicKeys.encode, S.decodeKeys_encodeKeys]

theorem PendingSetup.finish_agrees (agrees : S.Agrees) (validates : S.toSuite.Validates)
    {parsed privateKey publicKey enc sender} {randomness seed : S.Secret} {root confirmation} (kept : pending.privateKey = some privateKey)
    (known : S.publicKeyFromBytes (S.publicKeyToBytes (S.skToPk privateKey)).toList = some publicKey)
    (sent : S.setupSender publicKey (setupInfo pending.hello) randomness = some (enc, sender))
    (rooted : S.exportSecret sender (S.rootDomain ++ (pending.transcript parsed).toList) = some root)
    (confirmed : S.exportSecret sender (S.confirmationDomain ++ (pending.transcript parsed).toList) = some confirmation)
    (encapped : parsed.enc = (S.encappedToBytes enc).toList) (stated : parsed.confirmation = confirmation.toList)
    (ratchet : parsed.ratchetKey = (KeyPair.fromSeed seed).publicKeys.encode) :
    pending.finish parsed =
      (.ok (⟨true, parsed.sessionId, parsed.idleSeconds⟩,
        ⟨Starts.default, Peer.new (S.secret root) none (some (KeyPair.fromSeed seed).publicKeys) true⟩), { pending with privateKey := none }) := by
  obtain ⟨recipient, received, same⟩ := agrees.exports _ _ _ _ _ _ known sent
  have established : pending.establish parsed privateKey enc =
      .ok (⟨true, parsed.sessionId, parsed.idleSeconds⟩,
        ⟨Starts.default, Peer.new (S.secret root) none (some (KeyPair.fromSeed seed).publicKeys) true⟩) := by
    simp only [establish, bind_ok, required_ok, rejectIf_ok, exists_unit, not_not]
    refine ⟨recipient, received, confirmation, (same _).trans confirmed, stated.symm, root, (same _).trans rooted, ?_⟩
    rw [ratchet, PublicKeys.decode_encode]
    exact ClientSession.new_generated validates _ _ _ _
  simp only [finish, encapped, agrees.encapped, kept, established]
  rfl

/-- A response is refused and the setup stays pending, or its evidence is bound to the transcript and
verified before the private key is used. -/
theorem PendingSetup.complete_cases (response : S.Bytes) (verify : SessionEvidence S.hashing → Except Evidence.ReportError Unit) :
    (∃ error, pending.complete response verify = (.error error, pending)) ∨
    ∃ parsed data, SetupEvidence.parse response = .ok parsed ∧ reportData parsed.evidence.report = some data ∧
      parsed.evidence.proof.verify
        (.e2eeSession pending.environment (S.hash256 parsed.evidence.bootDocument) (pending.transcript parsed)) data = .ok () ∧
      verify parsed.evidence = .ok () ∧ pending.complete response verify = pending.finish parsed := by
  unfold complete
  dsimp only
  split
  next error _ => exact .inl ⟨error, rfl⟩
  next parsed inspected =>
    simp only [inspect, bind_ok, mapError_ok, rejectIf_ok, required_ok, pure_ok, exists_unit] at inspected
    obtain ⟨_, ⟨-, _, read, data, known, bound, rfl⟩, verified, rfl⟩ := inspected
    exact .inr ⟨_, data, read, known, bound, verified, rfl⟩

/-! ## Transcripts -/

structure SetupView (S : SetupSuite) where
  hello : S.Bytes
  serverPrefix : S.Bytes
  bootHash : S.Array32
  transcript : S.Array32

def SetupView.preimage (view : SetupView S) : S.Bytes :=
  S.transcriptDomain ++ view.hello ++ view.serverPrefix ++ view.bootHash.toList

/-- The views of the two sides: of a server that prepared a response, and of a client that
read one. -/
inductive Viewed : SetupView S → Prop where
  | server {environment : Environment} {hello : S.Bytes} {idleSeconds : UInt32} {bootHash : S.Array32} {entropy : ServerEntropy S}
      {prepared : PreparedServerSetup S} (made : prepareServerSetup environment hello idleSeconds bootHash entropy = .ok prepared) :
      Viewed ⟨hello, prepared.responsePrefix.take serverPrefixBytes, bootHash, prepared.transcript⟩
  | client {environment : Environment} {entropy : ClientEntropy S} {pending : PendingSetup S} {response : S.Bytes}
      {parsed : SetupEvidence S} (created : PendingSetup.new environment entropy = .ok pending)
      (read : SetupEvidence.parse response = .ok parsed) :
      Viewed ⟨pending.hello, parsed.serverPrefix, S.hash256 parsed.evidence.bootDocument, pending.transcript parsed⟩

theorem parse_length {response : S.Bytes} {parsed} (read : SetupEvidence.parse response = .ok parsed) :
    parsed.serverPrefix.length = serverPrefixBytes := by
  simp only [SetupEvidence.parse, bind_ok, rejectIf_ok, mapError_ok, pure_ok, exists_unit, not_or] at read
  obtain ⟨⟨long, -, -⟩, -, -, _, -, rfl⟩ := read
  rw [List.length_take]
  omega

theorem Viewed.sizes {view} (viewed : Viewed view) :
    view.hello.length = clientSetupBytes ∧ view.serverPrefix.length = serverPrefixBytes ∧ view.transcript = S.hash256 view.preimage := by
  cases viewed with
  | server made =>
    obtain ⟨sized, -, _, _, _, _, _, _, -, -, transcript, -, -, -, written⟩ := prepareServerSetup_ok made
    have front := congrArg (List.take serverPrefixBytes) written
    rw [List.take_left' (serverFields_length ..)] at front
    refine ⟨sized, ?_, ?_⟩
    · rw [front]
      exact serverFields_length ..
    · rw [SetupView.preimage, front, transcript]
      rfl
  | client created read => exact ⟨PendingSetup.new_length created, parse_length read, rfl⟩

theorem Viewed.same {first second} (viewed : Viewed first) (other : Viewed second)
    (free : Set.InjOn S.hash256 {first.preimage, second.preimage}) (equal : first.transcript = second.transcript) :
    first.hello = second.hello ∧ first.serverPrefix = second.serverPrefix ∧ first.bootHash = second.bootHash := by
  obtain ⟨helloSize, prefixSize, hashed⟩ := viewed.sizes
  obtain ⟨helloSize', prefixSize', hashed'⟩ := other.sizes
  have preimages : first.preimage = second.preimage := by
    apply free (Set.mem_insert _ _) (Set.mem_insert_of_mem _ rfl)
    rw [← hashed, ← hashed', equal]
  simp only [SetupView.preimage, List.append_assoc] at preimages
  obtain ⟨hellos, rest⟩ := List.append_inj (List.append_cancel_left preimages) (helloSize.trans helloSize'.symm)
  obtain ⟨prefixes, digests⟩ := List.append_inj rest (prefixSize.trans prefixSize'.symm)
  exact ⟨hellos, prefixes, List.Vector.eq _ _ digests⟩

/-! ## Agreement -/

/-- The response to a hello, with evidence of the boot document that the server named, is read
back field by field; the client computes the server's transcript and ends with the server's
session identity, idle time, ratchet key and root. Views whose hello, server fields or boot
digest differ have different transcripts. -/
theorem setup_agrees (agrees : S.Agrees) (validates : S.toSuite.Validates) :
    (∀ {environment : Environment} {clientEntropy : ClientEntropy S} {pending : PendingSetup S} {idleSeconds : UInt32}
      {serverEntropy : ServerEntropy S} {prepared : PreparedServerSetup S} {payload : S.Bytes} {evidence : SessionEvidence S.hashing},
      PendingSetup.new environment clientEntropy = .ok pending →
      prepareServerSetup environment pending.hello idleSeconds (S.hash256 evidence.bootDocument) serverEntropy = .ok prepared →
      @SessionEvidence.fromBytes S.hashing payload = .ok evidence →
      ∃ parsed enc seed root, ∃ confirmation : S.Array32,
        prepared.session = ServerSession.new (S.secret root) prepared.sessionId.toList (KeyPair.fromSeed seed) ∧
        prepared.responsePrefix =
          serverFields prepared.sessionId idleSeconds enc (KeyPair.fromSeed seed).publicKeys ++ confirmation.toList ∧
        SetupEvidence.parse (prepared.responsePrefix ++ S.be 4 payload.length ++ payload) = .ok parsed ∧
        parsed = ⟨serverFields prepared.sessionId idleSeconds enc (KeyPair.fromSeed seed).publicKeys, (S.encappedToBytes enc).toList,
          confirmation.toList, (KeyPair.fromSeed seed).publicKeys.encode, prepared.sessionId.toList, idleSeconds.toNat, evidence⟩ ∧
        pending.transcript parsed = prepared.transcript ∧
        pending.finish parsed =
          (.ok (⟨true, prepared.sessionId.toList, idleSeconds.toNat⟩,
            ⟨Starts.default, Peer.new (S.secret root) none (some (KeyPair.fromSeed seed).publicKeys) true⟩),
          { pending with privateKey := none })) ∧
    ∀ {first second : SetupView S}, Viewed first → Viewed second → Set.InjOn S.hash256 {first.preimage, second.preimage} →
      (first.hello ≠ second.hello ∨ first.serverPrefix ≠ second.serverPrefix ∨ first.bootHash ≠ second.bootHash) →
      first.transcript ≠ second.transcript := by
  constructor
  · intro environment clientEntropy pending idleSeconds serverEntropy prepared payload evidence created made decoded
    obtain ⟨-, awake, publicKey, enc, sender, seed, root, confirmation, known, sent, transcript, rooted, confirmed, session, written⟩ :=
      prepareServerSetup_ok made
    obtain ⟨privateKey, kept, keys⟩ := PendingSetup.new_keys created
    rw [keys] at known
    refine ⟨_, enc, seed, root, confirmation, session, written, ?_, rfl, transcript.symm, ?_⟩
    · rw [written]
      exact parse_written _ awake _ _ _ decoded
    · rw [transcript] at rooted confirmed
      exact PendingSetup.finish_agrees agrees validates kept known sent rooted confirmed rfl rfl rfl
  · intro first second viewed other free apart equal
    obtain ⟨hellos, prefixes, digests⟩ := viewed.same other free equal
    obtain hello | fields | boot := apart
    · exact hello hellos
    · exact fields prefixes
    · exact boot digests

/-! The free terms as a suite for setups. A context is named by the recipient, the randomness
of the sender and the information that both bind. -/

open Symbolic in
def symbolicSetup : SetupSuite := {
  symbolic with
  symbolEq := Nat.decEq
  hash256 := (Hashing.free 31).hash
  hash512 := (Hashing.free 63).hash
  secret := fun bytes : List.Vector Nat 32 => .atom (Encodable.encode bytes.toList)
  PrivateKey := List Nat
  PublicKey := List Nat
  EncappedKey := List Nat × Term
  Context := List Nat × Term × List Nat
  privateKeyFromBytes := fun seed : List.Vector Nat 32 => some seed.toList
  skToPk := id
  publicKeyToBytes := fun key => ⟨pack 1216 key, pack_length _ _⟩
  publicKeyFromBytes := unpack (List Nat)
  encappedToBytes := fun enc => ⟨pack 1120 enc, pack_length _ _⟩
  encappedFromBytes := unpack (List Nat × Term)
  lowOrder := fun _ => false
  setupSender := fun key info randomness => some ((key, randomness), key, randomness, info)
  setupReceiver := fun key enc info => if enc.1 = key then some (key, enc.2, info) else none
  exportSecret := fun context (purpose : List Nat) => some ⟨pack 32 (context, purpose), pack_length _ _⟩ }

theorem symbolicSetup_agrees : symbolicSetup.Agrees where
  encapped _ := Symbolic.unpack_pack 1119 _
  exports := by
    intro privateKey publicKey info randomness enc sender known sent
    cases known.symm.trans (Symbolic.unpack_pack 1215 _)
    cases sent
    exact ⟨_, if_pos rfl, fun _ => rfl⟩

def symbolicZeros : symbolicSetup.Array32 := ⟨List.replicate 32 (0 : Nat), List.length_replicate⟩

def symbolicClient : ClientEntropy symbolicSetup := ⟨.ok symbolicZeros, .ok symbolicZeros⟩
def symbolicServer : ServerEntropy symbolicSetup := ⟨.atom 0, .ok symbolicZeros, .ok (.atom 1)⟩

def symbolicPayload : symbolicSetup.Bytes :=
  (List.replicate 1184 0 ++ ([0, 4] ++ ([0, 1, 0, 0] ++ (([0, 0, 0, 1] ++ [1]) ++ ([0, 0, 0, 1] ++ [2])))) : List Nat)

def symbolicEvidence : SessionEvidence symbolicSetup.hashing := ⟨List.replicate 1184 (0 : Nat), ⟨1, 0, []⟩, [(1 : Nat)], [(2 : Nat)]⟩

private theorem takeField_byte (byte : Nat) (rest : List Nat) :
    @SessionEvidence.takeField symbolicSetup.hashing ([0, 0, 0, 1] ++ [byte] ++ rest) = .ok ([byte], rest) := by
  apply bind_ok.mpr
  refine ⟨(([0, 0, 0, 1] : List Nat), [byte] ++ rest), SessionEvidence.take_ok.mpr ⟨List.append_assoc .., rfl⟩, ?_⟩
  apply bind_ok.mpr
  exact ⟨(), rejectIf_ok.mpr (by decide), SessionEvidence.take_ok.mpr ⟨rfl, rfl⟩⟩

private theorem symbolicEvidence_read : @SessionEvidence.fromBytes symbolicSetup.hashing symbolicPayload = .ok symbolicEvidence := by
  have proof : @Attestation.BatchProof.fromBytes symbolicSetup.hashing ([0, 1, 0, 0] : List Nat) = .ok ⟨1, 0, []⟩ := by
    have depth : Attestation.BatchProof.pathDepth 1 0 = 0 := by
      rw [Attestation.BatchProof.pathDepth]
      rfl
    exact (if_neg (by decide)).trans ((if_neg (by decide)).trans (if_neg (not_not.mpr depth)))
  have framed : symbolicPayload.length ≤ SessionEvidence.maxEvidenceBytes := by
    have cells (rest : List Nat) : (List.replicate 1184 0 ++ rest).length = 1184 + rest.length := by
      rw [List.length_append, List.length_replicate]
    exact (cells _).trans_le (by decide)
  apply bind_ok.mpr
  refine ⟨(), rejectIf_ok.mpr (Nat.not_lt.mpr framed), ?_⟩
  apply bind_ok.mpr
  refine ⟨_, SessionEvidence.take_ok.mpr ⟨rfl, List.length_replicate⟩, ?_⟩
  apply bind_ok.mpr
  refine ⟨_, SessionEvidence.take_ok.mpr ⟨rfl, rfl⟩, ?_⟩
  apply bind_ok.mpr
  refine ⟨(0 : Nat), rfl, ?_⟩
  apply bind_ok.mpr
  refine ⟨(4 : Nat), rfl, ?_⟩
  apply bind_ok.mpr
  refine ⟨_, SessionEvidence.take_ok.mpr ⟨rfl, rfl⟩, ?_⟩
  apply bind_ok.mpr
  refine ⟨_, mapError_ok.mpr proof, ?_⟩
  apply bind_ok.mpr
  refine ⟨_, takeField_byte 1 ([0, 0, 0, 1] ++ [2]), ?_⟩
  apply bind_ok.mpr
  refine ⟨_, takeField_byte 2 [], ?_⟩
  rfl

private theorem exists_prepared {pending}
    (created : PendingSetup.new environment symbolicClient = .ok pending) (bootHash : symbolicSetup.Array32) :
    ∃ prepared, prepareServerSetup environment pending.hello 60 bootHash symbolicServer = .ok prepared := by
  have sized := PendingSetup.new_length created
  obtain ⟨privateKey, -, keys⟩ := PendingSetup.new_keys created
  obtain ⟨_, challenge, -, hello⟩ := PendingSetup.new_ok created
  have header : pending.hello.take 6 = symbolicSetup.clientHeader := by
    rw [hello, List.append_assoc, List.append_assoc, ← clientHeader_length, List.take_left]
  have tagged : pending.hello[6]? = some (symbolicSetup.u8 (environmentByte environment)) := by
    rw [hello, List.append_assoc, List.append_assoc, ← clientHeader_length, List.getElem?_append_right (Nat.le_refl _), Nat.sub_self]
    rfl
  have known : symbolicSetup.publicKeyFromBytes (pending.hello.drop (6 + 1 + 32)) = some privateKey := by
    rw [keys]
    exact Symbolic.unpack_pack 1215 _
  simp only [prepareServerSetup, bind_ok, rejectIf_ok, required_ok, pure_ok, exists_unit, not_or, not_not]
  exact ⟨_, ⟨sized, header, tagged, by decide⟩, Bool.false_ne_true, privateKey, known, _, rfl, _, rfl, _, rfl, _, rfl, _, rfl, rfl⟩

/-- A setup that completes, and one for another boot digest, whose transcript is another. -/
theorem setup_agrees_symbolic :
    ∃ pending prepared other session shared parsed,
      PendingSetup.new .production symbolicClient = .ok pending ∧
      prepareServerSetup .production pending.hello 60 (symbolicSetup.hash256 symbolicEvidence.bootDocument) symbolicServer = .ok prepared ∧
      prepareServerSetup .production pending.hello 60 (symbolicSetup.hash256 symbolicEvidence.bootInclusion) symbolicServer = .ok other ∧
      SetupEvidence.parse (prepared.responsePrefix ++ symbolicSetup.be 4 symbolicPayload.length ++ symbolicPayload) = .ok parsed ∧
      pending.transcript parsed = prepared.transcript ∧
      pending.finish parsed = (.ok (session, shared), { pending with privateKey := none }) ∧
      prepared.transcript ≠ other.transcript := by
  have created : ∃ pending, PendingSetup.new .production symbolicClient = .ok pending := ⟨_, rfl⟩
  obtain ⟨pending, created⟩ := created
  obtain ⟨prepared, made⟩ := exists_prepared created (symbolicSetup.hash256 symbolicEvidence.bootDocument)
  obtain ⟨other, madeToo⟩ := exists_prepared created (symbolicSetup.hash256 symbolicEvidence.bootInclusion)
  have both := setup_agrees symbolicSetup_agrees Symbolic.validates
  obtain ⟨parsed, _, _, _, _, -, -, read, -, transcript, finished⟩ := both.1 created made symbolicEvidence_read
  have injective : Function.Injective symbolicSetup.hash256 := Hashing.free_collisionFree 31
  have digests : symbolicSetup.hash256 symbolicEvidence.bootDocument ≠ symbolicSetup.hash256 symbolicEvidence.bootInclusion :=
    injective.ne (by decide)
  have differ := both.2 (.server made) (.server madeToo) injective.injOn (.inr (.inr digests))
  exact ⟨pending, prepared, other, _, _, parsed, created, made, madeToo, read, transcript, finished, differ⟩

end StogasVerifier.Channel
