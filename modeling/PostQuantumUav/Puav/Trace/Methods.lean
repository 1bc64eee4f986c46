import PostQuantumUav.Library.Interaction.Trace
import PostQuantumUav.Puav.ProposedUavProtocol

/-!
# What the methods of a session leave in its trace

A trace of a session is the list of its calls with their answers. The calls that other
parties can observe or that use up a resource need a reason in what came before them: a
message that is sent, an object that is signed, an index that is reserved, and the points
of the session that are marked. All other calls are quiet.

The lemmas describe every method that both roles share: which events it leaves behind for
the value that it returns, and that it keeps the messages and the configuration.
-/

namespace Puav.ProposedUavProtocol

open Interaction Cell Buffer

variable {α κ : Type}

/-- A call whose event needs no reason. -/
def Call.Quiet : Call α κ → Prop
  | .putUInt _ => False
  | .sign _ _ _ => False
  | .sendMessage _ _ _ _ => False
  | .note _ _ => False
  | _ => True

section Events

/-- A call of a session with its answer. -/
abbrev Step (α κ : Type) := Event (calls α κ)

def draws (nonce : Nonce α) : Step α κ := ⟨.fillNonce, (nonce : Nonce α)⟩

def hashes (data : List α) (hash : Hash α) : Step α κ :=
  ⟨.sha256 data, (some hash : Option (Hash α))⟩

def tags (key data : List α) (tag : Hash α) : Step α κ :=
  ⟨.hmacSha256 key data, (some tag : Option (Hash α))⟩

def derives {length : Nat} (ikm salt info : List α) (material : List.Vector α length) : Step α κ :=
  ⟨.hkdfSha256 ikm salt info length, (some material : Option (List.Vector α length))⟩

def generates (key : κ) : Step α κ := ⟨.kemMakeKey, (some key : Option κ)⟩

def exports (key : κ) (publicKey : KemPublicKey α) : Step α κ :=
  ⟨.kemEncodePublicKey key, (some publicKey : Option (KemPublicKey α))⟩

def imports (publicKey : KemPublicKey α) (key : κ) : Step α κ :=
  ⟨.kemDecodePublicKey publicKey, (some key : Option κ)⟩

def encapsulates (key : κ) (ciphertext : KemCiphertext α) (sharedSecret : Hash α) : Step α κ :=
  ⟨.kemEncapsulate key, (some (ciphertext, sharedSecret) : Option (KemCiphertext α × Hash α))⟩

def decapsulates (key : κ) (ciphertext : KemCiphertext α) (sharedSecret : Hash α) : Step α κ :=
  ⟨.kemDecapsulate key ciphertext, (some sharedSecret : Option (Hash α))⟩

def signs (q : UInt32) (message : List α) (runtimeSeed : Hash α) (signature : SignatureCells α) :
    Step α κ :=
  ⟨.sign q message runtimeSeed, (some signature : Option (SignatureCells α))⟩

def attaches (q : UInt32) (path : PathCells α) : Step α κ :=
  ⟨.extractPath q, (some path : Option (PathCells α))⟩

/-- A signature is accepted under a peer's record. -/
def verifies (q : UInt32) (message : List α) (signature : SignatureCells α)
    (record : PeerPublicRecord) (path : PathCells α) : Step α κ :=
  ⟨.verify q message signature record.identifier path record.root, true⟩

def notes (milestone : Milestone) (view : View α) : Step α κ := ⟨.note milestone view, ()⟩

/-- The cell is a zero of the empty buffers, or it came in with a message. -/
def TakenIn (t : List (Step α κ)) [Cell α] (x : α) : Prop :=
  x = ofByte 0 ∨ ∃ type session capacity timeoutMs packet, ∃ cells : List α,
    (⟨.receiveMessage type session capacity timeoutMs, (packet, cells)⟩ : Step α κ) ∈ t ∧ x ∈ cells

theorem TakenIn.mono [Cell α] {t t' : List (Step α κ)} (more : t <+: t') {x : α}
    (h : TakenIn t x) : TakenIn t' x := by
  rcases h with zero | ⟨type, session, capacity, timeoutMs, packet, cells, mem, inside⟩
  · exact .inl zero
  · exact .inr ⟨type, session, capacity, timeoutMs, packet, cells, more.subset mem, inside⟩

end Events

/-- The fields that decide what a session does next. -/
structure Kept (object object' : ProposedUavProtocol α κ) : Prop where
  config : object'.config = object.config
  peerRecord : object'.peerRecord = object.peerRecord
  kemKey : object'.kemKey = object.kemKey
  m0 : object'.m0 = object.m0
  m1 : object'.m1 = object.m1
  m2 : object'.m2 = object.m2
  m3 : object'.m3 = object.m3
  m4 : object'.m4 = object.m4

theorem kept_self (object : ProposedUavProtocol α κ) : Kept object object :=
  ⟨rfl, rfl, rfl, rfl, rfl, rfl, rfl, rfl⟩

theorem Kept.trans {object object' object'' : ProposedUavProtocol α κ}
    (first : Kept object object') (second : Kept object' object'') : Kept object object'' where
  config := second.config.trans first.config
  peerRecord := second.peerRecord.trans first.peerRecord
  kemKey := second.kemKey.trans first.kemKey
  m0 := second.m0.trans first.m0
  m1 := second.m1.trans first.m1
  m2 := second.m2.trans first.m2
  m3 := second.m3.trans first.m3
  m4 := second.m4.trans first.m4

theorem Kept.measured {object object' : ProposedUavProtocol α κ} (h : Kept object object')
    (metrics : LocalMetrics) : Kept object { object' with metrics := metrics } :=
  ⟨h.config, h.peerRecord, h.kemKey, h.m0, h.m1, h.m2, h.m3, h.m4⟩

theorem Kept.withM2 {object object' : ProposedUavProtocol α κ} (h : Kept object object')
    (m2 : List.Vector α m2MaxBytes) : Kept { object with m2 := m2 } { object' with m2 := m2 } :=
  ⟨h.config, h.peerRecord, h.kemKey, h.m0, h.m1, rfl, h.m3, h.m4⟩

theorem Kept.withM3 {object object' : ProposedUavProtocol α κ} (h : Kept object object')
    (m3 : List.Vector α m3MaxBytes) : Kept { object with m3 := m3 } { object' with m3 := m3 } :=
  ⟨h.config, h.peerRecord, h.kemKey, h.m0, h.m1, h.m2, rfl, h.m4⟩

theorem Kept.withKemKey {object object' : ProposedUavProtocol α κ} {kemKey : Option κ}
    (h : Kept { object with kemKey := kemKey } object') (kemKey' : Option κ) :
    Kept { object with kemKey := kemKey' } { object' with kemKey := kemKey' } :=
  ⟨h.config, h.peerRecord, rfl, h.m0, h.m1, h.m2, h.m3, h.m4⟩

/-- The object of a device with this configuration and this record of its peer. -/
structure Configured (config : NodeConfig) (record : PeerPublicRecord)
    (object : ProposedUavProtocol α κ) : Prop where
  config : object.config = config
  peerRecord : object.peerRecord = record

variable {reason : List (Step α κ) → Step α κ → Prop} {object : ProposedUavProtocol α κ}
  {t : List (Step α κ)} (quiet : ∀ t (c : Call α κ) a, c.Quiet → reason t ⟨c, a⟩)

include quiet

section Calls

theorem emits_quiet (c : Call α κ) (h : c.Quiet) :
    Routine.Emits reason (fun a object' t' => object' = object ∧ (⟨c, a⟩ : Step α κ) ∈ t')
      (call c : Method α κ _) object t :=
  Routine.emits_perform (fun a => quiet _ c a h) fun _ =>
    ⟨rfl, List.mem_append_right _ List.mem_cons_self⟩

/-- Measuring an operation changes the metrics and adds two readings of the timer. -/
theorem emits_timed {β : Type} {post : β → ProposedUavProtocol α κ → List (Step α κ) → Prop}
    {add : UInt64 → LocalMetrics → LocalMetrics} {operation : Method α κ β}
    (h : ∀ t', t <+: t' → Routine.Emits reason post operation object t')
    (stable : ∀ b object' t' metrics e, post b object' t' →
      post b { object' with metrics := metrics } (t' ++ [e])) :
    Routine.Emits reason post (timed add operation) object t := by
  refine Routine.Emits.perform (fun a => quiet _ _ a trivial) fun start => ?_
  refine (h _ (List.prefix_append _ _)).attempt.bind fun result object' t' _ holds => ?_
  refine Routine.Emits.perform (fun a => quiet _ _ a trivial) fun now => Routine.Emits.modify ?_
  exact Routine.Emits.orFail (Routine.emits_pure fun b returned =>
    stable _ _ _ _ _ (holds b returned))

theorem emits_timedSha (data : List α) :
    Routine.Emits reason (fun hash object' t' => Kept object object' ∧ hashes data hash ∈ t')
      (timedSha data) object t := by
  refine emits_timed quiet (fun t' _ => Routine.Emits.orFail
    ((emits_quiet quiet (.sha256 data) trivial).mono ?_)) ?_
  · rintro answer _ t'' _ ⟨rfl, mem⟩ hash rfl
    exact ⟨kept_self _, mem⟩
  · exact fun _ _ _ metrics _ h => ⟨h.1.measured metrics, List.mem_append_left _ h.2⟩

theorem emits_timedHmac (key data : List α) :
    Routine.Emits reason (fun tag object' t' => Kept object object' ∧ tags key data tag ∈ t')
      (timedHmac key data) object t := by
  refine emits_timed quiet (fun t' _ => Routine.Emits.orFail
    ((emits_quiet quiet (.hmacSha256 key data) trivial).mono ?_)) ?_
  · rintro answer _ t'' _ ⟨rfl, mem⟩ tag rfl
    exact ⟨kept_self _, mem⟩
  · exact fun _ _ _ metrics _ h => ⟨h.1.measured metrics, List.mem_append_left _ h.2⟩

theorem emits_timedHkdf (ikm salt info : List α) (outputLength : Nat) :
    Routine.Emits reason (fun material object' t' => Kept object object' ∧
      derives ikm salt info material ∈ t') (timedHkdf ikm salt info outputLength) object t := by
  refine emits_timed quiet (fun t' _ => Routine.Emits.orFail
    ((emits_quiet quiet (.hkdfSha256 ikm salt info outputLength) trivial).mono ?_)) ?_
  · rintro answer _ t'' _ ⟨rfl, mem⟩ material rfl
    exact ⟨kept_self _, mem⟩
  · exact fun _ _ _ metrics _ h => ⟨h.1.measured metrics, List.mem_append_left _ h.2⟩

end Calls

section Kem

theorem emits_freeKem :
    Routine.Emits reason
      (fun _ object' _ => ∃ kemKey, Kept { object with kemKey := kemKey } object')
      (freeKem : Method α κ Unit) object t := by
  apply Routine.Emits.get
  split
  · refine Routine.Emits.perform (fun a => quiet _ _ a trivial) fun _ => Routine.emits_modify ?_
    exact ⟨none, rfl, rfl, rfl, rfl, rfl, rfl, rfl, rfl⟩
  · exact Routine.emits_pure ⟨object.kemKey, kept_self _⟩

theorem emits_initializeKem :
    Routine.Emits reason
      (fun _ object' _ => ∃ kemKey, Kept { object with kemKey := kemKey } object')
      (initializeKem : Method α κ Unit) object t := by
  refine (emits_freeKem quiet).bind fun _ object' t' _ kept => ?_
  have checked : Routine.Emits reason (fun _ object'' _ => object'' = object')
      (Routine.check (call .kemInit) : Method α κ Unit) object' t' :=
    Routine.Emits.check ((emits_quiet quiet .kemInit trivial).mono fun _ _ _ _ h _ => h.1)
  apply checked.bind
  rintro _ _ t'' _ rfl
  obtain ⟨kemKey, kept⟩ := kept
  exact Routine.emits_modify ⟨kemKey, kept.config, kept.peerRecord, kept.kemKey, kept.m0, kept.m1,
    kept.m2, kept.m3, kept.m4⟩

theorem emits_timedMakeKey :
    Routine.Emits reason (fun publicKey object' t' => ∃ key,
      Kept { object with kemKey := some key } object' ∧ generates key ∈ t' ∧
        exports key publicKey ∈ t') (timedMakeKey : Method α κ _) object t := by
  refine emits_timed quiet (fun t' _ => ?_) ?_
  · have asked : Routine.Emits reason (fun key object' t' => object' = object ∧ generates key ∈ t')
        (Routine.orFail (call .kemMakeKey) : Method α κ κ) object t' := by
      refine Routine.Emits.orFail ((emits_quiet quiet .kemMakeKey trivial).mono ?_)
      rintro answer _ t'' _ ⟨rfl, mem⟩ key rfl
      exact ⟨rfl, mem⟩
    apply asked.bind
    rintro key _ t'' _ ⟨rfl, generated⟩
    refine Routine.Emits.modify (Routine.Emits.orFail
      ((emits_quiet quiet (.kemEncodePublicKey key) trivial).mono ?_))
    rintro answer _ t''' more ⟨rfl, mem⟩ publicKey rfl
    exact ⟨key, kept_self _, more.subset generated, mem⟩
  · rintro publicKey object' t' metrics e ⟨key, kept, generated, exported⟩
    exact ⟨key, kept.measured metrics, List.mem_append_left _ generated,
      List.mem_append_left _ exported⟩

theorem emits_timedEncapsulate (publicKey : KemPublicKey α) :
    Routine.Emits reason (fun pair object' t' => ∃ key,
      Kept { object with kemKey := some key } object' ∧ imports publicKey key ∈ t' ∧
        encapsulates key pair.1 pair.2 ∈ t') (timedEncapsulate publicKey : Method α κ _)
      object t := by
  refine emits_timed quiet (fun t' _ => ?_) ?_
  · have asked : Routine.Emits reason (fun key object' t' => object' = object ∧
        imports publicKey key ∈ t')
        (Routine.orFail (call (.kemDecodePublicKey publicKey)) : Method α κ κ) object t' := by
      refine Routine.Emits.orFail
        ((emits_quiet quiet (.kemDecodePublicKey publicKey) trivial).mono ?_)
      rintro answer _ t'' _ ⟨rfl, mem⟩ key rfl
      exact ⟨rfl, mem⟩
    apply asked.bind
    rintro key _ t'' _ ⟨rfl, imported⟩
    refine Routine.Emits.modify (Routine.Emits.orFail
      ((emits_quiet quiet (.kemEncapsulate key) trivial).mono ?_))
    rintro answer _ t''' more ⟨rfl, mem⟩ pair rfl
    exact ⟨key, kept_self _, more.subset imported, mem⟩
  · rintro pair object' t' metrics e ⟨key, kept, imported, encapsulated⟩
    exact ⟨key, kept.measured metrics, List.mem_append_left _ imported,
      List.mem_append_left _ encapsulated⟩

theorem emits_timedDecapsulate (ciphertext : KemCiphertext α) :
    Routine.Emits reason (fun sharedSecret object' t' => Kept object object' ∧
      ∃ key, object.kemKey = some key ∧ decapsulates key ciphertext sharedSecret ∈ t')
      (timedDecapsulate ciphertext : Method α κ _) object t := by
  refine Routine.Emits.get (emits_timed quiet (fun t' _ => ?_) ?_)
  · refine Routine.Emits.held fun key held => Routine.Emits.orFail
      ((emits_quiet quiet (.kemDecapsulate key ciphertext) trivial).mono ?_)
    rintro answer _ t''' _ ⟨rfl, mem⟩ sharedSecret rfl
    exact ⟨kept_self _, key, held, mem⟩
  · rintro sharedSecret object' t' metrics e ⟨kept, key, held, decapsulated⟩
    exact ⟨kept.measured metrics, key, held, List.mem_append_left _ decapsulated⟩

end Kem

section Records

theorem emits_validatePeerRecord (version : UInt32) :
    Routine.Emits reason (fun _ object' _ => Kept object object')
      (validatePeerRecord version : Method α κ Unit) object t := by
  refine Routine.Emits.get (Routine.Emits.guard fun _ => ?_)
  split
  · exact Routine.Emits.perform (fun a => quiet _ _ a trivial) fun (now : Int) =>
      Routine.emits_guard fun _ => kept_self _
  · exact Routine.emits_pure (kept_self _)

theorem emits_obtainPeerPath (version q : UInt32) (carried : PathCells α) :
    Routine.Emits reason (fun _ object' _ => Kept object object')
      (obtainPeerPath version q carried : Method α κ _) object t := by
  apply Routine.Emits.get
  split
  · exact Routine.emits_pure (kept_self _)
  · have fetched : Routine.Emits reason (fun _ object' _ => object' = object)
        (Routine.orFail (call (.fetchPeerPath version q)) : Method α κ _) object t := by
      refine Routine.Emits.orFail ((emits_quiet quiet (.fetchPeerPath version q) trivial).mono ?_)
      rintro answer _ t' _ ⟨rfl, -⟩ found rfl
      rfl
    apply fetched.bind
    rintro ⟨path, operation⟩ _ t' _ rfl
    exact Routine.Emits.modify (Routine.emits_pure ((kept_self _).measured _))

/-- The path goes with the mode. -/
theorem emits_attachPath (q : UInt32) :
    Routine.Emits reason (fun path object' t' => Kept object object' ∧
      (path.isSome = true ↔ object.config.pathMode = .signerCarried) ∧
        ∀ p, path = some p → attaches q p ∈ t') (attachPath q : Method α κ _) object t := by
  apply Routine.Emits.get
  split
  · rename_i mode
    refine Routine.emits_pure ⟨kept_self _, ?_, ?_⟩
    · simp [mode]
    · rintro _ ⟨⟩
  · rename_i mode
    have asked : Routine.Emits reason (fun path object' t' => object' = object ∧
        attaches q path ∈ t') (Routine.orFail (call (.extractPath q)) : Method α κ _) object t := by
      refine Routine.Emits.orFail ((emits_quiet quiet (.extractPath q) trivial).mono ?_)
      rintro answer _ t' _ ⟨rfl, mem⟩ path rfl
      exact ⟨rfl, mem⟩
    apply asked.bind
    rintro path _ t' _ ⟨rfl, mem⟩
    refine Routine.emits_pure ⟨kept_self _, ?_, ?_⟩
    · simp [mode]
    · rintro _ ⟨⟩
      exact mem

theorem emits_timedVerify (q : UInt32) (signature : SignatureCells α) (path : PathCells α) :
    Routine.Emits reason (fun _ object' t' => Kept object object' ∧
      verifies q object.signInput.toList signature object.peerRecord path ∈ t')
      (timedVerify q signature path : Method α κ Unit) object t := by
  refine Routine.Emits.get (Routine.Emits.check ?_)
  refine emits_timed quiet (fun t' _ => (emits_quiet quiet (.verify q object.signInput.toList
    signature object.peerRecord.identifier path object.peerRecord.root) trivial).mono ?_) ?_
  · rintro ok _ t'' _ ⟨rfl, mem⟩ rfl
    exact ⟨kept_self _, mem⟩
  · exact fun _ _ _ metrics _ h accepted => ⟨(h accepted).1.measured metrics,
      List.mem_append_left _ (h accepted).2⟩

end Records

section Counter

/-- The index is written to the counter before it is returned. -/
theorem emits_reserveQ (now : ∀ t' value a, t <+: t' → reason t' ⟨.putUInt value, a⟩) :
    Routine.Emits reason (fun _ object' _ => object' = object) (reserveQ : Method α κ UInt32)
      object t := by
  refine Routine.Emits.get (Routine.Emits.perform (fun a => quiet _ _ a trivial)
    fun (nextQ : UInt32) => Routine.Emits.guard fun _ => ?_)
  refine Routine.Emits.perform (fun a => now _ _ a (List.prefix_append _ _))
    fun (stored : Nat) => Routine.Emits.guard fun _ => ?_
  exact Routine.emits_pure rfl

end Counter

section Transport

omit quiet in
theorem emits_sendProtocolMessage {destination : Transport.Endpoint} {type : UInt8}
    {session : UInt32} {data : List α} {countAsProtocol : Bool}
    (now : ∀ a, reason t ⟨.sendMessage destination type session data, a⟩) :
    Routine.Emits reason (fun _ object' _ => Kept object object')
      (sendProtocolMessage destination type session data countAsProtocol : Method α κ Unit)
      object t := by
  have sent : Routine.Emits reason (fun _ object' _ => object' = object)
      (Routine.orFail (call (.sendMessage destination type session data)) : Method α κ UInt32)
      object t :=
    Routine.Emits.orFail (Routine.emits_perform now fun _ _ _ => rfl)
  apply sent.bind
  rintro framedBytes _ t' _ rfl
  apply Routine.emits_modify
  split
  · exact (kept_self _).measured _
  · exact kept_self _

/-- What was received is in the buffer of the message. -/
theorem emits_receiveProtocolMessage {type : UInt8} {session : UInt32}
    {capacity expectedLength : Nat}
    {store : List α → ProposedUavProtocol α κ → ProposedUavProtocol α κ} {countAsProtocol : Bool} :
    Routine.Emits reason (fun packet object' t' => ∃ cells : List α,
      Kept (store cells object) object' ∧
        (⟨.receiveMessage type session capacity receiveTimeoutMs, (some packet, cells)⟩ :
          Step α κ) ∈ t' ∧ (expectedLength = 0 ∨ packet.length = expectedLength))
      (receiveProtocolMessage type session capacity expectedLength store countAsProtocol)
      object t := by
  refine Routine.Emits.perform (fun a => quiet _ _ a trivial) ?_
  rintro ⟨received, cells⟩
  refine Routine.Emits.modify (Routine.Emits.held ?_)
  rintro packet rfl
  refine Routine.Emits.guard fun length => Routine.Emits.modify (Routine.emits_pure ?_)
  refine ⟨cells, ?_, List.mem_append_right _ List.mem_cons_self, length⟩
  split
  · exact (kept_self _).measured _
  · exact kept_self _

variable [Cell α]

/-- Nothing is said of what the cleanup leaves. -/
theorem emits_cleaned {β : Type} {post : β → ProposedUavProtocol α κ → List (Step α κ) → Prop}
    {body : Method α κ β} (h : Routine.Emits reason post body object t) :
    Routine.Emits reason (fun _ _ _ => True) (cleaned body) object t := by
  refine h.attempt.bind fun outcome object' t' _ _ => ?_
  have cleans : Routine.Emits reason (fun _ _ _ => True) (cleanup : Method α κ Unit) object' t' :=
    (emits_freeKem quiet).bind fun _ _ _ _ _ => Routine.emits_modify trivial
  exact cleans.bind fun _ _ _ _ _ => Routine.Emits.orFail (Routine.emits_pure fun _ _ => trivial)

end Transport

section Keys

variable [Cell α]

theorem emits_timedRuntimeSeed :
    Routine.Emits reason (fun _ object' _ => Kept object object')
      (timedRuntimeSeed : Method α κ (Hash α)) object t := by
  apply Routine.Emits.get
  have measured : Routine.Emits reason (fun _ object' _ => Kept object object')
      (timed (fun us metrics => { metrics with pufFeUs := metrics.pufFeUs + us })
        (Routine.orFail (call .reconstruct)) : Method α κ (Hash α)) object t := by
    refine emits_timed quiet (fun t' _ => Routine.Emits.orFail
      ((emits_quiet quiet .reconstruct trivial).mono ?_)) ?_
    · rintro answer _ t'' _ ⟨rfl, -⟩ root rfl
      exact kept_self _
    · exact fun _ _ _ metrics _ h => h.measured metrics
  refine measured.bind fun pufRoot object' t' _ kept => ?_
  exact (emits_timedHkdf quiet _ _ _ _).mono fun _ _ _ _ h => kept.trans h.1

theorem emits_timedTranscriptHash (sid : Hash α) (m2Length : Nat) (m3Inner : List α) :
    Routine.Emits reason (fun hash object' t' => Kept object object' ∧
      hashes (transcriptInput sid object.m0 object.m1 (slice object.m2.toList 0 m2Length) m3Inner)
        hash ∈ t')
      (timedTranscriptHash sid m2Length m3Inner : Method α κ _) object t := by
  refine Routine.Emits.get (emits_timed quiet (fun t' _ => Routine.Emits.guard fun _ =>
    Routine.Emits.orFail ((emits_quiet quiet (.sha256 _) trivial).mono ?_)) ?_)
  · rintro answer _ t'' _ ⟨rfl, mem⟩ hash rfl
    exact ⟨kept_self _, mem⟩
  · exact fun _ _ _ metrics _ h => ⟨h.1.measured metrics, List.mem_append_left _ h.2⟩

theorem emits_computeSid0 :
    Routine.Emits reason (fun sid object' t' => Kept object object' ∧
      hashes (sid0Input object.m0 object.m1) sid ∈ t') (computeSid0 : Method α κ _) object t :=
  Routine.Emits.get (emits_timedSha quiet _)

theorem emits_computeConfirmationTag (domain : UInt8) (confirmationKey transcriptHash : Hash α) :
    Routine.Emits reason (fun tag object' t' => Kept object object' ∧
      tags confirmationKey.toList (hashInput domain transcriptHash) tag ∈ t')
      (computeConfirmationTag domain confirmationKey transcriptHash : Method α κ _) object t :=
  emits_timedHmac quiet _ _

omit quiet

/-- The hash and the keys of a view were computed from its messages and the secret. -/
structure Derived (t : List (Step α κ)) (sharedSecret : Hash α) (view : View α) : Prop where
  hashed : hashes (transcriptInput view.sid view.m0 view.m1 view.m2 view.inner)
    view.transcriptHash ∈ t
  keys : ∃ material : List.Vector α sessionKeyMaterialBytes,
    derives sharedSecret.toList view.transcriptHash.toList
      (hashInput domainUavAke view.transcriptHash) material ∈ t ∧
    view.sessionKey.toList = slice material.toList 0 hashBytes ∧
    view.confirmA.toList = slice material.toList hashBytes hashBytes ∧
    view.confirmB.toList = slice material.toList (2 * hashBytes) hashBytes

theorem Derived.mono {t t' : List (Step α κ)} (more : t <+: t') {sharedSecret : Hash α}
    {view : View α} (h : Derived t sharedSecret view) : Derived t' sharedSecret view := by
  obtain ⟨material, derived, parts⟩ := h.keys
  exact ⟨more.subset h.hashed, material, more.subset derived, parts⟩

include quiet

theorem emits_deriveView (sid sharedSecret : Hash α) (inner : List α) :
    Routine.Emits reason (fun view object' t' => Kept object object' ∧
      Derived t' sharedSecret view ∧ view.sid = sid ∧ view.m0 = object.m0 ∧ view.m1 = object.m1 ∧
        view.m2 = object.sentM2 ∧ view.inner = inner)
      (deriveView sid sharedSecret inner : Method α κ _) object t := by
  refine Routine.Emits.get ((emits_timedTranscriptHash quiet _ _ _).bind ?_)
  rintro transcriptHash object' t' _ ⟨kept, hashed⟩
  have derived : Routine.Emits reason (fun keys object'' t'' => Kept object object'' ∧
      ∃ material : List.Vector α sessionKeyMaterialBytes,
        derives sharedSecret.toList transcriptHash.toList (hashInput domainUavAke transcriptHash)
          material ∈ t'' ∧ keys.sessionKey.toList = slice material.toList 0 hashBytes ∧
        keys.confirmA.toList = slice material.toList hashBytes hashBytes ∧
        keys.confirmB.toList = slice material.toList (2 * hashBytes) hashBytes)
      (deriveSessionKeys sharedSecret transcriptHash : Method α κ (SessionKeys α)) object' t' := by
    refine (emits_timedHkdf quiet _ _ _ _).bind ?_
    rintro material object'' t'' _ ⟨kept', mem⟩
    exact Routine.emits_pure ⟨kept.trans kept', material, mem, rfl, rfl, rfl⟩
  apply derived.bind
  rintro keys object'' t'' more ⟨kept', material, mem, parts⟩
  exact Routine.emits_pure ⟨kept', ⟨more.subset hashed, material, mem, parts⟩, rfl, rfl, rfl, rfl,
    rfl⟩

end Keys

section Signing

/-- The object that is signed has its reason. -/
theorem emits_timedSign {q : UInt32} {runtimeSeed : Hash α} (now : ∀ t' a, t <+: t' →
      reason t' ⟨.sign q object.signInput.toList runtimeSeed, a⟩) :
    Routine.Emits reason (fun signature object' t' => Kept object object' ∧
      signs q object.signInput.toList runtimeSeed signature ∈ t')
      (timedSign q runtimeSeed : Method α κ _) object t := by
  refine Routine.Emits.get (emits_timed quiet (fun t' more => Routine.Emits.orFail ?_) ?_)
  · refine Routine.emits_perform (fun a => now t' a more) ?_
    rintro answer signature rfl
    exact ⟨kept_self _, List.mem_append_right _ List.mem_cons_self⟩
  · exact fun _ _ _ metrics _ h => ⟨h.1.measured metrics, List.mem_append_left _ h.2⟩

variable [Cell α]

omit quiet in
theorem emits_buildM2SignedInput (sid : Hash α) (version q : UInt32) (publicKey : KemPublicKey α) :
    Routine.Emits reason (fun _ object' _ => Kept object object' ∧ object'.signInput =
      signedInput (muA sid object.config.idA object.config.idB version publicKey) q)
      (buildM2SignedInput sid version q publicKey : Method α κ Unit) object t :=
  Routine.emits_modify ⟨⟨rfl, rfl, rfl, rfl, rfl, rfl, rfl, rfl⟩, rfl⟩

omit quiet in
theorem emits_buildM3SignedInput (sid hashM2 : Hash α) (version q : UInt32)
    (ciphertext : KemCiphertext α) :
    Routine.Emits reason (fun _ object' _ => Kept object object' ∧ object'.signInput =
      signedInput (muB sid hashM2 object.config.idA object.config.idB version ciphertext) q)
      (buildM3SignedInput sid hashM2 version q ciphertext : Method α κ Unit) object t :=
  Routine.emits_modify ⟨⟨rfl, rfl, rfl, rfl, rfl, rfl, rfl, rfl⟩, rfl⟩

end Signing

end Puav.ProposedUavProtocol
