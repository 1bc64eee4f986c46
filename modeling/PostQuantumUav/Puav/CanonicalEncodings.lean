import PostQuantumUav.Puav.ProposedUavProtocol

/-!
# Canonical encodings

The strings that a session hashes, signs and derives keys from, written field by field
at the offsets of the source into a buffer with any old contents. The fields follow each
other without gaps, so a string is the concatenation of its fields.

Two strings are equal only if they serve the same purpose and agree in every field: a
domain byte tells the purposes apart, the signed objects by the domain byte of the
object inside, and every field has a fixed size or its length in front.
-/

namespace Puav

open Interaction Cell Buffer

variable {α : Type} [Cell α]

/-- A string that a session builds, with its fields. -/
inductive Encoded (α : Type) where
  | sid0 (m0 : List.Vector α m0Bytes) (m1 : List.Vector α m1Bytes)
  | signedM2 (sid : Hash α) (idA idB : Identity) (version q : UInt32) (publicKey : KemPublicKey α)
  | signedM3 (sid hashM2 : Hash α) (idA idB : Identity) (version q : UInt32)
      (ciphertext : KemCiphertext α)
  | transcript (sid : Hash α) (m0 : List.Vector α m0Bytes) (m1 : List.Vector α m1Bytes)
      (m2 inner : List α) (m2Length : m2.length ≤ 65535) (innerLength : inner.length ≤ 65535)
  | sessionKeys (transcriptHash : Hash α)
  | confirmB (transcriptHash : Hash α)
  | confirmA (transcriptHash : Hash α)

namespace Encoded

section Layout

/-- `input` of `computeSid0`. -/
def sid0Fields (m0 : List.Vector α m0Bytes) (m1 : List.Vector α m1Bytes) : List (Nat × List α) :=
  [(0, [ofByte protocolVersion]), (1, [ofByte domainSid0]), (2, putU16 (.ofNat m0Bytes)),
    (4, m0.toList), (90, putU16 (.ofNat m1Bytes)), (92, m1.toList)]

/-- `m_mu` in `buildM2SignedInput`. -/
def muAFields (sid : Hash α) (idA idB : Identity) (version : UInt32)
    (publicKey : KemPublicKey α) : List (Nat × List α) :=
  [(0, [ofByte protocolVersion]), (1, [ofByte domainInit]), (2, sid.toList),
    (34, ofBytes idA.toList), (66, ofBytes idB.toList), (98, putU32 version),
    (102, publicKey.toList)]

/-- `m_mu` in `buildM3SignedInput`. -/
def muBFields (sid hashM2 : Hash α) (idA idB : Identity) (version : UInt32)
    (ciphertext : KemCiphertext α) : List (Nat × List α) :=
  [(0, [ofByte protocolVersion]), (1, [ofByte domainResp]), (2, sid.toList), (34, hashM2.toList),
    (66, ofBytes idA.toList), (98, ofBytes idB.toList), (130, putU32 version),
    (134, ciphertext.toList)]

/-- `m_signInput` around `m_mu`. -/
def signInputFields (mu : List.Vector α muABytes) (q : UInt32) : List (Nat × List α) :=
  [(0, [ofByte protocolVersion]), (1, [ofByte domainLmotsSign]), (2, putU16 (.ofNat muABytes)),
    (4, mu.toList), (4 + muABytes, putU32 q)]

/-- `info` of `deriveSessionKeys` and `input` of `computeConfirmationTag`. -/
def hashFields (domain : UInt8) (transcriptHash : Hash α) : List (Nat × List α) :=
  [(0, [ofByte protocolVersion]), (1, [ofByte domain]), (2, putU16 (.ofNat hashBytes)),
    (4, transcriptHash.toList)]

theorem toList_sid0 (input : List.Vector α sid0InputBytes) (m0 : List.Vector α m0Bytes)
    (m1 : List.Vector α m1Bytes) :
    (writes input (sid0Fields m0 m1)).toList = sid0Input m0 m1 := by
  rw [toList_writes]
  · simp only [sid0Fields, sid0Input, List.map_cons, List.map_nil, List.flatten_cons,
      List.flatten_nil, List.append_nil, List.append_assoc, List.cons_append, List.nil_append]
  · simp only [sid0Fields, Contiguous, List.length_singleton, length_putU16,
      List.Vector.toList_length]
    decide

theorem writes_muA (mu : List.Vector α muABytes) (sid : Hash α) (idA idB : Identity)
    (version : UInt32) (publicKey : KemPublicKey α) :
    writes mu (muAFields sid idA idB version publicKey) = muA sid idA idB version publicKey := by
  apply List.Vector.toList_injective
  rw [toList_writes]
  · simp only [muAFields, muA, List.Vector.toList_mk, List.map_cons, List.map_nil,
      List.flatten_cons, List.flatten_nil, List.append_nil, List.append_assoc, List.cons_append,
      List.nil_append]
  · simp only [muAFields, Contiguous, List.length_singleton, length_putU32, length_ofBytes,
      List.Vector.toList_length]
    decide

theorem writes_muB (mu : List.Vector α muBBytes) (sid hashM2 : Hash α) (idA idB : Identity)
    (version : UInt32) (ciphertext : KemCiphertext α) :
    writes mu (muBFields sid hashM2 idA idB version ciphertext) =
      muB sid hashM2 idA idB version ciphertext := by
  apply List.Vector.toList_injective
  rw [toList_writes]
  · simp only [muBFields, muB, List.Vector.toList_mk, List.map_cons, List.map_nil,
      List.flatten_cons, List.flatten_nil, List.append_nil, List.append_assoc, List.cons_append,
      List.nil_append]
  · simp only [muBFields, Contiguous, List.length_singleton, length_putU32, length_ofBytes,
      List.Vector.toList_length]
    decide

theorem writes_signInput (signInput : List.Vector α lmotsSignedObjectBytes)
    (mu : List.Vector α muABytes) (q : UInt32) :
    writes signInput (signInputFields mu q) = signedInput mu q := by
  apply List.Vector.toList_injective
  rw [toList_writes]
  · simp only [signInputFields, signedInput, List.Vector.toList_mk, List.map_cons, List.map_nil,
      List.flatten_cons, List.flatten_nil, List.append_nil, List.append_assoc, List.cons_append,
      List.nil_append]
  · simp only [signInputFields, Contiguous, List.length_singleton, length_putU16, length_putU32,
      List.Vector.toList_length]
    decide

theorem toList_hashFields (input : List.Vector α (4 + hashBytes)) (domain : UInt8)
    (transcriptHash : Hash α) :
    (writes input (hashFields domain transcriptHash)).toList = hashInput domain transcriptHash := by
  rw [toList_writes]
  · simp only [hashFields, hashInput, List.map_cons, List.map_nil, List.flatten_cons,
      List.flatten_nil, List.append_nil, List.cons_append, List.nil_append]
  · simp only [hashFields, Contiguous, List.length_singleton, length_putU16,
      List.Vector.toList_length]
    decide

end Layout

/-- The string that the source leaves in its buffer for `x`, whatever the buffer held. The
transcript is not collected in a buffer but hashed part by part. -/
def Produces : Encoded α → List α → Prop
  | .sid0 m0 m1, out => ∃ input : List.Vector α sid0InputBytes,
      out = (writes input (sid0Fields m0 m1)).toList
  | .signedM2 sid idA idB version q publicKey, out =>
      ∃ (mu : List.Vector α muABytes) (signInput : List.Vector α lmotsSignedObjectBytes),
        out = (writes signInput
          (signInputFields (writes mu (muAFields sid idA idB version publicKey)) q)).toList
  | .signedM3 sid hashM2 idA idB version q ciphertext, out =>
      ∃ (mu : List.Vector α muBBytes) (signInput : List.Vector α lmotsSignedObjectBytes),
        out = (writes signInput
          (signInputFields (writes mu (muBFields sid hashM2 idA idB version ciphertext)) q)).toList
  | .transcript sid m0 m1 m2 inner _ _, out => out = transcriptInput sid m0 m1 m2 inner
  | .sessionKeys transcriptHash, out => ∃ info : List.Vector α (4 + hashBytes),
      out = (writes info (hashFields domainUavAke transcriptHash)).toList
  | .confirmB transcriptHash, out => ∃ input : List.Vector α (4 + hashBytes),
      out = (writes input (hashFields domainBConfirm transcriptHash)).toList
  | .confirmA transcriptHash, out => ∃ input : List.Vector α (4 + hashBytes),
      out = (writes input (hashFields domainAConfirm transcriptHash)).toList

/-- The fields of a string, one after the other. -/
def bytes : Encoded α → List α
  | .sid0 m0 m1 => sid0Input m0 m1
  | .signedM2 sid idA idB version q publicKey =>
      (signedInput (muA sid idA idB version publicKey) q).toList
  | .signedM3 sid hashM2 idA idB version q ciphertext =>
      (signedInput (muB sid hashM2 idA idB version ciphertext) q).toList
  | .transcript sid m0 m1 m2 inner _ _ => transcriptInput sid m0 m1 m2 inner
  | .sessionKeys transcriptHash => hashInput domainUavAke transcriptHash
  | .confirmB transcriptHash => hashInput domainBConfirm transcriptHash
  | .confirmA transcriptHash => hashInput domainAConfirm transcriptHash

theorem Produces.eq_bytes {x : Encoded α} {out : List α} (h : x.Produces out) : out = x.bytes := by
  cases x with
  | sid0 m0 m1 =>
      obtain ⟨input, rfl⟩ := h
      exact toList_sid0 input m0 m1
  | signedM2 sid idA idB version q publicKey =>
      obtain ⟨mu, signInput, rfl⟩ := h
      rw [writes_signInput, writes_muA]
      rfl
  | signedM3 sid hashM2 idA idB version q ciphertext =>
      obtain ⟨mu, signInput, rfl⟩ := h
      rw [writes_signInput, writes_muB]
      rfl
  | transcript sid m0 m1 m2 inner _ _ => exact h
  | sessionKeys transcriptHash =>
      obtain ⟨info, rfl⟩ := h
      exact toList_hashFields info _ transcriptHash
  | confirmB transcriptHash =>
      obtain ⟨input, rfl⟩ := h
      exact toList_hashFields input _ transcriptHash
  | confirmA transcriptHash =>
      obtain ⟨input, rfl⟩ := h
      exact toList_hashFields input _ transcriptHash

section Separation

/-- The second byte of a string. -/
def domain : Encoded α → UInt8
  | .sid0 .. => domainSid0
  | .signedM2 .. => domainLmotsSign
  | .signedM3 .. => domainLmotsSign
  | .transcript .. => domainTranscript
  | .sessionKeys _ => domainUavAke
  | .confirmB _ => domainBConfirm
  | .confirmA _ => domainAConfirm

theorem readByte_bytes (x : Encoded α) : readByte x.bytes 1 = x.domain := by
  cases x <;> exact toByte_ofByte _

theorem sid0Input_inj {m0 m0' : List.Vector α m0Bytes} {m1 m1' : List.Vector α m1Bytes}
    (same : sid0Input m0 m1 = sid0Input m0' m1') : m0 = m0' ∧ m1 = m1' := by
  simp only [sid0Input, List.append_assoc] at same
  have rest := List.append_cancel_left (List.append_cancel_left same)
  obtain ⟨first, rest⟩ := List.append_inj rest (by rw [m0.toList_length, m0'.toList_length])
  have second := List.append_cancel_left rest
  exact ⟨List.Vector.toList_injective first, List.Vector.toList_injective second⟩

theorem signedInput_inj {mu mu' : List.Vector α muABytes} {q q' : UInt32}
    (same : (signedInput mu q).toList = (signedInput mu' q').toList) : mu = mu' ∧ q = q' := by
  simp only [signedInput, List.Vector.toList_mk, List.append_assoc] at same
  have rest := List.append_cancel_left (List.append_cancel_left same)
  obtain ⟨first, second⟩ := List.append_inj rest (by rw [mu.toList_length, mu'.toList_length])
  exact ⟨List.Vector.toList_injective first, putU32_inj.mp second⟩

theorem hashInput_inj {domain : UInt8} {hash hash' : Hash α}
    (same : hashInput domain hash = hashInput domain hash') : hash = hash' := by
  simp only [hashInput, List.append_assoc] at same
  exact List.Vector.toList_injective (List.append_cancel_left (List.append_cancel_left same))

theorem ofIdentity_inj {id id' : Identity}
    (same : (ofBytes id.toList : List α) = ofBytes id'.toList) : id = id' :=
  List.Vector.toList_injective (ofBytes_inj.mp same)

theorem muA_inj {sid sid' : Hash α} {idA idA' idB idB' : Identity} {version version' : UInt32}
    {publicKey publicKey' : KemPublicKey α}
    (same : muA sid idA idB version publicKey = muA sid' idA' idB' version' publicKey') :
    sid = sid' ∧ idA = idA' ∧ idB = idB' ∧ version = version' ∧ publicKey = publicKey' := by
  have parts := congrArg List.Vector.toList same
  simp only [muA, List.Vector.toList_mk, List.append_assoc] at parts
  have rest := List.append_cancel_left parts
  obtain ⟨first, rest⟩ := List.append_inj rest (by rw [sid.toList_length, sid'.toList_length])
  obtain ⟨second, rest⟩ := List.append_inj rest (by
    rw [length_ofBytes, length_ofBytes, idA.toList_length, idA'.toList_length])
  obtain ⟨third, rest⟩ := List.append_inj rest (by
    rw [length_ofBytes, length_ofBytes, idB.toList_length, idB'.toList_length])
  obtain ⟨fourth, fifth⟩ := List.append_inj rest (by rw [length_putU32, length_putU32])
  exact ⟨List.Vector.toList_injective first, ofIdentity_inj second, ofIdentity_inj third,
    putU32_inj.mp fourth, List.Vector.toList_injective fifth⟩

theorem muB_inj {sid sid' hashM2 hashM2' : Hash α} {idA idA' idB idB' : Identity}
    {version version' : UInt32} {ciphertext ciphertext' : KemCiphertext α}
    (same : muB sid hashM2 idA idB version ciphertext =
      muB sid' hashM2' idA' idB' version' ciphertext') :
    sid = sid' ∧ hashM2 = hashM2' ∧ idA = idA' ∧ idB = idB' ∧ version = version' ∧
      ciphertext = ciphertext' := by
  have parts := congrArg List.Vector.toList same
  simp only [muB, List.Vector.toList_mk, List.append_assoc] at parts
  have rest := List.append_cancel_left parts
  obtain ⟨first, rest⟩ := List.append_inj rest (by rw [sid.toList_length, sid'.toList_length])
  obtain ⟨hash, rest⟩ := List.append_inj rest (by
    rw [hashM2.toList_length, hashM2'.toList_length])
  obtain ⟨second, rest⟩ := List.append_inj rest (by
    rw [length_ofBytes, length_ofBytes, idA.toList_length, idA'.toList_length])
  obtain ⟨third, rest⟩ := List.append_inj rest (by
    rw [length_ofBytes, length_ofBytes, idB.toList_length, idB'.toList_length])
  obtain ⟨fourth, fifth⟩ := List.append_inj rest (by rw [length_putU32, length_putU32])
  exact ⟨List.Vector.toList_injective first, List.Vector.toList_injective hash,
    ofIdentity_inj second, ofIdentity_inj third, putU32_inj.mp fourth,
    List.Vector.toList_injective fifth⟩

/-- The two signed objects differ in the domain byte of the object inside. -/
theorem muA_ne_muB {sid sid' hashM2 : Hash α} {idA idA' idB idB' : Identity}
    {version version' : UInt32} {publicKey : KemPublicKey α} {ciphertext : KemCiphertext α} :
    muA sid idA idB version publicKey ≠ muB sid' hashM2 idA' idB' version' ciphertext := by
  intro same
  have domains := congrArg (fun mu => readByte mu.toList 1) same
  have init : readByte (muA sid idA idB version publicKey).toList 1 = domainInit := toByte_ofByte _
  have resp : readByte (muB sid' hashM2 idA' idB' version' ciphertext).toList 1 = domainResp :=
    toByte_ofByte _
  simp only [init, resp] at domains
  exact absurd domains (by decide)

/-- A part with its length in front is determined by what follows it as well. -/
theorem lengthed_inj {data data' rest rest' : List α} (bound : data.length ≤ 65535)
    (bound' : data'.length ≤ 65535)
    (same : putU16 (.ofNat data.length) ++ (data ++ rest) =
      putU16 (.ofNat data'.length) ++ (data' ++ rest')) : data = data' ∧ rest = rest' := by
  obtain ⟨lengths, parts⟩ := List.append_inj same (by rw [length_putU16, length_putU16])
  have sizes := congrArg UInt16.toNat (putU16_inj.mp lengths)
  rw [UInt16.toNat_ofNat_of_lt' (show data.length < 65536 by omega),
    UInt16.toNat_ofNat_of_lt' (show data'.length < 65536 by omega)] at sizes
  exact List.append_inj parts sizes

theorem transcriptInput_inj {sid sid' : Hash α} {m0 m0' : List.Vector α m0Bytes}
    {m1 m1' : List.Vector α m1Bytes} {m2 m2' inner inner' : List α}
    (m2Length : m2.length ≤ 65535) (m2Length' : m2'.length ≤ 65535)
    (innerLength : inner.length ≤ 65535) (innerLength' : inner'.length ≤ 65535)
    (same : transcriptInput sid m0 m1 m2 inner = transcriptInput sid' m0' m1' m2' inner') :
    sid = sid' ∧ m0 = m0' ∧ m1 = m1' ∧ m2 = m2' ∧ inner = inner' := by
  simp only [transcriptInput, List.append_assoc] at same
  have rest := List.append_cancel_left same
  obtain ⟨first, rest⟩ := List.append_inj rest (by rw [sid.toList_length, sid'.toList_length])
  obtain ⟨second, rest⟩ := List.append_inj (List.append_cancel_left rest) (by
    rw [m0.toList_length, m0'.toList_length])
  obtain ⟨third, rest⟩ := List.append_inj (List.append_cancel_left rest) (by
    rw [m1.toList_length, m1'.toList_length])
  obtain ⟨fourth, rest⟩ := lengthed_inj m2Length m2Length' rest
  obtain ⟨fifth, -⟩ := @lengthed_inj _ _ inner inner' [] [] innerLength innerLength' (by
    rw [List.append_nil, List.append_nil]
    exact rest)
  exact ⟨List.Vector.toList_injective first, List.Vector.toList_injective second,
    List.Vector.toList_injective third, fourth, fifth⟩

/-- A string determines its purpose and its fields. -/
theorem bytes_injective : Function.Injective (bytes : Encoded α → List α) := by
  intro x y same
  have domains : x.domain = y.domain := by rw [← readByte_bytes, ← readByte_bytes, same]
  cases x with
  | sid0 m0 m1 =>
      cases y with
      | sid0 m0' m1' =>
          obtain ⟨rfl, rfl⟩ := sid0Input_inj same
          rfl
      | _ =>
          simp only [domain] at domains
          exact absurd domains (by decide)
  | signedM2 sid idA idB version q publicKey =>
      cases y with
      | signedM2 sid' idA' idB' version' q' publicKey' =>
          obtain ⟨objects, rfl⟩ := signedInput_inj same
          obtain ⟨rfl, rfl, rfl, rfl, rfl⟩ := muA_inj objects
          rfl
      | signedM3 sid' hashM2 idA' idB' version' q' ciphertext =>
          exact absurd (signedInput_inj same).1 muA_ne_muB
      | _ =>
          simp only [domain] at domains
          exact absurd domains (by decide)
  | signedM3 sid hashM2 idA idB version q ciphertext =>
      cases y with
      | signedM3 sid' hashM2' idA' idB' version' q' ciphertext' =>
          obtain ⟨objects, rfl⟩ := signedInput_inj same
          obtain ⟨rfl, rfl, rfl, rfl, rfl, rfl⟩ := muB_inj objects
          rfl
      | signedM2 sid' idA' idB' version' q' publicKey =>
          exact absurd (signedInput_inj same).1.symm muA_ne_muB
      | _ =>
          simp only [domain] at domains
          exact absurd domains (by decide)
  | transcript sid m0 m1 m2 inner m2Length innerLength =>
      cases y with
      | transcript sid' m0' m1' m2' inner' m2Length' innerLength' =>
          obtain ⟨rfl, rfl, rfl, rfl, rfl⟩ :=
            transcriptInput_inj m2Length m2Length' innerLength innerLength' same
          rfl
      | _ =>
          simp only [domain] at domains
          exact absurd domains (by decide)
  | sessionKeys hash =>
      cases y with
      | sessionKeys hash' =>
          obtain rfl := hashInput_inj same
          rfl
      | _ =>
          simp only [domain] at domains
          exact absurd domains (by decide)
  | confirmB hash =>
      cases y with
      | confirmB hash' =>
          obtain rfl := hashInput_inj same
          rfl
      | _ =>
          simp only [domain] at domains
          exact absurd domains (by decide)
  | confirmA hash =>
      cases y with
      | confirmA hash' =>
          obtain rfl := hashInput_inj same
          rfl
      | _ =>
          simp only [domain] at domains
          exact absurd domains (by decide)

end Separation

end Encoded

namespace ProposedUavProtocol

/-- The configurations of the two devices of one session. -/
structure Opposite (config config' : NodeConfig) : Prop where
  roles : config.role ≠ config'.role
  peer : config'.deviceId = config.peerId
  device : config'.peerId = config.deviceId

theorem Opposite.idA {config config' : NodeConfig} (h : Opposite config config') :
    config.idA = config'.idA := by
  have roles := h.roles
  rw [NodeConfig.idA, NodeConfig.idA, h.peer, h.device]
  cases first : config.role with
  | initiator =>
      cases second : config'.role with
      | initiator => exact absurd (first.trans second.symm) roles
      | responder => rfl
  | responder =>
      cases second : config'.role with
      | initiator => rfl
      | responder => exact absurd (first.trans second.symm) roles

theorem Opposite.idB {config config' : NodeConfig} (h : Opposite config config') :
    config.idB = config'.idB := by
  have roles := h.roles
  rw [NodeConfig.idB, NodeConfig.idB, h.peer, h.device]
  cases first : config.role with
  | initiator =>
      cases second : config'.role with
      | initiator => exact absurd (first.trans second.symm) roles
      | responder => rfl
  | responder =>
      cases second : config'.role with
      | initiator => rfl
      | responder => exact absurd (first.trans second.symm) roles

section Asks

variable {κ : Type}

omit [Cell α]

/-- Some run of the method on the object makes the call. -/
def Asks {β : Type} (method : Method α κ β) (object : ProposedUavProtocol α κ)
    (c : Call α κ) : Prop := Routine.Asks method object c

/-- The calls of a measured operation are its own and the readings of the timer. -/
theorem Asks.of_timed {β : Type} {add : UInt64 → LocalMetrics → LocalMetrics}
    {operation : Method α κ β} {object : ProposedUavProtocol α κ} {c : Call α κ}
    (asked : Asks (timed add operation) object c) :
    c = .espTimer ∨ ∃ object', Asks operation object' c := by
  obtain timer | ⟨start, measured, asked⟩ := Routine.Asks.of_bind asked
  · exact .inl (Routine.asks_perform.mp timer)
  obtain asked | ⟨result, finished, asked⟩ := Routine.Asks.of_bind asked
  · exact .inr ⟨measured, Routine.Asks.of_attempt asked⟩
  obtain timer | ⟨now, read, asked⟩ := Routine.Asks.of_bind asked
  · exact .inl (Routine.asks_perform.mp timer)
  obtain update | ⟨_, _, asked⟩ := Routine.Asks.of_bind asked
  · exact absurd update (Routine.asks_modify _)
  · exact absurd (Routine.Asks.of_orFail asked) (Routine.asks_pure _)

theorem asks_sha256 {data data' : List α} {object : ProposedUavProtocol α κ}
    (asked : Asks (sha256 data') object (.sha256 data)) : data = data' := by
  cases Routine.asks_perform.mp (Routine.Asks.of_orFail asked)
  rfl

theorem asks_timedSha {data data' : List α} {object : ProposedUavProtocol α κ}
    (asked : Asks (timedSha data') object (.sha256 data)) : data = data' := by
  obtain timer | ⟨_, asked⟩ := asked.of_timed
  · cases timer
  · exact asks_sha256 asked

theorem asks_timedHmac {key data key' data' : List α} {object : ProposedUavProtocol α κ}
    (asked : Asks (timedHmac key' data') object (.hmacSha256 key data)) : data = data' := by
  obtain timer | ⟨_, asked⟩ := asked.of_timed
  · cases timer
  · cases Routine.asks_perform.mp (Routine.Asks.of_orFail asked)
    rfl

theorem asks_timedHkdf {ikm salt info ikm' salt' info' : List α} {length length' : Nat}
    {object : ProposedUavProtocol α κ}
    (asked : Asks (timedHkdf ikm' salt' info' length') object (.hkdfSha256 ikm salt info length)) :
    ikm = ikm' ∧ salt = salt' ∧ info = info' ∧ length = length' := by
  obtain timer | ⟨_, asked⟩ := asked.of_timed
  · cases timer
  · cases Routine.asks_perform.mp (Routine.Asks.of_orFail asked)
    exact ⟨rfl, rfl, rfl, rfl⟩

variable [Cell α]

theorem asks_timedTranscriptHash {sid : Hash α} {m2Length : Nat} {m3Inner data : List α}
    {object : ProposedUavProtocol α κ}
    (asked : Asks (timedTranscriptHash sid m2Length m3Inner) object (.sha256 data)) :
    data = transcriptInput sid object.m0 object.m1 (slice object.m2.toList 0 m2Length)
      m3Inner := by
  obtain timer | ⟨_, asked⟩ := Asks.of_timed (Routine.Asks.of_get asked)
  · cases timer
  obtain impossible | ⟨_, _, asked⟩ := Routine.Asks.of_bind asked
  · exact absurd impossible Routine.asks_guard
  · exact asks_sha256 asked

theorem asks_deriveSessionKeys {sharedSecret transcriptHash : Hash α} {ikm salt info : List α}
    {length : Nat} {object : ProposedUavProtocol α κ}
    (asked : Asks (deriveSessionKeys sharedSecret transcriptHash) object
      (.hkdfSha256 ikm salt info length)) :
    ikm = sharedSecret.toList ∧ salt = transcriptHash.toList ∧
      info = hashInput domainUavAke transcriptHash ∧ length = sessionKeyMaterialBytes := by
  obtain asked | ⟨_, _, impossible⟩ := Routine.Asks.of_bind asked
  · exact asks_timedHkdf asked
  · exact absurd impossible (Routine.asks_pure _)

theorem asks_timedRuntimeSeed {ikm salt info : List α} {length : Nat}
    {object : ProposedUavProtocol α κ}
    (asked : Asks timedRuntimeSeed object (.hkdfSha256 ikm salt info length)) :
    (∃ pufRoot : Hash α, ikm = pufRoot.toList) ∧ salt = [] ∧
      info = lmsSeedInfo object.config.deviceId object.config.credentialVersion
        object.config.lmsIdentifier ∧ length = hashBytes := by
  obtain impossible | ⟨pufRoot, _, asked⟩ := Routine.Asks.of_bind (Routine.Asks.of_get asked)
  · obtain timer | ⟨_, asked⟩ := Asks.of_timed impossible
    · cases timer
    · cases Routine.asks_perform.mp (Routine.Asks.of_orFail asked)
  · obtain ⟨ikms, rest⟩ := asks_timedHkdf asked
    exact ⟨⟨pufRoot, ikms⟩, rest⟩

end Asks

section Builds

/-- `Builds x out`: a method of a session builds `out` for the purpose of `x` from the fields of
`x`, and hashes, signs or expands it, whatever its object holds and its calls answer. -/
inductive Builds (κ : Type) : Encoded α → List α → Prop
  | sid0 (object : ProposedUavProtocol α κ) (data : List α)
      (hashed : Asks computeSid0 object (.sha256 data)) :
      Builds κ (.sid0 object.m0 object.m1) data
  | signedM2 (object object' : ProposedUavProtocol α κ) (sid : Hash α) (version q : UInt32)
      (publicKey : KemPublicKey α)
      (built : (buildM2SignedInput sid version q publicKey).on object =
        .done (some (), object')) :
      Builds κ (.signedM2 sid object.config.idA object.config.idB version q publicKey)
        object'.signInput.toList
  | signedM3 (object object' : ProposedUavProtocol α κ) (sid hashM2 : Hash α)
      (version q : UInt32) (ciphertext : KemCiphertext α)
      (built : (buildM3SignedInput sid hashM2 version q ciphertext).on object =
        .done (some (), object')) :
      Builds κ (.signedM3 sid hashM2 object.config.idA object.config.idB version q ciphertext)
        object'.signInput.toList
  | transcript (object : ProposedUavProtocol α κ) (sid : Hash α) (m2Length : Nat)
      (m3Inner data : List α) (m2Short : (slice object.m2.toList 0 m2Length).length ≤ 65535)
      (innerShort : m3Inner.length ≤ 65535)
      (hashed : Asks (timedTranscriptHash sid m2Length m3Inner) object (.sha256 data)) :
      Builds κ (.transcript sid object.m0 object.m1 (slice object.m2.toList 0 m2Length) m3Inner
        m2Short innerShort) data
  | sessionKeys (object : ProposedUavProtocol α κ) (sharedSecret transcriptHash : Hash α)
      (ikm salt info : List α) (outputLength : Nat)
      (expanded : Asks (deriveSessionKeys sharedSecret transcriptHash) object
        (.hkdfSha256 ikm salt info outputLength)) : Builds κ (.sessionKeys transcriptHash) info
  | confirmB (object : ProposedUavProtocol α κ) (confirmationKey transcriptHash : Hash α)
      (key data : List α)
      (tagged : Asks (computeConfirmationTag domainBConfirm confirmationKey transcriptHash) object
        (.hmacSha256 key data)) : Builds κ (.confirmB transcriptHash) data
  | confirmA (object : ProposedUavProtocol α κ) (confirmationKey transcriptHash : Hash α)
      (key data : List α)
      (tagged : Asks (computeConfirmationTag domainAConfirm confirmationKey transcriptHash) object
        (.hmacSha256 key data)) : Builds κ (.confirmA transcriptHash) data

theorem Builds.eq_bytes {x : Encoded α} {out : List α} (h : Builds κ x out) : out = x.bytes := by
  cases h with
  | sid0 object _ hashed => exact asks_timedSha (Routine.Asks.of_get hashed)
  | signedM2 object object' sid version q publicKey built =>
      cases built
      rfl
  | signedM3 object object' sid hashM2 version q ciphertext built =>
      cases built
      rfl
  | transcript object sid m2Length m3Inner _ _ _ hashed => exact asks_timedTranscriptHash hashed
  | sessionKeys object sharedSecret transcriptHash ikm salt info outputLength expanded =>
      exact (asks_deriveSessionKeys expanded).2.2.1
  | confirmB object confirmationKey transcriptHash key data tagged => exact asks_timedHmac tagged
  | confirmA object confirmationKey transcriptHash key data tagged => exact asks_timedHmac tagged

end Builds

/-- The strings of a session: what a string of the methods determines, which strings they build,
and that both sides of a session build the same signed objects. -/
structure CanonicalEncodings (α κ : Type) [Cell α] : Prop where
  unique : ∀ (x y : Encoded α) out, Builds κ x out → Builds κ y out → x = y
  injective : Function.Injective (Encoded.bytes : Encoded α → List α)
  builds : ∀ (x : Encoded α) out, Builds κ x out → out = x.bytes
  produces : ∀ (x : Encoded α) out, x.Produces out → out = x.bytes
  sid0 : (computeSid0 : Method α κ (Hash α)) = do
    let protocol ← get
    timedSha (Encoded.sid0 protocol.m0 protocol.m1).bytes
  transcript : ∀ (object : ProposedUavProtocol α κ) sid m2Length inner m2Short innerShort,
    m2Length ≤ 65535 → Asks (timedTranscriptHash sid m2Length inner) object (.sha256
      (Encoded.transcript sid object.m0 object.m1 (slice object.m2.toList 0 m2Length) inner
        m2Short innerShort).bytes)
  keys : ∀ (sharedSecret transcriptHash : Hash α),
    (deriveSessionKeys sharedSecret transcriptHash : Method α κ (SessionKeys α)) = do
      let material ← timedHkdf sharedSecret.toList transcriptHash.toList
        (Encoded.sessionKeys transcriptHash).bytes sessionKeyMaterialBytes
      pure ⟨block material 0 hashBytes, block material hashBytes hashBytes,
        block material (2 * hashBytes) hashBytes⟩
  tags : ∀ (key transcriptHash : Hash α),
    (computeConfirmationTag domainBConfirm key transcriptHash : Method α κ (Hash α)) =
        timedHmac key.toList (Encoded.confirmB transcriptHash).bytes ∧
      (computeConfirmationTag domainAConfirm key transcriptHash : Method α κ (Hash α)) =
        timedHmac key.toList (Encoded.confirmA transcriptHash).bytes
  signedM2 : ∀ signer verifier : ProposedUavProtocol α κ, Opposite signer.config verifier.config →
    ∀ sid version q publicKey, ∃ signer' verifier' : ProposedUavProtocol α κ,
      (buildM2SignedInput sid version q publicKey).on signer = .done (some (), signer') ∧
      (buildM2SignedInput sid version q publicKey).on verifier = .done (some (), verifier') ∧
      signer'.signInput = verifier'.signInput ∧
      (Encoded.signedM2 sid signer.config.idA signer.config.idB version q publicKey).Produces
        signer'.signInput.toList
  signedM3 : ∀ signer verifier : ProposedUavProtocol α κ, Opposite signer.config verifier.config →
    ∀ sid hashM2 version q ciphertext, ∃ signer' verifier' : ProposedUavProtocol α κ,
      (buildM3SignedInput sid hashM2 version q ciphertext).on signer = .done (some (), signer') ∧
      (buildM3SignedInput sid hashM2 version q ciphertext).on verifier =
        .done (some (), verifier') ∧
      signer'.signInput = verifier'.signInput ∧
      (Encoded.signedM3 sid hashM2 signer.config.idA signer.config.idB version q
        ciphertext).Produces signer'.signInput.toList

/-- The methods build equal strings only for the same purpose from the same fields, and the two
sides of a session sign and verify the same bytes. -/
theorem canonicalEncodings (α κ : Type) [Cell α] : CanonicalEncodings α κ where
  unique x y out first second :=
    Encoded.bytes_injective (first.eq_bytes.symm.trans second.eq_bytes)
  injective := Encoded.bytes_injective
  builds _ _ built := built.eq_bytes
  produces _ _ produced := produced.eq_bytes
  sid0 := rfl
  transcript object sid m2Length inner _ innerShort short := by
    refine .inr ⟨(0 : UInt64), ?_⟩
    rw [guard, if_pos ⟨short, innerShort⟩]
    exact .inl rfl
  keys _ _ := rfl
  tags _ _ := ⟨rfl, rfl⟩
  signedM2 signer verifier opposite sid version q publicKey := by
    refine ⟨_, _, rfl, rfl, ?_, signer.mu, signer.signInput, ?_⟩
    · dsimp only
      rw [opposite.idA, opposite.idB]
    · rw [Encoded.writes_muA, Encoded.writes_signInput]
  signedM3 signer verifier opposite sid hashM2 version q ciphertext := by
    refine ⟨_, _, rfl, rfl, ?_, signer.mu, signer.signInput, ?_⟩
    · dsimp only
      rw [opposite.idA, opposite.idB]
    · rw [Encoded.writes_muB, Encoded.writes_signInput]

end ProposedUavProtocol

end Puav
