import PostQuantumUav.Puav.ProtocolMessages

/-!
# The fields of the signed messages

Where M2, the inner part of M3 and M3 have their fields, and how long they are in each
mode. A path is carried in the signer-carried mode only.
-/

namespace Puav

open Cell Buffer

variable {α : Type} [Cell α]

/-- The message has a path when the mode asks for one. -/
def Carries (mode : PathDeliveryMode) (path : Option (PathCells α)) : Prop :=
  path.isSome = true ↔ mode = .signerCarried

theorem length_signedHeader (type : UInt8) (sid : Hash α) (version q : UInt32) :
    (signedHeader type sid version q).length = 42 := by
  simp only [signedHeader, List.length_append, List.length_cons, List.length_nil,
    List.Vector.toList_length, length_putU32]
  rfl

section Lengths

variable {mode : PathDeliveryMode} {path : Option (PathCells α)} (carries : Carries mode path)

include carries

omit [Cell α] in
theorem length_carriedPath : (carriedPath path).length =
    m2BytesForMode mode - m2BaseBytes := by
  cases path with
  | none =>
      cases mode with
      | repositoryAssisted => rfl
      | signerCarried => exact absurd (carries.mpr rfl) Bool.false_ne_true
  | some p =>
      obtain rfl := carries.mp rfl
      exact p.toList_length

theorem length_m2Message (sid : Hash α) (version q : UInt32) (publicKey : KemPublicKey α)
    (signature : SignatureCells α) :
    (m2Message sid version q publicKey signature path).length = m2BytesForMode mode := by
  simp only [m2Message, List.length_append, length_signedHeader, List.Vector.toList_length,
    length_carriedPath carries]
  cases mode <;> rfl

theorem length_m3Inner (sid : Hash α) (version q : UInt32) (ciphertext : KemCiphertext α)
    (signature : SignatureCells α) :
    (m3Inner sid version q ciphertext signature path).length = m3InnerBytesForMode mode := by
  simp only [m3Inner, List.length_append, length_signedHeader, List.Vector.toList_length,
    length_carriedPath carries]
  cases mode <;> rfl

end Lengths

theorem length_m3Message {mode : PathDeliveryMode} {inner : List α}
    (sized : inner.length = m3InnerBytesForMode mode) (sid tauB : Hash α) :
    (m3Message sid inner tauB).length = m3BytesForMode mode := by
  simp only [m3Message, List.length_append, List.length_cons, List.length_nil, length_putU16,
    List.Vector.toList_length, sized]
  cases mode <;> rfl

theorem slice_publicKey (sid : Hash α) (version q : UInt32) (publicKey : KemPublicKey α)
    (signature : SignatureCells α) (path : Option (PathCells α)) :
    slice (m2Message sid version q publicKey signature path) 42 mlkemPublicKeyBytes =
      publicKey.toList := by
  rw [m2Message, List.append_assoc, List.append_assoc]
  exact slice_middle (length_signedHeader _ _ _ _) publicKey.toList_length

omit [Cell α] in
/-- A buffer that holds the message at its front. -/
theorem slice_overwrite_front {size : Nat} {buffer : List.Vector α size} {data : List α}
    {length : Nat} (sized : data.length = length) (fits : length ≤ size) :
    slice (overwrite buffer data).toList 0 length = data := by
  subst sized
  rw [slice_overwrite fits (Nat.le_of_eq (Nat.zero_add _)), slice_zero_length]

section Reading

/-- A byte is read from where it was placed. -/
theorem readByte_middle {front back : List α} {b : UInt8} {index : Nat}
    (before : front.length = index) : readByte (front ++ (ofByte b :: back)) index = b := by
  refine (readByte_of_slice ?_).trans (toByte_ofByte b)
  exact @slice_middle _ _ [ofByte b] _ _ _ before rfl

/-- A message of a signed header, a key, a signature and a path is stored from `offset` on. -/
structure SignedAt (cells : List α) (offset length : Nat) (type : UInt8) (sid : Hash α)
    (version q : UInt32) (key signature : List α) (path : Option (PathCells α)) : Prop where
  protocol : readByte cells offset = protocolVersion
  type : readByte cells (offset + 1) = type
  sid : slice cells (offset + 2) hashBytes = sid.toList
  version : getU32 (slice cells (offset + 34) 4) = version
  q : getU32 (slice cells (offset + 38) 4) = q
  key : slice cells (offset + 42) length = key
  signature : slice cells (offset + 42 + length) lmotsSignatureBytes = signature
  path : ∀ p, path = some p →
    slice cells (offset + 42 + length + lmotsSignatureBytes) lmsPathBytes = p.toList

theorem signedAt {front back : List α} {offset length : Nat} (before : front.length = offset)
    (type : UInt8) (sid : Hash α) (version q : UInt32) (key : List.Vector α length)
    (signature : SignatureCells α) (path : Option (PathCells α)) :
    SignedAt (front ++ (signedHeader type sid version q ++ key.toList ++ signature.toList ++
      carriedPath path ++ back)) offset length type sid version q key.toList signature.toList
      path := by
  have header := length_signedHeader type sid version q
  constructor
  · exact readByte_middle before
  · rw [signedHeader]
    simp only [List.append_assoc, List.cons_append, List.nil_append]
    rw [List.append_cons]
    exact readByte_middle (by rw [List.length_append, before]; rfl)
  · rw [signedHeader]
    simp only [List.append_assoc]
    rw [← List.append_assoc]
    exact slice_middle (by rw [List.length_append, before]; rfl) sid.toList_length
  · rw [signedHeader]
    simp only [List.append_assoc]
    rw [← List.append_assoc, ← List.append_assoc, slice_middle (by
      rw [List.length_append, List.length_append, before, sid.toList_length]
      rfl) (length_putU32 version), getU32_putU32_self]
  · rw [signedHeader]
    simp only [List.append_assoc]
    rw [← List.append_assoc, ← List.append_assoc, ← List.append_assoc, slice_middle (by
      rw [List.length_append, List.length_append, List.length_append, before, sid.toList_length,
        length_putU32]
      rfl) (length_putU32 q), getU32_putU32_self]
  · rw [List.append_assoc, List.append_assoc, List.append_assoc, ← List.append_assoc]
    exact slice_middle (by rw [List.length_append, before, header]) key.toList_length
  · rw [List.append_assoc, List.append_assoc, ← List.append_assoc]
    exact slice_middle (by rw [List.length_append, List.length_append, before, header,
      key.toList_length, Nat.add_assoc]) signature.toList_length
  · rintro p rfl
    rw [List.append_assoc, ← List.append_assoc]
    exact slice_middle (by rw [List.length_append, List.length_append, List.length_append, before,
      header, key.toList_length, signature.toList_length, Nat.add_assoc, Nat.add_assoc,
      Nat.add_assoc]) p.toList_length

/-- M2 in its buffer. -/
theorem signedAt_m2 {mode : PathDeliveryMode} {path : Option (PathCells α)}
    (carries : Carries mode path) (buffer : List.Vector α m2MaxBytes) (sid : Hash α)
    (version q : UInt32) (publicKey : KemPublicKey α) (signature : SignatureCells α) :
    SignedAt (overwrite buffer (m2Message sid version q publicKey signature path)).toList 0
      mlkemPublicKeyBytes msgM2Init sid version q publicKey.toList signature.toList path := by
  have length := length_m2Message carries sid version q publicKey signature
  rw [toList_overwrite_front (by rw [length]; cases mode <;> decide)]
  exact @signedAt _ _ [] _ _ _ rfl _ _ _ _ _ _ _

section Responding

variable {mode : PathDeliveryMode} {inner : List α}
  (sized : inner.length = m3InnerBytesForMode mode)
  (buffer : List.Vector α m3MaxBytes) (sid tauB : Hash α)

include sized

/-- M3 in its buffer. -/
theorem toList_overwrite_m3 : (overwrite buffer (m3Message sid inner tauB)).toList =
    [ofByte protocolVersion, ofByte msgM3RespFin] ++ sid.toList ++
      putU16 (.ofNat (m3InnerBytesForMode mode)) ++ (inner ++ (tauB.toList ++
        buffer.toList.drop (m3BytesForMode mode))) := by
  have length := length_m3Message sized sid tauB
  rw [toList_overwrite_front (by rw [length]; cases mode <;> decide), length, m3Message, sized]
  simp only [List.append_assoc]

/-- The parts of M3 around its inner message. -/
theorem fields_m3 {cells : List α}
    (stored : cells = (overwrite buffer (m3Message sid inner tauB)).toList) :
    readByte cells 0 = protocolVersion ∧ readByte cells 1 = msgM3RespFin ∧
      slice cells 2 hashBytes = sid.toList ∧
      (getU16 (slice cells 34 2)).toNat = m3InnerBytesForMode mode ∧
      slice cells 36 (m3InnerBytesForMode mode) = inner ∧
      slice cells (36 + m3InnerBytesForMode mode) hmacBytes = tauB.toList := by
  rw [stored, toList_overwrite_m3 sized]
  simp only [List.append_assoc]
  refine ⟨toByte_ofByte _, toByte_ofByte _, ?_, ?_, ?_, ?_⟩
  · exact slice_middle rfl sid.toList_length
  · rw [← List.append_assoc, slice_middle (by rw [List.length_append, sid.toList_length]; rfl)
      (length_putU16 _), ← List.append_nil (putU16 _), getU16_putU16]
    cases mode <;> rfl
  · rw [← List.append_assoc, ← List.append_assoc]
    refine slice_middle ?_ sized
    rw [List.length_append, List.length_append, sid.toList_length, length_putU16]
    rfl
  · rw [← List.append_assoc, ← List.append_assoc, ← List.append_assoc]
    refine slice_middle ?_ tauB.toList_length
    rw [List.length_append, List.length_append, List.length_append, sid.toList_length,
      length_putU16, sized]
    rfl

end Responding

/-- The inner message of M3 in its buffer. -/
theorem signedAt_m3 {mode : PathDeliveryMode} {path : Option (PathCells α)}
    (carries : Carries mode path) (buffer : List.Vector α m3MaxBytes) (sid tauB : Hash α)
    (version q : UInt32) (ciphertext : KemCiphertext α) (signature : SignatureCells α) :
    SignedAt (overwrite buffer (m3Message sid (m3Inner sid version q ciphertext signature path)
      tauB)).toList 36 mlkemCiphertextBytes msgM3Inner sid version q ciphertext.toList
      signature.toList path := by
  rw [toList_overwrite_m3 (length_m3Inner carries sid version q ciphertext signature)]
  refine signedAt ?_ _ _ _ _ _ _ _
  rw [List.length_append, List.length_append, sid.toList_length, length_putU16]
  rfl

section Requesting

variable {config peer : NodeConfig} (named : config.peerId = peer.deviceId)
  (naming : peer.peerId = config.deviceId) (mode : config.pathMode = peer.pathMode)
  (nonceA nonceB : Nonce α)

include named naming mode

/-- The device that M0 names accepts it. -/
theorem validM0 : ValidM0 config (m0Message peer nonceA) nonceA := by
  have parts : (m0Message peer nonceA : List.Vector α m0Bytes).toList =
      [ofByte protocolVersion, ofByte msgM0Req] ++ ((cellsOf peer.deviceId).toList ++
        ((cellsOf peer.peerId).toList ++ (nonceA.toList ++
          (putU32 (suiteIdForMode peer.pathMode) ++ [])))) := by
    simp only [m0Message, List.Vector.toList_mk, toList_cellsOf, List.append_assoc, List.append_nil]
  refine ⟨toByte_ofByte _, toByte_ofByte _, ?_, ?_, ?_, ?_⟩
  · rw [named]
    exact block_eq parts rfl _
  · rw [← naming]
    rw [← List.append_assoc] at parts
    exact block_eq parts (by rw [List.length_append, List.Vector.toList_length]; rfl) _
  · rw [← List.append_assoc, ← List.append_assoc] at parts
    exact block_eq parts (by rw [List.length_append, List.length_append, List.Vector.toList_length,
      List.Vector.toList_length]; rfl) _
  · rw [parts, ← List.append_assoc, ← List.append_assoc, ← List.append_assoc, slice_middle (by
      rw [List.length_append, List.length_append, List.length_append, List.Vector.toList_length,
        List.Vector.toList_length, List.Vector.toList_length]
      rfl) (length_putU32 _), getU32_putU32_self, mode]

/-- The device that M1 answers accepts it. -/
theorem validM1 : ValidM1 config (m1Message peer nonceA nonceB) nonceA := by
  have parts : (m1Message peer nonceA nonceB : List.Vector α m1Bytes).toList =
      [ofByte protocolVersion, ofByte msgM1Chal] ++ ((cellsOf peer.deviceId).toList ++
        ((cellsOf peer.peerId).toList ++ (nonceA.toList ++ (nonceB.toList ++
          (putU32 (suiteIdForMode peer.pathMode) ++ []))))) := by
    simp only [m1Message, List.Vector.toList_mk, toList_cellsOf, List.append_assoc, List.append_nil]
  refine ⟨toByte_ofByte _, toByte_ofByte _, ?_, ?_, ?_, ?_⟩
  · rw [named]
    exact block_eq parts rfl _
  · rw [← naming]
    rw [← List.append_assoc] at parts
    exact block_eq parts (by rw [List.length_append, List.Vector.toList_length]; rfl) _
  · rw [← List.append_assoc, ← List.append_assoc] at parts
    exact block_eq parts (by rw [List.length_append, List.length_append, List.Vector.toList_length,
      List.Vector.toList_length]; rfl) _
  · rw [parts, ← List.append_assoc, ← List.append_assoc, ← List.append_assoc,
      ← List.append_assoc, slice_middle (by
        rw [List.length_append, List.length_append, List.length_append, List.length_append,
          List.Vector.toList_length, List.Vector.toList_length, List.Vector.toList_length,
          List.Vector.toList_length]
        rfl) (length_putU32 _), getU32_putU32_self, mode]

end Requesting

theorem block_nonceA (config : NodeConfig) (nonceA : Nonce α) :
    block (m0Message config nonceA) 66 nonceBytes nonceA_fits = nonceA := by
  have parts : (m0Message config nonceA : List.Vector α m0Bytes).toList =
      ([ofByte protocolVersion, ofByte msgM0Req] ++ ofBytes config.deviceId.toList ++
        ofBytes config.peerId.toList) ++ (nonceA.toList ++
          putU32 (suiteIdForMode config.pathMode)) := by
    simp only [m0Message, List.Vector.toList_mk, List.append_assoc]
  exact block_eq parts (by
    rw [List.length_append, List.length_append, length_ofBytes, length_ofBytes,
      List.Vector.toList_length, List.Vector.toList_length]
    rfl) _

/-- The parts of M4. -/
theorem fields_m4 (sid tauA : Hash α) : readByte (m4Message sid tauA).toList 0 = protocolVersion ∧
    readByte (m4Message sid tauA).toList 1 = msgM4InitFin ∧
    block (m4Message sid tauA) 2 hashBytes = sid ∧
    block (m4Message sid tauA) 34 hmacBytes = tauA := by
  have parts : (m4Message sid tauA).toList =
      [ofByte protocolVersion, ofByte msgM4InitFin] ++ (sid.toList ++ (tauA.toList ++ [])) := by
    simp only [m4Message, List.Vector.toList_mk, List.append_assoc, List.append_nil]
  refine ⟨toByte_ofByte _, toByte_ofByte _, block_eq parts rfl _, ?_⟩
  rw [← List.append_assoc] at parts
  exact block_eq parts (by rw [List.length_append, List.Vector.toList_length]; rfl) _

end Reading

section Nonces

variable {config : NodeConfig} {nonceA nonceA' nonceB nonceB' : Nonce α}

theorem m0Message_inj (same : m0Message config nonceA = m0Message config nonceA') :
    nonceA = nonceA' := by
  have cells := congrArg List.Vector.toList same
  simp only [m0Message, List.Vector.toList_mk, List.append_assoc] at cells
  have rest := List.append_cancel_left (List.append_cancel_left (List.append_cancel_left cells))
  exact List.Vector.toList_injective (List.append_cancel_right rest)

theorem m1Message_inj (same : m1Message config nonceA nonceB = m1Message config nonceA' nonceB') :
    nonceA = nonceA' ∧ nonceB = nonceB' := by
  have cells := congrArg List.Vector.toList same
  simp only [m1Message, List.Vector.toList_mk, List.append_assoc] at cells
  have rest := List.append_cancel_left (List.append_cancel_left (List.append_cancel_left cells))
  obtain ⟨first, rest⟩ := List.append_inj rest (by rw [nonceA.toList_length, nonceA'.toList_length])
  exact ⟨List.Vector.toList_injective first,
    List.Vector.toList_injective (List.append_cancel_right rest)⟩

end Nonces

end Puav
