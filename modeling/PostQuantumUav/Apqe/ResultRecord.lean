import PostQuantumUav.Apqe.ApqeProtocol

/-!
# The responder's measurements on the wire

The encoding writes its fields one after the other and the decoding reads each at a
fixed offset. What was encoded for a session is decoded for that session and for no
other.
-/

namespace Apqe.ApqeProtocol

open Cell Buffer

/-- The fields of the record in order, in front of what follows the counters. -/
def resultFields (session : UInt32) (protocolUs : UInt64) (metrics : SessionMetrics)
    (rest : Bytes) : Bytes :=
  0 :: (putU32 session ++ (putU64 protocolUs ++ (putU64 metrics.shaUs ++ (putU64 metrics.pufUs ++
    (putU64 metrics.fuzzyReconstructionUs ++ (putU64 metrics.kyberKeygenUs ++
    (putU64 metrics.kyberEncryptUs ++ (putU64 metrics.kyberDecryptUs ++
    (putU64 metrics.fabricWallUs ++ (putU64 metrics.fabricPeerUs ++
    (putU32 metrics.directAppTx ++ (putU32 metrics.directAppRx ++
    (putU32 metrics.directFramedTx ++ (putU32 metrics.directFramedRx ++
    (putU32 metrics.gatewayAppTx ++ (putU32 metrics.gatewayAppRx ++ rest))))))))))))))))

section Fields

variable (session : UInt32) (protocolUs : UInt64) (metrics : SessionMetrics) (rest : Bytes)

theorem resultFields_u64 (value : UInt64) (back : Bytes) (offset : Nat)
    (found : (resultFields session protocolUs metrics rest).drop offset = putU64 value ++ back) :
    getU64 (slice (resultFields session protocolUs metrics rest) offset 8) = value := by
  rw [slice, found, List.take_left' (length_putU64 value), getU64_putU64_self]

theorem resultFields_u32 (value : UInt32) (back : Bytes) (offset : Nat)
    (found : (resultFields session protocolUs metrics rest).drop offset = putU32 value ++ back) :
    getU32 (slice (resultFields session protocolUs metrics rest) offset 4) = value := by
  rw [slice, found, List.take_left' (length_putU32 value), getU32_putU32_self]

theorem toList_encodeResult (keyHash : Block) :
    (encodeResult session protocolUs metrics keyHash).toList =
      resultFields session protocolUs metrics (keyHash.toList ++ zeros 20) := by
  rw [encodeResult, List.Vector.toList_mk, resultFields]
  simp only [List.append_assoc, List.cons_append, List.nil_append]

theorem block_encodeResult (keyHash : Block) :
    block (encodeResult session protocolUs metrics keyHash) 101 hashBytes = keyHash := by
  apply List.Vector.toList_injective
  rw [toList_block, toList_encodeResult]
  exact List.take_left' keyHash.toList_length

end Fields

/-- Encoded measurements are decoded for their session only. -/
theorem decodeResult_encodeResult (session expected : UInt32) (protocolUs : UInt64)
    (metrics : SessionMetrics) (keyHash : Block) :
    decodeResult (encodeResult session protocolUs metrics keyHash) expected =
      if expected = session then
        some ({ metrics with protocolUs := protocolUs, confirmedUs := 0 }, keyHash)
      else none := by
  unfold decodeResult
  simp only [block_encodeResult, toList_encodeResult]
  generalize keyHash.toList ++ zeros 20 = rest
  have u64 := resultFields_u64 session protocolUs metrics rest
  have u32 := resultFields_u32 session protocolUs metrics rest
  have status : readByte (resultFields session protocolUs metrics rest) 0 = 0 := rfl
  rw [status, u32 session _ 1 rfl, u64 protocolUs _ 5 rfl, u64 metrics.shaUs _ 13 rfl,
    u64 metrics.pufUs _ 21 rfl, u64 metrics.fuzzyReconstructionUs _ 29 rfl,
    u64 metrics.kyberKeygenUs _ 37 rfl, u64 metrics.kyberEncryptUs _ 45 rfl,
    u64 metrics.kyberDecryptUs _ 53 rfl, u64 metrics.fabricWallUs _ 61 rfl,
    u64 metrics.fabricPeerUs _ 69 rfl, u32 metrics.directAppTx _ 77 rfl,
    u32 metrics.directAppRx _ 81 rfl, u32 metrics.directFramedTx _ 85 rfl,
    u32 metrics.directFramedRx _ 89 rfl, u32 metrics.gatewayAppTx _ 93 rfl,
    u32 metrics.gatewayAppRx _ 97 rfl]
  by_cases same : expected = session
  · rw [if_pos same, if_neg (by simp [same])]
  · rw [if_neg same, if_pos (.inr (Ne.symm same))]

end Apqe.ApqeProtocol
