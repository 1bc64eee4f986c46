import PostQuantumUav.Gcs.LedgerServer
import PostQuantumUav.Puav.GcsLedgerClient

/-!
# The server parses what the client builds

The requests of the C++ client and the parsers of the Python server place the
same fields at the same offsets. A request that carries the tag of its own bytes
is accepted with exactly the fields it was built from.
-/

namespace Gcs

open Puav Cell Buffer

section Enrolment

variable {hmac : Bytes → Tag} (deviceId : Identity)

/-- A request with the tag of its bytes, as the client sends it. -/
def tagged (hmac : Bytes → Tag) (request : Bytes) : Bytes :=
  GcsLedgerClient.withTag request (hmac (request.take (request.length - hmacBytes)))

/-- What the client signs and where it writes the tag is what the server verifies. -/
theorem verifyTag_tagged {request : Bytes} (room : tagBytes ≤ request.length) :
    verifyTag hmac (tagged hmac request) = true :=
  verifyTag_withTag hmac room

theorem parseRootRecord_request (version : UInt32) (identifier : Identifier) (root : Digest)
    (suiteId : UInt32) {status : UInt8} (expiryUnix : UInt64) (valid : status ≤ 3)
    {request : Bytes} (built : GcsLedgerClient.enrollRootRequest deviceId version
      identifier root suiteId status expiryUnix = request) :
    parseRootRecord hmac (tagged hmac request) =
      .ok (deviceId.toList, version.toNat,
        ⟨identifier.toList, root.toList, suiteId.toNat, status.toNat, expiryUnix.toNat⟩) := by
  have sized : request.length = rootRecordBytes :=
    built ▸ GcsLedgerClient.length_enrollRootRequest ..
  have authentic : verifyTag hmac (tagged hmac request) = true :=
    verifyTag_tagged (by rw [sized]; decide)
  obtain ⟨magicField, op, id, versionField, identifierField, rootField, suite, statusField,
    expiry⟩ := GcsLedgerClient.enrollRootRequest_fields deviceId
      (hmac (request.take (request.length - hmacBytes))) version identifier root suiteId status
      expiryUnix
  rw [built] at magicField op id versionField identifierField rootField suite statusField expiry
  have format : (tagged hmac request).length = rootRecordBytes :=
    (length_memcpy _ _ _).trans sized
  rw [tagged] at *
  generalize GcsLedgerClient.withTag request _ = packet at *
  rw [parseRootRecord, if_neg, if_neg (not_not_intro authentic), if_neg]
  · simp [id, u32be, versionField, identifierField, rootField, suite, u64be, expiry,
      readByte_of_slice statusField]
  · rw [readByte_of_slice statusField]
    exact Nat.not_lt.mpr valid
  · rintro (h | h | h)
    · exact h format
    · exact h magicField
    · exact h (readByte_of_slice op)

theorem parsePathRecord_request (version : UInt32) {q : UInt32} (path : Path)
    (valid : q.toNat < 1024) {request : Bytes}
    (built : GcsLedgerClient.enrollPathRequest deviceId version q path = request) :
    parsePathRecord hmac (tagged hmac request) =
      .ok (deviceId.toList, version.toNat, q.toNat, path.toList) := by
  have sized : request.length = pathRecordBytes :=
    built ▸ GcsLedgerClient.length_enrollPathRequest ..
  have authentic : verifyTag hmac (tagged hmac request) = true :=
    verifyTag_tagged (by rw [sized]; decide)
  obtain ⟨magicField, op, id, versionField, qField, pathField⟩ :=
    GcsLedgerClient.enrollPathRequest_fields deviceId
      (hmac (request.take (request.length - hmacBytes))) version q path
  rw [built] at magicField op id versionField qField pathField
  have format : (tagged hmac request).length = pathRecordBytes :=
    (length_memcpy _ _ _).trans sized
  rw [tagged] at *
  generalize GcsLedgerClient.withTag request _ = packet at *
  rw [parsePathRecord, if_neg, if_neg (not_not_intro authentic)]
  · dsimp only
    rw [if_neg]
    · simp [id, u32be, versionField, qField, pathField]
    · rw [pathField, path.toList_length, u32be, qField, getU32_putU32_self]
      rintro (h | h)
      · exact Nat.not_le.mpr valid h
      · exact h rfl
  · rintro (h | h | h)
    · exact h format
    · exact h magicField
    · exact h (readByte_of_slice op)

end Enrolment

section Queries

variable {hmac : Bytes → Tag} (deviceId peerId : Identity)

theorem parseGetRoot_request (version : UInt32) {request : Bytes}
    (built : GcsLedgerClient.getRootRequest deviceId peerId version = request) :
    parseGetRoot hmac (tagged hmac request) =
      .ok (deviceId.toList, peerId.toList, version.toNat) := by
  have sized : request.length = getRootBytes := built ▸ GcsLedgerClient.length_getRootRequest ..
  have authentic : verifyTag hmac (tagged hmac request) = true :=
    verifyTag_tagged (by rw [sized]; decide)
  obtain ⟨magicField, op, id, target, versionField⟩ := GcsLedgerClient.getRootRequest_fields
    deviceId (hmac (request.take (request.length - hmacBytes))) peerId version
  rw [built] at magicField op id target versionField
  have format : (tagged hmac request).length = getRootBytes := (length_memcpy _ _ _).trans sized
  rw [tagged] at *
  generalize GcsLedgerClient.withTag request _ = packet at *
  rw [parseGetRoot, if_neg, if_neg (not_not_intro authentic)]
  · simp [id, target, u32be, versionField]
  · rintro (h | h | h)
    · exact h format
    · exact h magicField
    · exact h (readByte_of_slice op)

theorem parseGetPath_request (version : UInt32) {q : UInt32} (valid : q.toNat < 1024)
    {request : Bytes}
    (built : GcsLedgerClient.getPathRequest deviceId peerId version q = request) :
    parseGetPath hmac (tagged hmac request) =
      .ok (deviceId.toList, peerId.toList, version.toNat, q.toNat) := by
  have sized : request.length = getPathBytes := built ▸ GcsLedgerClient.length_getPathRequest ..
  have authentic : verifyTag hmac (tagged hmac request) = true :=
    verifyTag_tagged (by rw [sized]; decide)
  obtain ⟨magicField, op, id, target, versionField, qField⟩ :=
    GcsLedgerClient.getPathRequest_fields deviceId
      (hmac (request.take (request.length - hmacBytes))) peerId version q
  rw [built] at magicField op id target versionField qField
  have format : (tagged hmac request).length = getPathBytes := (length_memcpy _ _ _).trans sized
  rw [tagged] at *
  generalize GcsLedgerClient.withTag request _ = packet at *
  rw [parseGetPath, if_neg, if_neg (not_not_intro authentic), if_neg]
  · simp [id, target, u32be, versionField, qField]
  · rw [u32be, qField, getU32_putU32_self]
    exact Nat.not_le.mpr valid
  · rintro (h | h | h)
    · exact h format
    · exact h magicField
    · exact h (readByte_of_slice op)

end Queries

end Gcs
