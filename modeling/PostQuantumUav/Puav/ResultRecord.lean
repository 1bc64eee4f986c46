import PostQuantumUav.Apqe.ResultRecord
import PostQuantumUav.Library.Interaction.Discipline
import PostQuantumUav.Puav.ProposedUavProtocol

/-!
# The responder's measurements and their report

The responder ends a session by writing its measurements at literal offsets, and the
initiator reads them back in `printInitiatorResult`, another function with the same
offsets. The fields follow each other without a gap, so what is read at each offset is
the value that was written there.
-/

namespace Puav.ProposedUavProtocol

open Interaction Cell Buffer

variable {α κ : Type} [Cell α]

/-- What `printInitiatorResult` reads of a responder's record. -/
structure ResponderResult where
  resultQa : UInt32
  resultQb : UInt32
  protocolUs : UInt64
  cryptoUs : UInt64
  shaUs : UInt64
  hmacUs : UInt64
  signUs : UInt64
  verifyUs : UInt64
  kemUs : UInt64
  pufFeUs : UInt64
  repositoryUs : UInt64
  appTx : UInt32
  appRx : UInt32
  framedTx : UInt32
  framedRx : UInt32
  repoTx : UInt32
  repoRx : UInt32
  deriving DecidableEq

/-- A report with what is computed for it from both sides. -/
structure InitiatorReport where
  responder : ResponderResult
  /-- The result's indices are not the initiator's, which prints a warning. -/
  mismatch : Bool
  applicationTotal : UInt32
  framedTotal : UInt32
  repositoryTotal : UInt32
  deriving DecidableEq

/-- The values read at the start of `printInitiatorResult`. -/
def readResult (record : List α) : ResponderResult where
  resultQa := getU32 (slice record 4 4)
  resultQb := getU32 (slice record 8 4)
  protocolUs := getU64 (slice record 12 8)
  cryptoUs := getU64 (slice record 20 8)
  shaUs := getU64 (slice record 28 8)
  hmacUs := getU64 (slice record 36 8)
  signUs := getU64 (slice record 44 8)
  verifyUs := getU64 (slice record 52 8)
  kemUs := getU64 (slice record 60 8)
  pufFeUs := getU64 (slice record 68 8)
  repositoryUs := getU64 (slice record 76 8)
  appTx := getU32 (slice record 84 4)
  appRx := getU32 (slice record 88 4)
  framedTx := getU32 (slice record 92 4)
  framedRx := getU32 (slice record 96 4)
  repoTx := getU32 (slice record 100 4)
  repoRx := getU32 (slice record 104 4)

/-- Nothing is printed for a record that is too short. -/
def printInitiatorResult (qA qB : UInt32) (initiator : LocalMetrics) (record : List α) :
    Option InitiatorReport :=
  if record.length < resultBytes then none
  else
    let responder := readResult record
    some {
      responder := responder
      mismatch := decide (qA ≠ responder.resultQa ∨ qB ≠ responder.resultQb)
      applicationTotal := initiator.appTxBytes + initiator.appRxBytes
      framedTotal := initiator.framedTxBytes + initiator.framedRxBytes
      repositoryTotal := initiator.repositoryTxBytes + initiator.repositoryRxBytes +
        responder.repoTx + responder.repoRx }

/-- The responder's own measurements under the names of the report. -/
def responderResult (qA qB : UInt32) (metrics : LocalMetrics) : ResponderResult where
  resultQa := qA
  resultQb := qB
  protocolUs := metrics.protocolUs
  cryptoUs := metrics.totalCryptoUs
  shaUs := metrics.shaUs
  hmacUs := metrics.hmacUs
  signUs := metrics.lmotsSignUs
  verifyUs := metrics.lmotsVerifyUs
  kemUs := metrics.kemUs
  pufFeUs := metrics.pufFeUs
  repositoryUs := metrics.repositoryUs
  appTx := metrics.appTxBytes
  appRx := metrics.appRxBytes
  framedTx := metrics.framedTxBytes
  framedRx := metrics.framedRxBytes
  repoTx := metrics.repositoryTxBytes
  repoRx := metrics.repositoryRxBytes

section Fields

variable (qA qB : UInt32) (metrics : LocalMetrics) (freeHeap minFreeHeap : UInt32)

theorem length_resultRecord :
    (resultRecord qA qB metrics freeHeap minFreeHeap : List α).length = resultBytes := by
  unfold resultRecord
  simp only [List.length_append, List.length_cons, List.length_nil, length_putU32, length_putU64]

/-- The message is the record, whatever the buffer held before. -/
theorem slice_resultRecord (buffer : List.Vector α 128) :
    slice (overwrite buffer (resultRecord qA qB metrics freeHeap minFreeHeap)).toList 0
      resultBytes = resultRecord qA qB metrics freeHeap minFreeHeap := by
  have sized := @length_resultRecord α _ qA qB metrics freeHeap minFreeHeap
  rw [slice_overwrite (by rw [sized]; decide) (by rw [sized]; decide), ← sized, slice_zero_length]

/-- The record as its fields from first to last. -/
theorem resultRecord_fields : (resultRecord qA qB metrics freeHeap minFreeHeap : List α) =
    ofByte resultOk :: ofByte 0 :: ofByte 0 :: ofByte 0 :: (putU32 qA ++ (putU32 qB ++
      (putU64 metrics.protocolUs ++ (putU64 metrics.totalCryptoUs ++ (putU64 metrics.shaUs ++
      (putU64 metrics.hmacUs ++ (putU64 metrics.lmotsSignUs ++ (putU64 metrics.lmotsVerifyUs ++
      (putU64 metrics.kemUs ++ (putU64 metrics.pufFeUs ++ (putU64 metrics.repositoryUs ++
      (putU32 metrics.appTxBytes ++ (putU32 metrics.appRxBytes ++
      (putU32 metrics.framedTxBytes ++ (putU32 metrics.framedRxBytes ++
      (putU32 metrics.repositoryTxBytes ++ (putU32 metrics.repositoryRxBytes ++
      (putU32 freeHeap ++ putU32 minFreeHeap)))))))))))))))))) := by
  unfold resultRecord
  simp only [List.append_assoc, List.cons_append, List.nil_append]

/-- A field of eight cells is read where it starts. -/
theorem record_u64 {record back : List α} {value : UInt64} {offset : Nat}
    (found : record.drop offset = putU64 value ++ back) :
    getU64 (slice record offset 8) = value := by
  rw [slice, found, List.take_left' (length_putU64 value), getU64_putU64_self]

theorem record_u32 {record back : List α} {value : UInt32} {offset : Nat}
    (found : record.drop offset = putU32 value ++ back) :
    getU32 (slice record offset 4) = value := by
  rw [slice, found, List.take_left' (length_putU32 value), getU32_putU32_self]

theorem readResult_resultRecord :
    readResult (resultRecord qA qB metrics freeHeap minFreeHeap : List α) =
      responderResult qA qB metrics := by
  rw [resultRecord_fields, readResult, @record_u32 α _ _ _ qA 4 rfl, @record_u32 α _ _ _ qB 8 rfl,
    @record_u64 α _ _ _ metrics.protocolUs 12 rfl, @record_u64 α _ _ _ metrics.totalCryptoUs 20 rfl,
    @record_u64 α _ _ _ metrics.shaUs 28 rfl, @record_u64 α _ _ _ metrics.hmacUs 36 rfl,
    @record_u64 α _ _ _ metrics.lmotsSignUs 44 rfl,
    @record_u64 α _ _ _ metrics.lmotsVerifyUs 52 rfl,
    @record_u64 α _ _ _ metrics.kemUs 60 rfl, @record_u64 α _ _ _ metrics.pufFeUs 68 rfl,
    @record_u64 α _ _ _ metrics.repositoryUs 76 rfl, @record_u32 α _ _ _ metrics.appTxBytes 84 rfl,
    @record_u32 α _ _ _ metrics.appRxBytes 88 rfl, @record_u32 α _ _ _ metrics.framedTxBytes 92 rfl,
    @record_u32 α _ _ _ metrics.framedRxBytes 96 rfl,
    @record_u32 α _ _ _ metrics.repositoryTxBytes 100 rfl,
    @record_u32 α _ _ _ metrics.repositoryRxBytes 104 rfl, responderResult]

/-- The report on a record is one on the measurements that the record was made from. -/
theorem printInitiatorResult_resultRecord (ownQa ownQb : UInt32) (initiator : LocalMetrics) :
    (printInitiatorResult ownQa ownQb initiator
        (resultRecord qA qB metrics freeHeap minFreeHeap : List α)).map (·.responder) =
      some (responderResult qA qB metrics) := by
  have sized := @length_resultRecord α _ qA qB metrics freeHeap minFreeHeap
  rw [printInitiatorResult, if_neg (by rw [sized]; exact Nat.lt_irrefl _), readResult_resultRecord]
  rfl

end Fields

section Sent

/-- A message that is reported as these measurements, whoever prints it. -/
def Reports (qA qB : UInt32) (metrics : LocalMetrics) (record : List α) : Prop :=
  ∀ ownQa ownQb initiator, (printInitiatorResult ownQa ownQb initiator record).map (·.responder) =
    some (responderResult qA qB metrics)

/-- What a call may send while the responder ends its session. -/
def ReportedSend (qA qB : UInt32) (metrics : LocalMetrics) : Call α κ → Prop
  | .sendMessage _ type _ data => type = msgResult ∧ Reports qA qB metrics data
  | _ => True

/-- Whatever `sendResult` sends is reported as the measurements it started with, and so is
what it leaves in its buffer. -/
theorem sendResult_reports (session : UInt32) (destination : Transport.Endpoint) (qA qB : UInt32)
    (protocol : ProposedUavProtocol α κ) :
    ((sendResult session destination qA qB : Method α κ Unit).on protocol).Obeys
      (ReportedSend qA qB protocol.metrics) (fun _ _ => True) fun result =>
        Reports qA qB protocol.metrics (slice result.2.result.toList 0 resultBytes) := by
  have reported (freeHeap minFreeHeap : UInt32) : Reports qA qB protocol.metrics
      (slice (overwrite protocol.result
        (resultRecord qA qB protocol.metrics freeHeap minFreeHeap)).toList 0 resultBytes) := by
    intro ownQa ownQb initiator
    rw [slice_resultRecord, printInitiatorResult_resultRecord]
  refine ⟨trivial, fun freeHeap _ => ⟨trivial, fun minFreeHeap _ => ⟨?_, fun framed _ => ?_⟩⟩⟩
  · exact ⟨rfl, reported freeHeap minFreeHeap⟩
  · cases framed with
    | none => exact reported freeHeap minFreeHeap
    | some bytes => exact reported freeHeap minFreeHeap

end Sent

/-- Both programs' measurements arrive as they were: an encoded record is decoded for its own
session only, and the record at the end of a responder's session is reported as what the
responder measured. -/
theorem result_records_decode :
    (∀ (session expected : UInt32) (protocolUs : UInt64) (metrics : Apqe.SessionMetrics)
      (keyHash : Apqe.Block),
      Apqe.ApqeProtocol.decodeResult
          (Apqe.ApqeProtocol.encodeResult session protocolUs metrics keyHash) expected =
        if expected = session then
          some ({ metrics with protocolUs := protocolUs, confirmedUs := 0 }, keyHash)
        else none) ∧
    ∀ (session : UInt32) (destination : Transport.Endpoint) (qA qB : UInt32)
      (protocol : ProposedUavProtocol α κ),
      ((sendResult session destination qA qB : Method α κ Unit).on protocol).Obeys
        (ReportedSend qA qB protocol.metrics) (fun _ _ => True) fun result =>
          Reports qA qB protocol.metrics (slice result.2.result.toList 0 resultBytes) :=
  ⟨Apqe.ApqeProtocol.decodeResult_encodeResult, sendResult_reports⟩

end Puav.ProposedUavProtocol
