import PostQuantumUav.Gcs.Enrolment
import PostQuantumUav.Gcs.Requests
import PostQuantumUav.Puav.GcsExchange

/-!
# Runs in which acknowledgements arrive

The other direction of an exchange: where the network holds an acknowledgement
with the version and index that the client waits for, a run exists in which the
first attempt accepts it. The network after the run is given exactly, so that runs
can be put together.
-/

namespace Gcs.Net

open Interaction Puav Cell Buffer GcsLedgerClient

variable {hmac : Bytes → Tag} {client object : GcsLedgerClient} {net net' : Net}
variable {delivers : Bytes → Reply → Prop}

/-- A call that the network answers without a turn of the server. -/
theorem world_of_answered {event : Event calls}
    (answered : Answered hmac client delivers net event net') :
    world hmac client delivers net event net' :=
  ⟨net, .refl, answered⟩

/-- The client after it has read an acknowledgement. -/
def received (object : GcsLedgerClient) (ack : Bytes) : GcsLedgerClient :=
  { object with buffer := overwrite object.buffer ack, rxBytes := object.rxBytes + 84 }

theorem kept_received (kept : Kept client object) (ack : Bytes) :
    Kept client (received object ack) := ⟨kept.gcs, kept.deviceId, kept.peerId⟩

/-- The checks on an acknowledgement that the server made: only the index may be another one. -/
theorem examine_buildAck {version q : UInt32} {number : Nat} {ack : Bytes}
    (made : buildAck hmac client.deviceId.toList version.toNat number 0 = ack)
    (gcs : object.gcs = client.gcs) : Routine.Run (world hmac client delivers)
      (examine GcsLedgerClient.opAck version q ⟨ack, client.gcs⟩) object net
      (some (if q = anyQ ∨ UInt32.ofNat number = q then some ackBytes else none))
      (received object ack) net := by
  have sized : ack.length = ackBytes := made ▸ length_buildAck ..
  obtain ⟨head, op, versions, qField, -⟩ :=
    slice_buildAck hmac client.deviceId.toList version.toNat number 0
  have tagged := drop_buildAck hmac client.deviceId.toList version.toNat number 0
  rw [made] at head op versions qField tagged
  have read : ∀ {offset count : Nat}, offset + count ≤ ackBytes →
      slice (overwrite object.buffer ack).toList offset count = slice ack offset count :=
    fun inside => slice_overwrite (by rw [sized]; decide) (by rwa [sized])
  have opRead : readByte (overwrite object.buffer ack).toList 4 = GcsLedgerClient.opAck :=
    readByte_of_slice ((read (by decide)).trans op)
  have expected : Expected GcsLedgerClient.opAck version q (overwrite object.buffer ack).toList ↔
      q = anyQ ∨ UInt32.ofNat number = q := by
    rw [expected_ack, read (by decide), versions, getU32_putU32_self, UInt32.ofNat_toNat,
      read (by decide), qField, getU32_putU32_self]
    exact ⟨fun h => h.2.2, fun h => ⟨opRead, rfl, h⟩⟩
  rw [examine]
  dsimp only
  rw [if_neg (by rw [sized]; decide)]
  refine (Routine.run_modify _).bind ?_
  rw [if_neg (by rw [sized]; decide)]
  refine (Routine.run_modify _).bind (Routine.run_get.bind ?_)
  have genuine : ¬ (client.gcs ≠ object.gcs ∨
      slice (overwrite object.buffer ack).toList 0 4 ≠ GcsLedgerClient.magic) := by
    rintro (other | other)
    · exact other gcs.symm
    · exact other ((read (by decide)).trans head)
  have front : (overwrite object.buffer ack).toList.take (ackBytes - hmacBytes) =
      ack.take (ackBytes - hmacBytes) := @read 0 (ackBytes - hmacBytes) (by decide)
  have back : slice (overwrite object.buffer ack).toList (ackBytes - hmacBytes) hmacBytes =
      (hmac (ack.take (ackBytes - hmacBytes))).toList := by
    rw [read (by decide), ← tagged, slice, List.take_of_length_le]
    rw [List.length_drop, sized]
    decide
  dsimp only
  rw [if_neg genuine, sized, front, back]
  refine (Routine.run_perform (a := some (hmac (ack.take (ackBytes - hmacBytes))))
    (world_of_answered (.hmacSha256 _ _ ?_))).bind ?_
  · rintro t ⟨⟩
    rfl
  · rw [if_neg, if_neg]
    · by_cases index : q = anyQ ∨ UInt32.ofNat number = q
      · rw [if_pos (expected.mpr index), if_pos index]
        exact Routine.run_pure _
      · rw [if_neg (mt expected.mp index), if_neg index]
        exact Routine.run_pure _
    · rw [opRead]
      decide
    · exact not_not_intro ((constantTimeEqual_iff (List.Vector.toList_length _)
        (List.Vector.toList_length _)).mpr rfl)

/-- The network after the device has sent a request. -/
def sent (net : Net) (request : Bytes) : Net :=
  { net with requests := request :: net.requests, awaited := request }

/-- The client after one exchange that took one attempt. -/
def exchanged (object : GcsLedgerClient) (request reply : Bytes) : GcsLedgerClient :=
  { object with
    buffer := overwrite object.buffer reply
    txBytes := object.txBytes + .ofNat request.length
    rxBytes := object.rxBytes + 84 }

theorem kept_exchanged (kept : Kept client object) (request reply : Bytes) :
    Kept client (exchanged object request reply) := ⟨kept.gcs, kept.deviceId, kept.peerId⟩

/-- The first attempt succeeds when its wait ends with an acknowledgement of status zero. -/
theorem acknowledge_of_await (rounds : Nat) {version q : UInt32} {request : Bytes}
    {object' : GcsLedgerClient}
    (await : Routine.Run (world hmac client delivers)
      (awaitReply GcsLedgerClient.opAck version q rounds)
      { object with txBytes := object.txBytes + .ofNat request.length } (net.sent request)
      (some (some ackBytes)) object' net')
    (status : readByte object'.buffer.toList 48 = 0) :
    Routine.Run (world hmac client delivers) (acknowledge version q request) object net (some ())
      object' net' := by
  have exchange : Routine.Run (world hmac client delivers)
      (sendAndReceive GcsLedgerClient.opAck version q request) object net (some ackBytes) object'
      net' := by
    rw [sendAndReceive]
    refine (Routine.run_perform (a := ()) (world_of_answered .discardPending)).bind ?_
    refine Routine.Run.bind (a := some ackBytes) ?_ (Routine.run_pure _)
    rw [attempt]
    refine (Routine.run_perform (a := true) (world_of_answered (.sendPacket _ _))).bind ?_
    refine (Routine.run_guard rfl).bind ?_
    refine (Routine.run_modify _).bind ?_
    refine (Routine.run_perform (a := rounds) (world_of_answered (.pollRounds _))).bind ?_
    exact await
  exact exchange.bind (Routine.run_get.bind (Routine.run_guard ⟨rfl, status⟩))

/-- The status of an acknowledgement that was just read. -/
theorem readByte_received {version number : Nat} {ack : Bytes}
    (made : buildAck hmac client.deviceId.toList version number 0 = ack) :
    readByte (received object ack).buffer.toList 48 = 0 := by
  have sized : ack.length = ackBytes := made ▸ length_buildAck ..
  obtain ⟨-, -, -, -, status⟩ := slice_buildAck hmac client.deviceId.toList version number 0
  rw [made] at status
  refine readByte_of_slice ((slice_overwrite ?_ ?_).trans status)
  · rw [sized]
    decide
  · rw [sized]
    decide

/-- One round of the wait, which reads an acknowledgement that is in the network. -/
theorem awaitReply_run {version q : UInt32} {number rounds : Nat} {reply : Reply}
    {result : Option (Option Nat)} {object' : GcsLedgerClient} {net'' : Net}
    (steps : Relation.ReflTransGen (ServerStep hmac client) net net')
    (mem : reply ∈ net'.replies) (delivered : delivers net.awaited reply)
    (made : buildAck hmac client.deviceId.toList version.toNat number 0 = reply.bytes)
    (gcs : object.gcs = client.gcs)
    (rest : Routine.Run (world hmac client delivers)
      (if q = anyQ ∨ UInt32.ofNat number = q then pure (some ackBytes)
        else awaitReply GcsLedgerClient.opAck version q rounds)
      (received object reply.bytes) net' result object' net'') :
    Routine.Run (world hmac client delivers)
      (awaitReply GcsLedgerClient.opAck version q (rounds + 1)) object net result object'
      net'' := by
  have awaited : net'.awaited = net.awaited := (replies_subset steps).2
  refine (Routine.run_perform (a := some ⟨reply.bytes, client.gcs⟩)
    ⟨net', steps, .parsePacket _ ?_⟩).bind ?_
  · refine Routine.Run.bind (examine_buildAck made gcs) ?_
    by_cases index : q = anyQ ∨ UInt32.ofNat number = q
    · rw [if_pos index] at rest ⊢
      exact rest
    · rw [if_neg index] at rest ⊢
      exact rest
  · rintro p ⟨⟩ _
    exact ⟨reply, mem, rfl, by rwa [awaited]⟩

/-- The first attempt succeeds when a fitting acknowledgement is in the network. -/
theorem acknowledge_run {version q : UInt32} {number : Nat} {request : Bytes} {reply : Reply}
    (steps : Relation.ReflTransGen (ServerStep hmac client) (net.sent request) net')
    (mem : reply ∈ net'.replies) (delivered : delivers request reply)
    (made : buildAck hmac client.deviceId.toList version.toNat number 0 = reply.bytes)
    (index : q = anyQ ∨ UInt32.ofNat number = q) (gcs : object.gcs = client.gcs) :
    Routine.Run (world hmac client delivers) (acknowledge version q request) object net
      (some ()) (exchanged object request reply.bytes) net' := by
  refine acknowledge_of_await 1 (awaitReply_run steps mem delivered made gcs ?_)
    (readByte_received made)
  rw [if_pos index]
  exact Routine.run_pure _

section Enrolment

variable {lms : LmotsLms} {version : UInt32}

theorem tagged_rootRequest_op (deviceId : Identity) (identifier : Identifier) (root : Digest)
    (suiteId : UInt32) (status : UInt8) (expiryUnix : UInt64) :
    readByte (tagged hmac (enrollRootRequest deviceId version identifier root suiteId status
      expiryUnix)) 4 = opEnrollRoot := by
  obtain ⟨-, op, -⟩ := enrollRootRequest_fields deviceId (hmac ((enrollRootRequest deviceId version
    identifier root suiteId status expiryUnix).take _)) version identifier root suiteId status
    expiryUnix
  exact readByte_of_slice op

theorem tagged_pathRequest_op (deviceId : Identity) (q : UInt32) (path : Path) :
    readByte (tagged hmac (enrollPathRequest deviceId version q path)) 4 = opEnrollPath := by
  obtain ⟨-, op, -⟩ := enrollPathRequest_fields deviceId (hmac ((enrollPathRequest deviceId version
    q path).take _)) version q path
  exact readByte_of_slice op

theorem authenticate_run {request : Bytes} :
    Routine.Run (world hmac client delivers) (authenticate request) object net
      (some (tagged hmac request)) object net := by
  refine (Routine.run_perform
    (a := some (hmac (request.take (request.length - hmacBytes))))
    (world_of_answered (.hmacSha256 _ _ ?_))).bind (Routine.run_pure _)
  rintro t ⟨⟩
  rfl

/-- The network after the server has taken a request that was just sent. -/
def replied (net : Net) (request : Bytes) (ledger : Ledger) (reply : Bytes) : Net :=
  { net.sent request with ledger := ledger, replies := ⟨reply, request⟩ :: net.replies }

/-- A root is enrolled in one attempt when the server can store it. -/
theorem enrollOwnRoot_run {root : Digest} {suiteId : UInt32} {status : UInt8}
    {expiryUnix : UInt64} {ledger : Ledger} (built : lms.root = some root) (valid : status ≤ 3)
    (stored : net.ledger.upsertRoot object.deviceId.toList version.toNat
      ⟨lms.identifier.toList, root.toList, suiteId.toNat, status.toNat, expiryUnix.toNat⟩ =
        some ledger)
    (kept : Kept client object) {request : Bytes}
    (made : tagged hmac (enrollRootRequest object.deviceId version lms.identifier root suiteId
      status expiryUnix) = request)
    {reply : Bytes} (acked : buildAck hmac client.deviceId.toList version.toNat 0 0 = reply)
    (delivered : delivers request ⟨reply, request⟩) :
    Routine.Run (world hmac client delivers)
      (enrollOwnRoot lms version suiteId status expiryUnix) object net (some ())
      (exchanged object request reply) (net.replied request ledger reply) := by
  rw [enrollOwnRoot, built]
  refine Routine.run_get.bind (authenticate_run.bind ?_)
  rw [made]
  have parsed : parseRootRecord hmac (tagged hmac _) = _ := parseRootRecord_request
    object.deviceId version lms.identifier root suiteId expiryUnix valid rfl
  have turn : handle hmac net.ledger _ = _ := handle_rootRecord parsed stored
  rw [kept.deviceId, acked] at turn
  rw [kept.deviceId] at made
  refine acknowledge_run (.single (@ServerStep.own _ _ _ request _ _ List.mem_cons_self ?_))
    List.mem_cons_self delivered acked (.inl rfl) kept.gcs
  rw [← made]
  exact turn

/-- A path enrolment returns true for any acknowledgement in the network that has its
version and index. -/
theorem enrollPath_run {q : UInt32} {path : Path} {request : Bytes} {reply : Reply} {number : Nat}
    (extracted : lms.extractPath q.toNat = some path) (gcs : object.gcs = client.gcs)
    (made : tagged hmac (enrollPathRequest object.deviceId version q path) = request)
    (steps : Relation.ReflTransGen (ServerStep hmac client) (net.sent request) net')
    (mem : reply ∈ net'.replies) (delivered : delivers request reply)
    (acked : buildAck hmac client.deviceId.toList version.toNat number 0 = reply.bytes)
    (index : UInt32.ofNat number = q) :
    Routine.Run (world hmac client delivers) (enrollPath lms version q) object net (some ())
      (exchanged object request reply.bytes) net' := by
  rw [enrollPath, extracted]
  refine Routine.run_get.bind (authenticate_run.bind ?_)
  rw [made]
  exact acknowledge_run steps mem delivered acked (.inr index) gcs

/-- A path is enrolled in one attempt when the server takes the request. -/
theorem enrollPath_replied_run {q : UInt32} {path : Path} {request reply : Bytes}
    (extracted : lms.extractPath q.toNat = some path) (kept : Kept client object)
    (made : tagged hmac (enrollPathRequest object.deviceId version q path) = request)
    (acked : buildAck hmac client.deviceId.toList version.toNat q.toNat 0 = reply)
    (delivered : delivers request ⟨reply, request⟩) :
    Routine.Run (world hmac client delivers) (enrollPath lms version q) object net (some ())
      (exchanged object request reply) (net.replied request (net.ledger.upsertPath
        client.deviceId.toList version.toNat q.toNat path.toList) reply) := by
  have parsed : parsePathRecord hmac (tagged hmac _) = _ := parsePathRecord_request
    object.deviceId version path (LmotsLms.lt_of_extractPath extracted) rfl
  have turn : handle hmac net.ledger _ = _ := handle_pathRecord parsed
  rw [made, kept.deviceId, acked] at turn
  exact enrollPath_run extracted kept.gcs made
    (.single (@ServerStep.own _ _ _ request _ _ List.mem_cons_self turn)) List.mem_cons_self
    delivered acked UInt32.ofNat_toNat

/-- A path is enrolled although an acknowledgement of another index arrives before its own. -/
theorem enrollPath_repeated_run {q : UInt32} {path : Path} {request reply : Bytes}
    (extracted : lms.extractPath q.toNat = some path) (kept : Kept client object)
    (made : tagged hmac (enrollPathRequest object.deviceId version q path) = request)
    (acked : buildAck hmac client.deviceId.toList version.toNat q.toNat 0 = reply)
    (delivered : delivers request ⟨reply, request⟩) {old : Reply} {number : Nat}
    (mem : old ∈ net.replies) (again : delivers request old)
    (answered : buildAck hmac client.deviceId.toList version.toNat number 0 = old.bytes)
    (other : ¬ (q = anyQ ∨ UInt32.ofNat number = q)) :
    Routine.Run (world hmac client delivers) (enrollPath lms version q) object net (some ())
      (received (exchanged object request old.bytes) reply) (net.replied request
        (net.ledger.upsertPath client.deviceId.toList version.toNat q.toNat path.toList)
        reply) := by
  have parsed : parsePathRecord hmac (tagged hmac _) = _ := parsePathRecord_request
    object.deviceId version path (LmotsLms.lt_of_extractPath extracted) rfl
  have turn : handle hmac net.ledger _ = _ := handle_pathRecord parsed
  rw [made, kept.deviceId, acked] at turn
  have step : ServerStep hmac client (net.sent request) (net.replied request _ reply) :=
    .own List.mem_cons_self turn
  rw [enrollPath, extracted]
  refine Routine.run_get.bind (authenticate_run.bind ?_)
  rw [made]
  refine acknowledge_of_await 2 (awaitReply_run .refl mem again answered kept.gcs ?_)
    (readByte_received acked)
  rw [if_neg other]
  refine awaitReply_run (.single step) List.mem_cons_self delivered acked kept.gcs ?_
  rw [if_pos (.inr UInt32.ofNat_toNat)]
  exact Routine.run_pure _

/-- A range of one leaf is enrolled by one iteration. -/
theorem enrollOwnPaths_run_single {object' : GcsLedgerClient}
    (run : Routine.Run (world hmac client delivers) (enrollPath lms version 0) object net
      (some ()) object' net') :
    Routine.Run (world hmac client delivers) (enrollOwnPaths lms version 0 1) object net
      (some ()) object' net' :=
  (Routine.run_guard (by decide)).bind (Routine.Run.bind run (Routine.run_pure _))

/-- A range of three leaves. -/
theorem enrollOwnPaths_run_three {object₁ object₂ object₃ : GcsLedgerClient} {net₁ net₂ net₃ : Net}
    (zero : Routine.Run (world hmac client delivers) (enrollPath lms version 0) object net (some ())
      object₁ net₁)
    (one : Routine.Run (world hmac client delivers) (enrollPath lms version 1) object₁ net₁
      (some ()) object₂ net₂)
    (two : Routine.Run (world hmac client delivers) (enrollPath lms version 2) object₂ net₂
      (some ()) object₃ net₃) :
    Routine.Run (world hmac client delivers) (enrollOwnPaths lms version 0 3) object net (some ())
      object₃ net₃ :=
  (Routine.run_guard (by decide)).bind
    (Routine.Run.bind zero (Routine.Run.bind one (Routine.Run.bind two (Routine.run_pure _))))

end Enrolment

end Gcs.Net
