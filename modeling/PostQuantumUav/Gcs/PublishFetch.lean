import PostQuantumUav.Gcs.MainLoop
import PostQuantumUav.Library.Interaction.Total
import PostQuantumUav.Puav.GcsExchange

/-!
# What a device publishes is what its peer fetches

A client and the server are joined by a network that delivers: every request
reaches the server, and its reply arrives before the wait loop ends, after any
number of empty rounds and packets from other addresses. Clients, requests,
tables and replies are those of the models on either side.

A record enrolled by one client is then fetched by a client that names the
first one as its peer, whatever packets the server received in between, as long
as none of them enrolled the same key.
-/

namespace Gcs

open Interaction Puav Cell Buffer

/-- The tables, the reply under way, and the rounds that pass before it arrives. -/
structure Link where
  ledger : Ledger
  reply : Option Bytes
  delay : Nat

namespace Link

section World

variable (hmac : Bytes → Tag) (server : Transport.Endpoint)

/-- The tables after a packet; the service is started again where the packet ended it. -/
def serve (ledger : Ledger) (packet : Bytes) : Ledger :=
  match handle hmac ledger packet with
  | .replied ledger _ => ledger
  | _ => ledger

/-- The server's answer to a packet. -/
def answer (ledger : Ledger) (packet : Bytes) : Option Bytes :=
  match handle hmac ledger packet with
  | .replied _ reply => some reply
  | _ => none

/-- How a client's calls are answered. -/
inductive Answered : Link → Event GcsLedgerClient.calls → Link → Prop where
  | discardPending (s : Link) : Answered s ⟨.discardPending, ()⟩ { s with reply := none }
  | hmacSha256 (s : Link) (data : Bytes) : Answered s ⟨.hmacSha256 data, some (hmac data)⟩ s
  | sendPacket (s : Link) (request : Bytes) : Answered s ⟨.sendPacket request, true⟩
      { s with ledger := serve hmac s.ledger request, reply := answer hmac s.ledger request }
  | pollRounds (s : Link) {rounds delay : Nat} (before : delay < rounds) :
      Answered s ⟨.pollRounds, rounds⟩ { s with delay := delay }
  | elsewhere (s : Link) {delay : Nat} (packet : Option Transport.Packet)
      (later : s.delay = delay + 1) (foreign : ∀ p, packet = some p → p.source ≠ server) :
      Answered s ⟨.parsePacket, packet⟩ { s with delay := delay }
  | arrives (s : Link) {reply : Bytes} (now : s.delay = 0) (present : s.reply = some reply) :
      Answered s ⟨.parsePacket, some ⟨reply, server⟩⟩ { s with reply := none }
  | nothing (s : Link) (packet : Option Transport.Packet) (now : s.delay = 0)
      (absent : s.reply = none) (foreign : ∀ p, packet = some p → p.source ≠ server) :
      Answered s ⟨.parsePacket, packet⟩ s
  | espTimer (s : Link) (now : UInt64) : Answered s ⟨.espTimer, now⟩ s

def world : World GcsLedgerClient.calls Link := Answered hmac server

theorem responsive : (world hmac server).Responsive := by
  intro s c
  cases c with
  | discardPending => exact ⟨_, _, .discardPending s⟩
  | hmacSha256 data => exact ⟨_, _, .hmacSha256 s data⟩
  | sendPacket request => exact ⟨_, _, .sendPacket s request⟩
  | pollRounds => exact ⟨_, _, .pollRounds s Nat.zero_lt_one⟩
  | espTimer => exact ⟨_, _, .espTimer s 0⟩
  | parsePacket =>
      cases delay : s.delay with
      | succ delay => exact ⟨_, _, .elsewhere s none delay (fun _ some => nomatch some)⟩
      | zero =>
          cases reply : s.reply with
          | none => exact ⟨_, _, .nothing s none delay reply (fun _ some => nomatch some)⟩
          | some reply' => exact ⟨_, _, .arrives s delay reply⟩

end World

/-- A reply that passes every check of a waiting client. -/
structure Accepted (hmac : Bytes → Tag) (expectedOp : UInt8) (expectedVersion expectedQ : UInt32)
    (reply : Bytes) : Prop where
  long : 48 ≤ reply.length
  short : reply.length ≤ maxGcsPacketBytes
  magic : slice reply 0 4 = GcsLedgerClient.magic
  tag : reply.drop (reply.length - tagBytes) = (hmac (reply.take (reply.length - tagBytes))).toList
  found : readByte reply 4 ≠ GcsLedgerClient.opNotFound
  expected : GcsLedgerClient.Expected expectedOp expectedVersion expectedQ reply

open GcsLedgerClient in
/-- The checks read nothing beyond the head of a reply. -/
theorem expected_congr {expectedOp : UInt8} {expectedVersion expectedQ : UInt32}
    {buffer reply : Bytes} (same : ∀ offset length, offset + length ≤ 48 →
      slice buffer offset length = slice reply offset length) :
    readByte buffer 4 = readByte reply 4 ∧
      (Expected expectedOp expectedVersion expectedQ buffer ↔
        Expected expectedOp expectedVersion expectedQ reply) := by
  have op : readByte buffer 4 = readByte reply 4 := readByte_congr (same 4 1 (by decide))
  refine ⟨op, ?_⟩
  rw [Expected, Expected, op, same 40 4 (by decide), same 44 4 (by decide)]

section Exchange

open GcsLedgerClient

variable {hmac : Bytes → Tag} {server : Transport.Endpoint} {client : GcsLedgerClient} {s : Link}
variable {expectedOp : UInt8} {expectedVersion expectedQ : UInt32} {request reply : Bytes}
variable {ledger : Ledger}

/-- The client after it has accepted the reply. -/
structure Holds (client client' : GcsLedgerClient) (reply : Bytes) : Prop where
  kept : Kept client client'
  field : ∀ offset length, offset + length ≤ reply.length →
    slice client'.buffer.toList offset length = slice reply offset length

theorem examine_elsewhere {packet : Transport.Packet} (foreign : packet.source ≠ client.gcs) :
    Routine.Ensures (world hmac server) (fun _ => True) (fun result client' t =>
      result = some none ∧ Kept client client' ∧ t = s)
      (examine expectedOp expectedVersion expectedQ packet) client s := by
  simp only [examine, Routine.ensures_bind, Routine.ensures_ite, Routine.ensures_modify,
    Routine.ensures_pure, Routine.ensures_get, Routine.ensures_failure]
  refine ⟨fun _ => ⟨trivial, ⟨rfl, rfl, rfl⟩, trivial⟩, fun _ =>
    ⟨fun _ => ⟨trivial, ⟨rfl, rfl, rfl⟩, trivial⟩, fun _ =>
      ⟨fun _ => ⟨trivial, ⟨rfl, rfl, rfl⟩, trivial⟩, fun genuine => ?_⟩⟩⟩
  exact absurd (.inl foreign) genuine

theorem examine_accepted (ok : Accepted hmac expectedOp expectedVersion expectedQ reply)
    (gcs : client.gcs = server) :
    Routine.Ensures (world hmac server) (fun _ => True) (fun result client' t =>
      result = some (some reply.length) ∧ Holds client client' reply ∧ t = s)
      (examine expectedOp expectedVersion expectedQ ⟨reply, server⟩) client s := by
  have field : ∀ offset length, offset + length ≤ reply.length →
      slice (overwrite client.buffer reply).toList offset length = slice reply offset length :=
    fun _ _ inside => slice_overwrite ok.short inside
  obtain ⟨op, expected⟩ := @expected_congr expectedOp expectedVersion expectedQ _ _
    fun offset length inside => field offset length (inside.trans ok.long)
  have long := ok.long
  simp only [examine, Routine.ensures_bind, Routine.ensures_ite, Routine.ensures_modify,
    Routine.ensures_pure, Routine.ensures_get, Routine.ensures_failure]
  refine ⟨fun large => absurd ok.short (Nat.not_le.mpr large), fun _ =>
    ⟨fun small => ?_, fun _ => ⟨fun other => ?_, fun _ => ?_⟩⟩⟩
  · simp only [hmacBytes] at small
    omega
  · rcases other with other | other
    · exact absurd gcs.symm other
    · rw [field 0 4 (by omega)] at other
      exact absurd ok.magic other
  intro tag t answered
  cases answered
  have taken : (overwrite client.buffer reply).toList.take (reply.length - hmacBytes) =
      reply.take (reply.length - hmacBytes) := by
    have front := field 0 (reply.length - hmacBytes) (by omega)
    rwa [slice, slice, List.drop_zero, List.drop_zero] at front
  have tagField : slice (overwrite client.buffer reply).toList (reply.length - hmacBytes)
      hmacBytes = (hmac (reply.take (reply.length - tagBytes))).toList := by
    rw [field _ _ (by omega), slice, ← ok.tag, List.take_of_length_le]
    rw [List.length_drop]
    omega
  refine ⟨trivial, fun forged => ?_, fun _ => ⟨fun missing => ?_, fun _ => ⟨fun _ => ?_, ?_⟩⟩⟩
  · refine absurd ?_ forged
    rw [Option.any_some, taken, tagField]
    exact (constantTimeEqual_iff (List.Vector.toList_length _)
      (List.Vector.toList_length _)).mpr rfl
  · exact absurd (op ▸ missing) ok.found
  · exact ⟨trivial, ⟨⟨rfl, rfl, rfl⟩, field⟩, rfl⟩
  · intro refused
    exact absurd (expected.mpr ok.expected) refused

theorem awaitReply_accepted (ok : Accepted hmac expectedOp expectedVersion expectedQ reply)
    (gcs : client.gcs = server) (rounds : Nat) (present : s.reply = some reply)
    (before : s.delay < rounds) :
    Routine.Ensures (world hmac server) (fun _ => True) (fun result client' t =>
      result = some (some reply.length) ∧ Holds client client' reply ∧ t.ledger = s.ledger)
      (awaitReply expectedOp expectedVersion expectedQ rounds) client s := by
  induction rounds generalizing client s with
  | zero => exact absurd before (Nat.not_lt_zero _)
  | succ rounds ih =>
      refine Routine.Ensures.perform fun packet t answered => ⟨trivial, ?_⟩
      cases answered with
      | @elsewhere delay _ later foreign =>
          rw [later] at before
          have after := Nat.lt_of_succ_lt_succ before
          cases packet with
          | none => exact @ih client ⟨s.ledger, s.reply, delay⟩ gcs present after
          | some packet =>
              refine (examine_elsewhere (gcs ▸ foreign packet rfl)).bind ?_ ?_
              · rintro _ _ ⟨failed, -⟩
                nomatch failed
              · rintro _ client' _ ⟨⟨⟩, kept, rfl⟩
                refine (@ih client' ⟨s.ledger, s.reply, delay⟩ (kept.gcs.trans gcs) present
                  after).mono ?_
                rintro _ _ _ ⟨received, holds, same⟩
                exact ⟨received, ⟨kept.trans holds.kept, holds.field⟩, same⟩
      | @arrives _ now here =>
          obtain rfl : _ = reply := Option.some.inj (here.symm.trans present)
          refine (examine_accepted ok gcs).bind ?_ ?_
          · rintro _ _ ⟨failed, -⟩
            nomatch failed
          · rintro _ client' _ ⟨⟨⟩, holds, rfl⟩
            exact ⟨rfl, holds, rfl⟩
      | nothing _ now absent foreign => exact nomatch absent.symm.trans present

/-- An exchange hands the server the request and returns its reply. -/
theorem sendAndReceive_accepted (ok : Accepted hmac expectedOp expectedVersion expectedQ reply)
    (gcs : client.gcs = server) (turn : handle hmac s.ledger request = .replied ledger reply) :
    Routine.Ensures (world hmac server) (fun _ => True) (fun result client' t =>
      result = some reply.length ∧ Holds client client' reply ∧ t.ledger = ledger)
      (sendAndReceive expectedOp expectedVersion expectedQ request) client s := by
  refine Routine.Ensures.perform fun _ t answered => ⟨trivial, ?_⟩
  cases answered
  rw [gcsRetries, attempts]
  refine Routine.ensures_bind.mpr (Routine.Ensures.perform fun sent t answered => ⟨trivial, ?_⟩)
  cases answered
  simp only [Routine.ensures_bind (r := guard _), Routine.ensures_guard,
    Routine.ensures_bind (r := modify _), Routine.ensures_modify]
  refine ⟨fun _ => ?_, fun unsent => absurd trivial unsent⟩
  refine Routine.Ensures.perform fun rounds t polled => ⟨trivial, ?_⟩
  cases polled with
  | @pollRounds _ delay before =>
      have waiting : answer hmac s.ledger request = some reply := by rw [answer, turn]
      refine (@awaitReply_accepted hmac server
        { client with txBytes := client.txBytes + .ofNat request.length }
        ⟨serve hmac s.ledger request, answer hmac s.ledger request, delay⟩ _ _ _ _ ok gcs rounds
        waiting before).mono ?_
      · rintro _ client' t ⟨rfl, holds, same⟩
        refine ⟨rfl, ⟨⟨holds.kept.gcs, holds.kept.deviceId, holds.kept.peerId⟩, holds.field⟩,
          same.trans ?_⟩
        rw [serve, turn]

end Exchange

section Replies

open GcsLedgerClient

variable {hmac : Bytes → Tag} {deviceId : Identity} {version : UInt32}

theorem accepted_ack {q : UInt32} {number : Nat} (index : q = anyQ ∨ UInt32.ofNat number = q) :
    Accepted hmac opAck version q (buildAck hmac deviceId.toList version.toNat number 0) := by
  obtain ⟨head, op, versions, numbers, -⟩ :=
    slice_buildAck hmac deviceId.toList version.toNat number 0
  have sized := length_buildAck hmac deviceId.toList version.toNat number 0
  refine ⟨by rw [sized]; decide, by rw [sized]; decide, head,
    drop_withTag_of_length hmac (by simp) (by decide : tagBytes ≤ ackBytes), ?_, ?_⟩
  · rw [readByte_of_slice op]
    decide
  · refine expected_ack.mpr ⟨readByte_of_slice op, ?_, ?_⟩
    · rw [versions, getU32_putU32_self]
      exact UInt32.ofNat_toNat
    · rwa [numbers, getU32_putU32_self]

theorem accepted_rootRecord {record : RootRecord} (valid : record.Valid) :
    Accepted hmac opRootRecord version anyQ
      (buildRootResponse hmac deviceId.toList version.toNat record) := by
  obtain ⟨head, op, -, versions, -⟩ := slice_buildRootResponse hmac deviceId.toList_length
    version.toNat valid.identifier valid.root
  have sized := length_buildRootResponse hmac deviceId.toList version.toNat record
  refine ⟨by rw [sized]; decide, by rw [sized]; decide, head,
    drop_withTag_of_length hmac (by simp) (by decide : tagBytes ≤ rootRecordBytes), ?_, ?_⟩
  · rw [readByte_of_slice op]
    decide
  · refine ⟨readByte_of_slice op, ?_, .inl rfl⟩
    rw [readByte_of_slice op, if_pos (by decide), versions, getU32_putU32_self, UInt32.ofNat_toNat]

theorem accepted_pathRecord {q : UInt32} {path : Bytes} (long : path.length = pathBytes) :
    Accepted hmac opPathRecord version q
      (buildPathResponse hmac deviceId.toList version.toNat q.toNat path) := by
  obtain ⟨head, op, -, versions, numbers, -⟩ := slice_buildPathResponse hmac deviceId.toList_length
    version.toNat q.toNat long
  have sized := length_buildPathResponse hmac deviceId.toList version.toNat q.toNat path
  refine ⟨by rw [sized]; decide, sized.le, head,
    drop_withTag_of_length hmac (by simp) (by decide : tagBytes ≤ pathRecordBytes), ?_, ?_⟩
  · rw [readByte_of_slice op]
    decide
  · refine ⟨readByte_of_slice op, ?_, .inr ?_⟩
    · rw [readByte_of_slice op, if_pos (by decide), versions, getU32_putU32_self,
        UInt32.ofNat_toNat]
    · rw [readByte_of_slice op, if_pos (by decide), numbers, getU32_putU32_self,
        UInt32.ofNat_toNat]

end Replies

section Clients

open GcsLedgerClient

variable {hmac : Bytes → Tag} {server : Transport.Endpoint} {client : GcsLedgerClient} {s : Link}
variable {ledger : Ledger} {version q : UInt32} {request : Bytes}

/-- A tagged request, and then the rest of a method. -/
theorem authenticate_then {α : Type} {rest : Bytes → Method α}
    {post : Option α → GcsLedgerClient → Link → Prop}
    (continued : Routine.Ensures (world hmac server) (fun _ => True) post
      (rest (tagged hmac request)) client s) :
    Routine.Ensures (world hmac server) (fun _ => True) post (authenticate request >>= rest)
      client s := by
  have tags : Routine.Ensures (world hmac server) (fun _ => True) (fun result client' t =>
      result = some (tagged hmac request) ∧ client' = client ∧ t = s)
      (authenticate request) client s := by
    refine Routine.Ensures.perform fun tag t answered => ⟨trivial, ?_⟩
    cases answered
    exact ⟨rfl, rfl, rfl⟩
  refine tags.bind ?_ ?_
  · rintro _ _ ⟨failed, -⟩
    nomatch failed
  · rintro _ _ _ ⟨⟨⟩, rfl, rfl⟩
    exact continued

/-- A request that the server acknowledges is acknowledged to the client. -/
theorem acknowledge_ensures {number : Nat} (gcs : client.gcs = server)
    (index : q = anyQ ∨ UInt32.ofNat number = q)
    (turn : handle hmac s.ledger request =
      .replied ledger (buildAck hmac client.deviceId.toList version.toNat number 0)) :
    Routine.Ensures (world hmac server) (fun _ => True) (fun result _ t =>
      result = some () ∧ t.ledger = ledger) (acknowledge version q request) client s := by
  have accepted : Accepted hmac opAck version q (buildAck hmac client.deviceId.toList
    version.toNat number 0) := accepted_ack index
  have sized := length_buildAck hmac client.deviceId.toList version.toNat number 0
  obtain ⟨-, -, -, -, status⟩ := slice_buildAck hmac client.deviceId.toList version.toNat number 0
  generalize buildAck hmac client.deviceId.toList version.toNat number 0 = ack at *
  refine (sendAndReceive_accepted accepted gcs turn).bind ?_ ?_
  · rintro _ _ ⟨failed, -⟩
    nomatch failed
  · rintro length client' t ⟨received, holds, same⟩
    rw [← holds.field 48 1 (by rw [sized]; decide)] at status
    simp only [Routine.ensures_bind, Routine.ensures_get, Routine.ensures_guard]
    refine ⟨fun _ => ⟨trivial, same⟩, fun refused => absurd ⟨?_, readByte_of_slice status⟩ refused⟩
    rw [Option.some.inj received, sized]

variable {lms : LmotsLms}

/-- Enrolling a root stores exactly the record that the device publishes. -/
theorem enrollOwnRoot_ensures {root : Digest} {suiteId : UInt32} {status : UInt8}
    {expiryUnix : UInt64} (gcs : client.gcs = server) (built : lms.root = some root)
    (valid : status ≤ 3) (stored : s.ledger.upsertRoot client.deviceId.toList version.toNat
      ⟨lms.identifier.toList, root.toList, suiteId.toNat, status.toNat, expiryUnix.toNat⟩ =
        some ledger) :
    Routine.Ensures (world hmac server) (fun _ => True) (fun result _ t =>
      result = some () ∧ t.ledger = ledger)
      (enrollOwnRoot lms version suiteId status expiryUnix) client s := by
  obtain ⟨request, made⟩ : ∃ request, enrollRootRequest client.deviceId version lms.identifier root
      suiteId status expiryUnix = request := ⟨_, rfl⟩
  rw [enrollOwnRoot]
  simp only [Routine.ensures_bind (r := get), Routine.ensures_get, built]
  rw [made]
  exact authenticate_then (acknowledge_ensures gcs (.inl rfl)
    (handle_rootRecord (parseRootRecord_request _ _ _ _ _ _ valid made) stored))

/-- Enrolling a path stores exactly the path. -/
theorem enrollPath_ensures {path : Path} (gcs : client.gcs = server)
    (extracted : lms.extractPath q.toNat = some path) :
    Routine.Ensures (world hmac server) (fun _ => True) (fun result _ t =>
      result = some () ∧ t.ledger =
        s.ledger.upsertPath client.deviceId.toList version.toNat q.toNat path.toList)
      (enrollPath lms version q) client s := by
  obtain ⟨request, made⟩ : ∃ request, enrollPathRequest client.deviceId version q path = request :=
    ⟨_, rfl⟩
  rw [enrollPath]
  simp only [Routine.ensures_bind (r := get), Routine.ensures_get, extracted]
  rw [made]
  exact authenticate_then (acknowledge_ensures gcs (.inr UInt32.ofNat_toNat)
    (handle_pathRecord (parsePathRecord_request _ _ _ (LmotsLms.lt_of_extractPath extracted) made)))

/-- A stored root record is what a fetch of it returns. -/
theorem fetchPeerRoot_ensures {identifier : Identifier} {root : Digest} {suiteId : UInt32}
    {status : UInt8} {expiryUnix : UInt64} (gcs : client.gcs = server)
    (valid : status ≤ 3) (small : expiryUnix.toNat < 2 ^ 63)
    (held : s.ledger.roots (client.peerId.toList, version.toNat) = some
      ⟨identifier.toList, root.toList, suiteId.toNat, status.toNat, expiryUnix.toNat⟩) :
    Routine.Ensures (world hmac server) (fun _ => True) (fun result _ _ =>
      result = some ⟨true, version, identifier, root, suiteId, status, expiryUnix⟩)
      (fetchPeerRoot version) client s := by
  obtain ⟨record, fields⟩ : ∃ record : RootRecord, record =
      ⟨identifier.toList, root.toList, suiteId.toNat, status.toNat, expiryUnix.toNat⟩ := ⟨_, rfl⟩
  rw [← fields] at held
  have fits : record.Valid := by
    subst fields
    exact ⟨identifier.toList_length, root.toList_length, suiteId.toNat_lt, valid, by
      simp only [Ledger.sqliteMax]
      omega⟩
  obtain ⟨request, made⟩ : ∃ request,
      getRootRequest client.deviceId client.peerId version = request := ⟨_, rfl⟩
  have turn : handle hmac s.ledger (tagged hmac request) = .replied s.ledger _ :=
    handle_getRoot (parseGetRoot_request _ _ _ made)
  rw [held] at turn
  have accepted : Accepted hmac opRootRecord version anyQ (buildRootResponse hmac
    client.peerId.toList version.toNat record) := accepted_rootRecord fits
  have sized := length_buildRootResponse hmac client.peerId.toList version.toNat record
  obtain ⟨-, -, id, versions, identifiers, roots, suites, statuses, expiries⟩ :=
    slice_buildRootResponse hmac client.peerId.toList_length version.toNat fits.identifier fits.root
  dsimp only at turn
  generalize buildRootResponse hmac client.peerId.toList version.toNat record = reply at *
  rw [fetchPeerRoot]
  simp only [Routine.ensures_bind (r := get), Routine.ensures_get]
  rw [made]
  apply authenticate_then
  rw [waitRounds, fetchRounds]
  refine Routine.ensures_bind.mpr (Routine.ensures_attempt.mpr
    ((sendAndReceive_accepted accepted gcs turn).mono ?_))
  rintro result client' t ⟨received, holds, -⟩
  have field : ∀ offset length, offset + length ≤ rootRecordBytes →
      slice client'.buffer.toList offset length = slice reply offset length :=
    fun offset length inside => holds.field offset length (inside.trans sized.ge)
  rw [received]
  simp only [Routine.ensures_bind (r := get), Routine.ensures_get,
    Routine.ensures_bind (r := guard _), Routine.ensures_guard, Routine.ensures_pure]
  refine ⟨fun _ => ?_, fun refused => absurd ⟨sized, ?_⟩ refused⟩
  · subst fields
    rw [peerRecord, Option.some.injEq, PeerPublicRecord.mk.injEq]
    refine ⟨rfl, ?_, ?_, ?_, ?_, ?_, ?_⟩
    · rw [field 40 4 (by decide), versions, getU32_putU32_self, UInt32.ofNat_toNat]
    · apply Subtype.ext
      exact (field 44 16 (by decide)).trans identifiers
    · apply Subtype.ext
      exact (field 60 32 (by decide)).trans roots
    · rw [field 92 4 (by decide), suites, getU32_putU32_self, UInt32.ofNat_toNat]
    · rw [readByte_of_slice ((field 96 1 (by decide)).trans statuses)]
      exact UInt8.ofNat_toNat
    · rw [field 100 8 (by decide), expiries, getU64_putU64_self, UInt64.ofNat_toNat]
  · rw [field 8 32 (by decide), id, holds.kept.peerId]
    exact (constantTimeEqual_iff client.peerId.toList_length client.peerId.toList_length).mpr rfl

/-- A stored path is what a fetch of it returns. -/
theorem fetchPeerPath_ensures {path : Path} (gcs : client.gcs = server) (index : q.toNat < 1024)
    (held : s.ledger.paths (client.peerId.toList, version.toNat, q.toNat) = some path.toList) :
    Routine.Ensures (world hmac server) (fun _ => True) (fun result _ _ =>
      ∃ metrics, result = some (some path, metrics)) (fetchPeerPath version q) client s := by
  obtain ⟨request, made⟩ : ∃ request,
      getPathRequest client.deviceId client.peerId version q = request := ⟨_, rfl⟩
  have turn : handle hmac s.ledger (tagged hmac request) = .replied s.ledger _ :=
    handle_getPath (parseGetPath_request _ _ _ index made)
  rw [held] at turn
  have accepted : Accepted hmac opPathRecord version q (buildPathResponse hmac
    client.peerId.toList version.toNat q.toNat path.toList) :=
    accepted_pathRecord path.toList_length
  have sized := length_buildPathResponse hmac client.peerId.toList version.toNat q.toNat path.toList
  obtain ⟨-, -, id, -, -, paths⟩ := slice_buildPathResponse hmac client.peerId.toList_length
    version.toNat q.toNat path.toList_length
  dsimp only at turn
  generalize buildPathResponse hmac client.peerId.toList version.toNat q.toNat path.toList =
    reply at *
  rw [fetchPeerPath]
  simp only [Routine.ensures_bind (r := guard _), Routine.ensures_guard,
    Routine.ensures_bind (r := get), Routine.ensures_get]
  refine ⟨fun _ => ?_, fun refused => absurd (UInt32.lt_iff_toNat_lt.mpr index) refused⟩
  rw [made]
  refine authenticate_then (Routine.Ensures.perform fun start t timed => ⟨trivial, ?_⟩)
  cases timed
  refine Routine.ensures_bind.mpr (Routine.ensures_attempt.mpr
    ((sendAndReceive_accepted accepted gcs turn).mono ?_))
  rintro result client' t ⟨received, holds, -⟩
  refine Routine.Ensures.perform fun stop t' timed => ⟨trivial, ?_⟩
  cases timed
  have own : constantTimeEqual (slice client'.buffer.toList 8 idBytes) client'.peerId.toList
      idBytes = true := by
    rw [holds.field 8 32 (by rw [sized]; decide), id, holds.kept.peerId]
    exact (constantTimeEqual_iff client.peerId.toList_length client.peerId.toList_length).mpr rfl
  simp only [Routine.ensures_bind (r := get), Routine.ensures_get]
  rw [received, sized, if_pos ⟨rfl, own⟩]
  refine ⟨_, congrArg some (Prod.ext (congrArg some (Subtype.ext ?_)) rfl)⟩
  exact (holds.field 48 320 (by rw [sized]; decide)).trans paths

end Clients

section Between

variable {hmac : Bytes → Tag} {ledger : Ledger} {packet : Bytes}

/-- A packet that enrols a root under a key. -/
def EnrollsRoot (hmac : Bytes → Tag) (key : Bytes × Nat) (packet : Bytes) : Prop :=
  ∃ record, parseRootRecord hmac packet = .ok (key.1, key.2, record)

/-- A packet that enrols a path under a key. -/
def EnrollsPath (hmac : Bytes → Tag) (key : Bytes × Nat × Nat) (packet : Bytes) : Prop :=
  ∃ path, parsePathRecord hmac packet = .ok (key.1, key.2.1, key.2.2, path)

/-- Only an enrolment of a key changes what is stored under it. -/
theorem roots_serve {key : Bytes × Nat} (other : ¬ EnrollsRoot hmac key packet) :
    (serve hmac ledger packet).roots key = ledger.roots key := by
  rw [serve]
  split
  · rename_i ledger' reply turn
    rcases handle_writes turn with ⟨deviceId, version, record, parsed, stored⟩ |
      ⟨deviceId, version, q, path, -, rfl⟩ | rfl
    · have differ : key ≠ (deviceId, version) := by
        rintro rfl
        exact other ⟨record, parsed⟩
      rw [Ledger.roots_upsertRoot stored, Function.update_of_ne differ]
    · rw [Ledger.roots_upsertPath]
    · rfl
  · rfl

theorem paths_serve {key : Bytes × Nat × Nat} (other : ¬ EnrollsPath hmac key packet) :
    (serve hmac ledger packet).paths key = ledger.paths key := by
  rw [serve]
  split
  · rename_i ledger' reply turn
    rcases handle_writes turn with ⟨deviceId, version, record, -, stored⟩ |
      ⟨deviceId, version, q, path, parsed, rfl⟩ | rfl
    · rw [Ledger.paths_upsertRoot stored]
    · have differ : key ≠ (deviceId, version, q) := by
        rintro rfl
        exact other ⟨path, parsed⟩
      rw [Ledger.paths_upsertPath, Function.update_of_ne differ]
    · rfl
  · rfl

theorem roots_foldl_serve {key : Bytes × Nat} {between : List Bytes}
    (others : ∀ packet ∈ between, ¬ EnrollsRoot hmac key packet) :
    (between.foldl (serve hmac) ledger).roots key = ledger.roots key := by
  induction between generalizing ledger with
  | nil => rfl
  | cons packet rest ih =>
      rw [List.foldl_cons, ih fun later mem => others later (List.mem_cons_of_mem _ mem),
        roots_serve (others packet List.mem_cons_self)]

theorem paths_foldl_serve {key : Bytes × Nat × Nat} {between : List Bytes}
    (others : ∀ packet ∈ between, ¬ EnrollsPath hmac key packet) :
    (between.foldl (serve hmac) ledger).paths key = ledger.paths key := by
  induction between generalizing ledger with
  | nil => rfl
  | cons packet rest ih =>
      rw [List.foldl_cons, ih fun later mem => others later (List.mem_cons_of_mem _ mem),
        paths_serve (others packet List.mem_cons_self)]

end Between

section Published

open GcsLedgerClient

/-- After any packets but the excluded ones, a query of `peer` ends in `expected`. -/
def FetchedLater {α : Type} (hmac : Bytes → Tag) (server : Transport.Endpoint) (ledger : Ledger)
    (excluded : Bytes → Prop) (peer : GcsLedgerClient) (query : Method α)
    (expected : Option α → Prop) : Prop :=
  ∀ between : List Bytes, (∀ packet ∈ between, ¬ excluded packet) →
    ∀ s : Link, s.ledger = between.foldl (serve hmac) ledger →
      Routine.Total (world hmac server) (fun result _ _ => expected result) query peer s

/-- A root or a path that a device enrols is accepted with exactly its fields, and a peer that
asks for it later gets exactly these, until the same key is enrolled again. -/
theorem published_is_fetched (hmac : Bytes → Tag) {server : Transport.Endpoint}
    {device peer : GcsLedgerClient} (reached : device.gcs = server ∧ peer.gcs = server)
    (named : peer.peerId = device.deviceId) {lms : LmotsLms} {root : Digest}
    (built : lms.root = some root) (version suiteId : UInt32) {status : UInt8}
    (valid : status ≤ 3) {expiryUnix : UInt64} (small : expiryUnix.toNat < 2 ^ 63) (s : Link) :
    (parseRootRecord hmac (tagged hmac (enrollRootRequest device.deviceId version lms.identifier
        root suiteId status expiryUnix)) = .ok (device.deviceId.toList, version.toNat,
          ⟨lms.identifier.toList, root.toList, suiteId.toNat, status.toNat, expiryUnix.toNat⟩) ∧
      Routine.Total (world hmac server) (fun result _ t => result = some () ∧
        FetchedLater hmac server t.ledger
          (EnrollsRoot hmac (device.deviceId.toList, version.toNat)) peer (fetchPeerRoot version)
          fun fetched => fetched =
            some ⟨true, version, lms.identifier, root, suiteId, status, expiryUnix⟩)
        (enrollOwnRoot lms version suiteId status expiryUnix) device s) ∧
    (∀ (q : UInt32) (path : Path), q.toNat < 1024 →
      parsePathRecord hmac (tagged hmac (enrollPathRequest device.deviceId version q path)) =
        .ok (device.deviceId.toList, version.toNat, q.toNat, path.toList) ∧
      (lms.extractPath q.toNat = some path →
        Routine.Total (world hmac server) (fun result _ t => result = some () ∧
          FetchedLater hmac server t.ledger
            (EnrollsPath hmac (device.deviceId.toList, version.toNat, q.toNat)) peer
            (fetchPeerPath version q) fun fetched => ∃ metrics, fetched = some (some path, metrics))
          (enrollPath lms version q) device s)) := by
  refine ⟨⟨parseRootRecord_request _ _ _ _ _ _ valid rfl, ?_⟩, fun q path index =>
    ⟨parsePathRecord_request _ _ _ index rfl, fun extracted => ?_⟩⟩
  · have storable : expiryUnix.toNat ≤ Ledger.sqliteMax := by
      simp only [Ledger.sqliteMax]
      omega
    obtain ⟨ledger, stored⟩ := @Ledger.exists_upsertRoot s.ledger device.deviceId.toList
      version.toNat
      ⟨lms.identifier.toList, root.toList, suiteId.toNat, status.toNat, expiryUnix.toNat⟩ storable
    refine ((enrollOwnRoot_ensures reached.1 built valid stored).total (responsive _ _)).mono ?_
    rintro result - t ⟨acknowledged, rfl⟩
    refine ⟨acknowledged, fun between others u same => ?_⟩
    refine (fetchPeerRoot_ensures reached.2 valid small ?_).total (responsive _ _)
    rw [same, named, roots_foldl_serve others, Ledger.roots_upsertRoot stored,
      Function.update_self]
  · refine ((enrollPath_ensures reached.1 extracted).total (responsive _ _)).mono ?_
    rintro result - t ⟨acknowledged, held⟩
    refine ⟨acknowledged, fun between others u same => ?_⟩
    refine (fetchPeerPath_ensures reached.2 index ?_).total (responsive _ _)
    rw [same, named, paths_foldl_serve others, held, Ledger.paths_upsertPath,
      Function.update_self]

/-- A client of the server at address zero that speaks for `id` and asks about `peer`. -/
def clientOf (id peer : UInt8) : GcsLedgerClient where
  gcs := ⟨0, 5001⟩
  deviceId := List.Vector.replicate idBytes id
  peerId := List.Vector.replicate idBytes peer
  buffer := List.Vector.replicate maxGcsPacketBytes 0
  txBytes := 0
  rxBytes := 0

/-- A tree whose nodes all differ. -/
def publishedLms : LmotsLms :=
  ⟨.replicate 16 3, .replicate _ 0, some fun node => digitHash _ (putU32 (.ofNat node))⟩

/-- A pair of devices: the root of the first one, and the path of its leaf 5. -/
theorem published_is_fetched_pair :
    Routine.Total (world (digitHash _) ⟨0, 5001⟩) (fun result _ t => result = some () ∧
        FetchedLater (digitHash _) ⟨0, 5001⟩ t.ledger
          (EnrollsRoot (digitHash _) ((clientOf 0x41 0x42).deviceId.toList, 1))
          (clientOf 0x42 0x41) (fetchPeerRoot 1) fun fetched => fetched =
            some ⟨true, 1, .replicate 16 3, digitHash _ (putU32 1), 0x00010001, 1, 0⟩)
      (enrollOwnRoot publishedLms 1 0x00010001 1 0) (clientOf 0x41 0x42) ⟨.empty, none, 0⟩ ∧
    ∃ path, publishedLms.extractPath 5 = some path ∧
      Routine.Total (world (digitHash _) ⟨0, 5001⟩) (fun result _ t => result = some () ∧
          FetchedLater (digitHash _) ⟨0, 5001⟩ t.ledger
            (EnrollsPath (digitHash _) ((clientOf 0x41 0x42).deviceId.toList, 1, 5))
            (clientOf 0x42 0x41) (fetchPeerPath 1 5) fun fetched =>
              ∃ metrics, fetched = some (some path, metrics))
        (enrollPath publishedLms 1 5) (clientOf 0x41 0x42) ⟨.empty, none, 0⟩ := by
  obtain ⟨⟨-, root⟩, paths⟩ := @published_is_fetched (digitHash _) ⟨0, 5001⟩ (clientOf 0x41 0x42)
    (clientOf 0x42 0x41) ⟨rfl, rfl⟩ rfl publishedLms (digitHash _ (putU32 1)) rfl 1 0x00010001 1
    (by decide) 0 (by decide) ⟨.empty, none, 0⟩
  obtain ⟨path, extracted⟩ : ∃ path, publishedLms.extractPath 5 = some path := ⟨_, rfl⟩
  exact ⟨root, path, extracted, (paths 5 path (by decide)).2 extracted⟩

end Published

end Link

end Gcs
