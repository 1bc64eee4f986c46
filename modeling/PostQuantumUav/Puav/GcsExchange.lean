import PostQuantumUav.Puav.GcsLedgerClient

/-!
# What an exchange with the ledger server returns

`sendAndReceive` against an arbitrary world. The world is described by what it
keeps while the client is idle, what it keeps while the client waits for a reply
to its request, and what is known of a packet that arrives then. An exchange that
succeeds returns such a packet, from the server's address, with the expected op,
version and index, and leaves it in the buffer.
-/

namespace Puav.GcsLedgerClient

open Interaction Cell Buffer

/-- An acknowledgement carries a version and an index. -/
theorem expected_ack {version q : UInt32} {reply : Bytes} :
    Expected opAck version q reply ↔ readByte reply 4 = opAck ∧
      getU32 (slice reply 40 4) = version ∧ (q = anyQ ∨ getU32 (slice reply 44 4) = q) := by
  constructor
  · rintro ⟨op, versions, index⟩
    rw [if_pos (.inl op)] at versions index
    exact ⟨op, versions, index⟩
  · rintro ⟨op, versions, index⟩
    refine ⟨op, ?_⟩
    rw [if_pos (.inl op), if_pos (.inl op)]
    exact ⟨versions, index⟩

/-- What a world keeps during an exchange, and what is known of the packets that arrive. -/
structure Serves {σ : Type} (world : World calls σ) (request : Bytes) (idle waiting : σ → Prop)
    (arrived : σ → Transport.Packet → Prop) : Prop where
  discard : ∀ {s s'}, idle s → world s ⟨.discardPending, ()⟩ s' → idle s'
  send : ∀ {s s'} {sent : Bool}, idle s ∨ waiting s →
    world s ⟨.sendPacket request, sent⟩ s' → waiting s'
  rounds : ∀ {s s'} {rounds : Nat}, waiting s → world s ⟨.pollRounds, rounds⟩ s' → waiting s'
  parse : ∀ {s s'} {packet : Option Transport.Packet}, waiting s →
    world s ⟨.parsePacket, packet⟩ s' → waiting s' ∧ ∀ p, packet = some p → arrived s' p
  tag : ∀ {s s' data} {tag : Option Digest}, waiting s →
    world s ⟨.hmacSha256 data, tag⟩ s' → waiting s' ∧ ∀ p, arrived s p → arrived s' p

/-- The fields that no exchange changes. -/
structure Kept (client client' : GcsLedgerClient) : Prop where
  gcs : client'.gcs = client.gcs
  deviceId : client'.deviceId = client.deviceId
  peerId : client'.peerId = client.peerId

theorem Kept.trans {client client' client'' : GcsLedgerClient} (first : Kept client client')
    (second : Kept client' client'') : Kept client client'' :=
  ⟨second.gcs.trans first.gcs, second.deviceId.trans first.deviceId,
    second.peerId.trans first.peerId⟩

/-- The reply of `length` bytes in the buffer is the packet and passed every check. -/
structure Holds (client : GcsLedgerClient) (expectedOp : UInt8)
    (expectedVersion expectedQ : UInt32) (packet : Transport.Packet) (length : Nat) : Prop where
  source : packet.source = client.gcs
  length_eq : packet.bytes.length = length
  bytes : slice client.buffer.toList 0 length = packet.bytes
  expected : Expected expectedOp expectedVersion expectedQ client.buffer.toList

section Exchange

variable {σ : Type} {world : World calls σ} {request : Bytes} {idle waiting : σ → Prop}
variable {arrived : σ → Transport.Packet → Prop} {client : GcsLedgerClient} {s : σ}
variable {expectedOp : UInt8} {expectedVersion expectedQ : UInt32}

/-- The buffer of an accepted reply agrees with the packet up to the packet's length. -/
theorem Holds.slice_eq {packet : Transport.Packet} {length : Nat}
    (h : Holds client expectedOp expectedVersion expectedQ packet length) {offset count : Nat}
    (inside : offset + count ≤ length) :
    slice client.buffer.toList offset count = slice packet.bytes offset count := by
  rw [← h.bytes, slice_slice inside, Nat.zero_add]

/-- How an attempt to receive ends: some reply is accepted, or nothing is known. -/
def Outcome (waiting : σ → Prop) (arrived : σ → Transport.Packet → Prop)
    (client : GcsLedgerClient) (expectedOp : UInt8) (expectedVersion expectedQ : UInt32)
    (accepted : Option Nat) (client' : GcsLedgerClient) (s : σ) : Prop :=
  Kept client client' ∧ waiting s ∧ ∀ length, accepted = some length →
    ∃ packet, arrived s packet ∧
      Holds client' expectedOp expectedVersion expectedQ packet length

theorem Outcome.nothing {client' : GcsLedgerClient} (kept : Kept client client')
    (waits : waiting s) :
    Outcome waiting arrived client expectedOp expectedVersion expectedQ none client' s :=
  ⟨kept, waits, fun _ accepted => nomatch accepted⟩

theorem Outcome.of_kept {client' client'' : GcsLedgerClient} {accepted : Option Nat}
    (h : Outcome waiting arrived client' expectedOp expectedVersion expectedQ accepted client'' s)
    (kept : Kept client client') :
    Outcome waiting arrived client expectedOp expectedVersion expectedQ accepted client'' s :=
  ⟨kept.trans h.1, h.2⟩

theorem examine_ensures (serves : Serves world request idle waiting arrived)
    {packet : Transport.Packet} (waits : waiting s) (present : arrived s packet) :
    Routine.Ensures world (fun _ => True) (fun result client' t =>
      Outcome waiting arrived client expectedOp expectedVersion expectedQ
        (result.getD none) client' t) (examine expectedOp expectedVersion expectedQ packet)
      client s := by
  have same : Kept client client := ⟨rfl, rfl, rfl⟩
  simp only [examine, Routine.ensures_bind, Routine.ensures_ite, Routine.ensures_modify,
    Routine.ensures_pure, Routine.ensures_get, Routine.ensures_failure]
  refine ⟨fun _ => .nothing same waits, fun fits => ⟨fun _ => .nothing ⟨rfl, rfl, rfl⟩ waits,
    fun _ => ⟨fun _ => .nothing ⟨rfl, rfl, rfl⟩ waits, fun genuine => ?_⟩⟩⟩
  intro tag t answered
  obtain ⟨waits', still⟩ := serves.tag waits answered
  refine ⟨trivial, fun _ => .nothing ⟨rfl, rfl, rfl⟩ waits', fun _ =>
    ⟨fun _ => .nothing ⟨rfl, rfl, rfl⟩ waits', fun _ => ⟨fun expected => ?_,
      fun _ => .nothing ⟨rfl, rfl, rfl⟩ waits'⟩⟩⟩
  refine ⟨⟨rfl, rfl, rfl⟩, waits', ?_⟩
  rintro _ ⟨⟩
  refine ⟨packet, still packet present, Classical.not_not.mp fun other => genuine (.inl other),
    rfl, ?_, expected⟩
  rw [slice_overwrite (Nat.not_lt.mp fits) (by omega)]
  exact slice_zero_length _

theorem awaitReply_ensures (serves : Serves world request idle waiting arrived) (rounds : Nat)
    (waits : waiting s) :
    Routine.Ensures world (fun _ => True) (fun result client' t =>
      Outcome waiting arrived client expectedOp expectedVersion expectedQ
        (result.getD none) client' t) (awaitReply expectedOp expectedVersion expectedQ rounds)
      client s := by
  induction rounds generalizing client s with
  | zero => exact .nothing ⟨rfl, rfl, rfl⟩ waits
  | succ rounds ih =>
      refine Routine.Ensures.perform fun packet t answered => ?_
      obtain ⟨waits', known⟩ := serves.parse waits answered
      refine ⟨trivial, ?_⟩
      cases packet with
      | none => exact ih waits'
      | some packet =>
          refine (examine_ensures serves waits' (known packet rfl)).bind ?_ ?_
          · intro client' t' outcome
            exact outcome
          · intro accepted client' t' outcome
            cases accepted with
            | none => exact (ih outcome.2.1).mono fun _ _ _ later => later.of_kept outcome.1
            | some length => exact outcome

theorem attempt_ensures (serves : Serves world request idle waiting arrived)
    (start : idle s ∨ waiting s) :
    Routine.Ensures world (fun _ => True) (fun result client' t =>
      Outcome waiting arrived client expectedOp expectedVersion expectedQ
        (result.getD none) client' t) (attempt expectedOp expectedVersion expectedQ request)
      client s := by
  refine Routine.Ensures.perform fun sent t answered => ⟨trivial, ?_⟩
  have waits := serves.send start answered
  simp only [Routine.ensures_bind (r := guard _), Routine.ensures_guard,
    Routine.ensures_bind (r := modify _), Routine.ensures_modify]
  refine ⟨fun _ => ?_, fun _ => .nothing ⟨rfl, rfl, rfl⟩ waits⟩
  refine Routine.Ensures.perform fun rounds t' polled => ⟨trivial, ?_⟩
  refine (awaitReply_ensures serves rounds (serves.rounds waits polled)).mono ?_
  intro _ _ _ outcome
  exact outcome.of_kept ⟨rfl, rfl, rfl⟩

theorem attempts_ensures (serves : Serves world request idle waiting arrived) (retries : Nat)
    (start : idle s ∨ waiting s) :
    Routine.Ensures world (fun _ => True) (fun result client' t =>
      (idle t ∨ waiting t) ∧ Kept client client' ∧ ∀ length, result = some length →
        Outcome waiting arrived client expectedOp expectedVersion expectedQ (some length) client' t)
      (attempts expectedOp expectedVersion expectedQ request retries) client s := by
  induction retries generalizing client s with
  | zero => exact ⟨start, ⟨rfl, rfl, rfl⟩, fun _ accepted => nomatch accepted⟩
  | succ retries ih =>
      refine (attempt_ensures serves start).bind ?_ ?_
      · intro client' t outcome
        exact ⟨.inr outcome.2.1, outcome.1, fun _ accepted => nomatch accepted⟩
      · intro accepted client' t outcome
        cases accepted with
        | none =>
            refine (ih (.inr outcome.2.1)).mono ?_
            rintro result client'' t' ⟨after, kept, accepts⟩
            exact ⟨after, outcome.1.trans kept, fun length accepted =>
              (accepts length accepted).of_kept outcome.1⟩
        | some length =>
            refine ⟨.inr outcome.2.1, outcome.1, ?_⟩
            rintro _ ⟨⟩
            exact outcome

/-- An exchange returns a reply that arrived after its request was sent. -/
theorem sendAndReceive_ensures (serves : Serves world request idle waiting arrived)
    (start : idle s) :
    Routine.Ensures world (fun _ => True) (fun result client' t =>
      (idle t ∨ waiting t) ∧ Kept client client' ∧ ∀ length, result = some length →
        Outcome waiting arrived client expectedOp expectedVersion expectedQ (some length) client' t)
      (sendAndReceive expectedOp expectedVersion expectedQ request) client s := by
  refine Routine.Ensures.perform fun _ t answered => ?_
  exact ⟨trivial, attempts_ensures serves gcsRetries (.inl (serves.discard start answered))⟩

end Exchange

end Puav.GcsLedgerClient
