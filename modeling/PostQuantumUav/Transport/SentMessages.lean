import PostQuantumUav.Apqe.FragmentedUdp
import PostQuantumUav.Puav.MessageDelivery
import PostQuantumUav.Transport.Provenance

/-!
# Only sent messages are delivered

A network may lose, repeat and reorder the datagrams of any number of messages and mix them
with packets that are not well formed. Reassembly compares every datagram with the opening
of the first one, and the index says which slice a datagram carries. So what a call returns
is one of the messages, whole, as long as no two of them have one opening: type, session,
length and source.
-/

namespace Transport

open Cell

variable {format : Format}

/-- A message that was sent. -/
structure Sent where
  type : UInt8
  session : UInt32
  data : Bytes
  source : Endpoint
  deriving DecidableEq

/-- What the datagrams of a message repeat. -/
def Sent.opening (message : Sent) : Opening :=
  openingOf message.type message.session message.data message.source

/-- The network carries the datagrams of these messages, which their openings tell apart. -/
structure Genuine (format : Format) (messages : List Sent) (polls : List Poll) : Prop where
  sendable : ∀ message ∈ messages,
    1 ≤ message.data.length ∧ message.data.length ≤ format.maxMessageBytes
  apart : ∀ message ∈ messages, ∀ message' ∈ messages, message.opening = message'.opening →
    message = message'
  carried : ∀ poll ∈ polls, ∀ packet d, poll.packet = some packet → parse format packet = some d →
    ∃ message ∈ messages, packet.source = message.source ∧
      packet.bytes ∈ datagramsOf format message.type message.session message.data

section Calls

variable {read : Packet → Option (Datagram format)}
  {body : Reassembly format → Packet → Reassembly format × Option Received}
  {type : UInt8} {expectedSession startMs timeoutMs : UInt32} {capacity : Nat}
  {messages : List Sent} {polls : List Poll}

/-- Every arrival carries a slice of one of the messages. -/
theorem Genuine.arrived (genuine : Genuine format messages polls) (adequate : format.Adequate)
    (reads : ∀ packet d, read packet = some d → parse format packet = some d) {d : Datagram format}
    (mem : d ∈ arrivals (candidate read type expectedSession capacity) startMs timeoutMs polls) :
    ∃ message ∈ messages, ∃ i < fragmentsOf message.data,
      d.Carries message.type message.session message.data message.source i := by
  obtain ⟨poll, early, arrived⟩ := List.mem_filterMap.mp mem
  obtain ⟨packet, present, found⟩ := Option.bind_eq_some_iff.mp arrived
  have parsed := reads packet d (candidate_eq_some_iff.mp found).1
  obtain ⟨message, sent, source, bytes⟩ :=
    genuine.carried poll (List.takeWhile_subset _ early) packet d present parsed
  obtain ⟨nonempty, short⟩ := genuine.sendable message sent
  obtain ⟨i, inRange, is⟩ := List.mem_map.mp bytes
  have low := List.mem_range.mp inRange
  obtain ⟨e, parsed', carries⟩ := @parse_fragment format message.type message.session message.data
    message.source adequate short (fragmentsOf_le adequate short) i low
  obtain ⟨bytes', source'⟩ := packet
  obtain rfl : source' = message.source := source
  obtain rfl : _ = bytes' := is
  obtain rfl := Option.some.inj (parsed.symm.trans parsed')
  exact ⟨message, sent, i, low, carries⟩

/-- What a call delivers was sent. -/
theorem Genuine.delivered (genuine : Genuine format messages polls) (adequate : format.Adequate)
    (reads : ∀ packet d, read packet = some d → parse format packet = some d)
    (receives : Receives body (candidate read type expectedSession capacity) capacity)
    {output : Nat → UInt8} {received : Received} {s : Reassembly format} {rest : List Poll}
    (ended : receiveLoop body startMs timeoutMs (.initial format output) polls =
      .delivered received s rest) :
    ∃ message ∈ messages, received.type = message.type ∧ received.session = message.session ∧
      received.source = message.source ∧
      (List.range received.length).map s.output = message.data := by
  obtain ⟨opener, h⟩ := delivery_of_delivered receives ended
  obtain ⟨message, sent, _, _, opens⟩ := genuine.arrived adequate reads (List.mem_of_head? h.head)
  have opening : opener.opening = message.opening := opens.opening
  have length : opener.totalLength = message.data.length :=
    congrArg Opening.totalLength opening
  have count : opener.fragmentCount = fragmentsOf message.data :=
    congrArg Opening.fragmentCount opening
  refine ⟨message, sent, ?_, ?_, ?_, ?_⟩
  · rw [h.report]
    exact congrArg Opening.type opening
  · rw [h.report]
    exact congrArg Opening.session opening
  · rw [h.report]
    exact congrArg Opening.source opening
  · rw [h.length, length]
    refine List.ext_getElem (by simp) fun k _ high => ?_
    have index : k / fragmentPayloadBytes < opener.fragmentCount := by
      rw [count]
      simp only [fragmentsOf, fragmentPayloadBytes]
      omega
    obtain ⟨d, found⟩ := Option.isSome_iff_exists.mp (h.all _ index)
    obtain ⟨mem, fits, own⟩ := firstFragment_some found
    -- The representative belongs to the same message, since it repeats the opening.
    obtain ⟨message', sent', i, _, carries⟩ := genuine.arrived adequate reads mem
    obtain rfl : message' = message :=
      genuine.apart _ sent' _ sent (carries.opening.symm.trans (fits.1.trans opening))
    have byte := carries.byteAt high (own.symm.trans carries.index)
    rw [List.getElem_map, List.getElem_range, h.output_eq k index, found, Option.bind_some, byte,
      Option.getD_some]
    rfl

end Calls

/-- Both receivers deliver only messages that were sent, whole. -/
theorem receivers_deliver_sent_messages (messages : List Sent) (polls : List Poll)
    (expectedType : UInt8) (expectedSession startMs timeoutMs : UInt32) (outputCapacity : Nat)
    (output : Nat → UInt8) (received : Received) (rest : List Poll) :
    (∀ s, Genuine Puav.FragmentedUdp.format messages polls →
      Puav.FragmentedUdp.receiveMessage expectedType expectedSession output outputCapacity startMs
        timeoutMs polls = .delivered received s rest →
      ∃ message ∈ messages, received.type = message.type ∧ received.session = message.session ∧
        received.source = message.source ∧
        (List.range received.length).map s.output = message.data) ∧
    (∀ s, Genuine Apqe.FragmentedUdp.format messages polls →
      Apqe.FragmentedUdp.receiveMessage expectedType expectedSession output outputCapacity startMs
        timeoutMs polls = .delivered received s rest →
      ∃ message ∈ messages, received.type = message.type ∧ received.session = message.session ∧
        received.source = message.source ∧
        (List.range received.length).map s.output = message.data) := by
  refine ⟨fun s genuine ended => ?_, fun s genuine ended => ?_⟩
  · refine genuine.delivered Puav.FragmentedUdp.adequate (fun packet d found => ?_)
      (Puav.FragmentedUdp.receives expectedType expectedSession outputCapacity) ended
    obtain ⟨e, parsed, kept⟩ := Option.bind_eq_some_iff.mp found
    rw [Option.ite_none_left_eq_some, Option.some.injEq] at kept
    rw [parsed, kept.2]
  · exact genuine.delivered ⟨by decide, by decide, by decide⟩ (fun _ _ found => found)
      (Apqe.FragmentedUdp.receives expectedType expectedSession outputCapacity) ended

/-- Two messages of one byte in different sessions. -/
def twoMessages : List Sent := [⟨0x10, 1, [7], ⟨0, 4210⟩⟩, ⟨0x10, 2, [8], ⟨0, 4210⟩⟩]

/-- The second one arrives, and then the first one. -/
def twoPolls (format : Format) : List Poll :=
  [⟨0, some ⟨fragment format 0x10 2 [8] 1 0, ⟨0, 4210⟩⟩⟩,
    ⟨1, some ⟨fragment format 0x10 1 [7] 1 0, ⟨0, 4210⟩⟩⟩]

theorem genuine_two (format : Format) (room : 1 ≤ format.maxMessageBytes) :
    Genuine format twoMessages (twoPolls format) where
  sendable := List.forall_mem_cons.mpr ⟨⟨by decide, room⟩, List.forall_mem_singleton.mpr
    ⟨by decide, room⟩⟩
  apart := by decide
  carried := by
    refine List.forall_mem_cons.mpr ⟨?_, List.forall_mem_singleton.mpr ?_⟩
    · rintro packet d present -
      rw [← Option.some.inj present]
      exact ⟨_, List.mem_cons_of_mem _ List.mem_cons_self, rfl, List.mem_singleton_self _⟩
    · rintro packet d present -
      rw [← Option.some.inj present]
      exact ⟨_, List.mem_cons_self, rfl, List.mem_singleton_self _⟩

/-- A call that waits for any session returns the message that arrives first. -/
theorem receivers_deliver_sent_messages_two :
    (∃ s rest, ∃ message ∈ twoMessages, Puav.FragmentedUdp.receiveMessage 0x10 0 (fun _ => 0) 86 0
        1000 (twoPolls Puav.FragmentedUdp.format) = .delivered ⟨0x10, 2, 1, ⟨0, 4210⟩, 15⟩ s rest ∧
      (2 : UInt32) = message.session ∧ (List.range 1).map s.output = message.data) ∧
    ∃ s rest, ∃ message ∈ twoMessages, Apqe.FragmentedUdp.receiveMessage 0x10 0 (fun _ => 0) 86 0
        1000 (twoPolls Apqe.FragmentedUdp.format) = .delivered ⟨0x10, 2, 1, ⟨0, 4210⟩, 15⟩ s rest ∧
      (2 : UInt32) = message.session ∧ (List.range 1).map s.output = message.data := by
  constructor
  · obtain ⟨message, sent, -, session, -, bytes⟩ := (receivers_deliver_sent_messages twoMessages
      (twoPolls Puav.FragmentedUdp.format) 0x10 0 0 1000 86 (fun _ => 0) _ _).1 _
      (genuine_two _ (by decide)) rfl
    exact ⟨_, _, message, sent, rfl, session, bytes⟩
  · obtain ⟨message, sent, -, session, -, bytes⟩ := (receivers_deliver_sent_messages twoMessages
      (twoPolls Apqe.FragmentedUdp.format) 0x10 0 0 1000 86 (fun _ => 0) _ _).2 _
      (genuine_two _ (by decide)) rfl
    exact ⟨_, _, message, sent, rfl, session, bytes⟩

end Transport
