import PostQuantumUav.Puav.Honest.Session
import PostQuantumUav.Puav.MessageDelivery
import PostQuantumUav.Transport.SessionIsolation

/-!
# Messages that travel in fragments

A device whose messages are cut into datagrams by `sendMessage` and put together by
`receiveMessage`. A receiving call sees the datagrams of the next message in any order and
repeated, among packets that it refuses, in rounds before its timeout.

To the device these are calls that return the next message. Every call has an answer.
-/

namespace Puav

open Interaction Transport ProposedUavProtocol

variable {κ : Type}

namespace Party

/-- What a call to send hands to a network that takes every datagram. -/
def sending (message : Message UInt8) : Sending :=
  FragmentedUdp.sendMessage (fun _ => true) message.type message.session message.data 0

/-- What the call returns. -/
def framedBytes (message : Message UInt8) : Option UInt32 :=
  if (sending message).ok then some (.ofNat (sending message).framedBytes) else none

theorem sending_of_sendable {message : Message UInt8} (sendable : message.Sendable) :
    sending message = ⟨true, message.data.length + fragmentHeaderBytes * fragmentsOf message.data,
      datagramsOf FragmentedUdp.format message.type message.session message.data⟩ :=
  sendMessage_accepted FragmentedUdp.adequate (fun _ => rfl) sendable.nonempty sendable.short 0

theorem datagrams_of_sendable {message : Message UInt8} (sendable : message.Sendable) :
    (sending message).datagrams =
      datagramsOf FragmentedUdp.format message.type message.session message.data :=
  congrArg Sending.datagrams (sending_of_sendable sendable)

theorem framedBytes_of_sendable {message : Message UInt8} (sendable : message.Sendable) :
    framedBytes message ≠ none := by
  rw [framedBytes, sending_of_sendable sendable]
  exact Option.some_ne_none _

/-- A call that waits for a message can receive its fragments. -/
theorem Awaited.awaits {type : UInt8} {session timeoutMs : UInt32} {outputCapacity : Nat}
    {message : Message UInt8}
    (awaited : Awaited type session outputCapacity timeoutMs message) :
    Awaits FragmentedUdp.readOneDatagram type message.session session outputCapacity
      message.data where
  adequate := FragmentedUdp.adequate
  reads _ _ := FragmentedUdp.readOneDatagram_eq
  nonempty := awaited.sendable.nonempty
  short := awaited.sendable.short
  room := awaited.fits
  typed := awaited.typed
  expected := awaited.session.symm.imp Eq.symm id

/-- A call to which nothing arrives in time. -/
theorem receiveMessage_late {type : UInt8} {session timeoutMs : UInt32} {output : Nat → UInt8}
    {outputCapacity : Nat} : FragmentedUdp.receiveMessage type session output outputCapacity 0
      timeoutMs [⟨timeoutMs, none⟩] = .timedOut [] := by
  have late : ¬ timeoutMs - 0 < timeoutMs := by
    rw [UInt32.sub_zero]
    exact UInt32.lt_irrefl _
  exact if_neg late

/-- The calls that use the network. -/
def Travels : Call UInt8 κ → Prop
  | .sendMessage _ _ _ _ => True
  | .receiveMessage _ _ _ _ => True
  | _ => False

variable (primitives : Primitives UInt8 κ) (device : HonestDevice UInt8 κ)
  (delivery : Delivery UInt8)

/-- How the calls of a session are answered when its messages travel in fragments. -/
inductive Transported (party : Party UInt8) : Event (calls UInt8 κ) → Party UInt8 → Prop where
  | call {c : Call UInt8 κ} {a : (calls UInt8 κ).Answer c} {party' : Party UInt8}
      (answered : Answered primitives device delivery party ⟨c, a⟩ party')
      (stays : ¬ Travels c) : Transported party ⟨c, a⟩ party'
  | sendMessage (destination : Endpoint) (type : UInt8) (session : UInt32) (data : Bytes) :
      Transported party ⟨.sendMessage destination type session data,
        framedBytes ⟨type, session, data⟩⟩ (party.does (.sent ⟨type, session, data⟩))
  | receiveMessage {type : UInt8} {session timeoutMs startMs : UInt32} {outputCapacity : Nat}
      {message : Message UInt8} {source : Endpoint} {output : Nat → UInt8} {front : List Poll}
      {last : Poll} {answer : Option Received × Bytes} {log : List Delivered} (rest : List Poll)
      (next : delivery party = some message)
      (awaited : Awaited type session outputCapacity timeoutMs message)
      (brings : Brings FragmentedUdp.readOneDatagram type session source
        (sending message).datagrams startMs timeoutMs front last)
      (ended : (FragmentedUdp.receiveMessage type session output outputCapacity startMs timeoutMs
        (front ++ last :: rest)).Answers [] answer log) :
      Transported party ⟨.receiveMessage type session outputCapacity timeoutMs, answer⟩
        (party.does (.received message))
  | timedOut {type : UInt8} {session timeoutMs startMs : UInt32} {outputCapacity : Nat}
      {output : Nat → UInt8} {polls rest : List Poll} (cells : Bytes)
      (absent : ∀ message, delivery party = some message →
        ¬ Awaited type session outputCapacity timeoutMs message)
      (ended : FragmentedUdp.receiveMessage type session output outputCapacity startMs timeoutMs
        polls = .timedOut rest) :
      Transported party ⟨.receiveMessage type session outputCapacity timeoutMs, (none, cells)⟩ party

variable {primitives device delivery}

/-- The fragments of the next message are answered with the message. -/
theorem Transported.answered {party party' : Party UInt8} {e : Event (calls UInt8 κ)}
    (step : Transported primitives device delivery party e party') :
    Answered primitives device delivery party e party' := by
  cases step with
  | call answered stays => exact answered
  | sendMessage destination type session data =>
      exact .sendMessage destination type session data _ framedBytes_of_sendable
  | @receiveMessage type session timeoutMs startMs capacity message source output front last answer
      log rest next awaited brings ended =>
      have awaits := awaited.awaits
      obtain rfl : message.type = type := awaited.type
      rw [datagrams_of_sendable awaited.sendable] at brings
      obtain ⟨s, delivered, bytes⟩ := awaits.delivered (FragmentedUdp.receives _ _ _) brings.early
        brings.schedule brings.complete brings.missing output rest
      change FragmentedUdp.receiveMessage _ _ _ _ _ _ _ = _ at delivered
      rw [delivered] at ended
      obtain ⟨rfl, -⟩ := ended
      simp only [bytes]
      exact .receiveMessage timeoutMs source _ next awaited
  | timedOut cells absent ended => exact .timedOut _ absent cells

/-- Such a device has an answer to every call while the record of its peer is not expired. -/
theorem transported_serves (valid : device.peerRecord.expiryUnix ≠ 0 →
      1700000000 ≤ device.peerRecord.expiryUnix.toNat) :
    Serves primitives device (Transported primitives device) where
  answered := Transported.answered
  responsive delivery party c := by
    by_cases travels : Travels c
    · cases c with
      | sendMessage destination type session data =>
          exact ⟨_, _, .sendMessage destination type session data⟩
      | receiveMessage type session outputCapacity timeoutMs =>
          by_cases present : ∃ message, delivery party = some message ∧
            Awaited type session outputCapacity timeoutMs message
          · obtain ⟨message, next, awaited⟩ := present
            have awaits := awaited.awaits
            obtain rfl : message.type = type := awaited.type
            obtain ⟨front, last, brings⟩ := awaits.brought_in_order awaited.time ⟨0, 0⟩
            obtain ⟨s, delivered, -⟩ := awaits.delivered (FragmentedUdp.receives _ _ _) brings.early
              brings.schedule brings.complete brings.missing (fun _ => 0) []
            change FragmentedUdp.receiveMessage _ _ _ _ _ _ _ = _ at delivered
            rw [← datagrams_of_sendable awaited.sendable] at brings
            obtain ⟨answer, log, ended⟩ : ∃ answer log, (FragmentedUdp.receiveMessage message.type
                session (fun _ => 0) outputCapacity 0 timeoutMs (front ++ [last])).Answers [] answer
                log := by
              rw [delivered]
              exact ⟨_, _, rfl, rfl⟩
            exact ⟨answer, _, .receiveMessage [] next awaited brings ended⟩
          · refine ⟨(none, []), party, .timedOut [] (fun message next awaited => ?_)
              (@receiveMessage_late type session timeoutMs (fun _ => 0) outputCapacity)⟩
            exact present ⟨message, next, awaited⟩
      | _ => exact absurd travels id
    · obtain ⟨a, party', answered, -⟩ := answered_responsive primitives delivery valid party c
      exact ⟨a, party', .call answered travels⟩

end Party

end Puav
