import PostQuantumUav.Apqe.Constants
import PostQuantumUav.Transport.Reassembly

/-!
# The transport of the comparison protocol

`apqe::FragmentedUdp`: the header is read inside the receiving loop and every
datagram is compared with the caller's capacity; there is no other limit on the
announced length.
-/

namespace Apqe

namespace FragmentedUdp

open Transport

def format : Format where
  magic := fragmentMagic
  version := protocolVersion
  maxFragments := maxFragments
  maxMessageBytes := maxProtocolMessageBytes

def sendMessage (accepts : Nat → Bool) (type : UInt8) (session : UInt32) (data : Bytes)
    (framedBytes : Nat) : Sending :=
  Transport.sendMessage format accepts type session data framedBytes

/-- The body of the loop of `receiveMessage`. The type and session tests stand between
the header's own checks in the source; all of them continue with the next round. -/
def receiveBody (expectedType : UInt8) (expectedSession : UInt32) (outputCapacity : Nat)
    (s : Reassembly format) (packet : Packet) : Reassembly format × Option Received :=
  match parse format packet with
  | none => (s, none)
  | some d =>
      if expectedType ≠ 0xff ∧ d.type ≠ expectedType then (s, none)
      else if expectedSession ≠ 0 ∧ d.session ≠ expectedSession then (s, none)
      else if d.totalLength > outputCapacity then (s, none)
      else
        match s.active with
        | none => (s.opened d).take d.opening d
        | some o => s.take o d

def receiveMessage (expectedType : UInt8) (expectedSession : UInt32) (output : Nat → UInt8)
    (outputCapacity : Nat) (startMs timeoutMs : UInt32) (polls : List Poll) : Outcome format :=
  receiveLoop (receiveBody expectedType expectedSession outputCapacity) startMs timeoutMs
    (.initial format output) polls

/-- The datagrams that a call waits for. -/
def candidate (expectedType : UInt8) (expectedSession : UInt32) (outputCapacity : Nat)
    (packet : Packet) : Option (Datagram format) :=
  Transport.candidate (parse format) expectedType expectedSession outputCapacity packet

theorem receives (expectedType : UInt8) (expectedSession : UInt32) (outputCapacity : Nat) :
    Receives (receiveBody expectedType expectedSession outputCapacity)
      (candidate expectedType expectedSession outputCapacity) outputCapacity where
  small := by
    intro packet d found
    exact (candidate_eq_some_iff.mp found).2.2.2
  body_eq := by
    intro s packet _
    cases read : parse format packet with
    | none =>
        rw [candidate, candidate_eq_none_of_read read, receiveBody, read]
    | some d =>
        simp only [receiveBody, read]
        by_cases typed : expectedType ≠ 0xff ∧ d.type ≠ expectedType
        · rw [if_pos typed, candidate, candidate_eq_none read (by tauto)]
        by_cases other : expectedSession ≠ 0 ∧ d.session ≠ expectedSession
        · rw [if_neg typed, if_pos other, candidate, candidate_eq_none read (by tauto)]
        rw [if_neg typed, if_neg other]
        by_cases fits : d.totalLength ≤ outputCapacity
        · rw [if_neg (Nat.not_lt.mpr fits), candidate,
            candidate_eq_some_iff.mpr ⟨read, by tauto, by tauto, fits⟩]
          rfl
        · rw [if_pos (Nat.lt_of_not_le fits), candidate, candidate_eq_none read (by tauto)]

end FragmentedUdp

end Apqe
