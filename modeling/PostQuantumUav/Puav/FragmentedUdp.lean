import PostQuantumUav.Puav.Constants
import PostQuantumUav.Transport.Reassembly

/-!
# The transport of the proposed protocol

`puav::FragmentedUdp`: a datagram whose message would exceed the protocol's
largest one is refused when it is read, and the caller's capacity is checked only
for the datagram that opens a message.
-/

namespace Puav.FragmentedUdp

open Transport

def format : Format where
  magic := fragmentMagic
  version := protocolVersion
  maxFragments := maxFragments
  maxMessageBytes := maxProtocolMessageBytes

def sendMessage (accepts : Nat → Bool) (type : UInt8) (session : UInt32) (data : Bytes)
    (framedBytes : Nat) : Sending :=
  Transport.sendMessage format accepts type session data framedBytes

def readOneDatagram (packet : Packet) : Option (Datagram format) := do
  let d ← parse format packet
  if d.totalLength > maxProtocolMessageBytes then none else some d

/-- The body of the loop of `receiveMessage`. -/
def receiveBody (expectedType : UInt8) (expectedSession : UInt32) (outputCapacity : Nat)
    (s : Reassembly format) (packet : Packet) : Reassembly format × Option Received :=
  match readOneDatagram packet with
  | none => (s, none)
  | some d =>
      if expectedType ≠ 0xff ∧ d.type ≠ expectedType then (s, none)
      else if expectedSession ≠ 0 ∧ d.session ≠ expectedSession then (s, none)
      else
        match s.active with
        | none =>
            if d.totalLength > outputCapacity then (s, none)
            else (s.opened d).take d.opening d
        | some o => s.take o d

def receiveMessage (expectedType : UInt8) (expectedSession : UInt32) (output : Nat → UInt8)
    (outputCapacity : Nat) (startMs timeoutMs : UInt32) (polls : List Poll) : Outcome format :=
  receiveLoop (receiveBody expectedType expectedSession outputCapacity) startMs timeoutMs
    (.initial format output) polls

/-- The datagrams that a call waits for. -/
def candidate (expectedType : UInt8) (expectedSession : UInt32) (outputCapacity : Nat)
    (packet : Packet) : Option (Datagram format) :=
  Transport.candidate readOneDatagram expectedType expectedSession outputCapacity packet

/-- The capacity is compared only when a message is opened, which has the same effect as
comparing it always: later datagrams must repeat the opened length. -/
theorem receives (expectedType : UInt8) (expectedSession : UInt32) (outputCapacity : Nat) :
    Receives (receiveBody expectedType expectedSession outputCapacity)
      (candidate expectedType expectedSession outputCapacity) outputCapacity where
  small := by
    intro packet d found
    exact (candidate_eq_some_iff.mp found).2.2.2
  body_eq := by
    intro s packet bounded
    cases read : readOneDatagram packet with
    | none =>
        rw [candidate, candidate_eq_none_of_read read, receiveBody, read]
    | some d =>
        simp only [receiveBody, read]
        by_cases typed : expectedType ≠ 0xff ∧ d.type ≠ expectedType
        · rw [if_pos typed, candidate, candidate_eq_none read (by tauto)]
        by_cases other : expectedSession ≠ 0 ∧ d.session ≠ expectedSession
        · rw [if_neg typed, if_pos other, candidate, candidate_eq_none read (by tauto)]
        rw [if_neg typed, if_neg other]
        by_cases fits : d.totalLength ≤ outputCapacity
        · rw [candidate, candidate_eq_some_iff.mpr ⟨read, by tauto, by tauto, fits⟩]
          simp only [if_neg (Nat.not_lt.mpr fits)]
          rfl
        · rw [candidate, candidate_eq_none read (by tauto)]
          cases active : s.active with
          | none => exact if_pos (Nat.lt_of_not_le fits)
          | some o =>
              -- The datagram announces another length than the active message.
              have misfit : ¬ d.Fits o := fun same =>
                fits (same.1 ▸ bounded o active : d.opening.totalLength ≤ outputCapacity)
              rcases s.take_cases o d with ⟨-, result⟩ | ⟨same, -⟩
              · exact result
              · exact absurd same misfit

end Puav.FragmentedUdp
