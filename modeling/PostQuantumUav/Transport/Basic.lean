import Mathlib.Algebra.Order.Ring.Nat
import Mathlib.Data.List.Basic
import Mathlib.Logic.Function.Basic
import PostQuantumUav.Library.Bytes.Cell

/-!
# Fragmented messages over UDP

The parts of `FragmentedUdp` that the two protocol packages share: the fourteen
byte fragment header, the sending loop, and the reassembly of one message from
the datagrams that a receiving loop lets through. The packages differ in their
magic numbers and limits, collected in a `Format`, and in the checks a datagram
passes before reassembly sees it.

The output pointer is a memory indexed from zero, so a write is judged by the
positions it touches and not by the length of a list. `copied` records the
datagrams whose payload was copied into that memory; the code does not read it.
-/

namespace Transport

open Cell

abbrev fragmentHeaderBytes : Nat := 14
abbrev fragmentPayloadBytes : Nat := 1000

/-- The constants in which the two packages differ. -/
structure Format where
  magic : UInt16
  version : UInt8
  maxFragments : Nat
  maxMessageBytes : Nat

/-- The sender of a datagram, as `remoteIP` and `remotePort` report it. -/
structure Endpoint where
  ip : UInt32
  port : UInt16
  deriving DecidableEq, Repr

structure Packet where
  bytes : Bytes
  source : Endpoint

/-- One round of a receiving loop: the clock it reads and the packet waiting, if any. -/
structure Poll where
  now : UInt32
  packet : Option Packet

/-- A fragment whose header passed the checks. -/
structure Datagram (format : Format) where
  type : UInt8
  session : UInt32
  totalLength : Nat
  fragmentIndex : Nat
  fragmentCount : Nat
  payload : Bytes
  source : Endpoint
  index_lt : fragmentIndex < fragmentCount
  count_le : fragmentCount ≤ format.maxFragments
  payload_le : payload.length ≤ fragmentPayloadBytes

/-- The fields that every fragment of one message repeats, with its source. -/
structure Opening where
  type : UInt8
  session : UInt32
  totalLength : Nat
  fragmentCount : Nat
  source : Endpoint
  deriving DecidableEq, Repr

/-- `ReceivedPacket` and `ReceivedMessage`: what a completed call reports. -/
structure Received where
  type : UInt8
  session : UInt32
  length : Nat
  source : Endpoint
  framedBytes : Nat
  deriving DecidableEq, Repr

section Sending

/-- The datagram in the fragment buffer when fragment `fragmentIndex` is written. -/
def fragment (format : Format) (type : UInt8) (session : UInt32) (data : Bytes)
    (fragmentCount fragmentIndex : Nat) : Bytes :=
  let sourceOffset := fragmentIndex * fragmentPayloadBytes
  let payloadLength := min fragmentPayloadBytes (data.length - sourceOffset)
  putU16 format.magic ++ [format.version, type] ++ putU32 session ++
    putU16 (.ofNat data.length) ++ [.ofNat fragmentIndex, .ofNat fragmentCount] ++
    putU16 (.ofNat payloadLength) ++ (data.drop sourceOffset).take payloadLength

/-- What `sendMessage` reports, and the datagrams it handed to the network. -/
structure Sending where
  ok : Bool
  framedBytes : Nat
  datagrams : List Bytes

/-- The sending loop from `fragmentIndex` on. `accepts` tells whether `beginPacket`,
`write` and `endPacket` all succeed for the fragment of an index. -/
def sendFragments (format : Format) (accepts : Nat → Bool) (type : UInt8) (session : UInt32)
    (data : Bytes) (fragmentCount : Nat) : List Nat → Sending → Sending
  | [], sending => { sending with ok := true }
  | fragmentIndex :: rest, sending =>
      let datagram := fragment format type session data fragmentCount fragmentIndex
      if accepts fragmentIndex then
        sendFragments format accepts type session data fragmentCount rest
          { sending with
            framedBytes := sending.framedBytes + datagram.length
            datagrams := sending.datagrams ++ [datagram] }
      else { sending with ok := false }

/-- `sendMessage`; `framedBytes` is the value of the reference parameter before the call. -/
def sendMessage (format : Format) (accepts : Nat → Bool) (type : UInt8) (session : UInt32)
    (data : Bytes) (framedBytes : Nat) : Sending :=
  if data.length = 0 ∨ data.length > format.maxMessageBytes then ⟨false, framedBytes, []⟩
  else
    let fragmentCount := ((data.length + fragmentPayloadBytes - 1) / fragmentPayloadBytes) % 256
    if fragmentCount = 0 ∨ fragmentCount > format.maxFragments then ⟨false, framedBytes, []⟩
    else sendFragments format accepts type session data fragmentCount
      (List.range fragmentCount) ⟨false, 0, []⟩

end Sending

/-- Read a packet and check its header: the conditions common to both packages. -/
def parse (format : Format) (packet : Packet) : Option (Datagram format) :=
  let header := packet.bytes
  -- `parsePacket` reports nothing to read, or the datagram exceeds the fragment buffer.
  if header.length = 0 ∨ header.length > fragmentHeaderBytes + fragmentPayloadBytes then none
  else if header.length < fragmentHeaderBytes then none
  else if getU16 header ≠ format.magic ∨ readByte header 2 ≠ format.version then none
  else
    let fragmentIndex := (readByte header 10).toNat
    let fragmentCount := (readByte header 11).toNat
    let payloadLength := (getU16 (header.drop 12)).toNat
    if valid : fragmentIndex < fragmentCount ∧ fragmentCount ≤ format.maxFragments ∧
        payloadLength ≤ fragmentPayloadBytes ∧
        fragmentHeaderBytes + payloadLength = header.length then
      some {
        type := readByte header 3
        session := getU32 (header.drop 4)
        totalLength := (getU16 (header.drop 8)).toNat
        fragmentIndex := fragmentIndex
        fragmentCount := fragmentCount
        payload := header.drop fragmentHeaderBytes
        source := packet.source
        index_lt := valid.1
        count_le := valid.2.1
        payload_le := by
          rw [List.length_drop]
          omega }
    else none

variable {format : Format}

namespace Datagram

def opening (d : Datagram format) : Opening :=
  ⟨d.type, d.session, d.totalLength, d.fragmentCount, d.source⟩

def outputOffset (d : Datagram format) : Nat := d.fragmentIndex * fragmentPayloadBytes

def datagramBytes (d : Datagram format) : Nat := fragmentHeaderBytes + d.payload.length

/-- The byte a datagram carries for position `k` of the message, if it carries one. -/
def byteAt (d : Datagram format) (k : Nat) : Option UInt8 :=
  if d.outputOffset ≤ k then d.payload[k - d.outputOffset]? else none

/-- A datagram repeats the opening's header and source and its payload ends in the message. -/
def Fits (d : Datagram format) (o : Opening) : Prop :=
  d.opening = o ∧ d.outputOffset + d.payload.length ≤ o.totalLength

instance (d : Datagram format) (o : Opening) : Decidable (d.Fits o) :=
  inferInstanceAs (Decidable (_ ∧ _))

/-- `memcpy` of the payload to its place in the output. -/
def write (d : Datagram format) (output : Nat → UInt8) : Nat → UInt8 := fun k =>
  (d.byteAt k).getD (output k)

end Datagram

/-- The local variables of `receiveMessage`. -/
structure Reassembly (format : Format) where
  active : Option Opening
  receivedFragments : Nat → Bool
  completed : Nat
  framedBytes : Nat
  output : Nat → UInt8
  copied : List (Datagram format)

namespace Reassembly

/-- The variables as `receiveMessage` starts, over the caller's output buffer. -/
def initial (format : Format) (output : Nat → UInt8) : Reassembly format :=
  ⟨none, fun _ => false, 0, 0, output, []⟩

/-- The first accepted datagram fixes the message that is waited for. -/
def opened (s : Reassembly format) (d : Datagram format) : Reassembly format :=
  { s with active := some d.opening, framedBytes := 0 }

/-- The bookkeeping for a datagram of the active message, copied unless seen before. -/
def copy (s : Reassembly format) (d : Datagram format) : Reassembly format :=
  if s.receivedFragments d.fragmentIndex then s
  else
    { s with
      output := d.write s.output
      receivedFragments := Function.update s.receivedFragments d.fragmentIndex true
      completed := s.completed + 1
      framedBytes := s.framedBytes + d.datagramBytes
      copied := s.copied ++ [d] }

/-- The end of the loop body: compare with the active message, copy, and report the
message once every fragment was seen. -/
def take (s : Reassembly format) (o : Opening) (d : Datagram format) :
    Reassembly format × Option Received :=
  if d.opening ≠ o then (s, none)
  else if d.outputOffset + d.payload.length > o.totalLength then (s, none)
  else
    let s := s.copy d
    if s.completed = o.fragmentCount then
      (s, some ⟨o.type, o.session, o.totalLength, o.source, s.framedBytes⟩)
    else (s, none)

end Reassembly

/-- How a call to `receiveMessage` ends; `rest` are the rounds that were not needed. -/
inductive Outcome (format : Format) where
  | waiting (state : Reassembly format)
  | timedOut (rest : List Poll)
  | delivered (received : Received) (state : Reassembly format) (rest : List Poll)

/-- The loop of `receiveMessage` over the rounds it goes through. -/
def receiveLoop (body : Reassembly format → Packet → Reassembly format × Option Received)
    (startMs timeoutMs : UInt32) : Reassembly format → List Poll → Outcome format
  | s, [] => .waiting s
  | s, poll :: rest =>
      if poll.now - startMs < timeoutMs then
        match poll.packet with
        | none => receiveLoop body startMs timeoutMs s rest
        | some packet =>
            match body s packet with
            | (s, none) => receiveLoop body startMs timeoutMs s rest
            | (s, some received) => .delivered received s rest
      else .timedOut rest

end Transport
