import PostQuantumUav.Apqe.FragmentedUdp
import PostQuantumUav.Puav.FragmentedUdp
import PostQuantumUav.Transport.Visits

/-!
# Memory accesses of the receivers

The receiving loops once more, with every access to the fragment buffer, the seen table
and the caller's output compared with the object it is made to. The front of the
fragment buffer holds the datagram just received, so a read past its length would
return bytes of an older one.

No access of a call is a fault, whatever arrives: the compared loop bodies are the loop
bodies themselves in every visited state. The lengths that the header claims are tied
together by the checks on a single datagram and, once a message is fixed, by the
comparison with it; the message's own length was compared with the capacity before.
-/

namespace Transport

open Cell

/-- An access outside the object that it is made to. -/
inductive Fault where
  | fragmentBuffer (offset : Nat)
  | seenTable (index : Nat)
  | output (offset : Nat)
  deriving DecidableEq, Repr

section Accesses

/-- The `count` bytes from `offset` on of the datagram in the fragment buffer. -/
def readBuffer (datagram : Bytes) (offset count : Nat) : Except Fault Bytes :=
  if offset + count ≤ datagram.length then .ok ((datagram.drop offset).take count)
  else .error (.fragmentBuffer offset)

/-- An entry of the seen table. -/
def readSeen {format : Format} (s : Reassembly format) (index : Nat) : Except Fault Bool :=
  if index < format.maxFragments then .ok (s.receivedFragments index)
  else .error (.seenTable index)

/-- `memcpy` of a payload to its place in an output of `capacity` bytes. -/
def copyOut {format : Format} (capacity : Nat) (d : Datagram format) : Except Fault Unit :=
  if d.outputOffset + d.payload.length ≤ capacity then .ok ()
  else .error (.output d.outputOffset)

/-- The header fields after the version. -/
structure Header where
  type : UInt8
  session : UInt32
  totalLength : UInt16
  fragmentIndex : UInt8
  fragmentCount : UInt8
  payloadLength : UInt16

/-- From `parsePacket` to the last field of the header. -/
def readHeader (format : Format) (packet : Packet) : Except Fault (Option Header) := do
  let got := packet.bytes.length
  if got = 0 ∨ got > fragmentHeaderBytes + fragmentPayloadBytes then return none
  if got < fragmentHeaderBytes then return none
  let magic ← readBuffer packet.bytes 0 2
  if getU16 magic ≠ format.magic then return none
  let version ← readBuffer packet.bytes 2 1
  if readByte version 0 ≠ format.version then return none
  let type ← readBuffer packet.bytes 3 1
  let session ← readBuffer packet.bytes 4 4
  let totalLength ← readBuffer packet.bytes 8 2
  let fragmentIndex ← readBuffer packet.bytes 10 1
  let fragmentCount ← readBuffer packet.bytes 11 1
  let payloadLength ← readBuffer packet.bytes 12 2
  return some {
    type := readByte type 0
    session := getU32 session
    totalLength := getU16 totalLength
    fragmentIndex := readByte fragmentIndex 0
    fragmentCount := readByte fragmentCount 0
    payloadLength := getU16 payloadLength }

/-- The checks that both packages make on the fields of a header. -/
def Header.datagram (format : Format) (h : Header) (packet : Packet) : Option (Datagram format) :=
  if valid : h.fragmentIndex.toNat < h.fragmentCount.toNat ∧
      h.fragmentCount.toNat ≤ format.maxFragments ∧
      h.payloadLength.toNat ≤ fragmentPayloadBytes ∧
      fragmentHeaderBytes + h.payloadLength.toNat = packet.bytes.length then
    some {
      type := h.type
      session := h.session
      totalLength := h.totalLength.toNat
      fragmentIndex := h.fragmentIndex.toNat
      fragmentCount := h.fragmentCount.toNat
      payload := packet.bytes.drop fragmentHeaderBytes
      source := packet.source
      index_lt := valid.1
      count_le := valid.2.1
      payload_le := by
        rw [List.length_drop]
        omega }
  else none

/-- The end of a loop body, from the comparison with the fixed message on. -/
def checkedTake {format : Format} (capacity : Nat) (packet : Packet) (s : Reassembly format)
    (o : Opening) (d : Datagram format) : Except Fault (Reassembly format × Option Received) := do
  if d.opening ≠ o then return (s, none)
  if d.outputOffset + d.payload.length > o.totalLength then return (s, none)
  let seen ← readSeen s d.fragmentIndex
  if ¬ seen then
    let _ ← readBuffer packet.bytes fragmentHeaderBytes d.payload.length
    copyOut capacity d
  let s := s.copy d
  if s.completed = o.fragmentCount then
    return (s, some ⟨o.type, o.session, o.totalLength, o.source, s.framedBytes⟩)
  return (s, none)

end Accesses

end Transport

/-- The body of the loop of puav's `receiveMessage` with its accesses compared. -/
def Puav.FragmentedUdp.checkedReceiveBody (expectedType : UInt8) (expectedSession : UInt32)
    (outputCapacity : Nat) (s : Transport.Reassembly format) (packet : Transport.Packet) :
    Except Transport.Fault (Transport.Reassembly format × Option Transport.Received) := do
  match ← Transport.readHeader format packet with
  | none => return (s, none)
  | some header =>
      match header.datagram format packet with
      | none => return (s, none)
      | some d =>
          if d.totalLength > maxProtocolMessageBytes then return (s, none)
          if expectedType ≠ 0xff ∧ d.type ≠ expectedType then return (s, none)
          if expectedSession ≠ 0 ∧ d.session ≠ expectedSession then return (s, none)
          match s.active with
          | none =>
              if d.totalLength > outputCapacity then return (s, none)
              Transport.checkedTake outputCapacity packet (s.opened d) d.opening d
          | some o => Transport.checkedTake outputCapacity packet s o d

/-- The body of the loop of apqe's `receiveMessage` with its accesses compared; the type
and session tests stand before the checks on the fields. -/
def Apqe.FragmentedUdp.checkedReceiveBody (expectedType : UInt8) (expectedSession : UInt32)
    (outputCapacity : Nat) (s : Transport.Reassembly format) (packet : Transport.Packet) :
    Except Transport.Fault (Transport.Reassembly format × Option Transport.Received) := do
  match ← Transport.readHeader format packet with
  | none => return (s, none)
  | some header =>
      if expectedType ≠ 0xff ∧ header.type ≠ expectedType then return (s, none)
      if expectedSession ≠ 0 ∧ header.session ≠ expectedSession then return (s, none)
      match header.datagram format packet with
      | none => return (s, none)
      | some d =>
          if d.totalLength > outputCapacity then return (s, none)
          match s.active with
          | none => Transport.checkedTake outputCapacity packet (s.opened d) d.opening d
          | some o => Transport.checkedTake outputCapacity packet s o d

namespace Transport

open Cell

section Reads

theorem readBuffer_eq {datagram : Bytes} {offset count : Nat}
    (inside : offset + count ≤ datagram.length) :
    readBuffer datagram offset count = .ok ((datagram.drop offset).take count) :=
  if_pos inside

theorem readByte_take {bytes : Bytes} {count i : Nat} (below : i < count) :
    readByte (bytes.take count) i = readByte bytes i := by
  simp only [readByte, List.getD_eq_getElem?_getD, List.getElem?_take_of_lt below]

theorem readByte_drop (bytes : Bytes) (offset i : Nat) :
    readByte (bytes.drop offset) i = readByte bytes (offset + i) := by
  simp only [readByte, List.getD_eq_getElem?_getD, List.getElem?_drop]

theorem getU16_take (bytes : Bytes) : getU16 (bytes.take 2) = getU16 bytes := by
  simp only [getU16, readByte_take (show 0 < 2 by decide), readByte_take (show 1 < 2 by decide)]

theorem getU32_take (bytes : Bytes) : getU32 (bytes.take 4) = getU32 bytes := by
  simp only [getU32, readByte_take (show 0 < 4 by decide), readByte_take (show 1 < 4 by decide),
    readByte_take (show 2 < 4 by decide), readByte_take (show 3 < 4 by decide)]

/-- Reading a header is never a fault, and the checks on its fields are those of `parse`. -/
theorem readHeader_eq (format : Format) (packet : Packet) : ∃ header,
    readHeader format packet = .ok header ∧
      parse format packet = header.bind fun h => h.datagram format packet := by
  unfold readHeader parse
  dsimp only
  by_cases empty : packet.bytes.length = 0 ∨
      packet.bytes.length > fragmentHeaderBytes + fragmentPayloadBytes
  · rw [if_pos empty, if_pos empty]
    exact ⟨none, rfl, rfl⟩
  rw [if_neg empty, if_neg empty]
  by_cases short : packet.bytes.length < fragmentHeaderBytes
  · rw [if_pos short, if_pos short]
    exact ⟨none, rfl, rfl⟩
  rw [if_neg short, if_neg short]
  have inside : ∀ offset count, offset + count ≤ 14 →
      readBuffer packet.bytes offset count = .ok ((packet.bytes.drop offset).take count) := by
    intro offset count low
    exact readBuffer_eq (Nat.le_trans low (Nat.le_of_not_lt short))
  have ok_bind : ∀ {α β : Type} (a : α) (f : α → Except Fault β), (Except.ok a >>= f) = f a :=
    fun _ _ => rfl
  simp only [inside 0 2 (by decide), inside 2 1 (by decide), inside 3 1 (by decide),
    inside 4 4 (by decide), inside 8 2 (by decide), inside 10 1 (by decide),
    inside 11 1 (by decide), inside 12 2 (by decide), ok_bind, getU16_take, getU32_take,
    readByte_take (show 0 < 1 by decide), readByte_drop, List.drop_zero, Nat.add_zero]
  by_cases magic : getU16 packet.bytes = format.magic
  · by_cases version : readByte packet.bytes 2 = format.version
    · simp only [magic, version, ne_eq, not_true_eq_false, or_self, if_false]
      exact ⟨_, rfl, rfl⟩
    · simp only [magic, version, ne_eq, not_true_eq_false, not_false_eq_true, or_true, if_true,
        if_false]
      exact ⟨none, rfl, rfl⟩
  · simp only [magic, ne_eq, not_false_eq_true, true_or, if_true]
    exact ⟨none, rfl, rfl⟩

/-- What the checks on a header's fields say about its datagram. -/
theorem Header.datagram_eq_some {format : Format} {h : Header} {packet : Packet}
    {d : Datagram format} (valid : h.datagram format packet = some d) :
    d.type = h.type ∧ d.session = h.session ∧
      fragmentHeaderBytes + d.payload.length = packet.bytes.length := by
  unfold Header.datagram at valid
  split at valid
  · rename_i checks
    obtain rfl := Option.some.inj valid
    refine ⟨rfl, rfl, ?_⟩
    rw [List.length_drop]
    omega
  · cases valid

end Reads

section Takes

variable {format : Format} {capacity : Nat} {packet : Packet} {s : Reassembly format} {o : Opening}
  {d : Datagram format}

/-- A datagram that is in the buffer is copied without a fault when the fixed message fits
the output. -/
theorem checkedTake_eq (s : Reassembly format)
    (buffered : fragmentHeaderBytes + d.payload.length = packet.bytes.length)
    (fits : o.totalLength ≤ capacity) : checkedTake capacity packet s o d = .ok (s.take o d) := by
  unfold checkedTake Reassembly.take
  by_cases other : d.opening ≠ o
  · rw [if_pos other, if_pos other]
    rfl
  rw [if_neg other, if_neg other]
  by_cases outside : d.outputOffset + d.payload.length > o.totalLength
  · rw [if_pos outside, if_pos outside]
    rfl
  rw [if_neg outside, if_neg outside]
  have index : readSeen s d.fragmentIndex = .ok (s.receivedFragments d.fragmentIndex) :=
    if_pos (Nat.lt_of_lt_of_le d.index_lt d.count_le)
  have payload := readBuffer_eq (Nat.le_of_eq buffered)
  have place : copyOut capacity d = .ok () :=
    if_pos (Nat.le_trans (Nat.le_of_not_lt outside) fits)
  rw [index]
  change (if ¬ s.receivedFragments d.fragmentIndex = true then _ else _) = _
  dsimp only
  split
  · rw [payload, place]
    change (if (s.copy d).completed = o.fragmentCount then _ else _) = _
    split
    · rfl
    · rfl
  · split
    · rfl
    · rfl

/-- A copy changes no byte behind the capacity. -/
theorem take_output (fits : o.totalLength ≤ capacity) {k : Nat} (behind : capacity ≤ k) :
    (s.take o d).1.output k = s.output k := by
  rcases s.take_cases o d with ⟨-, result⟩ | ⟨inside, result⟩
  · rw [result]
  · rw [result, Reassembly.copy]
    split
    · rfl
    · have past : d.byteAt k = none := by
        rw [Datagram.byteAt]
        split
        · have end_ := inside.2
          exact List.getElem?_eq_none (by omega)
        · rfl
      change (d.byteAt k).getD (s.output k) = s.output k
      rw [past, Option.getD_none]

theorem take_length {received : Received} (reported : (s.take o d).2 = some received) :
    received.length = o.totalLength := by
  rcases s.take_cases o d with ⟨-, result⟩ | ⟨-, result⟩
  · rw [result] at reported
    cases reported
  · rw [result] at reported
    dsimp only at reported
    split at reported
    · cases reported
      rfl
    · cases reported

/-- No more fragments are counted than the fixed message has. -/
theorem Reassembly.Copies.completed_le {output : Nat → UInt8} {past : List (Datagram format)}
    (h : Copies o output past s) : s.completed ≤ o.fragmentCount := by
  have most := (List.subperm_of_subset h.distinct h.index_subset).length_le
  rwa [List.length_range, List.length_map, ← h.completed] at most

theorem Reassembly.Consistent.completed_le {output : Nat → UInt8} {past : List (Datagram format)}
    (h : s.Consistent output past) (active : s.active = some o) :
    s.completed ≤ o.fragmentCount := by
  cases past with
  | nil =>
      obtain rfl : s = .initial format output := h
      cases active
  | cons first rest =>
      obtain rfl := Option.some.inj (h.1.symm.trans active)
      exact h.2.completed_le

end Takes

section Steps

variable {format : Format} {body : Reassembly format → Packet → Reassembly format × Option Received}
  {checked : Reassembly format → Packet → Except Fault (Reassembly format × Option Received)}
  {candidate : Packet → Option (Datagram format)} {capacity : Nat} {startMs timeoutMs : UInt32}
  {output : Nat → UInt8}

/-- One round of a loop accesses nothing outside the datagram, the seen table and the first
`capacity` bytes of the output, and counts and reports within bounds. -/
structure SafeStep (capacity : Nat)
    (body : Reassembly format → Packet → Reassembly format × Option Received)
    (checked : Reassembly format → Packet → Except Fault (Reassembly format × Option Received))
    (s : Reassembly format) (packet : Packet) : Prop where
  faultless : checked s packet = .ok (body s packet)
  untouched : ∀ k, capacity ≤ k → (body s packet).1.output k = s.output k
  counted : ∀ o, (body s packet).1.active = some o → (body s packet).1.completed ≤ o.fragmentCount
  short : ∀ received, (body s packet).2 = some received → received.length ≤ capacity

/-- What a receiving loop does to a state whose fixed message fits the output. -/
theorem safeStep (receives : Receives body candidate capacity)
    (faultless : ∀ s packet, (∀ o, s.active = some o → o.totalLength ≤ capacity) →
      checked s packet = .ok (body s packet)) {s : Reassembly format}
    {past : List (Datagram format)} (small : ∀ d ∈ past, d.totalLength ≤ capacity)
    (consistent : s.Consistent output past) (incomplete : ¬ s.Complete) (packet : Packet) :
    SafeStep capacity body checked s packet := by
  have bounded := consistent.bounded small
  have run := receives.body_eq s packet bounded
  cases found : candidate packet with
  | none =>
      simp only [found] at run
      refine ⟨faultless s packet bounded, ?_, ?_, ?_⟩
      · intro k _
        rw [run]
      · intro o active
        rw [run] at active ⊢
        exact consistent.completed_le active
      · intro received reported
        rw [run] at reported
        cases reported
  | some d =>
      simp only [found] at run
      have next := (consistent.receive incomplete d).1
      -- The message that is fixed once the datagram has been looked at.
      have taken : ∃ (o : Opening) (s' : Reassembly format), s'.output = s.output ∧
          o.totalLength ≤ capacity ∧ s.receive d = s'.take o d := by
        cases active : s.active with
        | none =>
            refine ⟨d.opening, s.opened d, rfl, receives.small found, ?_⟩
            rw [Reassembly.receive, active]
        | some o =>
            refine ⟨o, s, rfl, bounded o active, ?_⟩
            rw [Reassembly.receive, active]
      obtain ⟨o, s', same, fits, result⟩ := taken
      refine ⟨faultless s packet bounded, ?_, ?_, ?_⟩
      · intro k behind
        rw [run, result, take_output fits behind, same]
      · intro o' active
        rw [run] at active ⊢
        exact next.completed_le active
      · intro received reported
        rw [run, result] at reported
        rw [take_length reported]
        exact fits

theorem safeSteps (receives : Receives body candidate capacity)
    (faultless : ∀ s packet, (∀ o, s.active = some o → o.totalLength ≤ capacity) →
      checked s packet = .ok (body s packet)) (polls : List Poll) :
    ∀ visit ∈ visits body startMs timeoutMs (.initial format output) polls,
      SafeStep capacity body checked visit.1 visit.2 := by
  have fresh : (Reassembly.initial format output).Consistent output [] := rfl
  have start : ¬ (Reassembly.initial format output).Complete := by
    rintro ⟨o, active, -⟩
    cases active
  have none_past : ∀ d ∈ ([] : List (Datagram format)), d.totalLength ≤ capacity := nofun
  intro visit member
  obtain ⟨later, small, consistent, incomplete⟩ :=
    visits_consistent receives polls none_past fresh start visit member
  exact safeStep receives faultless small consistent incomplete visit.2

/-- The loop of `receiveMessage` with a body whose accesses are compared. -/
def checkedReceiveLoop
    (body : Reassembly format → Packet → Except Fault (Reassembly format × Option Received))
    (startMs timeoutMs : UInt32) : Reassembly format → List Poll → Except Fault (Outcome format)
  | s, [] => .ok (.waiting s)
  | s, poll :: rest =>
      if poll.now - startMs < timeoutMs then
        match poll.packet with
        | none => checkedReceiveLoop body startMs timeoutMs s rest
        | some packet =>
            match body s packet with
            | .error fault => .error fault
            | .ok (s, none) => checkedReceiveLoop body startMs timeoutMs s rest
            | .ok (s, some received) => .ok (.delivered received s rest)
      else .ok (.timedOut rest)

/-- A call whose steps are safe ends without a fault and as the loop does. -/
theorem checkedReceiveLoop_eq {s : Reassembly format} {polls : List Poll}
    (safe : ∀ visit ∈ visits body startMs timeoutMs s polls,
      SafeStep capacity body checked visit.1 visit.2) :
    checkedReceiveLoop checked startMs timeoutMs s polls =
        .ok (receiveLoop body startMs timeoutMs s polls) ∧
      ∀ received s' rest, receiveLoop body startMs timeoutMs s polls =
        .delivered received s' rest → received.length ≤ capacity := by
  induction polls generalizing s with
  | nil =>
      refine ⟨rfl, ?_⟩
      rintro _ _ _ ⟨⟩
  | cons poll polls ih =>
      rw [visits] at safe
      rw [checkedReceiveLoop, receiveLoop]
      split
      · rename_i early
        rw [if_pos early] at safe
        cases waiting : poll.packet with
        | none =>
            rw [waiting] at safe
            exact ih safe
        | some packet =>
            rw [waiting] at safe
            obtain ⟨step, rest⟩ := List.forall_mem_cons.mp safe
            simp only [step.faultless]
            have short := step.short
            cases result : body s packet with
            | mk s' answer =>
                rw [result] at rest short
                cases answer with
                | none => exact ih rest
                | some received =>
                    refine ⟨rfl, ?_⟩
                    rintro _ _ _ ⟨⟩
                    exact short received rfl
      · refine ⟨rfl, ?_⟩
        rintro _ _ _ ⟨⟩

/-- Every step of a call is safe, the call ends without a fault, and what it reports fits
the output. -/
structure StaysInBounds (capacity : Nat)
    (body : Reassembly format → Packet → Reassembly format × Option Received)
    (checked : Reassembly format → Packet → Except Fault (Reassembly format × Option Received))
    (startMs timeoutMs : UInt32) (s : Reassembly format) (polls : List Poll) : Prop where
  steps : ∀ visit ∈ visits body startMs timeoutMs s polls,
    SafeStep capacity body checked visit.1 visit.2
  faultless : checkedReceiveLoop checked startMs timeoutMs s polls =
    .ok (receiveLoop body startMs timeoutMs s polls)
  short : ∀ received s' rest, receiveLoop body startMs timeoutMs s polls =
    .delivered received s' rest → received.length ≤ capacity

theorem staysInBounds (receives : Receives body candidate capacity)
    (faultless : ∀ s packet, (∀ o, s.active = some o → o.totalLength ≤ capacity) →
      checked s packet = .ok (body s packet)) (polls : List Poll) :
    StaysInBounds capacity body checked startMs timeoutMs (.initial format output) polls := by
  have safe := @safeSteps _ _ _ _ _ startMs timeoutMs output receives faultless polls
  obtain ⟨ends, short⟩ := checkedReceiveLoop_eq safe
  exact ⟨safe, ends, short⟩

end Steps

section Receivers

variable (expectedType : UInt8) (expectedSession : UInt32) (outputCapacity : Nat)

/-- The payload of a datagram that opens or continues a message is copied without a fault. -/
theorem receive_faultless {format : Format} {header : Header} {packet : Packet}
    {s : Reassembly format} {d : Datagram format}
    (bounded : ∀ o, s.active = some o → o.totalLength ≤ outputCapacity)
    (valid : header.datagram format packet = some d) (fits : s.active = none →
      d.totalLength ≤ outputCapacity) :
    (match s.active with
      | none => checkedTake outputCapacity packet (s.opened d) d.opening d
      | some o => checkedTake outputCapacity packet s o d) =
    .ok (match s.active with
      | none => (s.opened d).take d.opening d
      | some o => s.take o d) := by
  have buffered := (Header.datagram_eq_some valid).2.2
  cases active : s.active with
  | none => exact checkedTake_eq _ buffered (fits active)
  | some o => exact checkedTake_eq s buffered (bounded o active)

theorem puav_faultless (s : Reassembly Puav.FragmentedUdp.format) (packet : Packet)
    (bounded : ∀ o, s.active = some o → o.totalLength ≤ outputCapacity) :
    Puav.FragmentedUdp.checkedReceiveBody expectedType expectedSession outputCapacity s packet =
      .ok (Puav.FragmentedUdp.receiveBody expectedType expectedSession outputCapacity s
        packet) := by
  obtain ⟨header, read, parsed⟩ := readHeader_eq Puav.FragmentedUdp.format packet
  unfold Puav.FragmentedUdp.checkedReceiveBody Puav.FragmentedUdp.receiveBody
    Puav.FragmentedUdp.readOneDatagram
  rw [read, parsed]
  cases header with
  | none => rfl
  | some header =>
      rw [Option.bind_some]
      cases valid : header.datagram Puav.FragmentedUdp.format packet with
      | none =>
          change (match header.datagram Puav.FragmentedUdp.format packet with
            | none => _
            | some d => _) = _
          rw [valid]
          rfl
      | some d =>
          change (match header.datagram Puav.FragmentedUdp.format packet with
            | none => _
            | some d => _) = _
          rw [valid]
          dsimp only [Option.bind_eq_bind, Option.bind_some]
          by_cases large : d.totalLength > Puav.maxProtocolMessageBytes
          · rw [if_pos large, if_pos large]
            rfl
          rw [if_neg large, if_neg large]
          dsimp only
          by_cases typed : expectedType ≠ 0xff ∧ d.type ≠ expectedType
          · rw [if_pos typed, if_pos typed]
            rfl
          rw [if_neg typed, if_neg typed]
          by_cases other : expectedSession ≠ 0 ∧ d.session ≠ expectedSession
          · rw [if_pos other, if_pos other]
            rfl
          rw [if_neg other, if_neg other]
          by_cases long : d.totalLength > outputCapacity
          · simp only [if_pos long]
            cases active : s.active with
            | none => rfl
            | some o =>
                exact checkedTake_eq s (Header.datagram_eq_some valid).2.2 (bounded o active)
          · simp only [if_neg long]
            exact receive_faultless outputCapacity bounded valid fun _ => Nat.le_of_not_lt long

theorem apqe_faultless (s : Reassembly Apqe.FragmentedUdp.format) (packet : Packet)
    (bounded : ∀ o, s.active = some o → o.totalLength ≤ outputCapacity) :
    Apqe.FragmentedUdp.checkedReceiveBody expectedType expectedSession outputCapacity s packet =
      .ok (Apqe.FragmentedUdp.receiveBody expectedType expectedSession outputCapacity s
        packet) := by
  obtain ⟨header, read, parsed⟩ := readHeader_eq Apqe.FragmentedUdp.format packet
  unfold Apqe.FragmentedUdp.checkedReceiveBody Apqe.FragmentedUdp.receiveBody
  rw [read, parsed]
  cases header with
  | none => rfl
  | some header =>
      rw [Option.bind_some]
      change (if expectedType ≠ 0xff ∧ header.type ≠ expectedType then _ else _) = _
      cases valid : header.datagram Apqe.FragmentedUdp.format packet with
      | none =>
          dsimp only
          split
          · rfl
          · split
            · rfl
            · rfl
      | some d =>
          obtain ⟨type, session, -⟩ := Header.datagram_eq_some valid
          dsimp only
          rw [type, session]
          by_cases typed : expectedType ≠ 0xff ∧ header.type ≠ expectedType
          · rw [if_pos typed, if_pos typed]
            rfl
          rw [if_neg typed, if_neg typed]
          by_cases other : expectedSession ≠ 0 ∧ header.session ≠ expectedSession
          · rw [if_pos other, if_pos other]
            rfl
          rw [if_neg other, if_neg other]
          by_cases long : d.totalLength > outputCapacity
          · rw [if_pos long, if_pos long]
            rfl
          rw [if_neg long, if_neg long]
          exact receive_faultless outputCapacity bounded valid fun _ => Nat.le_of_not_lt long

/-- For any datagrams and any capacity, a call of either receiver stays within the datagram,
the seen table and the output. -/
theorem receivers_in_bounds (output : Nat → UInt8) (startMs timeoutMs : UInt32)
    (polls : List Poll) :
    StaysInBounds outputCapacity
        (Puav.FragmentedUdp.receiveBody expectedType expectedSession outputCapacity)
        (Puav.FragmentedUdp.checkedReceiveBody expectedType expectedSession outputCapacity)
        startMs timeoutMs (.initial Puav.FragmentedUdp.format output) polls ∧
      StaysInBounds outputCapacity
        (Apqe.FragmentedUdp.receiveBody expectedType expectedSession outputCapacity)
        (Apqe.FragmentedUdp.checkedReceiveBody expectedType expectedSession outputCapacity)
        startMs timeoutMs (.initial Apqe.FragmentedUdp.format output) polls :=
  ⟨staysInBounds (Puav.FragmentedUdp.receives expectedType expectedSession outputCapacity)
      (puav_faultless expectedType expectedSession outputCapacity) polls,
    staysInBounds (Apqe.FragmentedUdp.receives expectedType expectedSession outputCapacity)
      (apqe_faultless expectedType expectedSession outputCapacity) polls⟩

end Receivers

end Transport
