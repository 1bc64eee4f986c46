import Mathlib.Data.List.TakeWhile
import PostQuantumUav.Transport.Provenance

/-!
# Sending and receiving one message

`sendMessage` cuts a message into consecutive slices, one datagram each. Reading
such a datagram back gives its slice under the index it was cut at, so whatever
the order of arrival, the representatives of a message's fragments are its slices
and together they cover it.

The receiving loop may see the fragments in any order, repeated, and mixed with
packets that its checks refuse. It answers at the arrival that completes the set.
-/

namespace Transport

open Cell

/-- The limits of a format leave room for every message it may send. -/
structure Format.Adequate (format : Format) : Prop where
  fragments : format.maxFragments < 256
  bytes : format.maxMessageBytes < 65536
  room : format.maxMessageBytes ≤ format.maxFragments * fragmentPayloadBytes

variable {format : Format} {type : UInt8} {session : UInt32} {data : Bytes} {source : Endpoint}

/-- The number of fragments of a message. -/
def fragmentsOf (data : Bytes) : Nat :=
  (data.length + fragmentPayloadBytes - 1) / fragmentPayloadBytes

/-- The bytes of fragment `i`. -/
def sliceOf (data : Bytes) (i : Nat) : Bytes :=
  (data.drop (i * fragmentPayloadBytes)).take
    (min fragmentPayloadBytes (data.length - i * fragmentPayloadBytes))

theorem length_sliceOf (data : Bytes) (i : Nat) : (sliceOf data i).length =
    min fragmentPayloadBytes (data.length - i * fragmentPayloadBytes) := by
  rw [sliceOf, List.length_take, List.length_drop]
  omega

theorem length_fragment (format : Format) (type : UInt8) (session : UInt32) (data : Bytes)
    (count i : Nat) : (fragment format type session data count i).length =
      fragmentHeaderBytes + (sliceOf data i).length := by
  simp only [fragment, sliceOf, List.length_append, length_putU16, length_putU32,
    List.length_cons, List.length_nil, fragmentHeaderBytes]

/-- A datagram that carries the slice of index `i`. -/
structure Datagram.Carries (d : Datagram format) (type : UInt8) (session : UInt32)
    (data : Bytes) (source : Endpoint) (i : Nat) : Prop where
  opening : d.opening = ⟨type, session, data.length, fragmentsOf data, source⟩
  index : d.fragmentIndex = i
  payload : d.payload = sliceOf data i

/-- The header is read back as it was written. -/
theorem parse_fragment (adequate : format.Adequate) (short : data.length ≤ format.maxMessageBytes)
    (few : fragmentsOf data ≤ format.maxFragments) {i : Nat} (low : i < fragmentsOf data) :
    ∃ d, parse format ⟨fragment format type session data (fragmentsOf data) i, source⟩ = some d ∧
      d.Carries type session data source i := by
  have total := adequate.bytes
  have most := adequate.fragments
  have size := length_fragment format type session data (fragmentsOf data) i
  have slice := length_sliceOf data i
  have count : (UInt8.ofNat (fragmentsOf data)).toNat = fragmentsOf data :=
    UInt8.toNat_ofNat_of_lt' (by simp only [UInt8.size]; omega)
  have index : (UInt8.ofNat i).toNat = i :=
    UInt8.toNat_ofNat_of_lt' (by simp only [UInt8.size]; omega)
  have length : (UInt16.ofNat data.length).toNat = data.length :=
    UInt16.toNat_ofNat_of_lt' (by simp only [UInt16.size]; omega)
  have payload : (UInt16.ofNat (min fragmentPayloadBytes
      (data.length - i * fragmentPayloadBytes))).toNat = (sliceOf data i).length := by
    rw [slice]
    exact UInt16.toNat_ofNat_of_lt' (by simp only [UInt16.size, fragmentPayloadBytes]; omega)
  -- The reads of `parse`, each at the offset where the sender wrote the field.
  have magicRead : getU16 (fragment format type session data (fragmentsOf data) i) =
      format.magic := getU16_putU16 _ _
  have lengthRead : (getU16 ((fragment format type session data (fragmentsOf data) i).drop 8)) =
      .ofNat data.length := getU16_putU16 _ _
  have sessionRead : (getU32 ((fragment format type session data (fragmentsOf data) i).drop 4)) =
      session := getU32_putU32 _ _
  have payloadRead : (getU16 ((fragment format type session data (fragmentsOf data) i).drop 12)) =
      .ofNat (min fragmentPayloadBytes (data.length - i * fragmentPayloadBytes)) :=
    getU16_putU16 _ _
  have valid : (readByte (fragment format type session data (fragmentsOf data) i) 10).toNat <
        (readByte (fragment format type session data (fragmentsOf data) i) 11).toNat ∧
      (readByte (fragment format type session data (fragmentsOf data) i) 11).toNat ≤
        format.maxFragments ∧
      (getU16 ((fragment format type session data (fragmentsOf data) i).drop 12)).toNat ≤
        fragmentPayloadBytes ∧
      fragmentHeaderBytes +
        (getU16 ((fragment format type session data (fragmentsOf data) i).drop 12)).toNat =
        (fragment format type session data (fragmentsOf data) i).length := by
    rw [payloadRead, payload, size]
    change (UInt8.ofNat i).toNat < (UInt8.ofNat (fragmentsOf data)).toNat ∧
      (UInt8.ofNat (fragmentsOf data)).toNat ≤ _ ∧ _
    rw [index, count]
    exact ⟨low, few, by rw [slice]; exact Nat.min_le_left _ _, rfl⟩
  have version : readByte (fragment format type session data (fragmentsOf data) i) 2 =
      format.version := rfl
  have fits : (sliceOf data i).length ≤ fragmentPayloadBytes := by
    rw [slice]
    exact Nat.min_le_left _ _
  refine ⟨⟨type, session, data.length, i, fragmentsOf data, sliceOf data i, source, low, few,
    fits⟩, ?_, ⟨rfl, rfl, rfl⟩⟩
  unfold parse
  simp only
  rw [if_neg (by simp only [size, fragmentHeaderBytes] at *; omega), if_neg (by rw [size]; omega),
    if_neg (by rw [magicRead, version]; tauto), dif_pos valid, Option.some.injEq,
    Datagram.mk.injEq]
  exact ⟨rfl, sessionRead, by rw [lengthRead, length], index, count, rfl, rfl⟩

section Sender

theorem fragmentsOf_le (adequate : format.Adequate) (short : data.length ≤ format.maxMessageBytes) :
    fragmentsOf data ≤ format.maxFragments := by
  have room := adequate.room
  simp only [fragmentsOf, fragmentPayloadBytes] at *
  omega

theorem offset_lt {i : Nat} (low : i < fragmentsOf data) :
    i * fragmentPayloadBytes < data.length := by
  simp only [fragmentsOf, fragmentPayloadBytes] at *
  omega

/-- When the network accepts every fragment, the loop hands over all of them in order. -/
theorem sendFragments_accepted {accepts : Nat → Bool} (accepted : ∀ i, accepts i = true)
    (count : Nat) (indices : List Nat) (sending : Sending) :
    sendFragments format accepts type session data count indices sending =
      ⟨true, sending.framedBytes +
          (indices.map fun i => (fragment format type session data count i).length).sum,
        sending.datagrams ++ indices.map (fragment format type session data count)⟩ := by
  induction indices generalizing sending with
  | nil => simp only [sendFragments, List.map_nil, List.sum_nil, Nat.add_zero, List.append_nil]
  | cons i rest ih =>
      rw [sendFragments, if_pos (accepted i), ih, List.map_cons, List.map_cons, List.sum_cons,
        List.append_assoc, List.singleton_append, Nat.add_assoc]

/-- The slices of the first `count` fragments, with a header for each. -/
theorem sum_framed (data : Bytes) (count : Nat) :
    ((List.range count).map fun i => fragmentHeaderBytes + (sliceOf data i).length).sum =
      min data.length (count * fragmentPayloadBytes) + fragmentHeaderBytes * count := by
  induction count with
  | zero => simp only [List.range_zero, List.map_nil, List.sum_nil, Nat.zero_mul, Nat.min_zero,
      Nat.mul_zero, Nat.add_zero]
  | succ count ih =>
      rw [List.range_succ, List.map_append, List.sum_append, ih, List.map_singleton,
        List.sum_singleton, length_sliceOf]
      simp only [fragmentPayloadBytes, fragmentHeaderBytes]
      omega

/-- A message within the limits is sent whole: every fragment, and fourteen bytes for each. -/
theorem sendMessage_accepted (adequate : format.Adequate) {accepts : Nat → Bool}
    (accepted : ∀ i, accepts i = true) (nonempty : 1 ≤ data.length)
    (short : data.length ≤ format.maxMessageBytes) (framedBytes : Nat) :
    sendMessage format accepts type session data framedBytes =
      ⟨true, data.length + fragmentHeaderBytes * fragmentsOf data,
        (List.range (fragmentsOf data)).map
          (fragment format type session data (fragmentsOf data))⟩ := by
  have few := fragmentsOf_le adequate short
  have byte := adequate.fragments
  have whole : data.length ≤ fragmentsOf data * fragmentPayloadBytes := by
    simp only [fragmentsOf, fragmentPayloadBytes]
    omega
  have some : 0 < fragmentsOf data := by
    simp only [fragmentsOf, fragmentPayloadBytes]
    omega
  have count : (data.length + fragmentPayloadBytes - 1) / fragmentPayloadBytes % 256 =
      fragmentsOf data := Nat.mod_eq_of_lt (Nat.lt_of_le_of_lt few byte)
  rw [sendMessage, if_neg (by omega)]
  simp only [count]
  rw [if_neg (by omega), sendFragments_accepted accepted]
  simp only [length_fragment, sum_framed, Nat.min_eq_left whole, Nat.zero_add, List.nil_append]

end Sender

section Schedule

variable {body : Reassembly format → Packet → Reassembly format × Option Received}
  {startMs timeoutMs : UInt32} {s : Reassembly format}

theorem receiveLoop_append {front : List Poll} {s' : Reassembly format}
    (waits : receiveLoop body startMs timeoutMs s front = .waiting s') (rest : List Poll) :
    receiveLoop body startMs timeoutMs s (front ++ rest) =
      receiveLoop body startMs timeoutMs s' rest := by
  induction front generalizing s with
  | nil =>
      cases waits
      rfl
  | cons poll front ih =>
      rw [receiveLoop] at waits
      rw [List.cons_append, receiveLoop]
      split at waits
      · rename_i early
        rw [if_pos early]
        cases present : poll.packet with
        | none =>
            simp only [present] at waits
            exact ih waits
        | some packet =>
            simp only [present] at waits
            cases result : body s packet with
            | mk next answer =>
                simp only [result] at waits ⊢
                cases answer with
                | none => exact ih waits
                | some received => cases waits
      · cases waits

/-- Rounds before the timeout do not end a call with a timeout. -/
theorem receiveLoop_ne_timedOut {front rest : List Poll}
    (early : ∀ poll ∈ front, poll.now - startMs < timeoutMs) :
    receiveLoop body startMs timeoutMs s front ≠ .timedOut rest := by
  induction front generalizing s with
  | nil =>
      intro impossible
      cases impossible
  | cons poll front ih =>
      have later := fun s => @ih s fun poll mem => early poll (List.mem_cons_of_mem _ mem)
      rw [receiveLoop, if_pos (early poll List.mem_cons_self)]
      cases poll.packet with
      | none => exact later s
      | some packet =>
          cases result : body s packet with
          | mk next answer =>
              simp only [result]
              cases answer with
              | none => exact later next
              | some received =>
                  intro impossible
                  cases impossible

theorem mem_arrivals {candidate : Packet → Option (Datagram format)} {front : List Poll}
    (early : ∀ poll ∈ front, poll.now - startMs < timeoutMs) {d : Datagram format} :
    d ∈ arrivals candidate startMs timeoutMs front ↔
      ∃ poll ∈ front, ∃ packet, poll.packet = some packet ∧ candidate packet = some d := by
  rw [arrivals, List.takeWhile_eq_self_iff.mpr fun poll mem => decide_eq_true (early poll mem),
    List.mem_filterMap]
  simp only [Option.bind_eq_some_iff]

end Schedule

section Reception

variable {read : Packet → Option (Datagram format)} {expectedSession : UInt32}

/-- A packet that a call waiting for this message does not look at: malformed, of another
type, or of another session when one is expected. -/
def Unrelated (read : Packet → Option (Datagram format)) (type : UInt8)
    (expectedSession : UInt32) (packet : Packet) : Prop :=
  ∀ d, read packet = some d →
    d.type ≠ type ∨ (expectedSession ≠ 0 ∧ d.session ≠ expectedSession)

/-- The opening that every fragment of the message repeats. -/
def openingOf (type : UInt8) (session : UInt32) (data : Bytes) (source : Endpoint) : Opening :=
  ⟨type, session, data.length, fragmentsOf data, source⟩

namespace Datagram.Carries

variable {d e : Datagram format} {i : Nat}

theorem fits (h : d.Carries type session data source i) (low : i < fragmentsOf data) :
    d.Fits (openingOf type session data source) := by
  refine ⟨h.opening, ?_⟩
  have start := offset_lt low
  simp only [outputOffset, h.index, h.payload, length_sliceOf, openingOf]
  omega

/-- The bytes of the message at the positions of fragment `i`. -/
theorem byteAt (h : d.Carries type session data source i) {k : Nat} (high : k < data.length)
    (own : k / fragmentPayloadBytes = i) : d.byteAt k = some (data.get ⟨k, high⟩) := by
  have start : d.outputOffset ≤ k := by
    rw [outputOffset, h.index, ← own]
    exact Nat.div_mul_le_self _ _
  rw [Datagram.byteAt, if_pos start, h.payload, sliceOf, List.getElem?_take, if_pos (by
    simp only [outputOffset, h.index, fragmentPayloadBytes] at *
    omega), List.getElem?_drop, outputOffset, h.index, Nat.add_sub_cancel' (by
    rwa [outputOffset, h.index] at start), List.getElem?_eq_getElem high]
  rfl

end Datagram.Carries

variable {capacity : Nat} {startMs timeoutMs : UInt32}

/-- Everything a call needs to receive the message: limits, type, session and room. -/
structure Awaits (read : Packet → Option (Datagram format)) (type : UInt8) (session : UInt32)
    (expectedSession : UInt32) (capacity : Nat) (data : Bytes) : Prop where
  adequate : format.Adequate
  reads : ∀ packet d, parse format packet = some d → d.totalLength ≤ format.maxMessageBytes →
    read packet = some d
  nonempty : 1 ≤ data.length
  short : data.length ≤ format.maxMessageBytes
  room : data.length ≤ capacity
  typed : type ≠ 0xff
  expected : expectedSession = session ∨ expectedSession = 0

/-- The packets a schedule may contain: fragments of the message, and unrelated ones. -/
def Scheduled (read : Packet → Option (Datagram format)) (type : UInt8)
    (expectedSession : UInt32) (source : Endpoint) (datagrams : List Bytes)
    (front : List Poll) : Prop :=
  ∀ poll ∈ front, ∀ packet, poll.packet = some packet →
    (packet.source = source ∧ packet.bytes ∈ datagrams) ∨
      Unrelated read type expectedSession packet

/-- The datagrams of a message, as `sendMessage` makes them. -/
def datagramsOf (format : Format) (type : UInt8) (session : UInt32) (data : Bytes) : List Bytes :=
  (List.range (fragmentsOf data)).map (fragment format type session data (fragmentsOf data))

/-- A fragment of the awaited message passes the call's checks. -/
theorem Awaits.candidate_fragment (h : Awaits read type session expectedSession capacity data)
    (source : Endpoint) {i : Nat} (low : i < fragmentsOf data) :
    ∃ d, candidate read type expectedSession capacity
        ⟨fragment format type session data (fragmentsOf data) i, source⟩ = some d ∧
      d.Carries type session data source i := by
  obtain ⟨d, parsed, carries⟩ := @parse_fragment format type session data source h.adequate
    h.short (fragmentsOf_le h.adequate h.short) i low
  have types : d.type = type := congrArg Opening.type carries.opening
  have sessions : d.session = session := congrArg Opening.session carries.opening
  have length : d.totalLength = data.length := congrArg Opening.totalLength carries.opening
  refine ⟨d, candidate_eq_some_iff.mpr ⟨h.reads _ d parsed ?_, .inr types, ?_, ?_⟩, carries⟩
  · rw [length]
    exact h.short
  · rw [sessions]
    exact h.expected.symm.imp id Eq.symm
  · rw [length]
    exact h.room

/-- An unrelated packet does not. -/
theorem Awaits.candidate_unrelated (h : Awaits read type session expectedSession capacity data)
    {packet : Packet} (unrelated : Unrelated read type expectedSession packet) :
    candidate read type expectedSession capacity packet = none := by
  cases found : read packet with
  | none => exact candidate_eq_none_of_read found
  | some d =>
      refine candidate_eq_none found fun accepted => ?_
      rcases unrelated d found with other | ⟨expects, other⟩
      · exact other (accepted.1.resolve_left h.typed)
      · exact other (accepted.2.1.resolve_left expects)

variable {datagrams : List Bytes} {front : List Poll}

/-- What arrives under a schedule: only fragments that were put into it. -/
theorem Awaits.arrived (h : Awaits read type session expectedSession capacity data)
    (early : ∀ poll ∈ front, poll.now - startMs < timeoutMs)
    (schedule : Scheduled read type expectedSession source
      (datagramsOf format type session data) front)
    {d : Datagram format}
    (mem : d ∈ arrivals (candidate read type expectedSession capacity) startMs timeoutMs front) :
    ∃ i < fragmentsOf data, d.Carries type session data source i ∧
      ∃ poll ∈ front, poll.packet =
        some ⟨fragment format type session data (fragmentsOf data) i, source⟩ := by
  obtain ⟨poll, inFront, packet, present, found⟩ := (mem_arrivals early).mp mem
  rcases schedule poll inFront packet present with ⟨from_, sent⟩ | unrelated
  · obtain ⟨i, low, bytes⟩ := List.mem_map.mp sent
    have index := List.mem_range.mp low
    obtain ⟨e, found', carries⟩ := h.candidate_fragment source index
    obtain ⟨bytes', source'⟩ := packet
    obtain rfl : source' = source := from_
    obtain rfl : fragment format type session data (fragmentsOf data) i = bytes' := bytes
    obtain rfl := Option.some.inj (found.symm.trans found')
    exact ⟨i, index, carries, poll, inFront, present⟩
  · rw [h.candidate_unrelated unrelated] at found
    cases found

/-- Every fragment in the schedule arrives. -/
theorem Awaits.represented (h : Awaits read type session expectedSession capacity data)
    (early : ∀ poll ∈ front, poll.now - startMs < timeoutMs) {i : Nat}
    (low : i < fragmentsOf data) {poll : Poll} (mem : poll ∈ front)
    (present : poll.packet =
      some ⟨fragment format type session data (fragmentsOf data) i, source⟩) :
    ∃ d ∈ arrivals (candidate read type expectedSession capacity) startMs timeoutMs front,
      d.Carries type session data source i := by
  obtain ⟨d, found, carries⟩ := h.candidate_fragment source low
  exact ⟨d, (mem_arrivals early).mpr ⟨poll, mem, _, present, found⟩, carries⟩

/-- A complete set of fragments holds the message and counts every header once. -/
theorem message_of_complete {past : List (Datagram format)} {output : Nat → UInt8}
    {s : Reassembly format}
    (nonempty : 1 ≤ data.length)
    (whole : ∀ d ∈ past, ∃ i < fragmentsOf data, d.Carries type session data source i)
    (consistent : s.Consistent output past) (complete : s.Complete) :
    s.active = some (openingOf type session data source) ∧
      s.framedBytes = data.length + fragmentHeaderBytes * fragmentsOf data ∧
      (List.range data.length).map s.output = data := by
  obtain ⟨opener, head, active, copies, all⟩ := consistent.complete complete
  obtain ⟨_, -, first⟩ := whole opener (List.mem_of_head? head)
  have opening : opener.opening = openingOf type session data source := first.opening
  have count : opener.fragmentCount = fragmentsOf data := congrArg Opening.fragmentCount opening
  rw [opening] at active copies all
  rw [count] at all
  have carries : ∀ {d}, d ∈ past → d.Carries type session data source d.fragmentIndex := by
    intro d mem
    obtain ⟨i, -, carries⟩ := whole d mem
    rwa [carries.index]
  refine ⟨active, ?_, ?_⟩
  · have perm := copies.perm_range (copies.complete_iff.mpr all)
    have sizes : s.copied.map Datagram.datagramBytes =
        (s.copied.map Datagram.fragmentIndex).map
          fun i => fragmentHeaderBytes + (sliceOf data i).length := by
      rw [List.map_map]
      apply List.map_congr_left
      intro d mem
      have own := carries (firstFragment_some (copies.mem_iff.mp mem)).1
      simp only [Datagram.datagramBytes, own.payload, Function.comp_apply]
    rw [copies.framed, sizes, (perm.map _).sum_nat]
    change ((List.range (fragmentsOf data)).map _).sum = _
    rw [sum_framed, Nat.min_eq_left]
    simp only [fragmentsOf, fragmentPayloadBytes]
    omega
  · apply List.ext_getElem
    · rw [List.length_map, List.length_range]
    intro k _ high
    have index : k / fragmentPayloadBytes < fragmentsOf data := by
      simp only [fragmentsOf, fragmentPayloadBytes]
      omega
    obtain ⟨d, found⟩ := Option.isSome_iff_exists.mp (all _ index)
    obtain ⟨mem, -, own⟩ := firstFragment_some found
    rw [List.getElem_map, List.getElem_range, copies.output_eq, found, Option.bind_some,
      (carries mem).byteAt high own.symm]
    rfl

variable {body : Reassembly format → Packet → Reassembly format × Option Received}

/-- A call that waits for a message stays in its loop while a fragment is missing. -/
theorem Awaits.waits (h : Awaits read type session expectedSession capacity data)
    (receives : Receives body (candidate read type expectedSession capacity) capacity)
    (early : ∀ poll ∈ front, poll.now - startMs < timeoutMs)
    (schedule : Scheduled read type expectedSession source
      (datagramsOf format type session data) front)
    (missing : ∃ bytes ∈ datagramsOf format type session data,
      ∀ poll ∈ front, poll.packet ≠ some ⟨bytes, source⟩)
    (output : Nat → UInt8) :
    ∃ s, receiveLoop body startMs timeoutMs (.initial format output) front = .waiting s ∧
      s.Consistent output
        (arrivals (candidate read type expectedSession capacity) startMs timeoutMs front) ∧
      ¬ s.Complete := by
  have stands := @receiveLoop_stands format output [] (.initial format output) body _ capacity
    startMs timeoutMs receives front (by simp only [List.not_mem_nil, false_imp_iff,
      implies_true]) rfl (initial_incomplete output)
  cases outcome : receiveLoop body startMs timeoutMs (.initial format output) front with
  | waiting s =>
      rw [outcome] at stands
      exact ⟨s, rfl, stands⟩
  | timedOut rest => exact absurd outcome (receiveLoop_ne_timedOut early)
  | delivered received s rest =>
      -- A completed set would contain the missing fragment.
      rw [outcome] at stands
      obtain ⟨taken, first, consistent, complete, -⟩ := stands
      rw [List.nil_append] at consistent
      obtain ⟨opener, head, -, -, all⟩ := consistent.complete complete
      obtain ⟨_, -, opens, -⟩ := h.arrived early schedule
        (first.subset (List.mem_of_head? head))
      have count : opener.fragmentCount = fragmentsOf data :=
        congrArg Opening.fragmentCount opens.opening
      obtain ⟨bytes, sent, absent⟩ := missing
      obtain ⟨i, low, rfl⟩ := List.mem_map.mp sent
      obtain ⟨d, found⟩ := Option.isSome_iff_exists.mp
        (all i (by rw [count]; exact List.mem_range.mp low))
      obtain ⟨mem, -, index⟩ := firstFragment_some found
      obtain ⟨j, -, carries, poll, inFront, present⟩ := h.arrived early schedule (first.subset mem)
      obtain rfl : j = i := carries.index.symm.trans index
      exact absurd present (absent poll inFront)

/-- A set in which every fragment of the message is represented is complete. -/
theorem complete_of_represented {past : List (Datagram format)} {output : Nat → UInt8}
    {s : Reassembly format} (nonempty : past ≠ [])
    (whole : ∀ d ∈ past, ∃ i < fragmentsOf data, d.Carries type session data source i)
    (consistent : s.Consistent output past)
    (represented : ∀ i < fragmentsOf data, ∃ d ∈ past, d.Carries type session data source i) :
    s.Complete := by
  obtain ⟨opener, head⟩ := Option.isSome_iff_exists.mp (List.isSome_head?.mpr nonempty)
  obtain ⟨_, -, opens⟩ := whole opener (List.mem_of_head? head)
  have count : opener.fragmentCount = fragmentsOf data :=
    congrArg Opening.fragmentCount opens.opening
  refine consistent.complete_of head fun i bound => ?_
  rw [count] at bound
  obtain ⟨d, mem, own⟩ := represented i bound
  have found := firstFragment_isSome mem (own.fits bound)
  rw [own.index] at found
  rw [opens.opening]
  exact found

section Last

variable (h : Awaits read type session expectedSession capacity data)
  (early : ∀ poll ∈ front, poll.now - startMs < timeoutMs) {last : Poll}

/-- The fragment that was missing comes in the last round. -/
theorem last_fragment
    (complete : ∀ bytes ∈ datagramsOf format type session data,
      ∃ poll ∈ front ++ [last], poll.packet = some ⟨bytes, source⟩)
    (missing : ∃ bytes ∈ datagramsOf format type session data,
      ∀ poll ∈ front, poll.packet ≠ some ⟨bytes, source⟩) :
    ∃ i < fragmentsOf data,
      last.packet = some ⟨fragment format type session data (fragmentsOf data) i, source⟩ := by
  obtain ⟨bytes, sent, absent⟩ := missing
  obtain ⟨poll, mem, present⟩ := complete bytes sent
  obtain ⟨i, low, rfl⟩ := List.mem_map.mp sent
  refine ⟨i, List.mem_range.mp low, ?_⟩
  rcases List.mem_append.mp mem with mem | mem
  · exact absurd present (absent poll mem)
  · rw [← List.mem_singleton.mp mem]
    exact present

include h early

/-- With the datagram of the last round every fragment is represented. -/
theorem Awaits.represented_last {i : Nat} {d : Datagram format}
    (present : last.packet =
      some ⟨fragment format type session data (fragmentsOf data) i, source⟩)
    (found : candidate read type expectedSession capacity
      ⟨fragment format type session data (fragmentsOf data) i, source⟩ = some d)
    (complete : ∀ bytes ∈ datagramsOf format type session data,
      ∃ poll ∈ front ++ [last], poll.packet = some ⟨bytes, source⟩)
    {j : Nat} (bound : j < fragmentsOf data) :
    ∃ e ∈ arrivals (candidate read type expectedSession capacity) startMs timeoutMs front ++ [d],
      e.Carries type session data source j := by
  obtain ⟨poll, mem, present'⟩ := complete _ (List.mem_map.mpr ⟨j, List.mem_range.mpr bound, rfl⟩)
  rcases List.mem_append.mp mem with mem | mem
  · obtain ⟨e, arrived, own⟩ := h.represented early bound mem present'
    exact ⟨e, List.mem_append_left _ arrived, own⟩
  · obtain ⟨e, found', own⟩ := h.candidate_fragment source bound
    rw [List.mem_singleton.mp mem, present, Option.some.injEq] at present'
    rw [← present', found, Option.some.injEq] at found'
    exact ⟨d, List.mem_append_right _ (List.mem_singleton_self d), found' ▸ own⟩

/-- The datagram of the last round is a fragment like those before it. -/
theorem Awaits.whole_last
    (schedule : Scheduled read type expectedSession source
      (datagramsOf format type session data) front)
    {i : Nat} {d : Datagram format} (low : i < fragmentsOf data)
    (carries : d.Carries type session data source i) :
    ∀ e ∈ arrivals (candidate read type expectedSession capacity) startMs timeoutMs front ++ [d],
      ∃ j < fragmentsOf data, e.Carries type session data source j := by
  intro e mem
  rcases List.mem_append.mp mem with mem | mem
  · obtain ⟨j, bound, own, -⟩ := h.arrived early schedule mem
    exact ⟨j, bound, own⟩
  · rw [List.mem_singleton.mp mem]
    exact ⟨i, low, carries⟩

end Last

/-- The call returns at the arrival that completes the set, with the message. -/
theorem Awaits.delivered (h : Awaits read type session expectedSession capacity data)
    (receives : Receives body (candidate read type expectedSession capacity) capacity)
    {last : Poll} (early : ∀ poll ∈ front ++ [last], poll.now - startMs < timeoutMs)
    (schedule : Scheduled read type expectedSession source
      (datagramsOf format type session data) (front ++ [last]))
    (complete : ∀ bytes ∈ datagramsOf format type session data,
      ∃ poll ∈ front ++ [last], poll.packet = some ⟨bytes, source⟩)
    (missing : ∃ bytes ∈ datagramsOf format type session data,
      ∀ poll ∈ front, poll.packet ≠ some ⟨bytes, source⟩)
    (output : Nat → UInt8) (rest : List Poll) :
    ∃ s, receiveLoop body startMs timeoutMs (.initial format output) (front ++ last :: rest) =
        .delivered ⟨type, session, data.length, source,
          data.length + fragmentHeaderBytes * fragmentsOf data⟩ s rest ∧
      (List.range data.length).map s.output = data := by
  have before : ∀ poll ∈ front, poll ∈ front ++ [last] := fun _ => List.mem_append_left _
  have earlyFront := fun poll mem => early poll (before poll mem)
  have scheduleFront := fun poll mem => schedule poll (before poll mem)
  obtain ⟨s, waits, consistent, incomplete⟩ :=
    h.waits receives earlyFront scheduleFront missing output
  obtain ⟨i, low, present⟩ := last_fragment complete missing
  obtain ⟨d, found, carries⟩ := h.candidate_fragment source low
  obtain ⟨next, reported⟩ := consistent.receive incomplete d
  have whole := h.whole_last earlyFront scheduleFront low carries
  have finished : (s.receive d).1.Complete :=
    complete_of_represented (List.append_ne_nil_of_right_ne_nil _ (List.cons_ne_nil _ _)) whole next
      fun j bound => h.represented_last earlyFront present found complete bound
  obtain ⟨active, framed, bytes⟩ := message_of_complete h.nonempty whole next finished
  refine ⟨(s.receive d).1, ?_, bytes⟩
  have answer := (reported _).mpr ⟨finished, _, active, rfl⟩
  have pair : s.receive d = ((s.receive d).1, some ((s.receive d).1.report
      (openingOf type session data source))) := Prod.ext rfl answer
  have small : ∀ o, s.active = some o → o.totalLength ≤ capacity :=
    consistent.bounded fun e mem => by
      obtain ⟨i, -, own, -⟩ := h.arrived earlyFront scheduleFront mem
      exact (congrArg Opening.totalLength own.opening).trans_le h.room
  have run := receives.body_eq s
    ⟨fragment format type session data (fragmentsOf data) i, source⟩ small
  rw [receiveLoop_append waits, receiveLoop, if_pos (early last (List.mem_append_right _
    (List.mem_singleton_self last)))]
  simp only [found] at run
  simp only [present, run]
  rw [pair]
  simp only [Reassembly.report, framed]
  rfl

/-- The rounds of a call that bring a message: its datagrams in any order and repeated, among
packets that the call refuses. The last round brings the last one that was missing. -/
structure Brings (read : Packet → Option (Datagram format)) (type : UInt8)
    (expectedSession : UInt32) (source : Endpoint) (datagrams : List Bytes)
    (startMs timeoutMs : UInt32) (front : List Poll) (last : Poll) : Prop where
  early : ∀ poll ∈ front ++ [last], poll.now - startMs < timeoutMs
  schedule : Scheduled read type expectedSession source datagrams (front ++ [last])
  complete : ∀ bytes ∈ datagrams, ∃ poll ∈ front ++ [last], poll.packet = some ⟨bytes, source⟩
  missing : ∃ bytes ∈ datagrams, ∀ poll ∈ front, poll.packet ≠ some ⟨bytes, source⟩

/-- The fragments may arrive at once and in their order. -/
theorem Awaits.brought_in_order
    (h : Awaits read type session expectedSession capacity data)
    (time : 0 < timeoutMs) (source : Endpoint) : ∃ front last, Brings read type expectedSession
      source (datagramsOf format type session data) 0 timeoutMs front last := by
  obtain ⟨n, count⟩ : ∃ n, fragmentsOf data = n + 1 := Nat.exists_eq_add_one.mpr (by
    have nonempty := h.nonempty
    simp only [fragmentsOf, fragmentPayloadBytes]
    omega)
  let poll (i : Nat) : Poll :=
    ⟨0, some ⟨fragment format type session data (fragmentsOf data) i, source⟩⟩
  have whole : (List.range n).map poll ++ [poll n] = (List.range (fragmentsOf data)).map poll := by
    rw [count, List.range_succ, List.map_append, List.map_singleton]
  have listed : ∀ p ∈ (List.range n).map poll ++ [poll n], ∃ i ∈ List.range (fragmentsOf data),
      poll i = p := by
    intro p mem
    rw [whole] at mem
    exact List.mem_map.mp mem
  refine ⟨(List.range n).map poll, poll n, ?_, ?_, ?_, ?_⟩
  · intro p mem
    obtain ⟨i, _, rfl⟩ := listed p mem
    change (0 : UInt32) - 0 < timeoutMs
    rwa [UInt32.sub_self]
  · intro p mem packet present
    obtain ⟨i, inRange, rfl⟩ := listed p mem
    cases Option.some.inj present
    exact .inl ⟨rfl, List.mem_map.mpr ⟨i, inRange, rfl⟩⟩
  · intro bytes mem
    obtain ⟨i, inRange, rfl⟩ := List.mem_map.mp mem
    refine ⟨poll i, ?_, rfl⟩
    rw [whole]
    exact List.mem_map.mpr ⟨i, inRange, rfl⟩
  · refine ⟨_, List.mem_map.mpr ⟨n, List.mem_range.mpr (count ▸ Nat.lt_succ_self n), rfl⟩, ?_⟩
    intro p mem same
    obtain ⟨i, inRange, rfl⟩ := List.mem_map.mp mem
    have low : i < n := List.mem_range.mp inRange
    -- The header tells the fragments apart.
    obtain ⟨d, found, carries⟩ := h.candidate_fragment source (i := i) (by omega)
    obtain ⟨e, found', carries'⟩ := h.candidate_fragment source (i := n) (by omega)
    rw [← Option.some.inj same, found, Option.some.injEq] at found'
    have index := carries'.index
    rw [← found', carries.index] at index
    exact absurd index (Nat.ne_of_lt low)

/-- A call to which they arrive so returns the message. -/
theorem Awaits.delivered_in_order
    (h : Awaits read type session expectedSession capacity data)
    (receives : Receives body (candidate read type expectedSession capacity) capacity)
    (time : 0 < timeoutMs) (source : Endpoint) (output : Nat → UInt8) :
    ∃ polls s, receiveLoop body 0 timeoutMs (.initial format output) polls =
        .delivered ⟨type, session, data.length, source,
          data.length + fragmentHeaderBytes * fragmentsOf data⟩ s [] ∧
      (List.range data.length).map s.output = data := by
  obtain ⟨front, last, brings⟩ := h.brought_in_order time source
  obtain ⟨s, delivered, bytes⟩ := h.delivered receives brings.early brings.schedule brings.complete
    brings.missing output []
  exact ⟨_, s, delivered, bytes⟩

end Reception

end Transport
