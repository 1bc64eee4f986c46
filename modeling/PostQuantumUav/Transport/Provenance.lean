import PostQuantumUav.Transport.Reassembly

/-!
# Where the delivered bytes come from

Reassembly counts fragment indices and never compares the payload lengths with
the announced total. The output holds, at each position, the byte carried by the
representative of that position's index, and otherwise what the caller's buffer
held before the call.

A call therefore delivers received bytes only exactly when the representatives
fill the message: the announced length fits the announced number of fragments and
every representative carries all the bytes of its place.
-/

namespace Transport

variable {format : Format} {o : Opening} {output : Nat → UInt8} {past : List (Datagram format)}
  {s : Reassembly format} {d : Datagram format}

/-- A datagram carries bytes for positions of its own index only. -/
theorem Datagram.index_of_byteAt {k : Nat} {b : UInt8} (carried : d.byteAt k = some b) :
    d.fragmentIndex = k / fragmentPayloadBytes ∧ k - d.outputOffset < d.payload.length ∧
      d.outputOffset ≤ k := by
  rw [byteAt] at carried
  split at carried
  · rename_i low
    have inside := (List.getElem?_eq_some_iff.mp carried).1
    have short := d.payload_le
    refine ⟨?_, inside, low⟩
    simp only [outputOffset, fragmentPayloadBytes] at *
    omega
  · cases carried

/-- Inside its payload a datagram carries a byte. -/
theorem Datagram.exists_byteAt {k : Nat} (low : d.outputOffset ≤ k)
    (inside : k - d.outputOffset < d.payload.length) : ∃ b, d.byteAt k = some b :=
  ⟨d.payload.get ⟨_, inside⟩, by
    rw [byteAt, if_pos low, List.getElem?_eq_getElem inside]
    rfl⟩

/-- Successive writes of datagrams with different indices, read back at one position. -/
theorem foldl_write (copied : List (Datagram format))
    (distinct : (copied.map Datagram.fragmentIndex).Nodup) (output : Nat → UInt8) (k : Nat) :
    copied.foldl (fun output d => d.write output) output k =
      ((copied.find? fun d => decide (d.fragmentIndex = k / fragmentPayloadBytes)).bind
        fun d => d.byteAt k).getD (output k) := by
  induction copied generalizing output with
  | nil => rfl
  | cons d rest ih =>
      rw [List.map_cons, List.nodup_cons] at distinct
      rw [List.foldl_cons, ih distinct.2, List.find?_cons]
      by_cases own : d.fragmentIndex = k / fragmentPayloadBytes
      · have none : rest.find? (fun d => decide (d.fragmentIndex = k / fragmentPayloadBytes)) =
            none := by
          rw [List.find?_eq_none]
          intro e mem same
          exact distinct.1 (List.mem_map.mpr
            ⟨e, mem, (of_decide_eq_true same).trans own.symm⟩)
        simp only [none, own, decide_true, Option.bind_none, Option.getD_none, Option.bind_some]
        rfl
      · have untouched : d.write output k = output k := by
          cases carried : d.byteAt k with
          | none => rw [Datagram.write, carried, Option.getD_none]
          | some b => exact absurd (Datagram.index_of_byteAt carried).1 own
        simp only [own, decide_false, untouched]

namespace Reassembly

/-- The output memory, position by position. -/
theorem Copies.output_eq (h : Copies o output past s) (k : Nat) :
    s.output k = ((firstFragment o past (k / fragmentPayloadBytes)).bind
      fun d => d.byteAt k).getD (output k) := by
  rw [h.written, foldl_write _ h.distinct, h.first]

/-- A complete message has an opener, and all its representatives are present. -/
theorem Consistent.complete (h : s.Consistent output past) (complete : s.Complete) :
    ∃ opener, past.head? = some opener ∧ s.active = some opener.opening ∧
      Copies opener.opening output past s ∧
      ∀ i < opener.fragmentCount, (firstFragment opener.opening past i).isSome := by
  obtain ⟨o, active, count⟩ := complete
  cases past with
  | nil =>
      obtain rfl : s = .initial format output := h
      cases active
  | cons opener rest =>
      obtain ⟨active', copies⟩ := h
      obtain rfl := Option.some.inj (active'.symm.trans active)
      exact ⟨opener, rfl, active', copies, copies.complete_iff.mp count⟩

/-- Conversely, the representatives complete the message. -/
theorem Consistent.complete_of (h : s.Consistent output past) {opener : Datagram format}
    (head : past.head? = some opener)
    (all : ∀ i < opener.fragmentCount, (firstFragment opener.opening past i).isSome) :
    s.Complete := by
  cases past with
  | nil => cases head
  | cons first rest =>
      obtain rfl := Option.some.inj head
      exact ⟨_, h.1, h.2.complete_iff.mpr all⟩

end Reassembly

section Calls

variable {body : Reassembly format → Packet → Reassembly format × Option Received}
  {candidate : Packet → Option (Datagram format)} {capacity : Nat}
  {startMs timeoutMs : UInt32} {polls : List Poll}

theorem initial_incomplete (output : Nat → UInt8) :
    ¬ (Reassembly.initial format output).Complete := by
  rintro ⟨o, active, -⟩
  cases active

/-- What a delivering call has received, in terms of all arrivals before the timeout. -/
structure Delivery (arrived : List (Datagram format)) (output : Nat → UInt8)
    (received : Received) (s : Reassembly format) (opener : Datagram format) : Prop where
  head : arrived.head? = some opener
  all : ∀ i < opener.fragmentCount, (firstFragment opener.opening arrived i).isSome
  length : received.length = opener.totalLength
  mem_copied : ∀ {d}, d ∈ s.copied ↔
    d.fragmentIndex < opener.fragmentCount ∧
      firstFragment opener.opening arrived d.fragmentIndex = some d
  output_eq : ∀ k, k / fragmentPayloadBytes < opener.fragmentCount →
    s.output k = ((firstFragment opener.opening arrived (k / fragmentPayloadBytes)).bind
      fun d => d.byteAt k).getD (output k)
  report : received = s.report opener.opening
  framed : s.framedBytes = (s.copied.map Datagram.datagramBytes).sum
  distinct : (s.copied.map Datagram.fragmentIndex).Nodup

theorem delivery_of_delivered (receives : Receives body candidate capacity)
    {received : Received} {rest : List Poll}
    (delivered : receiveLoop body startMs timeoutMs (.initial format output) polls =
      .delivered received s rest) :
    ∃ opener, Delivery (arrivals candidate startMs timeoutMs polls) output received s opener := by
  have stands := @receiveLoop_stands format output [] (.initial format output) body candidate
    capacity startMs timeoutMs receives polls (by simp only [List.not_mem_nil, false_imp_iff,
      implies_true]) rfl (initial_incomplete output)
  rw [delivered] at stands
  obtain ⟨taken, first, consistent, complete, o, active, rfl⟩ := stands
  rw [List.nil_append] at consistent
  obtain ⟨opener, head, active', copies, all⟩ := consistent.complete complete
  obtain rfl := Option.some.inj (active.symm.trans active')
  -- The representatives among the datagrams taken are those among all arrivals.
  have same : ∀ i < opener.fragmentCount, firstFragment opener.opening
      (arrivals candidate startMs timeoutMs polls) i = firstFragment opener.opening taken i := by
    intro i low
    obtain ⟨d, found⟩ := Option.isSome_iff_exists.mp (all i low)
    rw [found, firstFragment_of_prefix first found]
  refine ⟨opener, ?_, fun i low => by rw [same i low]; exact all i low, rfl, ?_, ?_, rfl,
    copies.framed, copies.distinct⟩
  · obtain ⟨later, whole⟩ := first
    rw [← whole, List.head?_append, head, Option.some_or]
  · intro d
    constructor
    · intro mem
      have low : d.fragmentIndex < opener.fragmentCount := by
        have count := congrArg Opening.fragmentCount (copies.fits mem).1
        exact Nat.lt_of_lt_of_eq d.index_lt count
      rw [same _ low]
      exact ⟨low, copies.mem_iff.mp mem⟩
    · rintro ⟨low, found⟩
      rw [same _ low] at found
      exact copies.mem_iff.mpr found
  · intro k low
    rw [same _ low]
    exact copies.output_eq k

/-- When every representative arrives before the timeout, the call delivers. -/
theorem delivered_of_all (receives : Receives body candidate capacity) {opener : Datagram format}
    (head : (arrivals candidate startMs timeoutMs polls).head? = some opener)
    (all : ∀ i < opener.fragmentCount,
      (firstFragment opener.opening (arrivals candidate startMs timeoutMs polls) i).isSome)
    (output : Nat → UInt8) :
    ∃ received s rest, receiveLoop body startMs timeoutMs (.initial format output) polls =
      .delivered received s rest := by
  have stands := @receiveLoop_stands format output [] (.initial format output) body candidate
    capacity startMs timeoutMs receives polls (by simp only [List.not_mem_nil, false_imp_iff,
      implies_true]) rfl (initial_incomplete output)
  cases outcome : receiveLoop body startMs timeoutMs (.initial format output) polls with
  | waiting s =>
      rw [outcome] at stands
      exact absurd (stands.1.complete_of head all) stands.2
  | timedOut rest =>
      rw [outcome] at stands
      obtain ⟨s, consistent, incomplete⟩ := stands
      exact absurd (consistent.complete_of head all) incomplete
  | delivered received s rest => exact ⟨received, s, rest, rfl⟩

/-- Only received bytes are delivered: each delivered position was written from the
payload of a copied datagram, and calls over different buffers deliver the same. -/
structure DeliversReceivedBytes (receive : (Nat → UInt8) → Outcome format) : Prop where
  written : ∀ output received s rest, receive output = .delivered received s rest →
    ∀ k < received.length, ∃ d ∈ s.copied, d.byteAt k = some (s.output k)
  independent : ∀ output output' received s rest,
    receive output = .delivered received s rest →
    ∃ s' rest', receive output' = .delivered received s' rest' ∧
      ∀ k < received.length, s'.output k = s.output k

/-- Either some fragment of the opened message never arrives, or the announced number
of fragments has room for the announced length and each first fragment fills its place. -/
def FilledWhenComplete (arrived : List (Datagram format)) : Prop :=
  ∀ opener, arrived.head? = some opener →
    (∃ i < opener.fragmentCount, firstFragment opener.opening arrived i = none) ∨
    (opener.totalLength ≤ opener.fragmentCount * fragmentPayloadBytes ∧
      ∀ i < opener.fragmentCount, ∀ d, firstFragment opener.opening arrived i = some d →
        d.payload.length = min fragmentPayloadBytes
          (opener.totalLength - i * fragmentPayloadBytes))

/-- In a filled message every position carries a byte of its representative. -/
theorem Delivery.carried {arrived : List (Datagram format)} {received : Received}
    {opener : Datagram format} (h : Delivery arrived output received s opener)
    (filled : FilledWhenComplete arrived) {k : Nat} (low : k < received.length) :
    k / fragmentPayloadBytes < opener.fragmentCount ∧
      ∃ d b, firstFragment opener.opening arrived (k / fragmentPayloadBytes) = some d ∧
        d.byteAt k = some b ∧ s.output k = b := by
  rw [h.length] at low
  rcases filled opener h.head with ⟨i, bound, missing⟩ | ⟨room, full⟩
  · have present := h.all i bound
    rw [missing] at present
    cases present
  · have index : k / fragmentPayloadBytes < opener.fragmentCount :=
      Nat.div_lt_of_lt_mul (by rw [Nat.mul_comm]; omega)
    refine ⟨index, ?_⟩
    obtain ⟨d, found⟩ := Option.isSome_iff_exists.mp (h.all _ index)
    have size := full _ index d found
    have place : d.outputOffset = k / fragmentPayloadBytes * fragmentPayloadBytes := by
      rw [Datagram.outputOffset, (firstFragment_some found).2.2]
    obtain ⟨b, carried⟩ := @Datagram.exists_byteAt _ d k
      (by rw [place]; exact Nat.div_mul_le_self _ _)
      (by simp only [place, size, fragmentPayloadBytes]; omega)
    refine ⟨d, b, found, carried, ?_⟩
    rw [h.output_eq k index, found, Option.bind_some, carried, Option.getD_some]

/-- Two deliveries of the same arrivals make the same report. -/
theorem Delivery.report_eq {arrived : List (Datagram format)} {received received' : Received}
    {output' : Nat → UInt8} {s' : Reassembly format} {opener opener' : Datagram format}
    (h : Delivery arrived output received s opener)
    (h' : Delivery arrived output' received' s' opener') : received' = received := by
  obtain rfl := Option.some.inj (h.head.symm.trans h'.head)
  have perm : s'.copied.Perm s.copied := by
    rw [List.perm_ext_iff_of_nodup (List.Nodup.of_map _ h'.distinct)
      (List.Nodup.of_map _ h.distinct)]
    intro d
    rw [h.mem_copied, h'.mem_copied]
  have framed : s'.framedBytes = s.framedBytes := by
    rw [h.framed, h'.framed, (perm.map _).sum_nat]
  rw [h.report, h'.report, Reassembly.report, Reassembly.report, framed]

/-- A call delivers received bytes only exactly when its arrivals fill the message. -/
theorem deliversReceivedBytes_iff (receives : Receives body candidate capacity) :
    DeliversReceivedBytes
        (fun output => receiveLoop body startMs timeoutMs (.initial format output) polls) ↔
      FilledWhenComplete (arrivals candidate startMs timeoutMs polls) := by
  constructor
  · intro delivers opener head
    by_cases all : ∀ i < opener.fragmentCount, (firstFragment opener.opening
        (arrivals candidate startMs timeoutMs polls) i).isSome
    · right
      obtain ⟨received, s, rest, delivered⟩ :=
        delivered_of_all receives head all fun _ => 0
      obtain ⟨opener', h⟩ := delivery_of_delivered receives delivered
      obtain rfl := Option.some.inj (head.symm.trans h.head)
      have written := delivers.written _ received s rest delivered
      rw [h.length] at written
      constructor
      · -- A position past the last fragment is carried by no datagram.
        by_contra short
        obtain ⟨d, mem, carried⟩ :=
          written (opener.fragmentCount * fragmentPayloadBytes) (by omega)
        obtain ⟨index, -⟩ := Datagram.index_of_byteAt carried
        have below := (h.mem_copied.mp mem).1
        rw [index, Nat.mul_div_cancel _ (by decide)] at below
        exact Nat.lt_irrefl _ below
      · intro i low d found
        obtain ⟨-, ⟨-, inside⟩, index⟩ := firstFragment_some found
        have short := d.payload_le
        have length : d.opening.totalLength = d.totalLength := rfl
        have place : d.outputOffset = i * fragmentPayloadBytes := by
          rw [Datagram.outputOffset, index]
        change _ ≤ opener.totalLength at inside
        by_contra partly
        -- The first position the representative leaves out is carried by no other datagram.
        obtain ⟨e, mem, carried⟩ := written (d.outputOffset + d.payload.length) (by
          simp only [place, fragmentPayloadBytes] at *
          omega)
        obtain ⟨own, missing, -⟩ := Datagram.index_of_byteAt carried
        have same : e.fragmentIndex = i := by
          rw [own, place]
          simp only [place, fragmentPayloadBytes] at *
          omega
        have foundE := (h.mem_copied.mp mem).2
        rw [same, found] at foundE
        obtain rfl := Option.some.inj foundE
        omega
    · left
      simp only [not_forall, Option.not_isSome_iff_eq_none] at all
      obtain ⟨i, low, missing⟩ := all
      exact ⟨i, low, missing⟩
  · intro filled
    constructor
    · intro output received s rest delivered k low
      obtain ⟨opener, h⟩ := delivery_of_delivered receives delivered
      obtain ⟨index, d, b, found, carried, value⟩ := h.carried filled low
      have own := (firstFragment_some found).2.2
      refine ⟨d, h.mem_copied.mpr ⟨own ▸ index, own ▸ found⟩, ?_⟩
      rw [carried, value]
    · intro output output' received s rest delivered
      obtain ⟨opener, h⟩ := delivery_of_delivered receives delivered
      obtain ⟨received', s', rest', delivered'⟩ := delivered_of_all receives h.head h.all output'
      obtain ⟨opener', h'⟩ := delivery_of_delivered receives delivered'
      obtain rfl := h.report_eq h'
      obtain rfl := Option.some.inj (h.head.symm.trans h'.head)
      refine ⟨s', rest', delivered', fun k low => ?_⟩
      obtain ⟨-, d, b, found, carried, value⟩ := h.carried filled low
      obtain ⟨-, d', b', found', carried', value'⟩ := h'.carried filled low
      obtain rfl := Option.some.inj (found.symm.trans found')
      obtain rfl := Option.some.inj (carried.symm.trans carried')
      rw [value, value']

end Calls

end Transport
