import Mathlib.Data.List.Nodup
import Mathlib.Data.List.Perm.Subperm
import PostQuantumUav.Transport.Basic

/-!
# What a reassembly holds

The state after any arrivals is a function of their order: the first arrival opens
a message, and each fragment index is represented by the first arrival that fits
the opened message. `Copies` states this relation and everything that follows
from it: the seen table, the two counters and the output memory.

The invariant is kept by every arrival and holds of every call, whatever checks
the receiving loop makes before an arrival reaches the reassembly.
-/

namespace Transport

variable {format : Format} {o : Opening} {output : Nat → UInt8} {past : List (Datagram format)}
  {s : Reassembly format} {d : Datagram format}

/-- The first arrival of an index that fits the opened message. -/
def firstFragment (o : Opening) (arrivals : List (Datagram format)) (i : Nat) :
    Option (Datagram format) :=
  arrivals.find? fun d => decide (d.Fits o ∧ d.fragmentIndex = i)

theorem firstFragment_append (past later : List (Datagram format)) (i : Nat) :
    firstFragment o (past ++ later) i = (firstFragment o past i).or (firstFragment o later i) :=
  List.find?_append

theorem firstFragment_some {i : Nat} (found : firstFragment o past i = some d) :
    d ∈ past ∧ d.Fits o ∧ d.fragmentIndex = i :=
  ⟨List.mem_of_find?_eq_some found, by simpa only [decide_eq_true_eq] using List.find?_some found⟩

/-- An index is represented as soon as one fitting arrival has it. -/
theorem firstFragment_isSome (mem : d ∈ past) (fits : d.Fits o) :
    (firstFragment o past d.fragmentIndex).isSome :=
  List.find?_isSome.mpr ⟨d, mem, decide_eq_true ⟨fits, rfl⟩⟩

/-- More arrivals never replace a representative. -/
theorem firstFragment_of_prefix {arrivals : List (Datagram format)} (first : past <+: arrivals)
    {i : Nat} (found : firstFragment o past i = some d) :
    firstFragment o arrivals i = some d := by
  obtain ⟨later, rfl⟩ := first
  rw [firstFragment_append, found, Option.some_or]

namespace Reassembly

/-- The variables after `past`, for the opened message `o`. -/
structure Copies (o : Opening) (output : Nat → UInt8) (past : List (Datagram format))
    (s : Reassembly format) : Prop where
  first : ∀ i, s.copied.find? (fun d => decide (d.fragmentIndex = i)) = firstFragment o past i
  distinct : (s.copied.map Datagram.fragmentIndex).Nodup
  seen : ∀ i, s.receivedFragments i = true ↔ i ∈ s.copied.map Datagram.fragmentIndex
  completed : s.completed = s.copied.length
  framed : s.framedBytes = (s.copied.map Datagram.datagramBytes).sum
  written : s.output = s.copied.foldl (fun output d => d.write output) output

namespace Copies

/-- The representative of an index is the copied datagram of that index. -/
theorem mem_iff (h : Copies o output past s) :
    d ∈ s.copied ↔ firstFragment o past d.fragmentIndex = some d := by
  rw [← h.first]
  constructor
  · intro mem
    cases found : s.copied.find? fun e => decide (e.fragmentIndex = d.fragmentIndex) with
    | none =>
        have absent := List.find?_eq_none.mp found d mem
        simp only [decide_true, not_true_eq_false] at absent
    | some e =>
        have index : e.fragmentIndex = d.fragmentIndex := by
          simpa only [decide_eq_true_eq] using List.find?_some found
        rw [List.inj_on_of_nodup_map h.distinct (List.mem_of_find?_eq_some found) mem index]
  · exact List.mem_of_find?_eq_some

theorem seen_iff (h : Copies o output past s) (i : Nat) :
    s.receivedFragments i = true ↔ (firstFragment o past i).isSome := by
  rw [h.seen, ← h.first, List.find?_isSome, List.mem_map]
  simp only [decide_eq_true_eq]

theorem fits (h : Copies o output past s) (mem : d ∈ s.copied) : d.Fits o :=
  (firstFragment_some (h.mem_iff.mp mem)).2.1

/-- An arrival that does not fit leaves the relation as it is. -/
theorem skip (h : Copies o output past s) (misfit : ¬ d.Fits o) :
    Copies o output (past ++ [d]) s where
  first i := by
    have none : firstFragment o [d] i = none := by
      simp only [firstFragment, List.find?_singleton, misfit, false_and, decide_false]
      rfl
    rw [firstFragment_append, none, Option.or_none, h.first]
  distinct := h.distinct
  seen := h.seen
  completed := h.completed
  framed := h.framed
  written := h.written

/-- A fitting arrival is copied exactly when it is the first of its index. -/
theorem copy (h : Copies o output past s) (fits : d.Fits o) :
    Copies o output (past ++ [d]) (s.copy d) := by
  have own : ∀ i, firstFragment o [d] i = if d.fragmentIndex = i then some d else none := by
    intro i
    simp only [firstFragment, List.find?_singleton, fits, true_and, decide_eq_true_eq]
  by_cases before : s.receivedFragments d.fragmentIndex = true
  · rw [Reassembly.copy, if_pos before]
    obtain ⟨e, earlier⟩ := Option.isSome_iff_exists.mp ((h.seen_iff _).mp before)
    refine { h with first := fun i => ?_ }
    rw [firstFragment_append, own, h.first]
    split
    · rename_i same
      rw [← same, earlier, Option.some_or]
    · rw [Option.or_none]
  · have fresh : d.fragmentIndex ∉ s.copied.map Datagram.fragmentIndex :=
      fun mem => before ((h.seen _).mpr mem)
    rw [Reassembly.copy, if_neg before]
    constructor
    · intro i
      simp only [List.find?_append, List.find?_singleton, h.first, firstFragment_append, own,
        decide_eq_true_eq]
    · rw [List.map_append, List.map_singleton]
      exact h.distinct.append (List.nodup_singleton _) (List.disjoint_singleton.mpr fresh)
    · intro i
      rw [List.map_append, List.map_singleton, List.mem_append, List.mem_singleton, ← h.seen]
      by_cases same : i = d.fragmentIndex
      · simp only [same, Function.update_self, or_true]
      · simp only [Function.update_of_ne same, same, or_false]
    · simp only [h.completed, List.length_append, List.length_singleton]
    · simp only [h.framed, List.map_append, List.map_singleton, List.sum_append,
        List.sum_singleton]
    · simp only [h.written, List.foldl_append, List.foldl_cons, List.foldl_nil]

end Copies

/-- The report made when the last fragment has arrived. -/
def report (o : Opening) (s : Reassembly format) : Received :=
  ⟨o.type, o.session, o.totalLength, o.source, s.framedBytes⟩

/-- All that the end of the loop body can do with a datagram. -/
theorem take_cases (s : Reassembly format) (o : Opening) (d : Datagram format) :
    (¬ d.Fits o ∧ s.take o d = (s, none)) ∨
      (d.Fits o ∧ s.take o d = (s.copy d,
        if (s.copy d).completed = o.fragmentCount then some (report o (s.copy d)) else none)) := by
  by_cases same : d.opening = o
  · by_cases inside : d.outputOffset + d.payload.length ≤ o.totalLength
    · right
      refine ⟨⟨same, inside⟩, ?_⟩
      rw [take, if_neg (not_not.mpr same), if_neg (by omega)]
      dsimp only
      split
      · rfl
      · rfl
    · left
      refine ⟨fun fits => inside fits.2, ?_⟩
      rw [take, if_neg (not_not.mpr same), if_pos (by omega)]
  · left
    exact ⟨fun fits => same fits.1, by rw [take, if_pos same]⟩

/-- The end of the loop body keeps the relation. -/
theorem Copies.take (h : Copies o output past s) (d : Datagram format) :
    Copies o output (past ++ [d]) (s.take o d).1 := by
  rcases take_cases s o d with ⟨misfit, result⟩ | ⟨fits, result⟩
  · rw [result]
    exact h.skip misfit
  · rw [result]
    exact h.copy fits

/-- An incomplete message is reported exactly when this arrival completes it. -/
theorem take_report (incomplete : s.completed ≠ o.fragmentCount) (d : Datagram format) :
    (s.take o d).2 =
      if (s.take o d).1.completed = o.fragmentCount then some (report o (s.take o d).1)
      else none := by
  rcases take_cases s o d with ⟨misfit, result⟩ | ⟨fits, result⟩
  · rw [result, if_neg incomplete]
  · rw [result]

theorem copy_active (s : Reassembly format) (d : Datagram format) :
    (s.copy d).active = s.active := by
  unfold copy
  split
  · rfl
  · rfl

theorem take_active (o : Opening) (d : Datagram format) : (s.take o d).1.active = s.active := by
  rcases take_cases s o d with ⟨misfit, result⟩ | ⟨fits, result⟩
  · rw [result]
  · rw [result, copy_active]

/-- Opening and the end of the loop body together. -/
def receive (s : Reassembly format) (d : Datagram format) : Reassembly format × Option Received :=
  match s.active with
  | none => (s.opened d).take d.opening d
  | some o => s.take o d

/-- The state after the arrivals `past`; the first of them opened the message. -/
def Consistent (output : Nat → UInt8) : List (Datagram format) → Reassembly format → Prop
  | [], s => s = .initial format output
  | first :: rest, s =>
      s.active = some first.opening ∧ Copies first.opening output (first :: rest) s

/-- Every fragment of the opened message has arrived. -/
def Complete (s : Reassembly format) : Prop :=
  ∃ o, s.active = some o ∧ s.completed = o.fragmentCount

theorem Consistent.receive (h : Consistent output past s) (incomplete : ¬ s.Complete)
    (d : Datagram format) :
    Consistent output (past ++ [d]) (s.receive d).1 ∧
      ∀ received, (s.receive d).2 = some received ↔
        (s.receive d).1.Complete ∧
          ∃ o, (s.receive d).1.active = some o ∧ received = report o (s.receive d).1 := by
  -- Both cases end with `take` for the opening that is then active.
  have finish : ∀ {o : Opening} {s : Reassembly format}, s.active = some o →
      s.completed ≠ o.fragmentCount → ∀ received, (s.take o d).2 = some received ↔
        (s.take o d).1.Complete ∧
          ∃ o', (s.take o d).1.active = some o' ∧ received = report o' (s.take o d).1 := by
    intro o s active open_ received
    have kept : (s.take o d).1.active = some o := (take_active o d).trans active
    rw [take_report open_]
    constructor
    · intro reported
      split at reported
      · rename_i complete
        exact ⟨⟨o, kept, complete⟩, o, kept, (Option.some.inj reported).symm⟩
      · cases reported
    · rintro ⟨⟨o', active', complete⟩, o'', active'', rfl⟩
      obtain rfl := Option.some.inj (kept.symm.trans active')
      obtain rfl := Option.some.inj (kept.symm.trans active'')
      rw [if_pos complete]
  cases past with
  | nil =>
      obtain rfl : s = .initial format output := h
      have opened : ((Reassembly.initial format output).opened d).active = some d.opening := rfl
      have start : Copies d.opening output []
          ((Reassembly.initial format output).opened d) :=
        ⟨fun _ => rfl, List.nodup_nil, fun i => by
          simp only [initial, Reassembly.opened, List.map_nil, List.not_mem_nil,
            Bool.false_eq_true], rfl, rfl, rfl⟩
      refine ⟨⟨(take_active _ d).trans opened, start.take d⟩, finish opened ?_⟩
      exact (Nat.ne_of_gt (Nat.zero_lt_of_lt d.index_lt)).symm
  | cons first rest =>
      obtain ⟨active, copies⟩ := h
      have body : s.receive d = s.take first.opening d := by
        rw [Reassembly.receive, active]
      rw [body]
      exact ⟨⟨(take_active _ d).trans active, copies.take d⟩,
        finish active fun complete => incomplete ⟨_, active, complete⟩⟩

theorem Copies.index_subset (h : Copies o output past s) :
    s.copied.map Datagram.fragmentIndex ⊆ List.range o.fragmentCount := by
  intro i mem
  obtain ⟨d, copied, rfl⟩ := List.mem_map.mp mem
  have same := congrArg Opening.fragmentCount (h.fits copied).1
  rw [List.mem_range, ← same]
  exact d.index_lt

/-- The indices copied for a complete message are all indices, each once. -/
theorem Copies.perm_range (h : Copies o output past s) (complete : s.completed = o.fragmentCount) :
    (s.copied.map Datagram.fragmentIndex).Perm (List.range o.fragmentCount) :=
  (List.subperm_of_subset h.distinct h.index_subset).perm_of_length_le (Nat.le_of_eq (by
    rw [List.length_range, List.length_map, ← h.completed, complete]))

/-- Completeness means that every index below the fragment count is represented. -/
theorem Copies.complete_iff (h : Copies o output past s) :
    s.completed = o.fragmentCount ↔
      ∀ i < o.fragmentCount, (firstFragment o past i).isSome := by
  constructor
  · intro complete i low
    rw [← h.seen_iff, h.seen]
    exact (h.perm_range complete).mem_iff.mpr (List.mem_range.mpr low)
  · intro represented
    have back : List.range o.fragmentCount ⊆ s.copied.map Datagram.fragmentIndex :=
      fun i mem => (h.seen i).mp ((h.seen_iff i).mpr (represented i (List.mem_range.mp mem)))
    have least := (List.subperm_of_subset List.nodup_range back).length_le
    have most := (List.subperm_of_subset h.distinct h.index_subset).length_le
    rw [List.length_range, List.length_map, ← h.completed] at least most
    omega

end Reassembly

section Candidate

variable {read : Packet → Option (Datagram format)} {expectedType : UInt8}
  {expectedSession : UInt32} {capacity : Nat} {packet : Packet}

/-- The datagrams that a call waits for: well formed by `read`, of the expected type and
session, and announcing a message that fits the output. -/
def candidate (read : Packet → Option (Datagram format)) (expectedType : UInt8)
    (expectedSession : UInt32) (outputCapacity : Nat) (packet : Packet) :
    Option (Datagram format) :=
  (read packet).filter fun d => decide ((expectedType = 0xff ∨ d.type = expectedType) ∧
    (expectedSession = 0 ∨ d.session = expectedSession) ∧ d.totalLength ≤ outputCapacity)

theorem candidate_eq_some_iff :
    candidate read expectedType expectedSession capacity packet = some d ↔
      read packet = some d ∧ (expectedType = 0xff ∨ d.type = expectedType) ∧
        (expectedSession = 0 ∨ d.session = expectedSession) ∧ d.totalLength ≤ capacity := by
  rw [candidate, Option.filter_eq_some_iff, decide_eq_true_eq]

theorem candidate_eq_none (found : read packet = some d)
    (refused : ¬ ((expectedType = 0xff ∨ d.type = expectedType) ∧
      (expectedSession = 0 ∨ d.session = expectedSession) ∧ d.totalLength ≤ capacity)) :
    candidate read expectedType expectedSession capacity packet = none := by
  rw [candidate, found, Option.filter_some, decide_eq_false refused]
  rfl

theorem candidate_eq_none_of_read (absent : read packet = none) :
    candidate read expectedType expectedSession capacity packet = none := by
  rw [candidate, absent, Option.filter_none]

end Candidate

section Loop

/-- What a receiving loop does to a packet: `candidate` decides whether the packet
reaches the reassembly at all. -/
structure Receives (body : Reassembly format → Packet → Reassembly format × Option Received)
    (candidate : Packet → Option (Datagram format)) (capacity : Nat) : Prop where
  small : ∀ {packet d}, candidate packet = some d → d.totalLength ≤ capacity
  body_eq : ∀ s packet, (∀ o, s.active = some o → o.totalLength ≤ capacity) →
    body s packet = match candidate packet with
      | none => (s, none)
      | some d => s.receive d

variable {body : Reassembly format → Packet → Reassembly format × Option Received}
  {candidate : Packet → Option (Datagram format)} {capacity : Nat}
  {startMs timeoutMs : UInt32}

/-- The datagrams that reach the reassembly before the timeout, in order of arrival. -/
def arrivals (candidate : Packet → Option (Datagram format)) (startMs timeoutMs : UInt32)
    (polls : List Poll) : List (Datagram format) :=
  (polls.takeWhile fun poll => decide (poll.now - startMs < timeoutMs)).filterMap
    fun poll => poll.packet.bind candidate

/-- Where a call that began after `past` stands when it has gone through `polls`. -/
def Stands (output : Nat → UInt8) (past coming : List (Datagram format)) :
    Outcome format → Prop
  | .waiting s => s.Consistent output (past ++ coming) ∧ ¬ s.Complete
  | .timedOut _ => ∃ s : Reassembly format,
      s.Consistent output (past ++ coming) ∧ ¬ s.Complete
  | .delivered received s _ => ∃ taken, taken <+: coming ∧
      s.Consistent output (past ++ taken) ∧ s.Complete ∧
      ∃ o, s.active = some o ∧ received = s.report o

theorem arrivals_cons_before {poll : Poll} (early : poll.now - startMs < timeoutMs)
    (polls : List Poll) :
    arrivals candidate startMs timeoutMs (poll :: polls) =
      (poll.packet.bind candidate).toList ++ arrivals candidate startMs timeoutMs polls := by
  simp only [arrivals, List.takeWhile_cons, early, decide_true, if_true, List.filterMap_cons]
  cases poll.packet.bind candidate with
  | none => rfl
  | some d => rfl

theorem arrivals_cons_after {poll : Poll} (late : ¬ poll.now - startMs < timeoutMs)
    (polls : List Poll) : arrivals candidate startMs timeoutMs (poll :: polls) = [] := by
  simp only [arrivals, List.takeWhile_cons, late, decide_false, Bool.false_eq_true, if_false,
    List.filterMap_nil]

/-- The active message of a consistent state was opened by a datagram within capacity. -/
theorem Reassembly.Consistent.bounded (h : s.Consistent output past)
    (small : ∀ d ∈ past, d.totalLength ≤ capacity) :
    ∀ o, s.active = some o → o.totalLength ≤ capacity := by
  intro o active
  cases past with
  | nil =>
      obtain rfl : s = .initial format output := h
      cases active
  | cons first rest =>
      obtain rfl := Option.some.inj (h.1.symm.trans active)
      exact small first List.mem_cons_self

/-- What holds after one more arrival holds of the arrivals with it in front. -/
theorem Stands.cons {coming : List (Datagram format)} {outcome : Outcome format}
    (h : Stands output (past ++ [d]) coming outcome) :
    Stands output past (d :: coming) outcome := by
  cases outcome with
  | waiting s => simpa only [Stands, List.append_assoc, List.singleton_append] using h
  | timedOut rest => simpa only [Stands, List.append_assoc, List.singleton_append] using h
  | delivered received s rest =>
      obtain ⟨taken, first, consistent, complete⟩ := h
      rw [List.append_assoc, List.singleton_append] at consistent
      exact ⟨d :: taken, List.cons_prefix_cons.mpr ⟨rfl, first⟩, consistent, complete⟩

/-- The run of a whole call: a delivery happens exactly when some prefix of the arrivals
completes the message that the first of them opened. -/
theorem receiveLoop_stands (receives : Receives body candidate capacity) (polls : List Poll)
    (small : ∀ d ∈ past, d.totalLength ≤ capacity)
    (consistent : s.Consistent output past) (incomplete : ¬ s.Complete) :
    Stands output past (arrivals candidate startMs timeoutMs polls)
      (receiveLoop body startMs timeoutMs s polls) := by
  induction polls generalizing past s with
  | nil => exact ⟨by rwa [show arrivals candidate startMs timeoutMs [] = [] from rfl,
      List.append_nil], incomplete⟩
  | cons poll polls ih =>
      rw [receiveLoop]
      by_cases early : poll.now - startMs < timeoutMs
      · rw [if_pos early, arrivals_cons_before early]
        cases poll.packet with
        | none => exact ih small consistent incomplete
        | some packet =>
            have run := receives.body_eq s packet (consistent.bounded small)
            cases found : candidate packet with
            | none =>
                simp only [found] at run
                simp only [run, Option.bind_some, found]
                exact ih small consistent incomplete
            | some d =>
                obtain ⟨next, reported⟩ := consistent.receive incomplete d
                have small' : ∀ e ∈ past ++ [d], e.totalLength ≤ capacity := by
                  intro e mem
                  rcases List.mem_append.mp mem with mem | mem
                  · exact small e mem
                  · rw [List.mem_singleton.mp mem]
                    exact receives.small found
                simp only [found] at run
                simp only [run, Option.bind_some, found, Option.toList_some,
                  List.singleton_append]
                cases result : s.receive d with
                | mk s' answer =>
                    rw [result] at next reported
                    cases answer with
                    | none =>
                        refine (ih small' next fun complete => ?_).cons
                        obtain ⟨o, active, -⟩ := id complete
                        cases (reported (s'.report o)).mpr ⟨complete, o, active, rfl⟩
                    | some received =>
                        obtain ⟨complete, o, active, same⟩ := (reported received).mp rfl
                        exact ⟨[d], List.cons_prefix_cons.mpr ⟨rfl, List.nil_prefix⟩, next,
                          complete, o, active, same⟩
      · rw [if_neg early, arrivals_cons_after early]
        exact ⟨s, by rwa [List.append_nil], incomplete⟩

end Loop

end Transport
