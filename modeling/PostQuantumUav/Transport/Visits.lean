import PostQuantumUav.Transport.Reassembly

/-!
# The states inside a call

A call meets one packet after another. `visits` lists them with the variables as the
loop body finds them, so a property of every step of every call is a property of its
visits. A visited state stands for the arrivals before it and is not complete.
-/

namespace Transport

variable {format : Format}

/-- The variables and packets with which the loop body runs during a call. -/
def visits (body : Reassembly format → Packet → Reassembly format × Option Received)
    (startMs timeoutMs : UInt32) :
    Reassembly format → List Poll → List (Reassembly format × Packet)
  | _, [] => []
  | s, poll :: rest =>
      if poll.now - startMs < timeoutMs then
        match poll.packet with
        | none => visits body startMs timeoutMs s rest
        | some packet =>
            (s, packet) :: match body s packet with
              | (s, none) => visits body startMs timeoutMs s rest
              | (_, some _) => []
      else []

variable {body : Reassembly format → Packet → Reassembly format × Option Received}
  {candidate : Packet → Option (Datagram format)} {capacity : Nat} {startMs timeoutMs : UInt32}
  {output : Nat → UInt8} {past : List (Datagram format)} {s : Reassembly format}

/-- A candidate that does not end the call is one more arrival of an incomplete message. -/
theorem Receives.arrived (receives : Receives body candidate capacity) {packet : Packet}
    {d : Datagram format} (small : ∀ d ∈ past, d.totalLength ≤ capacity)
    (consistent : s.Consistent output past) (incomplete : ¬ s.Complete)
    (found : candidate packet = some d) {s' : Reassembly format}
    (result : body s packet = (s', none)) :
    (∀ e ∈ past ++ [d], e.totalLength ≤ capacity) ∧ s'.Consistent output (past ++ [d]) ∧
      ¬ s'.Complete := by
  have run := receives.body_eq s packet (consistent.bounded small)
  simp only [found] at run
  obtain ⟨next, reported⟩ := consistent.receive incomplete d
  rw [← run, result] at next reported
  refine ⟨?_, next, fun complete => ?_⟩
  · intro e member
    rcases List.mem_append.mp member with earlier | last
    · exact small e earlier
    · rw [List.mem_singleton.mp last]
      exact receives.small found
  · obtain ⟨o, active, -⟩ := id complete
    cases (reported (s'.report o)).mpr ⟨complete, o, active, rfl⟩

/-- Every visited state is that of an incomplete message, after arrivals within capacity. -/
theorem visits_consistent (receives : Receives body candidate capacity) (polls : List Poll)
    (small : ∀ d ∈ past, d.totalLength ≤ capacity) (consistent : s.Consistent output past)
    (incomplete : ¬ s.Complete) :
    ∀ visit ∈ visits body startMs timeoutMs s polls, ∃ later : List (Datagram format),
      (∀ d ∈ past ++ later, d.totalLength ≤ capacity) ∧
        visit.1.Consistent output (past ++ later) ∧ ¬ visit.1.Complete := by
  induction polls generalizing past s with
  | nil => exact nofun
  | cons poll polls ih =>
      rw [visits]
      split
      · cases poll.packet with
        | none => exact ih small consistent incomplete
        | some packet =>
            have now : ∃ later : List (Datagram format),
                (∀ d ∈ past ++ later, d.totalLength ≤ capacity) ∧
                  s.Consistent output (past ++ later) ∧ ¬ s.Complete :=
              ⟨[], by rwa [List.append_nil], by rwa [List.append_nil], incomplete⟩
            refine List.forall_mem_cons.mpr ⟨now, ?_⟩
            cases result : body s packet with
            | mk s' answer =>
                cases answer with
                | some received => exact nofun
                | none =>
                    cases found : candidate packet with
                    | none =>
                        have run := receives.body_eq s packet (consistent.bounded small)
                        simp only [found, result] at run
                        obtain ⟨rfl, -⟩ := Prod.mk.inj run
                        exact ih small consistent incomplete
                    | some d =>
                        obtain ⟨small', next, open_⟩ :=
                          receives.arrived small consistent incomplete found result
                        intro visit member
                        obtain ⟨later, stands⟩ := ih small' next open_ visit member
                        rw [List.append_assoc] at stands
                        exact ⟨[d] ++ later, stands⟩
      · exact nofun

end Transport
