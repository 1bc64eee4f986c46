import PostQuantumUav.Apqe.FragmentedUdp
import PostQuantumUav.Puav.FragmentedUdp
import PostQuantumUav.Transport.Visits

/-!
# Datagrams that are not taken

A datagram whose payload is not copied should change nothing. Most checks stand before
the point where the first datagram fixes the message that is waited for; the check that
the payload ends inside that message stands behind it. The first arrival of a call can
therefore fix a message to which it contributes nothing itself, and that is the only way
in which a datagram that is not taken leaves a trace.
-/

namespace Transport

open Cell

section Visit

variable {format : Format} {body : Reassembly format → Packet → Reassembly format × Option Received}
  {read candidate : Packet → Option (Datagram format)} {capacity : Nat} {startMs timeoutMs : UInt32}
  {output : Nat → UInt8} {s : Reassembly format}

/-- If the packet's payload is not copied and its index was not seen, all variables are
left as they were. -/
def Untouched (body : Reassembly format → Packet → Reassembly format × Option Received)
    (read : Packet → Option (Datagram format)) (s : Reassembly format) (packet : Packet) : Prop :=
  (body s packet).1.copied = s.copied →
    (∀ d, read packet = some d → s.receivedFragments d.fragmentIndex = false) →
    (body s packet).1 = s

/-- The payload of a datagram ends inside the message that it announces. -/
def EndsInside (d : Datagram format) : Prop := d.outputOffset + d.payload.length ≤ d.totalLength

/-- A datagram of an index that was not seen is copied if it fits, and otherwise ignored. -/
theorem take_unseen (s : Reassembly format) (o : Opening) (d : Datagram format)
    (unseen : s.receivedFragments d.fragmentIndex = false) :
    (d.Fits o ∧ (s.take o d).1.copied = s.copied ++ [d]) ∨ (¬ d.Fits o ∧ (s.take o d).1 = s) := by
  rcases s.take_cases o d with ⟨misfit, result⟩ | ⟨fits, result⟩
  · right
    rw [result]
    exact ⟨misfit, rfl⟩
  · left
    rw [result, Reassembly.copy, if_neg (by rw [unseen]; exact Bool.false_ne_true)]
    exact ⟨fits, rfl⟩

theorem take_untouched (s : Reassembly format) (o : Opening) (d : Datagram format)
    (unseen : s.receivedFragments d.fragmentIndex = false)
    (same : (s.take o d).1.copied = s.copied) : (s.take o d).1 = s := by
  obtain ⟨-, copied⟩ | ⟨-, kept⟩ := take_unseen s o d unseen
  · rw [copied] at same
    exact absurd (List.append_right_eq_self.mp same) (List.cons_ne_nil _ _)
  · exact kept

variable (receives : Receives body candidate capacity)
  (reads : ∀ packet d, candidate packet = some d → read packet = some d)

include receives reads

/-- Once a message is fixed, a packet that is not taken changes nothing. -/
theorem untouched_of_active {o : Opening} (active : s.active = some o)
    (bounded : ∀ o, s.active = some o → o.totalLength ≤ capacity) (packet : Packet) :
    Untouched body read s packet := by
  intro same unseen
  have run := receives.body_eq s packet bounded
  cases found : candidate packet with
  | none =>
      rw [found] at run
      rw [run]
  | some d =>
      have taken : s.receive d = s.take o d := by
        rw [Reassembly.receive, active]
      simp only [found] at run
      rw [run, taken] at same ⊢
      exact take_untouched s o d (unseen d (reads packet d found)) same

omit reads in
/-- The arrival that fixes the message leaves no trace exactly when it ends inside it. -/
theorem untouched_initial_iff {packet : Packet} {d : Datagram format}
    (found : candidate packet = some d) :
    Untouched body read (.initial format output) packet ↔ EndsInside d := by
  have run := receives.body_eq (.initial format output) packet nofun
  rw [found] at run
  change _ = ((Reassembly.initial format output).opened d).take d.opening d at run
  have fits : d.Fits d.opening ↔ EndsInside d := ⟨fun h => h.2, fun h => ⟨rfl, h⟩⟩
  have unseen : ((Reassembly.initial format output).opened d).receivedFragments d.fragmentIndex =
    false := rfl
  rw [Untouched, run]
  obtain ⟨inside, copied⟩ | ⟨outside, kept⟩ := take_unseen _ d.opening d unseen
  · rw [copied]
    exact ⟨fun _ => fits.mp inside, fun _ same => by cases same⟩
  · rw [kept]
    constructor
    · intro untouched
      cases untouched rfl fun _ _ => rfl
    · intro inside
      exact absurd (fits.mpr inside) outside

theorem untouched_visits_of_arrivals {past : List (Datagram format)} (polls : List Poll)
    (some_ : past ≠ []) (small : ∀ d ∈ past, d.totalLength ≤ capacity)
    (consistent : s.Consistent output past) (incomplete : ¬ s.Complete) :
    ∀ visit ∈ visits body startMs timeoutMs s polls, Untouched body read visit.1 visit.2 := by
  intro visit member
  obtain ⟨later, small', stands, -⟩ :=
    visits_consistent receives polls small consistent incomplete visit member
  have bounded := stands.bounded small'
  cases past with
  | nil => exact absurd rfl some_
  | cons first rest => exact untouched_of_active receives reads stands.1 bounded visit.2

/-- All visits of a call are free of traces exactly when its first arrival ends inside the
message that it announces. -/
theorem untouched_visits_iff (polls : List Poll) :
    (∀ visit ∈ visits body startMs timeoutMs (.initial format output) polls,
        Untouched body read visit.1 visit.2) ↔
      ∀ d, (arrivals candidate startMs timeoutMs polls).head? = some d → EndsInside d := by
  induction polls with
  | nil =>
      constructor
      · rintro - _ ⟨⟩
      · rintro - _ ⟨⟩
  | cons poll polls ih =>
      rw [visits]
      by_cases early : poll.now - startMs < timeoutMs
      · rw [if_pos early, arrivals_cons_before early]
        cases poll.packet with
        | none => exact ih
        | some packet =>
            have run := receives.body_eq (.initial format output) packet (by rintro _ ⟨⟩)
            rw [List.forall_mem_cons, Option.bind_some]
            cases found : candidate packet with
            | none =>
                rw [found] at run
                rw [run]
                constructor
                · intro all
                  exact ih.mp all.2
                · intro first
                  exact ⟨fun _ _ => congrArg Prod.fst run, ih.mpr first⟩
            | some d =>
                have own := @untouched_initial_iff _ _ read _ _ output receives packet d found
                have head : ∀ rest : List (Datagram format), (∀ e, ((some d).toList ++ rest).head? =
                    some e → EndsInside e) ↔ EndsInside d := by
                  intro rest
                  exact ⟨fun all => all d rfl, by rintro inside _ ⟨⟩; exact inside⟩
                rw [head, own]
                refine ⟨fun all => all.1, fun inside => ⟨inside, ?_⟩⟩
                cases result : body (.initial format output) packet with
                | mk s' answer =>
                    cases answer with
                    | some received => rintro _ ⟨⟩
                    | none =>
                        -- The message is fixed from here on.
                        have start : ¬ (Reassembly.initial format output).Complete := by
                          rintro ⟨o, active, -⟩
                          cases active
                        have none_past : ∀ e ∈ ([] : List (Datagram format)),
                            e.totalLength ≤ capacity := by
                          rintro _ ⟨⟩
                        have fresh : (Reassembly.initial format output).Consistent output [] := rfl
                        obtain ⟨small, next, open_⟩ :=
                          receives.arrived none_past fresh start found result
                        exact untouched_visits_of_arrivals receives reads polls
                          (List.append_ne_nil_of_right_ne_nil _ (List.cons_ne_nil _ _)) small next
                          open_
      · rw [if_neg early, arrivals_cons_after early]
        constructor
        · rintro - _ ⟨⟩
        · rintro - _ ⟨⟩

end Visit

section Receivers

variable (expectedType : UInt8) (expectedSession : UInt32) (output : Nat → UInt8)
  (outputCapacity : Nat) (startMs timeoutMs : UInt32) (polls : List Poll)

/-- In a call of puav's receiver every datagram that is not taken leaves all variables. -/
def PuavUntouched : Prop :=
  ∀ visit ∈ visits (Puav.FragmentedUdp.receiveBody expectedType expectedSession outputCapacity)
      startMs timeoutMs (.initial Puav.FragmentedUdp.format output) polls,
    Untouched (Puav.FragmentedUdp.receiveBody expectedType expectedSession outputCapacity)
      Puav.FragmentedUdp.readOneDatagram visit.1 visit.2

/-- In a call of apqe's receiver every datagram that is not taken leaves all variables. -/
def ApqeUntouched : Prop :=
  ∀ visit ∈ visits (Apqe.FragmentedUdp.receiveBody expectedType expectedSession outputCapacity)
      startMs timeoutMs (.initial Apqe.FragmentedUdp.format output) polls,
    Untouched (Apqe.FragmentedUdp.receiveBody expectedType expectedSession outputCapacity)
      (parse Apqe.FragmentedUdp.format) visit.1 visit.2

/-- Datagrams that are not taken leave no trace in a call of either receiver exactly when
the first datagram that the call waits for ends inside the message that it announces. -/
theorem receivers_untouched_iff :
    (PuavUntouched expectedType expectedSession output outputCapacity startMs timeoutMs polls ↔
      ∀ d, (arrivals (Puav.FragmentedUdp.candidate expectedType expectedSession outputCapacity)
        startMs timeoutMs polls).head? = some d → EndsInside d) ∧
    (ApqeUntouched expectedType expectedSession output outputCapacity startMs timeoutMs polls ↔
      ∀ d, (arrivals (Apqe.FragmentedUdp.candidate expectedType expectedSession outputCapacity)
        startMs timeoutMs polls).head? = some d → EndsInside d) :=
  ⟨untouched_visits_iff (Puav.FragmentedUdp.receives _ _ _)
      (fun _ _ found => (candidate_eq_some_iff.mp found).1) polls,
    untouched_visits_iff (Apqe.FragmentedUdp.receives _ _ _)
      (fun _ _ found => (candidate_eq_some_iff.mp found).1) polls⟩

end Receivers

/-- The second fragment of a message that is announced with three bytes. -/
def outsideFragment (magic : UInt16) : Packet where
  bytes := putU16 magic ++ [1, 0x10] ++ putU32 1 ++ putU16 3 ++ [1, 2] ++ putU16 1 ++ [7]
  source := ⟨0, 4210⟩

/-- One datagram that is not taken fixes the message that a call waits for. -/
theorem outsideFragment_fixes_message :
    ¬ PuavUntouched 0x10 0 (fun _ => 0) 86 0 1000
      [⟨0, some (outsideFragment Puav.fragmentMagic)⟩] ∧
    ¬ ApqeUntouched 0x10 0 (fun _ => 0) 3104 0 1000
      [⟨0, some (outsideFragment Apqe.fragmentMagic)⟩] := by
  refine ⟨fun untouched => ?_, fun untouched => ?_⟩
  · have same := untouched (.initial _ _, outsideFragment Puav.fragmentMagic)
      List.mem_cons_self rfl fun _ _ => rfl
    exact absurd (congrArg (fun s => s.active.isSome) same) (by decide)
  · have same := untouched (.initial _ _, outsideFragment Apqe.fragmentMagic)
      List.mem_cons_self rfl fun _ _ => rfl
    exact absurd (congrArg (fun s => s.active.isSome) same) (by decide)

end Transport
