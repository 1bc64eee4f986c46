import PostQuantumUav.Apqe.ApqeProtocol
import PostQuantumUav.Library.Interaction.Embedding
import PostQuantumUav.Library.Interaction.Total

/-!
# Enrolment and the sessions of an experiment

`enrollCredentials` and the initiator's part of `loop`. Both loops are driven by the
configured number of sessions, of 32 bits; the first counts in 16 bits and the second
narrows its counter to a slot. A loop is unrolled a given number of times, and its
result tells whether it has ended by then.

A session is one call here, since only its number, its slot and its outcome matter to
the loop. The methods that build a credential keep their own calls.
-/

namespace Apqe.ApqeProtocol

open Interaction

namespace Experiment

inductive Call where
  | method (c : ApqeProtocol.Call)
  /-- `m_fabric.putCredential`. -/
  | putCredential (slot : UInt16) (credential : FabricCredential)
  | runInitiatorSession (session : UInt32) (slot : UInt16)

def calls : Signature where
  Call := Call
  Answer
    | .method c => ApqeProtocol.calls.Answer c
    | .putCredential _ _ => Bool
    | .runInitiatorSession _ _ => Bool

abbrev Method (α : Type) := Routine calls ApqeProtocol α

/-- The protocol's own calls. -/
def methods : Embedding ApqeProtocol.calls calls where
  call := .method
  answer _ a := a

end Experiment

section Loops

variable (numberOfSessions : UInt32)

/-- The body of the loop of `enrollCredentials`. -/
def enrollSlot (slot : UInt16) : Experiment.Method Unit := do
  let credential ← Routine.embed Experiment.methods (buildCredential slot)
  Routine.check (@Routine.perform Experiment.calls _ (.putCredential slot credential))

/-- The loop from `slot` on; true when it ends within so many iterations. -/
def enrollLoop : Nat → UInt16 → Experiment.Method Bool
  | 0, _ => pure false
  | iterations + 1, slot =>
      if slot.toUInt32 < numberOfSessions then do
        enrollSlot slot
        enrollLoop iterations (slot + 1)
      else pure true

/-- The key pair under which `enrollCredentials` enrols. -/
def prepareEnrolment : Method Unit := do
  let protocol ← get
  let seed ← protocol.puf.reconstructKyberSeed
  let (publicKey, secretKey) ← @Routine.perform calls _ (.keypairDeterministic seed)
  modify fun protocol => { protocol with publicKey := publicKey, secretKey := secretKey }

def enrollCredentials (iterations : Nat) : Experiment.Method Bool := do
  Routine.embed Experiment.methods prepareEnrolment
  enrollLoop numberOfSessions iterations 0

/-- The loop of `loop` from `index` on, with the successes so far; nothing when it goes on
after so many rounds. -/
def sessionLoop : Nat → UInt32 → UInt32 → Experiment.Method (Option UInt32)
  | 0, _, _ => pure none
  | rounds + 1, index, successes =>
      if index < numberOfSessions then do
        let session := index + 1
        let slot := index.toUInt16
        let ok : Bool ← @Routine.perform Experiment.calls _ (.runInitiatorSession session slot)
        if ok = true then sessionLoop rounds (index + 1) (successes + 1)
        else pure (some successes)
      else pure (some successes)

end Loops

namespace Experiment

/-- The slots that were enrolled, and the sessions that were started with their slots. -/
structure Trial where
  enrolled : List UInt16
  sessions : List (UInt32 × UInt16)

/-- A hash is computed without an error. -/
def Fine : (c : ApqeProtocol.Call) → ApqeProtocol.calls.Answer c → Prop
  | .sha256 _, a => ∃ digest, a = some digest
  | _, _ => True

/-- Enrolments succeed, and a session ends in any way. -/
inductive Answered : World calls Trial
  | method (s : Trial) (c : ApqeProtocol.Call) (a : ApqeProtocol.calls.Answer c) (fine : Fine c a) :
      Answered s ⟨.method c, a⟩ s
  | putCredential (s : Trial) (slot : UInt16) (credential : FabricCredential) :
      Answered s ⟨.putCredential slot credential, true⟩ { s with enrolled := s.enrolled ++ [slot] }
  | runInitiatorSession (s : Trial) (session : UInt32) (slot : UInt16) (ok : Bool) :
      Answered s ⟨.runInitiatorSession session slot, ok⟩
        { s with sessions := s.sessions ++ [(session, slot)] }

/-- The enrolment ends after one iteration for each session and enrols no slot twice, and every
session that is started later has an enrolled slot of its own. -/
def OwnSlots (numberOfSessions : UInt32) : Prop :=
  ∃ iterations, ∀ object, Routine.Total Answered (fun result object' t =>
    result = some true ∧ t.enrolled.length = numberOfSessions.toNat ∧ t.enrolled.Nodup ∧
      ∀ rounds rest u, Program.Exec Answered ((sessionLoop numberOfSessions rounds 0 0).on object')
        t rest u →
        (∀ session ∈ u.sessions, session.2 ∈ u.enrolled) ∧ (u.sessions.map Prod.snd).Nodup)
    (enrollCredentials numberOfSessions iterations) object ⟨[], []⟩

theorem exists_fine : ∀ c, ∃ a, Fine c a
  | .sha256 _ => ⟨some (.replicate _ 0), _, rfl⟩
  | .micros => ⟨(0 : UInt32), trivial⟩
  | .randomBytes => ⟨(.replicate _ 0 : Block), trivial⟩
  | .keypairDeterministic _ => ⟨(⟨.replicate _ 0, .replicate _ 0⟩ : PublicKey × SecretKey), trivial⟩
  | .encrypt _ _ _ => ⟨(.replicate _ 0 : Ciphertext), trivial⟩
  | .decrypt _ _ => ⟨(.replicate _ 0 : Block), trivial⟩
  | .queryByIdentitySlot _ _ usage => ⟨((none, usage) : _ × GatewayUsage), trivial⟩
  | .queryByTid _ usage => ⟨((none, usage) : _ × GatewayUsage), trivial⟩
  | .sendMessage _ _ _ _ => ⟨(none : Option UInt32), trivial⟩
  | .receiveMessage _ _ _ _ => ⟨((none, []) : _ × Bytes), trivial⟩

theorem responsive : Answered.Responsive := by
  intro s c
  cases c with
  | method c =>
      obtain ⟨a, fine⟩ := exists_fine c
      exact ⟨a, s, .method s c a fine⟩
  | putCredential slot credential => exact ⟨true, _, .putCredential s slot credential⟩
  | runInitiatorSession session slot => exact ⟨true, _, .runInitiatorSession s session slot true⟩

section Methods

variable {α : Type} {object : ApqeProtocol} {s : Trial}

/-- The method succeeds and leaves the trial as it is. -/
def Succeeds (r : ApqeProtocol.Method α) : Prop :=
  ∀ object s, Routine.Ensures (Answered.pull methods) (fun _ => True)
    (fun result _ t => (∃ a, result = some a) ∧ t = s) r object s

theorem succeeds_pure (a : α) : Succeeds (pure a) := fun _ _ => ⟨⟨a, rfl⟩, rfl⟩

theorem Succeeds.bind {β : Type} {r : ApqeProtocol.Method α} {f : α → ApqeProtocol.Method β}
    (first : Succeeds r) (second : ∀ a, Succeeds (f a)) : Succeeds (r >>= f) := by
  intro object s
  refine (first object s).bind ?_ ?_
  · rintro _ _ ⟨⟨_, none⟩, _⟩
    cases none
  · rintro a object' _ ⟨_, rfl⟩
    exact second a object' _

theorem succeeds_get : Succeeds get := fun object _ => ⟨⟨object, rfl⟩, rfl⟩

theorem succeeds_modify (f : ApqeProtocol → ApqeProtocol) : Succeeds (modify f) :=
  fun _ _ => ⟨⟨.unit, rfl⟩, rfl⟩

/-- No call of a method changes the trial. -/
theorem succeeds_perform (c : ApqeProtocol.Call) :
    Succeeds (@Routine.perform ApqeProtocol.calls _ c) := by
  rintro object s a t ⟨answer, answered, _⟩
  cases answered
  exact ⟨trivial, ⟨a, rfl⟩, rfl⟩

theorem succeeds_sha256 (data : Bytes) : Succeeds (ApqeProtocol.sha256 data) := by
  rintro object s a t ⟨answer, answered, same⟩
  cases answered with
  | method _ _ _ fine =>
      obtain ⟨digest, rfl⟩ := fine
      obtain rfl : some digest = a := same
      exact ⟨trivial, ⟨digest, rfl⟩, rfl⟩

theorem succeeds_reversibleMap (puf : SoftwarePuf) (secretKey : SecretKey) (challenge : Block) :
    Succeeds (puf.reversibleMap secretKey challenge) :=
  Succeeds.bind ((succeeds_sha256 _).bind fun _ => succeeds_sha256 _) fun _ => succeeds_pure _

theorem succeeds_buildCredential (slot : UInt16) : Succeeds (buildCredential slot) := by
  refine succeeds_get.bind fun protocol => ?_
  refine Succeeds.bind (succeeds_get.bind fun _ => succeeds_sha256 _) fun challenge => ?_
  refine (succeeds_reversibleMap _ _ _).bind fun tid => ?_
  refine (succeeds_sha256 _).bind fun challengeHash => ?_
  exact (succeeds_sha256 _).bind fun verifyHash => succeeds_pure _

theorem succeeds_prepareEnrolment : Succeeds prepareEnrolment :=
  succeeds_get.bind fun _ => (succeeds_sha256 _).bind fun _ =>
    (succeeds_perform _).bind fun _ => succeeds_modify _

end Methods

section Enrolled

variable {numberOfSessions : UInt32}

/-- An iteration adds its slot to the enrolled ones. -/
theorem ensures_enrollSlot (slot : UInt16) (object : ApqeProtocol) (s : Trial) :
    Routine.Ensures Answered (fun _ => True) (fun result _ t =>
      result = some () ∧ t = { s with enrolled := s.enrolled ++ [slot] })
      (enrollSlot slot) object s := by
  refine Routine.Ensures.bind (Routine.Ensures.embed (succeeds_buildCredential slot object s)) ?_ ?_
  · rintro _ _ ⟨⟨_, none⟩, _⟩
    cases none
  · rintro credential object' _ ⟨_, rfl⟩
    apply Routine.ensures_check.mpr
    rintro a t answered
    cases answered
    exact ⟨trivial, rfl, rfl⟩

/-- The slots of the first iterations. -/
def slotsUpTo (k : Nat) : List UInt16 := (List.range k).map UInt16.ofNat

theorem slotsUpTo_succ (k : Nat) : slotsUpTo (k + 1) = slotsUpTo k ++ [.ofNat k] := by
  rw [slotsUpTo, List.range_succ, List.map_append]
  rfl

theorem toNat_slot (k : Nat) : (UInt16.ofNat k).toUInt32.toNat = k % 2 ^ 16 := by
  rw [UInt16.toNat_toUInt32, UInt16.toNat_ofNat']

/-- A bound that fits into the counter of slots ends the loop. -/
theorem ensures_enrollLoop (fits : numberOfSessions.toNat < 2 ^ 16) {iterations k : Nat}
    (le : k ≤ numberOfSessions.toNat) (enough : numberOfSessions.toNat < k + iterations)
    (object : ApqeProtocol) {s : Trial} (enrolled : s.enrolled = slotsUpTo k) :
    Routine.Ensures Answered (fun _ => True) (fun result _ t =>
      result = some true ∧ t = { s with enrolled := slotsUpTo numberOfSessions.toNat })
      (enrollLoop numberOfSessions iterations (.ofNat k)) object s := by
  induction iterations generalizing k object s with
  | zero => omega
  | succ iterations ih =>
      rw [enrollLoop]
      have small : k < 2 ^ 16 := Nat.lt_of_le_of_lt le fits
      have slot : (UInt16.ofNat k).toUInt32.toNat = k := by
        rw [toNat_slot, Nat.mod_eq_of_lt small]
      refine Routine.ensures_ite.mpr ⟨fun continues => ?_, fun stops => ?_⟩
      · rw [UInt32.lt_iff_toNat_lt, slot] at continues
        refine (ensures_enrollSlot _ object s).bind ?_ ?_
        · rintro _ _ ⟨none, _⟩
          cases none
        · rintro _ object' _ ⟨_, rfl⟩
          have next : UInt16.ofNat k + 1 = .ofNat (k + 1) := (UInt16.ofNat_add k 1).symm
          rw [next]
          have added : s.enrolled ++ [.ofNat k] = slotsUpTo (k + 1) := by
            rw [enrolled, slotsUpTo_succ]
          exact ih (k := k + 1) (s := ⟨s.enrolled ++ [.ofNat k], s.sessions⟩) continues (by omega)
            object' added
      · rw [UInt32.lt_iff_toNat_lt, slot] at stops
        have reached : k = numberOfSessions.toNat := by omega
        refine ⟨rfl, ?_⟩
        rw [← reached, ← enrolled]

/-- A larger bound is never reached: the counter wraps before it. -/
theorem ensures_enrollLoop_endless (large : 2 ^ 16 ≤ numberOfSessions.toNat) (iterations : Nat)
    (slot : UInt16) (object : ApqeProtocol) (s : Trial) :
    Routine.Ensures Answered (fun _ => True) (fun result _ _ => result = some false)
      (enrollLoop numberOfSessions iterations slot) object s := by
  induction iterations generalizing slot object s with
  | zero => rfl
  | succ iterations ih =>
      have below : slot.toUInt32 < numberOfSessions := by
        rw [UInt32.lt_iff_toNat_lt, UInt16.toNat_toUInt32]
        exact Nat.lt_of_lt_of_le slot.toNat_lt large
      rw [enrollLoop, if_pos below]
      refine (ensures_enrollSlot _ object s).bind ?_ ?_
      · rintro _ _ ⟨none, _⟩
        cases none
      · rintro _ object' t _
        exact ih _ object' t

/-- The pairs that `loop` starts, in order. -/
def startedUpTo (k : Nat) : List (UInt32 × UInt16) :=
  (List.range k).map fun i => (.ofNat (i + 1), .ofNat i)

theorem startedUpTo_succ (k : Nat) :
    startedUpTo (k + 1) = startedUpTo k ++ [(.ofNat (k + 1), .ofNat k)] := by
  rw [startedUpTo, List.range_succ, List.map_append]
  rfl

theorem slots_startedUpTo (k : Nat) : (startedUpTo k).map Prod.snd = slotsUpTo k := by
  rw [startedUpTo, List.map_map]
  rfl

/-- What holds at every moment of `loop`. -/
def Started (numberOfSessions : UInt32) (enrolled : List UInt16) (s : Trial) : Prop :=
  s.enrolled = enrolled ∧ ∃ k ≤ numberOfSessions.toNat, s.sessions = startedUpTo k

theorem ensures_sessionLoop {enrolled : List UInt16} (rounds k : Nat)
    (le : k ≤ numberOfSessions.toNat) (successes : UInt32) (object : ApqeProtocol) {s : Trial}
    (kept : s.enrolled = enrolled) (started : s.sessions = startedUpTo k) :
    Routine.Ensures Answered (Started numberOfSessions enrolled) (fun _ _ _ => True)
      (sessionLoop numberOfSessions rounds (.ofNat k) successes) object s := by
  induction rounds generalizing k successes object s with
  | zero => trivial
  | succ rounds ih =>
      rw [sessionLoop]
      refine Routine.ensures_ite.mpr ⟨fun continues => ?_, fun _ => trivial⟩
      have small : k < 2 ^ 32 := Nat.lt_of_le_of_lt le numberOfSessions.toNat_lt
      have index : (UInt32.ofNat k).toNat = k := by
        rw [UInt32.toNat_ofNat', Nat.mod_eq_of_lt small]
      have next : UInt32.ofNat k + 1 = .ofNat (k + 1) := (UInt32.ofNat_add k 1).symm
      have slot : (UInt32.ofNat k).toUInt16 = .ofNat k := by
        rw [← UInt16.toNat_inj, UInt32.toNat_toUInt16, index, UInt16.toNat_ofNat']
      rw [UInt32.lt_iff_toNat_lt, index] at continues
      rw [next, slot]
      refine Routine.Ensures.perform fun (ok : Bool) t answered => ?_
      cases answered
      have now : s.sessions ++ [(.ofNat (k + 1), .ofNat k)] = startedUpTo (k + 1) := by
        rw [started, startedUpTo_succ]
      refine ⟨⟨kept, k + 1, continues, now⟩, ?_⟩
      refine Routine.ensures_ite.mpr ⟨fun _ => ?_, fun _ => trivial⟩
      exact ih (k + 1) continues _ object kept now

/-- Slots below the counter's range are different. -/
theorem nodup_slotsUpTo {k : Nat} (fits : k ≤ 2 ^ 16) : (slotsUpTo k).Nodup := by
  refine List.Nodup.map_on ?_ List.nodup_range
  intro i below j below' same
  have numbers := congrArg UInt16.toNat same
  rw [UInt16.toNat_ofNat', UInt16.toNat_ofNat'] at numbers
  rw [List.mem_range] at below below'
  omega

theorem slotsUpTo_subset {k n : Nat} (le : k ≤ n) : slotsUpTo k ⊆ slotsUpTo n :=
  List.map_subset _ (List.range_subset.mpr le)

theorem ownSlots_of_fits (fits : numberOfSessions.toNat < 2 ^ 16) : OwnSlots numberOfSessions := by
  refine ⟨numberOfSessions.toNat + 1, fun object => Routine.Ensures.total ?_ responsive⟩
  refine Routine.Ensures.bind (Routine.Ensures.embed (succeeds_prepareEnrolment object _)) ?_ ?_
  · rintro _ _ ⟨⟨_, none⟩, _⟩
    cases none
  rintro _ object' _ ⟨_, rfl⟩
  refine (@ensures_enrollLoop numberOfSessions fits _ 0 (Nat.zero_le _) (by omega) object'
    ⟨[], []⟩ rfl).mono ?_
  rintro _ last _ ⟨rfl, rfl⟩
  refine ⟨rfl, ?_, nodup_slotsUpTo (Nat.le_of_lt fits), fun rounds rest u run => ?_⟩
  · rw [slotsUpTo, List.length_map, List.length_range]
  have started := (run.ensures (ensures_sessionLoop rounds 0 (Nat.zero_le _) 0 last rfl rfl)
    ⟨rfl, 0, Nat.zero_le _, rfl⟩).1
  obtain ⟨enrolled, k, le, sessions⟩ := started
  rw [sessions, slots_startedUpTo, enrolled]
  refine ⟨fun session member => ?_, nodup_slotsUpTo (by omega)⟩
  refine slotsUpTo_subset le ?_
  rw [← slots_startedUpTo]
  exact List.mem_map_of_mem member

deriving instance Inhabited for Transport.Endpoint, NodeConfig, SoftwarePuf, SessionMetrics,
  FabricCredential, ApqeProtocol

theorem not_ownSlots_of_large (large : 2 ^ 16 ≤ numberOfSessions.toNat) :
    ¬ OwnSlots numberOfSessions := by
  rintro ⟨iterations, ends⟩
  obtain ⟨⟨result, object', t, run⟩, ended⟩ := ends default
  have endless : Routine.Ensures Answered (fun _ => True) (fun result _ _ => result = some false)
      (enrollCredentials numberOfSessions iterations) default ⟨[], []⟩ := by
    refine Routine.Ensures.bind (Routine.Ensures.embed (succeeds_prepareEnrolment _ _)) ?_ ?_
    · rintro _ _ ⟨⟨_, none⟩, _⟩
      cases none
    · rintro _ object t _
      exact ensures_enrollLoop_endless large iterations 0 object t
  have continues := endless.post_of_run run trivial
  rw [(ended result object' t run).1] at continues
  cases continues

end Enrolled

/-- The first bound that the counter of slots does not reach. -/
theorem endless_enrolment : ¬ OwnSlots 65536 := not_ownSlots_of_large (by decide)

/-- Every session has an enrolled slot of its own exactly when the number of sessions fits into
sixteen bits. -/
theorem ownSlots_iff (numberOfSessions : UInt32) :
    OwnSlots numberOfSessions ↔ numberOfSessions ≤ 65535 := by
  have fits : numberOfSessions ≤ 65535 ↔ numberOfSessions.toNat < 2 ^ 16 := by
    rw [UInt32.le_iff_toNat_le]
    exact Nat.lt_succ_iff.symm
  rw [fits]
  refine ⟨fun own => ?_, ownSlots_of_fits⟩
  by_contra large
  exact not_ownSlots_of_large (Nat.not_lt.mp large) own

end Experiment

end Apqe.ApqeProtocol
