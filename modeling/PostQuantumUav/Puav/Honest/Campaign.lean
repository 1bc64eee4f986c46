import PostQuantumUav.Puav.Honest.Enrolled
import PostQuantumUav.Puav.Honest.Experiment

/-!
# A whole experiment

Two enrolled boards run as many sessions as the initiator is configured for, with new nonces,
keys and randomizers in each. Every session succeeds, and uses the next index of either
board, as long as both have enough of them.
-/

namespace Puav

open Interaction Cell Buffer ProposedUavProtocol Party Experiment

variable {κ : Type}

/-- What a board draws in a session. -/
structure Draws (κ : Type) where
  random : UInt32
  nonce : Nonce UInt8
  key : κ
  randomizer : Digest

namespace Handshake

variable {α : Type} [Cell α] (h : Handshake α κ) (record : List α)

theorem confirmed_of_finishes : .noted .tauBVerified h.view ∈ h.finishes record := by
  simp [finishes, confirms]

theorem accepted_of_accepts : .noted .accepted h.view ∈ h.accepts record := by
  simp [accepts]

theorem hasSigned_finishes : HasSigned (h.finishes record) :=
  ⟨h.objectA.toList, by simp [finishes, confirms, offers]⟩

theorem hasSigned_accepts : HasSigned (h.accepts record) :=
  ⟨h.objectB.toList, by simp [accepts, answers]⟩

end Handshake

namespace Board

variable {library : Library κ}

/-- The board before another session. -/
def redrawn (board : Board library) (draws : Draws κ) (nextQ : UInt32)
    (unused : ¬ (nextQ < board.config.firstQ ∨
      nextQ ≥ board.config.firstQ + board.config.numberOfSessions ∨ nextQ ≥ .ofNat lmsLeaves)) :
    Board library :=
  { board with
    random := draws.random
    nonce := draws.nonce
    key := draws.key
    nextQ := nextQ
    randomizer := draws.randomizer
    unused := unused }

/-- The calls of the board in a session that starts with an index. -/
def deviceIn (board peer : Board library) (draws : Nat → Draws κ) (session : Nat) (nextQ : UInt32) :
    HonestDevice UInt8 κ :=
  { board.device peer with
    random := (draws session).random
    nonce := (draws session).nonce
    key := (draws session).key
    nextQ := nextQ
    sign := fun q message runtimeSeed => Hashing.eval library.sha
      (board.lms.sign q.toNat message runtimeSeed (draws session).randomizer) }

/-- The board has indices for so many sessions. -/
structure Spare (board : Board library) (count : Nat) : Prop where
  first : board.config.firstQ ≤ board.nextQ
  range : board.nextQ.toNat + count ≤
    board.config.firstQ.toNat + board.config.numberOfSessions.toNat
  leaves : board.config.firstQ.toNat + board.config.numberOfSessions.toNat ≤ lmsLeaves

theorem Spare.unused {board : Board library} {count k : Nat} (spare : board.Spare count)
    (inside : k < count) : ¬ (board.nextQ + .ofNat k < board.config.firstQ ∨
      board.nextQ + .ofNat k ≥ board.config.firstQ + board.config.numberOfSessions ∨
      board.nextQ + .ofNat k ≥ .ofNat lmsLeaves) := by
  have first := UInt32.le_iff_toNat_le.mp spare.first
  have range := spare.range
  have leaves : board.config.firstQ.toNat + board.config.numberOfSessions.toNat ≤ 1024 :=
    spare.leaves
  have index : (board.nextQ + .ofNat k).toNat = board.nextQ.toNat + k := by
    rw [UInt32.toNat_add, UInt32.toNat_ofNat', Nat.mod_eq_of_lt (a := k), Nat.mod_eq_of_lt]
    all_goals omega
  have last : (board.config.firstQ + board.config.numberOfSessions).toNat =
      board.config.firstQ.toNat + board.config.numberOfSessions.toNat := by
    rw [UInt32.toNat_add, Nat.mod_eq_of_lt]
    omega
  have all : (UInt32.ofNat lmsLeaves).toNat = 1024 := rfl
  simp only [ge_iff_le, UInt32.lt_iff_toNat_lt, UInt32.le_iff_toNat_le, index, last, all]
  omega

section Session

variable {a b : Board library} (paired : Paired a b) (drawsA drawsB : Nat → Draws κ) (k : Nat)
  {qA qB : UInt32}
  (unusedA : ¬ (qA < a.config.firstQ ∨ qA ≥ a.config.firstQ + a.config.numberOfSessions ∨
    qA ≥ .ofNat lmsLeaves))
  (unusedB : ¬ (qB < b.config.firstQ ∨ qB ≥ b.config.firstQ + b.config.numberOfSessions ∨
    qB ≥ .ofNat lmsLeaves))

include paired unusedA unusedB

theorem exists_handshakeIn : ∃ h : Handshake UInt8 κ, h.primitives = library.primitives ∧
    h.initiator = a.deviceIn b drawsA k qA ∧ h.responder = b.deviceIn a drawsB k qB ∧ h.Honest :=
  @exists_handshake κ library (a.redrawn (drawsA k) qA unusedA) (b.redrawn (drawsB k) qB unusedB)
    ⟨paired.initiates, paired.responds, paired.modes, paired.peerA, paired.peerB, paired.versionA,
      paired.versionB, paired.expiryA, paired.expiryB⟩

variable {objectA objectB : ProposedUavProtocol UInt8 κ} (configA : objectA.config = a.config)
  (recordA : objectA.peerRecord = b.published) (configB : objectB.config = b.config)
  (recordB : objectB.peerRecord = a.published)

include configA recordA configB recordB

/-- One session of an experiment. -/
theorem session_agrees {resultA resultB : Option (View UInt8)}
    {lastA lastB : ProposedUavProtocol UInt8 κ} {partyA partyB : Party UInt8}
    (initiates : Routine.Run
      (Transported library.primitives (a.deviceIn b drawsA k qA) (Handshake.mailbox partyB))
      runInitiatorSession objectA [] resultA lastA partyA)
    (responds : Routine.Run
      (Transported library.primitives (b.deviceIn a drawsB k qB) (Handshake.mailbox partyA))
      runResponderOnce objectB [] resultB lastB partyB) :
    ∃ view, resultA = some view ∧ .noted .tauBVerified view ∈ partyA ∧
      .noted .accepted view ∈ partyB ∧ HasSigned partyA ∧ HasSigned partyB := by
  obtain ⟨⟨primitives, initiator, responder, signatureA, signatureB, pathA, pathB⟩, rfl, rfl, rfl,
    honest⟩ := exists_handshakeIn paired drawsA drawsB k unusedA unusedB
  have servesA := @transported_serves _ library.primitives (a.deviceIn b drawsA k qA) paired.expiryB
  have servesB := @transported_serves _ library.primitives (b.deviceIn a drawsB k qB) paired.expiryA
  obtain ⟨ended, -, ⟨record, -, rfl, rfl⟩, -⟩ := honest.exchange_agrees configA recordA configB
    recordB servesA servesB ⟨resultA, lastA, partyA, resultB, lastB, partyB, initiates, responds⟩
  exact ⟨_, ended, Handshake.confirmed_of_finishes _ record, Handshake.accepted_of_accepts _ record,
    Handshake.hasSigned_finishes _ record, Handshake.hasSigned_accepts _ record⟩

/-- There is such a session. -/
theorem exists_session : ∃ view lastA partyA lastB partyB,
    Routine.Run
        (Transported library.primitives (a.deviceIn b drawsA k qA) (Handshake.mailbox partyB))
        runInitiatorSession objectA [] (some view) lastA partyA ∧
      Routine.Run
        (Transported library.primitives (b.deviceIn a drawsB k qB) (Handshake.mailbox partyA))
        runResponderOnce objectB [] (some view) lastB partyB := by
  obtain ⟨⟨primitives, initiator, responder, signatureA, signatureB, pathA, pathB⟩, rfl, rfl, rfl,
    honest⟩ := exists_handshakeIn paired drawsA drawsB k unusedA unusedB
  have servesA := @transported_serves _ library.primitives (a.deviceIn b drawsA k qA) paired.expiryB
  have servesB := @transported_serves _ library.primitives (b.deviceIn a drawsB k qB) paired.expiryA
  obtain ⟨record, lastA, lastB, -, initiates, responds⟩ :=
    honest.exists_runs configA recordA configB recordB servesA servesB
  exact ⟨_, lastA, _, lastB, _, initiates, responds⟩

end Session

/-- The worlds of a board's sessions with what the other side did in each of them. -/
def worlds (board peer : Board library) (draws : Nat → Draws κ) (others : Nat → Party UInt8) :
    Worlds UInt8 κ := fun session nextQ =>
  Transported library.primitives (board.deviceIn peer draws session nextQ)
    (Handshake.mailbox (others session))

theorem plays (board peer : Board library) (draws : Nat → Draws κ)
    (others : Nat → Party UInt8) : Plays library.primitives (board.deviceIn peer draws)
      (fun session => Handshake.mailbox (others session)) (board.worlds peer draws others) where
  answered step := step.answered
  stored _ _ := rfl

section Rounds

/-- Both sides after so many sessions. -/
structure Round (a b : Board library) (k : Nat) (objectA objectB : ProposedUavProtocol UInt8 κ)
    (endedA endedB : List (Party UInt8)) : Prop where
  configA : objectA.config = a.config
  recordA : objectA.peerRecord = b.published
  configB : objectB.config = b.config
  recordB : objectB.peerRecord = a.published
  lengthA : endedA.length = k
  lengthB : endedB.length = k

/-- The loop of the initiator goes on when a session is left, and ends when none is. -/
theorem round_le {numberOfSessions : UInt32} {k : Nat}
    (bounded : numberOfSessions.toNat ≤ lmsLeaves) (within : k ≤ numberOfSessions.toNat) :
    .ofNat (k + 1) ≤ numberOfSessions ↔ k < numberOfSessions.toNat := by
  have leaves : numberOfSessions.toNat ≤ 1024 := bounded
  rw [UInt32.le_iff_toNat_le, UInt32.toNat_ofNat', Nat.mod_eq_of_lt (by omega)]
  exact Nat.succ_le_iff

theorem ofNat_succ (k : Nat) : UInt32.ofNat (k + 1) = .ofNat k + 1 := UInt32.ofNat_add k 1

variable {a b : Board library} (paired : Paired a b) (drawsA drawsB : Nat → Draws κ)
  (spareA : a.Spare a.config.numberOfSessions.toNat)
  (spareB : b.Spare a.config.numberOfSessions.toNat)

include paired spareA spareB

/-- The sessions that are left end on both sides in agreement. -/
theorem rounds_agree {othersA othersB : Nat → Party UInt8}
    {sideA sideB : Side UInt8} {lastA lastB : ProposedUavProtocol UInt8 κ} {resultB : Option Unit}
    (seenA : ∀ k, othersA k = sideA.ended.getD k [])
    (seenB : ∀ k, othersB k = sideB.ended.getD k []) (m : Nat) :
    ∀ {k : Nat} {successful : UInt32} {result : Option (Option UInt32)}
      {objectA objectB : ProposedUavProtocol UInt8 κ} {endedA endedB : List (Party UInt8)},
      k + m = a.config.numberOfSessions.toNat → Round a b k objectA objectB endedA endedB →
      Routine.Run (Answered (a.worlds b drawsA othersB))
        (experimentLoop a.config.numberOfSessions (m + 1) (.ofNat (k + 1)) successful) objectA
        (.before endedA (a.nextQ + .ofNat k)) result lastA sideA →
      Routine.Run (Answered (b.worlds a drawsB othersA)) (responderLoop m) objectB
        (.before endedB (b.nextQ + .ofNat k)) resultB lastB sideB →
      result = some (some (successful + .ofNat m)) ∧
        sideA.nextQ = a.nextQ + .ofNat (k + m) ∧ sideB.nextQ = b.nextQ + .ofNat (k + m) ∧
        ∀ j, k ≤ j → j < k + m → ∃ view, .noted .tauBVerified view ∈ sideA.ended.getD j [] ∧
          .noted .accepted view ∈ sideB.ended.getD j [] := by
  have bounded : a.config.numberOfSessions.toNat ≤ lmsLeaves :=
    (Nat.le_add_left _ _).trans spareA.leaves
  induction m with
  | zero =>
      intro k successful result objectA objectB endedA endedB total round initiates responds
      rw [experimentLoop, if_neg] at initiates
      · obtain ⟨rfl, -, rfl⟩ := initiates.of_pure
        obtain ⟨-, -, rfl⟩ := responds.of_pure
        refine ⟨by simp, rfl, rfl, fun j from' upTo => ?_⟩
        omega
      · rw [round_le bounded (by omega)]
        omega
  | succ m ih =>
      intro k successful result objectA objectB endedA endedB total round initiates responds
      obtain ⟨configA, recordA, configB, recordB, lengthA, lengthB⟩ := round
      obtain ⟨resultA, middleA, betweenA, sessionA, restA⟩ :=
        of_experimentLoop ((round_le bounded (by omega)).mpr (by omega)) initiates
      obtain ⟨resultB', middleB, betweenB, sessionB, restB⟩ := of_responderLoop responds
      obtain ⟨ownA, ⟨sameA, peerA⟩, endedA', raisedA⟩ :=
        session_on_side (a.plays b drawsA othersB) .initiator sessionA
      obtain ⟨ownB, ⟨sameB, peerB⟩, endedB', raisedB⟩ :=
        session_on_side (b.plays a drawsB othersA) .responder sessionB
      have partyA := getD_of_run restA
      have partyB := getD_of_run restB
      rw [endedA', lengthA, ← seenA] at partyA
      rw [endedB', lengthB, ← seenB] at partyB
      rw [lengthA, worlds, partyB] at ownA
      rw [lengthB, worlds, partyA] at ownB
      obtain ⟨view, rfl, verified, accepted, signedA, signedB⟩ :=
        session_agrees paired drawsA drawsB k (spareA.unused (by omega)) (spareB.unused (by omega))
          configA recordA configB recordB ownA ownB
      rw [raisedA signedA, endedA', UInt32.add_assoc, ← ofNat_succ, ← ofNat_succ] at restA
      rw [raisedB signedB, endedB', UInt32.add_assoc, ← ofNat_succ] at restB
      obtain ⟨counted, indexA, indexB, agree⟩ := ih (k := k + 1) (by omega)
        ⟨sameA.trans configA, peerA.trans recordA, sameB.trans configB, peerB.trans recordB,
          by simp [lengthA], by simp [lengthB]⟩ restA restB
      refine ⟨?_, ?_, ?_, fun j from' upTo => ?_⟩
      · rw [counted]
        simp [ofNat_succ, UInt32.add_assoc, UInt32.add_comm]
      · rw [indexA]
        congr 2
        omega
      · rw [indexB]
        congr 2
        omega
      · rcases Nat.eq_or_lt_of_le from' with rfl | later
        · rw [← seenA, ← seenB, partyA, partyB]
          exact ⟨view, verified, accepted⟩
        · exact agree j later (by omega)

/-- One more session. What either side does in it is fixed before the worlds are, since each world
shows one side what the other one did. -/
theorem exists_round {k : Nat} {objectA objectB : ProposedUavProtocol UInt8 κ}
    {endedA endedB : List (Party UInt8)} (left : k < a.config.numberOfSessions.toNat)
    (round : Round a b k objectA objectB endedA endedB) :
    ∃ view middleA middleB partyA partyB,
      Round a b (k + 1) middleA middleB (endedA ++ [partyA]) (endedB ++ [partyB]) ∧
      (∀ othersB : Nat → Party UInt8, othersB k = partyB →
        Routine.Run (sessionWorld (a.worlds b drawsA othersB)) runInitiatorSession objectA
          (.before endedA (a.nextQ + .ofNat k)) (some view) middleA
          ⟨endedA, partyA, a.nextQ + .ofNat k, a.nextQ + .ofNat (k + 1)⟩) ∧
      ∀ othersA : Nat → Party UInt8, othersA k = partyA →
        Routine.Run (sessionWorld (b.worlds a drawsB othersA)) runResponderOnce objectB
          (.before endedB (b.nextQ + .ofNat k)) (some view) middleB
          ⟨endedB, partyB, b.nextQ + .ofNat k, b.nextQ + .ofNat (k + 1)⟩ := by
  obtain ⟨configA, recordA, configB, recordB, lengthA, lengthB⟩ := round
  have unusedA := spareA.unused left
  have unusedB := spareB.unused left
  obtain ⟨view, middleA, partyA, middleB, partyB, ownA, ownB⟩ :=
    exists_session paired drawsA drawsB k unusedA unusedB configA recordA configB recordB
  obtain ⟨-, -, -, -, signedA, signedB⟩ := session_agrees paired drawsA drawsB k unusedA unusedB
    configA recordA configB recordB ownA ownB
  have sideA : ∀ othersB : Nat → Party UInt8, othersB k = partyB →
      Routine.Run (sessionWorld (a.worlds b drawsA othersB)) runInitiatorSession objectA
          (.before endedA (a.nextQ + .ofNat k)) (some view) middleA
          ⟨endedA, partyA, a.nextQ + .ofNat k, a.nextQ + .ofNat k + 1⟩ ∧
        middleA.config = objectA.config ∧ middleA.peerRecord = objectA.peerRecord := by
    rintro othersB rfl
    subst lengthA
    exact run_on_side (a.plays b drawsA othersB) .initiator endedA ownA signedA
  have sideB : ∀ othersA : Nat → Party UInt8, othersA k = partyA →
      Routine.Run (sessionWorld (b.worlds a drawsB othersA)) runResponderOnce objectB
          (.before endedB (b.nextQ + .ofNat k)) (some view) middleB
          ⟨endedB, partyB, b.nextQ + .ofNat k, b.nextQ + .ofNat k + 1⟩ ∧
        middleB.config = objectB.config ∧ middleB.peerRecord = objectB.peerRecord := by
    rintro othersA rfl
    subst lengthB
    exact run_on_side (b.plays a drawsB othersA) .responder endedB ownB signedB
  obtain ⟨-, sameA, peerA⟩ := sideA (fun _ => partyB) rfl
  obtain ⟨-, sameB, peerB⟩ := sideB (fun _ => partyA) rfl
  refine ⟨view, middleA, middleB, partyA, partyB, ⟨sameA.trans configA, peerA.trans recordA,
    sameB.trans configB, peerB.trans recordB, by simp [lengthA], by simp [lengthB]⟩, ?_, ?_⟩
  · intro othersB shown
    rw [ofNat_succ, ← UInt32.add_assoc]
    exact (sideA othersB shown).1
  · intro othersA shown
    rw [ofNat_succ, ← UInt32.add_assoc]
    exact (sideB othersA shown).1

omit paired spareA spareB in
/-- What is shown of all sessions is shown of the next one and of those after it. -/
theorem shown_cons {others : Nat → Party UInt8} {party : Party UInt8} {parties : List (Party UInt8)}
    {k m : Nat} (shown : ∀ j < m + 1, others (k + j) = (party :: parties).getD j []) :
    others k = party ∧ ∀ j < m, others (k + 1 + j) = parties.getD j [] := by
  refine ⟨shown 0 (Nat.succ_pos m), fun j within => ?_⟩
  rw [Nat.add_assoc, Nat.add_comm 1]
  exact shown (j + 1) (Nat.succ_lt_succ within)

/-- There are sessions to the end. -/
theorem exists_rounds (m : Nat) : ∀ {k : Nat} {objectA objectB : ProposedUavProtocol UInt8 κ}
      {endedA endedB : List (Party UInt8)}, k + m = a.config.numberOfSessions.toNat →
      Round a b k objectA objectB endedA endedB →
      ∃ lastA lastB partiesA partiesB, partiesA.length = m ∧ partiesB.length = m ∧
        ∀ (othersA othersB : Nat → Party UInt8) (successful : UInt32),
          (∀ j < m, othersA (k + j) = partiesA.getD j []) →
          (∀ j < m, othersB (k + j) = partiesB.getD j []) →
          Routine.Run (Answered (a.worlds b drawsA othersB))
              (experimentLoop a.config.numberOfSessions (m + 1) (.ofNat (k + 1)) successful) objectA
              (.before endedA (a.nextQ + .ofNat k)) (some (some (successful + .ofNat m))) lastA
              (.before (endedA ++ partiesA) (a.nextQ + .ofNat (k + m))) ∧
            Routine.Run (Answered (b.worlds a drawsB othersA)) (responderLoop m) objectB
              (.before endedB (b.nextQ + .ofNat k)) (some ()) lastB
              (.before (endedB ++ partiesB) (b.nextQ + .ofNat (k + m))) := by
  have bounded : a.config.numberOfSessions.toNat ≤ lmsLeaves :=
    (Nat.le_add_left _ _).trans spareA.leaves
  induction m with
  | zero =>
      intro k objectA objectB endedA endedB total round
      refine ⟨objectA, objectB, [], [], rfl, rfl, fun othersA othersB successful _ _ => ⟨?_, ?_⟩⟩
      · rw [experimentLoop, if_neg]
        · simpa using Routine.run_pure (some successful)
        · rw [round_le bounded (by omega)]
          omega
      · simpa [responderLoop] using Routine.run_pure ()
  | succ m ih =>
      intro k objectA objectB endedA endedB total round
      have left : k < a.config.numberOfSessions.toNat := by omega
      have index : k + 1 + m = k + (m + 1) := by omega
      obtain ⟨view, middleA, middleB, partyA, partyB, next, initiates, responds⟩ :=
        exists_round paired drawsA drawsB spareA spareB left round
      obtain ⟨lastA, lastB, partiesA, partiesB, restLengthA, restLengthB, rest⟩ :=
        ih (index.trans total) next
      refine ⟨lastA, lastB, partyA :: partiesA, partyB :: partiesB,
        congrArg Nat.succ restLengthA, congrArg Nat.succ restLengthB, ?_⟩
      intro othersA othersB successful shownA shownB
      obtain ⟨shownA, laterA⟩ := shown_cons shownA
      obtain ⟨shownB, laterB⟩ := shown_cons shownB
      obtain ⟨restA, restB⟩ := rest othersA othersB (successful + 1) laterA laterB
      have counted : successful + 1 + .ofNat m = successful + .ofNat (m + 1) := by
        rw [ofNat_succ, UInt32.add_assoc, UInt32.add_comm 1]
      rw [ofNat_succ (k + 1), counted, index, List.append_assoc] at restA
      rw [index, List.append_assoc] at restB
      have more := (round_le bounded left.le).mpr left
      exact ⟨run_experimentLoop more (initiates othersB shownB) restA,
        run_responderLoop (responds othersA shownA) restB⟩

end Rounds

/-- A run of an experiment on both boards. In each session the messages of one side reach the other
one in fragments. -/
structure Campaign (a b : Board library) (drawsA drawsB : Nat → Draws κ)
    (objectA objectB : ProposedUavProtocol UInt8 κ) where
  result : Option (Option UInt32)
  lastA : ProposedUavProtocol UInt8 κ
  sideA : Side UInt8
  ended : Option Unit
  lastB : ProposedUavProtocol UInt8 κ
  sideB : Side UInt8
  initiates : Routine.Run
    (Answered (a.worlds b drawsA fun session => sideB.ended.getD session []))
    (runInitiatorExperiments (a.config.numberOfSessions.toNat + 1)) objectA (.before [] a.nextQ)
    result lastA sideA
  responds : Routine.Run
    (Answered (b.worlds a drawsB fun session => sideA.ended.getD session []))
    (responderLoop a.config.numberOfSessions.toNat) objectB (.before [] b.nextQ) ended lastB sideB

/-- Every experiment of paired boards counts a success for each of its sessions, in which both
sides agree, and both use the next index in each. -/
theorem experiment_completes {a b : Board library} (paired : Paired a b)
    (drawsA drawsB : Nat → Draws κ) (spareA : a.Spare a.config.numberOfSessions.toNat)
    (spareB : b.Spare a.config.numberOfSessions.toNat)
    {objectA objectB : ProposedUavProtocol UInt8 κ} (configA : objectA.config = a.config)
    (recordA : objectA.peerRecord = b.published) (configB : objectB.config = b.config)
    (recordB : objectB.peerRecord = a.published) :
    Nonempty (Campaign a b drawsA drawsB objectA objectB) ∧
      ∀ campaign : Campaign a b drawsA drawsB objectA objectB,
        campaign.result = some (some a.config.numberOfSessions) ∧
        campaign.sideA.nextQ = a.nextQ + a.config.numberOfSessions ∧
        campaign.sideB.nextQ = b.nextQ + a.config.numberOfSessions ∧
        ∀ session < a.config.numberOfSessions.toNat, ∃ view,
          .noted .tauBVerified view ∈ campaign.sideA.ended.getD session [] ∧
          .noted .accepted view ∈ campaign.sideB.ended.getD session [] := by
  have start : Round a b 0 objectA objectB [] [] := ⟨configA, recordA, configB, recordB, rfl, rfl⟩
  have total : 0 + a.config.numberOfSessions.toNat = a.config.numberOfSessions.toNat :=
    Nat.zero_add _
  have all : UInt32.ofNat a.config.numberOfSessions.toNat = a.config.numberOfSessions :=
    UInt32.ofNat_toNat
  constructor
  · obtain ⟨lastA, lastB, partiesA, partiesB, -, -, runs⟩ :=
      exists_rounds paired drawsA drawsB spareA spareB _ total start
    obtain ⟨initiates, responds⟩ := runs (fun session => partiesA.getD session [])
      (fun session => partiesB.getD session []) 0 (fun j _ => by rw [Nat.zero_add])
      fun j _ => by rw [Nat.zero_add]
    have first : a.nextQ + .ofNat 0 = a.nextQ := UInt32.add_zero _
    have second : b.nextQ + .ofNat 0 = b.nextQ := UInt32.add_zero _
    rw [first, total, all, UInt32.zero_add, List.nil_append] at initiates
    rw [second, total, all, List.nil_append] at responds
    refine ⟨⟨some (some a.config.numberOfSessions), lastA,
      .before partiesA (a.nextQ + a.config.numberOfSessions), some (), lastB,
      .before partiesB (b.nextQ + a.config.numberOfSessions), ?_, responds⟩⟩
    refine (Routine.run_perform .settle).bind (Routine.run_get.bind ?_)
    rw [configA]
    exact initiates
  · rintro ⟨result, lastA, sideA, ended, lastB, sideB, initiates, responds⟩
    obtain ⟨pause, side, settled, rest⟩ := initiates.of_perform_bind
    have rest := rest.of_get
    obtain rfl : side = .before [] a.nextQ := by
      cases settled with
      | settle => rfl
      | delay between => exact absurd between (UInt32.lt_irrefl _)
    rw [configA] at rest
    have first : a.nextQ + .ofNat 0 = a.nextQ := UInt32.add_zero _
    have second : b.nextQ + .ofNat 0 = b.nextQ := UInt32.add_zero _
    rw [← first] at rest
    rw [← second] at responds
    obtain ⟨counted, indexA, indexB, agree⟩ := rounds_agree paired drawsA drawsB spareA spareB
      (fun _ => rfl) (fun _ => rfl) _ total start rest responds
    rw [total, all] at indexA indexB
    rw [all, UInt32.zero_add] at counted
    refine ⟨counted, indexA, indexB, fun session within => ?_⟩
    exact agree session (Nat.zero_le _) (by omega)

/-- Two boards complete an experiment of two sessions, with values of their own in each. -/
theorem experiment_completes_digits :
    ∃ (a b : Board digitLibrary) (drawsA drawsB : Nat → Draws Digest)
      (objectA objectB : ProposedUavProtocol UInt8 Digest)
      (campaign : Campaign a b drawsA drawsB objectA objectB),
      campaign.result = some (some 2) ∧ campaign.sideA.nextQ = 2 ∧ campaign.sideB.nextQ = 2 := by
  obtain ⟨a, configA, nextA⟩ := exists_board digitLibrary
    { pairedConfig .initiator (.replicate _ 1) (.replicate _ 2) with numberOfSessions := 2 } 7
    (.replicate _ 3) (.replicate _ 5) (.replicate _ 9) 0 (.replicate _ 11) (by decide)
  obtain ⟨b, configB, nextB⟩ := exists_board digitLibrary
    { pairedConfig .responder (.replicate _ 2) (.replicate _ 1) with numberOfSessions := 2 } 8
    (.replicate _ 4) (.replicate _ 6) (.replicate _ 10) 0 (.replicate _ 12) (by decide)
  have paired : Paired a b := by
    constructor
    all_goals simp only [configA, configB]
    case expiryA | expiryB => exact fun expires => absurd rfl expires
    all_goals rfl
  have spare : ∀ board : Board digitLibrary, board.config.firstQ = 0 →
      board.config.numberOfSessions = 2 → board.nextQ = 0 → board.Spare 2 := by
    intro board first count next
    constructor
    all_goals simp only [first, count, next]
    all_goals decide
  let draws (first : UInt8) (session : Nat) : Draws Digest :=
    ⟨.ofNat session, .replicate _ (first + .ofNat session), .replicate _ (first + .ofNat session),
      .replicate _ (first + .ofNat session)⟩
  obtain ⟨⟨campaign⟩, counts⟩ := @experiment_completes _ _ a b paired (draws 20) (draws 40)
    (by simpa [configA] using spare a (by simp [configA, pairedConfig]) (by simp [configA]) nextA)
    (by simpa [configA] using spare b (by simp [configB, pairedConfig]) (by simp [configB]) nextB)
    { constructed a.config with peerRecord := b.published }
    { constructed b.config with peerRecord := a.published } rfl rfl rfl rfl
  obtain ⟨result, indexA, indexB, -⟩ := counts campaign
  have count : a.config.numberOfSessions = 2 := by rw [configA]
  exact ⟨a, b, draws 20, draws 40, _, _, campaign, by rw [result, count],
    by rw [indexA, nextA, count, UInt32.zero_add], by rw [indexB, nextB, count, UInt32.zero_add]⟩

end Board

end Puav
