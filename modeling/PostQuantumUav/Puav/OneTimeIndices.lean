import PostQuantumUav.Puav.Boot
import PostQuantumUav.Puav.SessionStages

/-!
# One-time indices over the life of a device

A device is switched on any number of times, with a configuration of its own each time, and
loses power at any point of any session. What survives is the stored counter; what is
recorded here besides are the signatures.

The invariant is that the stored counter is above every index that was signed under. A
reservation raises the counter before it returns an index, so the index between a
reservation and its signature is above all earlier ones and below the counter.
-/

namespace Puav

open Interaction Cell Buffer

/-- An index that a signature was made under, and the range of the configuration. -/
structure Signed where
  q : UInt32
  firstQ : UInt32
  numberOfSessions : UInt32

/-- What outlasts a loss of power, with the signatures so far. -/
structure Device where
  nextQ : Option UInt32
  signed : List Signed

namespace Device

/-- Inside the leaves and the range, with the code's additions. -/
def InRange (firstQ numberOfSessions q : UInt32) : Prop :=
  q < .ofNat lmsLeaves ∧ firstQ ≤ q ∧ q < firstQ + numberOfSessions

/-- Every index was in range and above the ones before it, and the counter is above them all. -/
structure Safe (device : Device) : Prop where
  ranges : ∀ s ∈ device.signed, InRange s.firstQ s.numberOfSessions s.q
  increasing : device.signed.Pairwise fun s s' => s.q < s'.q
  below : ∀ s ∈ device.signed, ∃ nextQ, device.nextQ = some nextQ ∧ s.q < nextQ

/-- The index is reserved: only the counter is above it. -/
structure Reserved (config : NodeConfig) (q : UInt32) (device : Device) : Prop where
  safe : device.Safe
  counter : device.nextQ = some (q + 1)
  range : InRange config.firstQ config.numberOfSessions q
  above : ∀ s ∈ device.signed, s.q < q

theorem lt_succ_of_inRange {firstQ numberOfSessions q : UInt32}
    (range : InRange firstQ numberOfSessions q) : q < q + 1 := by
  have bound : q.toNat < 1024 := UInt32.lt_iff_toNat_lt.mp range.1
  rw [UInt32.lt_iff_toNat_lt, UInt32.toNat_add, Nat.mod_eq_of_lt (by
    have one : (1 : UInt32).toNat = 1 := rfl
    omega)]
  exact Nat.lt_succ_self _

/-- A counter that was read and found in range is raised. -/
theorem Safe.reserve {device : Device} (safe : device.Safe) (config : NodeConfig)
    (range : InRange config.firstQ config.numberOfSessions (device.nextQ.getD config.firstQ)) :
    Reserved config (device.nextQ.getD config.firstQ)
      { device with nextQ := some (device.nextQ.getD config.firstQ + 1) } := by
  have above : ∀ s ∈ device.signed, s.q < device.nextQ.getD config.firstQ := by
    intro s mem
    obtain ⟨nextQ, stored, below⟩ := safe.below s mem
    rwa [stored]
  refine ⟨⟨safe.ranges, safe.increasing, fun s mem => ⟨_, rfl, ?_⟩⟩, rfl, range, above⟩
  exact UInt32.lt_trans (above s mem) (lt_succ_of_inRange range)

/-- A signature under the reserved index. -/
theorem Reserved.sign {config : NodeConfig} {q : UInt32} {device : Device}
    (reserved : Reserved config q device) :
    Safe { device with
      signed := device.signed ++ [⟨q, config.firstQ, config.numberOfSessions⟩] } := by
  refine ⟨?_, ?_, ?_⟩
  · intro s mem
    rcases List.mem_append.mp mem with old | new
    · exact reserved.safe.ranges s old
    · cases List.mem_singleton.mp new
      exact reserved.range
  · refine List.pairwise_append.mpr ⟨reserved.safe.increasing, List.pairwise_singleton _ _, ?_⟩
    intro s mem s' new
    cases List.mem_singleton.mp new
    exact reserved.above s mem
  · intro s mem
    rcases List.mem_append.mp mem with old | new
    · exact reserved.safe.below s old
    · cases List.mem_singleton.mp new
      exact ⟨_, reserved.counter, lt_succ_of_inRange reserved.range⟩

end Device

namespace ProposedUavProtocol

variable {α κ : Type}

/-- The counter's storage: a value that is stored is read back, and a write that reports an error
has changed nothing. Signatures are recorded; the other calls may be answered in any way. -/
def Nvs (config : NodeConfig) : World (calls α κ) Device :=
  fun device event device' =>
    match event with
    | ⟨.getUInt default, (value : UInt32)⟩ => value = device.nextQ.getD default ∧ device' = device
    | ⟨.putUInt value, (written : Nat)⟩ =>
        (written ≠ 0 ∧ device' = { device with nextQ := some value }) ∨
          (written = 0 ∧ device' = device)
    | ⟨.sign q _ _, _⟩ => device' = { device with
        signed := device.signed ++ [⟨q, config.firstQ, config.numberOfSessions⟩] }
    | _ => device' = device

/-- Calls that do not touch the counter and do not sign, under one configuration. -/
def unindexed (config : NodeConfig) : Discipline (calls α κ) (ProposedUavProtocol α κ) where
  allowed c := ¬c.Indexed
  answered _ _ := True
  kept object := object.config = config

variable {config : NodeConfig}

theorem Nvs.unchanged {device device' : Device} {c : Call α κ} {a : (calls α κ).Answer c}
    (other : ¬c.Indexed) (step : Nvs config device ⟨c, a⟩ device') : device' = device := by
  cases c with
  | getUInt _ => exact absurd trivial other
  | putUInt _ => exact absurd trivial other
  | sign _ _ _ => exact absurd trivial other
  | _ => exact step

/-- They keep every property of the device. -/
theorem unindexed_keeps (during : Device → Prop) :
    Routine.Keeps (unindexed config : Discipline (calls α κ) _) (Nvs config) during := by
  intro device c a device' other now step
  cases Nvs.unchanged other step
  exact ⟨trivial, now⟩

theorem not_indexed_of_local {c : Call α κ} (isLocal : c.Local) : ¬c.Indexed := by
  cases c with
  | getUInt _ => exact absurd isLocal id
  | putUInt _ => exact absurd isLocal id
  | sign _ _ _ => exact absurd isLocal id
  | _ => exact id

variable [Cell α]

theorem unindexed_frame : Frame (unindexed config : Discipline (calls α κ) _) (fun _ => True) where
  bytes _ := trivial
  isLocal _ isLocal _ := not_indexed_of_local isLocal
  answers c a _ := answers_true c a
  buffers _ _ := within_true _
  same _ _ kept sameConfig _ _ _ := sameConfig.trans kept

section Counter

variable {object : ProposedUavProtocol α κ} {device : Device}

omit [Cell α] in
/-- A reservation fails without an effect, or raises the counter. -/
theorem ensures_reserveQ (kept : object.config = config) (safe : device.Safe) :
    Routine.Ensures (Nvs config) Device.Safe (fun result object' device' =>
      object'.config = config ∧ (result = none → device'.Safe) ∧
        ∀ q, result = some q → device'.Reserved config q) reserveQ object device := by
  subst kept
  rw [reserveQ, Routine.ensures_bind, Routine.ensures_get]
  refine Routine.Ensures.perform fun nextQ device step => ?_
  obtain ⟨rfl, rfl⟩ := step
  refine ⟨safe, Routine.ensures_bind.mpr (Routine.ensures_guard.mpr ⟨fun range => ?_, fun _ => ?_⟩)⟩
  · have inRange : Device.InRange object.config.firstQ object.config.numberOfSessions
        (device.nextQ.getD object.config.firstQ) := by
      rw [not_or, not_or] at range
      exact ⟨UInt32.not_le.mp range.2.2, UInt32.not_lt.mp range.1, UInt32.not_le.mp range.2.1⟩
    have reserved := safe.reserve object.config inRange
    refine Routine.Ensures.perform fun (written : Nat) _ step => ?_
    obtain ⟨success, rfl⟩ | ⟨failed, rfl⟩ := step
    · refine ⟨reserved.safe, Routine.ensures_bind.mpr (Routine.ensures_guard.mpr
        ⟨fun _ => ⟨rfl, nofun, fun q returned => ?_⟩, fun fails => absurd success fails⟩)⟩
      cases Option.some.inj returned
      exact reserved
    · exact ⟨safe, Routine.ensures_bind.mpr (Routine.ensures_guard.mpr
        ⟨fun success => absurd failed success, fun _ => ⟨rfl, fun _ => safe, nofun⟩⟩)⟩
  · exact ⟨rfl, fun _ => safe, nofun⟩

/-- The stages of a session on a device. -/
theorem stages : Stages (Nvs config) (unindexed config : Discipline (calls α κ) _) (fun _ => True)
    (fun _ => True) Device.Safe Device.Safe (Device.Reserved config) Device.Safe where
  frame := unindexed_frame
  seeds := obeys_timedRuntimeSeed unindexed_frame
  before_keeps := unindexed_keeps _
  reserved_keeps _ := unindexed_keeps _
  after_keeps := unindexed_keeps _
  after_of_before _ safe := safe
  after_of_reserved _ _ reserved := reserved.safe
  always_of_after _ safe := safe
  reserves object device kept safe := ensures_reserveQ kept safe
  signs q message runtimeSeed device a device' _ _ reserved step := by
    cases step
    exact ⟨reserved.sign, answers_true _ a⟩

end Counter

section Start

/-- A device before its first signature may have its counter set. -/
def Resettable (config : NodeConfig) (device : Device) : Prop :=
  device.Safe ∧ (config.resetQCounter = true → device.signed = [])

omit [Cell α] in
theorem moves_initializePersistentCounter :
    Routine.Moves (unindexed config) (Nvs config) Device.Safe Device.Safe (Resettable config)
      Device.Safe (fun _ => True) (initializePersistentCounter : Method α κ Unit) := by
  refine Routine.Moves.get fun protocol kept => ?_
  obtain rfl : protocol.config = config := kept
  have unindexed_moves : ∀ {β : Type} {good : β → Prop} {r : Method α κ β},
      Routine.Obeys (unindexed protocol.config) good r → Routine.Moves (unindexed protocol.config)
        (Nvs protocol.config) Device.Safe Device.Safe (Resettable protocol.config)
        (Resettable protocol.config) good r := fun obeys =>
    obeys.moves (unindexed_keeps _) (fun _ now => now.1) fun _ now => now.1
  refine Routine.Moves.bind (unindexed_moves (Routine.Obeys.check_any (Routine.obeys_perform id)))
    fun _ _ => ?_
  have reset : Routine.Moves (unindexed protocol.config) (Nvs protocol.config) Device.Safe
      Device.Safe (Resettable protocol.config) Device.Safe (fun _ => True)
      (resetCounter protocol.config : Method α κ Unit) := by
    intro object device kept now
    rw [resetCounter]
    split
    · rename_i resets
      refine Routine.Ensures.perform fun written device' step => ?_
      have safe : device'.Safe := by
        obtain ⟨_, rfl⟩ | ⟨_, rfl⟩ := step
        · have none : device.signed = [] := now.2 resets
          exact ⟨now.1.ranges, now.1.increasing, fun s mem => nomatch none ▸ mem⟩
        · exact now.1
      exact ⟨safe, kept, nofun, fun _ _ => ⟨trivial, safe⟩⟩
    · exact ⟨kept, nofun, fun _ _ => ⟨trivial, now.1⟩⟩
  refine reset.bind fun _ _ object device kept safe => ?_
  refine Routine.Ensures.perform fun nextQ device step => ?_
  obtain ⟨rfl, rfl⟩ := step
  refine ⟨safe, Routine.ensures_guard.mpr ⟨fun _ => ?_, fun _ => ?_⟩⟩
  · exact ⟨kept, nofun, fun _ _ => ⟨trivial, safe⟩⟩
  · exact ⟨kept, fun _ => safe, nofun⟩

theorem moves_start : Routine.Moves (unindexed config) (Nvs config) Device.Safe Device.Safe
    (Resettable config) Device.Safe (fun _ => True) (start : Method α κ Unit) := by
  have unindexed_moves : ∀ {β : Type} {good : β → Prop} {r : Method α κ β},
      Routine.Obeys (unindexed config) good r → Routine.Moves (unindexed config)
        (Nvs config) Device.Safe Device.Safe (Resettable config) (Resettable config) good r :=
    fun obeys => obeys.moves (unindexed_keeps _) (fun _ now => now.1) fun _ now => now.1
  refine Routine.Moves.get fun protocol _ => ?_
  refine (unindexed_moves (Routine.obeys_guard _)).bind fun _ _ => ?_
  refine (unindexed_moves (obeys_prepareLmsAndLedger (fun _ other => other) (fun _ _ same => same)
    fun _ _ same => same)).bind fun _ _ => ?_
  refine Routine.Moves.bind (unindexed_moves (Routine.Obeys.check_any (Routine.obeys_perform id)))
    fun _ _ => ?_
  refine moves_initializePersistentCounter.bind fun _ _ => ?_
  exact stages.after_moves (Routine.obeys_modify fun _ same => same)

variable [DecidableEq α]

theorem moves_session (role : Role) :
    Routine.Moves (unindexed config) (Nvs config) Device.Safe Device.Safe Device.Safe Device.Safe
      (fun _ => True) (session role : Method α κ (Option (View α))) := by
  cases role with
  | initiator =>
      exact ((stages.moves_runInitiatorSession fun _ _ _ => id).attempt fun _ safe => safe).mono
        (fun _ safe => safe) (fun _ safe => safe) fun _ _ => trivial
  | responder =>
      exact ((stages.moves_runResponderOnce fun _ _ _ => id).attempt fun _ safe => safe).mono
        (fun _ safe => safe) (fun _ safe => safe) fun _ _ => trivial

/-- What a device does between two losses of power. -/
theorem moves_boot (sessions : List Role) :
    Routine.Moves (unindexed config) (Nvs config) Device.Safe Device.Safe (Resettable config)
      Device.Safe (fun _ => True) (boot sessions : Method α κ Unit) := by
  refine moves_start.bind fun _ _ => ?_
  induction sessions with
  | nil => exact Routine.moves_pure trivial
  | cons role rest ih =>
      have first : Routine.Moves (unindexed config) (Nvs config) Device.Safe Device.Safe
          Device.Safe Device.Safe (fun _ => True)
          (do let _ ← session role : Method α κ Unit) :=
        (moves_session role).bind fun _ _ => Routine.moves_pure trivial
      exact first.bind fun _ _ => ih

end Start

section Life

variable [DecidableEq α]

variable (α κ) in
/-- The boots of a device so far, with the configuration of each. A boot may stop anywhere, with
any of its program left; only the first one may reset the counter. -/
inductive Life : List NodeConfig → Device → Prop where
  | new (nextQ : Option UInt32) : Life [] ⟨nextQ, []⟩
  | boot {configs : List NodeConfig} {device device' : Device} (life : Life configs device)
      (config : NodeConfig) (sessions : List Role)
      (reset : config.resetQCounter = true → configs = [])
      {rest : Program (calls α κ) (Option Unit × ProposedUavProtocol α κ)}
      (run : Program.Exec (Nvs config) ((ProposedUavProtocol.boot sessions).on (constructed config))
        device rest device') : Life (configs ++ [config]) device'

theorem Life.safe {configs : List NodeConfig} {device : Device} (life : Life α κ configs device) :
    device.Safe ∧ (configs = [] → device.signed = []) := by
  induction life with
  | new nextQ => exact ⟨⟨nofun, .nil, nofun⟩, fun _ => rfl⟩
  | boot life config sessions reset run ih =>
      have ensured := moves_boot sessions (constructed config : ProposedUavProtocol α κ) _ rfl
        ⟨ih.1, fun resets => ih.2 (reset resets)⟩
      exact ⟨(run.ensures ensured ih.1).1, fun none => nomatch List.append_eq_nil_iff.mp none⟩

/-- Over the whole life of a device, the indices that are signed under are strictly increasing, and
each is below the number of leaves and inside the range of its boot's configuration. -/
theorem indices_increase {configs : List NodeConfig} {device : Device}
    (life : Life α κ configs device) :
    (device.signed.map Signed.q).Pairwise (· < ·) ∧
      ∀ s ∈ device.signed, Device.InRange s.firstQ s.numberOfSessions s.q :=
  ⟨List.pairwise_map.mpr life.safe.1.increasing, life.safe.1.ranges⟩

end Life

section Example

abbrev zeroCells (size : Nat) : List.Vector UInt8 size := .replicate _ 0

/-- A configuration for three sessions, starting with the first leaf. -/
abbrev threeSessions : NodeConfig :=
  { pairedNode .initiator .signerCarried with numberOfSessions := 3 }

/-- The object after `begin`. -/
abbrev bootedObject : ProposedUavProtocol UInt8 Unit :=
  { constructed threeSessions with peerRecord := pairedRecord, ready := true }

variable {device device' : Device} {q : UInt32}

/-- The next index of the device is one of the three. -/
structure IndexLeft (device : Device) (q : UInt32) : Prop where
  next : q = device.nextQ.getD 0
  among : q = 0 ∨ q = 1 ∨ q = 2

/-- `begin` on a device with an index left. -/
theorem boot_run (left : IndexLeft device q) : Routine.Run (Nvs threeSessions)
    (start : Method UInt8 Unit Unit) (constructed threeSessions) device (some ()) bootedObject
    device := by
  refine .step (a := some (zeroCells hashBytes)) rfl ?_
  refine .step (a := some (zeroCells hashBytes)) rfl ?_
  refine .step (a := some (zeroCells hashBytes)) rfl ?_
  refine .step (a := true) rfl ?_
  refine .step (a := true) rfl ?_
  refine .step (a := true) rfl ?_
  refine .step (a := true) rfl ?_
  refine .step (a := true) rfl ?_
  refine .step (a := true) rfl ?_
  refine .step (a := some pairedRecord) rfl ?_
  refine .step (a := true) rfl ?_
  refine .step (a := true) rfl ?_
  refine .step (a := q) ⟨left.next, rfl⟩ ?_
  rcases left.among with rfl | rfl | rfl
  · exact .stop _ _
  · exact .stop _ _
  · exact .stop _ _

/-- Where power is lost in a session: after the reservation of an index, or after the signature
under it. -/
inductive Stopped (device : Device) (q : UInt32) : Device → Prop where
  | reserved : Stopped device q { device with nextQ := some (q + 1) }
  | signed : Stopped device q
      { nextQ := some (q + 1), signed := device.signed ++ [⟨q, 0, 3⟩] }

/-- Power may be lost with this device, during the program. -/
inductive StopsAt {α : Type} (p : Program (calls UInt8 Unit) α) (device device' : Device) : Prop
  | exec (rest : Program (calls UInt8 Unit) α)
      (run : Program.Exec (Nvs threeSessions) p device rest device')

theorem StopsAt.step {α : Type} {c : (calls UInt8 Unit).Call}
    {next : (calls UInt8 Unit).Answer c → Program (calls UInt8 Unit) α} {s s' t : Device}
    {a : (calls UInt8 Unit).Answer c} (answered : Nvs threeSessions s ⟨c, a⟩ s')
    (rest : StopsAt (next a) s' t) : StopsAt (.call c next) s t := by
  obtain ⟨rest, part⟩ := rest
  exact ⟨rest, .step answered part⟩

/-- A session of the started object that ends where power is lost. -/
theorem stopsAt_session (left : IndexLeft device q) (stopped : Stopped device q device') :
    StopsAt ((session .initiator : Method UInt8 Unit _).on bootedObject) device device' := by
  -- M0 and M1, SID0, and a key pair.
  refine .step (a := (0 : UInt32)) rfl ?_
  refine .step (a := zeroCells nonceBytes) rfl ?_
  refine .step (a := (0 : UInt64)) rfl ?_
  refine .step (a := some (0 : UInt32)) rfl ?_
  refine .step (a := (some ⟨msgM1Chal, 1, m1Bytes, ⟨2, 5000⟩, 120⟩,
    (m1Message (pairedNode .responder .signerCarried) (zeroCells 16) (zeroCells 16)).toList))
    rfl ?_
  refine .step (a := (0 : UInt64)) rfl ?_
  refine .step (a := some (zeroCells hashBytes)) rfl ?_
  refine .step (a := (0 : UInt64)) rfl ?_
  refine .step (a := true) rfl ?_
  refine .step (a := (0 : UInt64)) rfl ?_
  refine .step (a := some ()) rfl ?_
  refine .step (a := some (zeroCells mlkemPublicKeyBytes)) rfl ?_
  refine .step (a := (0 : UInt64)) rfl ?_
  refine .step (a := q) ⟨left.next, rfl⟩ ?_
  -- The test of the range is computed, for each of the three indices.
  rcases left.among with rfl | rfl | rfl
  all_goals
    refine .step (a := (4 : Nat)) (.inl ⟨nofun, rfl⟩) ?_
    cases stopped with
    | reserved => exact ⟨_, .stop _ _⟩
    | signed =>
        -- The seed and the signature.
        refine .step (a := (0 : UInt64)) rfl ?_
        refine .step (a := some (zeroCells hashBytes)) rfl ?_
        refine .step (a := (0 : UInt64)) rfl ?_
        refine .step (a := (0 : UInt64)) rfl ?_
        refine .step (a := some (zeroCells hashBytes)) rfl ?_
        refine .step (a := (0 : UInt64)) rfl ?_
        refine .step (a := (0 : UInt64)) rfl ?_
        refine .step (a := some (zeroCells lmotsSignatureBytes)) rfl ?_
        exact ⟨_, .stop _ _⟩

/-- Another boot, up to a loss of power in its first session. -/
theorem Life.stopped {configs : List NodeConfig} (life : Life UInt8 Unit configs device)
    (left : IndexLeft device q) (stopped : Stopped device q device') :
    Life UInt8 Unit (configs ++ [threeSessions]) device' := by
  obtain ⟨rest, part⟩ := stopsAt_session left stopped
  obtain ⟨_, session⟩ := Routine.exec_bind part fun _ => pure ()
  obtain ⟨_, sessions⟩ := Routine.exec_bind session fun _ => [].forM fun role => do
    let _ ← ProposedUavProtocol.session role
  exact .boot life threeSessions [.initiator] nofun
    (Routine.Run.bind_exec (boot_run left) sessions)

/-- Two signatures with a crash, a lost index and two reboots between them. -/
theorem indices_increase_once :
    Life UInt8 Unit [threeSessions, threeSessions, threeSessions]
      ⟨some 3, [⟨0, 0, 3⟩, ⟨2, 0, 3⟩]⟩ ∧
    ([0, 2] : List UInt32).Pairwise (· < ·) ∧ Device.InRange 0 3 0 ∧ Device.InRange 0 3 2 := by
  have signed : Life UInt8 Unit [threeSessions] ⟨some 1, [⟨0, 0, 3⟩]⟩ :=
    (Life.new none).stopped (q := 0) ⟨rfl, .inl rfl⟩ .signed
  have lost : Life UInt8 Unit [threeSessions, threeSessions] ⟨some 2, [⟨0, 0, 3⟩]⟩ :=
    signed.stopped (q := 1) ⟨rfl, .inr (.inl rfl)⟩ .reserved
  have life : Life UInt8 Unit [threeSessions, threeSessions, threeSessions]
      ⟨some 3, [⟨0, 0, 3⟩, ⟨2, 0, 3⟩]⟩ :=
    lost.stopped (q := 2) ⟨rfl, .inr (.inr rfl)⟩ .signed
  have increase := indices_increase life
  exact ⟨life, increase.1, increase.2 _ (.head _), increase.2 _ (.tail _ (.head _))⟩

end Example

end ProposedUavProtocol

end Puav
