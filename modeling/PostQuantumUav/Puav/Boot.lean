import PostQuantumUav.Puav.ProtocolRoutines

/-!
# Starting a device

`begin` of the protocol object with the steps of provisioning, and what a device does
between two losses of power: it starts, and then runs sessions of either role, of which
each may fail. The calls whose results are only printed are left out.
-/

namespace Puav.ProposedUavProtocol

open Interaction Cell Buffer

variable {α κ : Type} [Cell α]

/-- The constructor. -/
def constructed (config : NodeConfig) : ProposedUavProtocol α κ where
  config := config
  peerRecord := ⟨false, 0, .replicate _ 0, .replicate _ 0, 0, credentialStatusPending, 0⟩
  ready := false
  bootSeed := .replicate _ (ofByte 0)
  kemInitialized := false
  kemKey := none
  m0 := .replicate _ (ofByte 0)
  m1 := .replicate _ (ofByte 0)
  m2 := .replicate _ (ofByte 0)
  m3 := .replicate _ (ofByte 0)
  m4 := .replicate _ (ofByte 0)
  mu := .replicate _ (ofByte 0)
  signInput := .replicate _ (ofByte 0)
  result := .replicate _ (ofByte 0)
  metrics := {}

/-- The paths of the leaves that the sessions will use, for a repository that delivers them. -/
def enrollOwnPaths (config : NodeConfig) : Method α κ Unit :=
  if config.pathMode = .repositoryAssisted then
    Routine.check
      (call (.enrollOwnPaths config.credentialVersion config.firstQ config.numberOfSessions))
  else pure ()

def prepareLmsAndLedger : Method α κ Unit := do
  let protocol ← get
  let config := protocol.config
  let _ ← sha256 (ofBytes config.hardcodedHelperData.toList)
  let pufRoot : Hash α ← Routine.orFail (call .reconstruct)
  let bootSeed ← hkdfSha256 pufRoot.toList []
    (lmsSeedInfo config.deviceId config.credentialVersion config.lmsIdentifier) hashBytes
  modify fun protocol => { protocol with bootSeed := bootSeed }
  Routine.check (call (.initializeLms config.lmsIdentifier bootSeed))
  Routine.check (call .buildTree)
  modify fun protocol => { protocol with bootSeed := .replicate _ (ofByte 0) }
  Routine.check (call .connectWiFi)
  Routine.check (call .beginTransport)
  Routine.check (call .beginGcs)
  Routine.check (call (.enrollOwnRoot config.credentialVersion (suiteIdForMode config.pathMode)
    credentialStatusActive config.credentialExpiryUnix))
  enrollOwnPaths config
  let record : PeerPublicRecord ←
    Routine.orFail (call (.fetchPeerRoot config.peerCredentialVersion))
  modify fun protocol => { protocol with peerRecord := record }
  validatePeerRecord record.version

/-- A reset whose error is not noticed. -/
def resetCounter (config : NodeConfig) : Method α κ Unit :=
  if config.resetQCounter then do
    let _ ← call (.putUInt config.firstQ)
  else pure ()

def initializePersistentCounter : Method α κ Unit := do
  let protocol ← get
  let config := protocol.config
  Routine.check (call .beginPreferences)
  resetCounter config
  let nextQ : UInt32 ← call (.getUInt config.firstQ)
  let endQ := config.firstQ + config.numberOfSessions
  guard (¬ (nextQ < config.firstQ ∨ nextQ ≥ endQ ∨ nextQ ≥ .ofNat lmsLeaves))

/-- `begin`. -/
def start : Method α κ Unit := do
  let protocol ← get
  guard (¬ (protocol.config.numberOfSessions = 0 ∨
    protocol.config.firstQ + protocol.config.numberOfSessions > .ofNat lmsLeaves))
  prepareLmsAndLedger
  Routine.check (call .initRng)
  initializePersistentCounter
  modify fun protocol => { protocol with ready := true }

section Obeys

variable {d : Discipline (calls α κ) (ProposedUavProtocol α κ)}
  (unindexed : ∀ c : Call α κ, ¬c.Indexed → d.allowed c)

include unindexed

omit [Cell α] in
theorem obeys_unindexed {c : Call α κ} (other : ¬c.Indexed) :
    Routine.Obeys d (fun _ => True) (call c : Method α κ _) :=
  (Routine.obeys_perform (unindexed c other)).any

variable (bootSeed : ∀ object value, d.kept object → d.kept { object with bootSeed := value })
  (peerRecord : ∀ object value, d.kept object → d.kept { object with peerRecord := value })

include bootSeed peerRecord

/-- Provisioning leaves the counter alone, and changes two fields of the object. -/
theorem obeys_prepareLmsAndLedger :
    Routine.Obeys d (fun _ => True) (prepareLmsAndLedger : Method α κ Unit) := by
  have makes : ∀ {c : Call α κ}, ¬c.Indexed → Routine.Obeys d (fun _ => True)
      (call c : Method α κ _) := obeys_unindexed unindexed
  refine Routine.Obeys.get fun protocol _ => ?_
  refine (Routine.Obeys.orFail_any (makes id)).andThen fun digest => ?_
  refine (Routine.Obeys.orFail_any (makes id)).andThen fun pufRoot => ?_
  refine (Routine.Obeys.orFail_any (makes id)).andThen fun seed => ?_
  refine Routine.Obeys.andThen (Routine.obeys_modify fun object => bootSeed object _) fun _ => ?_
  refine (Routine.Obeys.check_any (makes id)).andThen fun _ => ?_
  refine (Routine.Obeys.check_any (makes id)).andThen fun _ => ?_
  refine Routine.Obeys.andThen (Routine.obeys_modify fun object => bootSeed object _) fun _ => ?_
  refine (Routine.Obeys.check_any (makes id)).andThen fun _ => ?_
  refine (Routine.Obeys.check_any (makes id)).andThen fun _ => ?_
  refine (Routine.Obeys.check_any (makes id)).andThen fun _ => ?_
  refine (Routine.Obeys.check_any (makes id)).andThen fun _ => ?_
  refine Routine.Obeys.andThen (Routine.Obeys.ite (Routine.Obeys.check_any (makes id))
    (Routine.obeys_pure trivial)) fun _ => ?_
  refine (Routine.Obeys.orFail_any (makes id)).andThen fun record => ?_
  refine Routine.Obeys.andThen (Routine.obeys_modify fun object => peerRecord object _) fun _ => ?_
  refine Routine.Obeys.get fun protocol _ => (Routine.obeys_guard _).bind fun _ _ => ?_
  refine Routine.Obeys.ite ?_ (Routine.obeys_pure trivial)
  exact Routine.Obeys.andThen (makes id) fun now => Routine.Obeys.any (Routine.obeys_guard _)

omit unindexed in
/-- `begin` changes three fields of the object. -/
theorem obeys_start (every : ∀ c : Call α κ, d.allowed c)
    (ready : ∀ object value, d.kept object → d.kept { object with ready := value }) :
    Routine.Obeys d (fun _ => True) (start : Method α κ Unit) := by
  have makes : ∀ {c : Call α κ}, Routine.Obeys d (fun _ => True) (call c : Method α κ _) :=
    fun {c} => (Routine.obeys_perform (every c)).any
  refine Routine.Obeys.get fun protocol _ => (Routine.obeys_guard _).bind fun _ _ => ?_
  refine (obeys_prepareLmsAndLedger (fun c _ => every c) bootSeed peerRecord).andThen fun _ => ?_
  refine (Routine.Obeys.check_any makes).andThen fun _ => ?_
  refine Routine.Obeys.andThen ?_ fun _ => Routine.obeys_modify fun object => ready object true
  refine Routine.Obeys.get fun protocol _ => ?_
  refine (Routine.Obeys.check_any makes).andThen fun _ => ?_
  refine Routine.Obeys.andThen (Routine.Obeys.ite (makes.andThen fun _ =>
    Routine.obeys_pure trivial) (Routine.obeys_pure trivial)) fun _ => ?_
  exact Routine.Obeys.andThen makes fun nextQ => Routine.Obeys.any (Routine.obeys_guard _)

end Obeys

variable [DecidableEq α]

/-- One session; whether it succeeds does not stop the device. -/
def session : Role → Method α κ (Option (View α))
  | .initiator => Routine.attempt runInitiatorSession
  | .responder => Routine.attempt runResponderOnce

/-- A device that is switched on. -/
def boot (sessions : List Role) : Method α κ Unit := do
  start
  sessions.forM fun role => do
    let _ ← session role

/-- Two devices that are configured for each other and for one session. -/
def pairedNode (role : Role) (pathMode : PathDeliveryMode) : NodeConfig where
  role := role
  pathMode := pathMode
  responder := ⟨2, 5000⟩
  deviceId := .replicate _ (if role = .initiator then 1 else 2)
  peerId := .replicate _ (if role = .initiator then 2 else 1)
  hardcodedHelperData := .replicate _ 0
  lmsIdentifier := .replicate _ 0
  credentialVersion := 1
  peerCredentialVersion := 1
  credentialExpiryUnix := 0
  firstQ := 0
  numberOfSessions := 1
  resetQCounter := false

/-- The record of the other device. -/
def pairedRecord : PeerPublicRecord :=
  ⟨true, 1, .replicate _ 0, .replicate _ 0, suiteIdCarried, credentialStatusActive, 0⟩

end Puav.ProposedUavProtocol
