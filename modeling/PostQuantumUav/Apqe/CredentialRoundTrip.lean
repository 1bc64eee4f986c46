import PostQuantumUav.Apqe.GatewayDelivery

/-!
# Records through client, gateway and chaincode

Boards that share one gateway and ledger put records and query them. A record goes
through the client's serialization, the gateway's hexadecimal form and the JSON text
of the chaincode, and comes back byte for byte by its identity and slot and by its
temporary identity, as long as two places never use the same temporary identity. A
temporary identity that a place gave up is not found.
-/

namespace Apqe

open Interaction Cell Buffer Chaincode FabricUdpClient

section Operations

variable {hmac : Bytes → Digest} {gateway : Transport.Endpoint} {client : FabricUdpClient}
variable {link : Link} {ledger : Ledger}

theorem toList_serialized (scratch : List.Vector UInt8 fabricRecordBytes) (c : FabricCredential) :
    (overwrite scratch (serializeCredential c)).toList = serializeCredential c := by
  have sized := Gateway.length_serializeCredential c
  have whole := @slice_overwrite _ _ scratch (serializeCredential c) (Nat.le_of_eq sized) 0
    fabricRecordBytes (by rw [sized]; exact Nat.le_of_eq (Nat.zero_add _))
  have front := slice_zero_length (overwrite scratch (serializeCredential c)).toList
  have record := slice_zero_length (serializeCredential c)
  rw [List.Vector.toList_length] at front
  rw [sized] at record
  rw [← front, whole, record]

/-- A record is read back from its bytes. -/
theorem parseCredential_serialized (scratch : List.Vector UInt8 fabricRecordBytes)
    (c : FabricCredential) : parseCredential (overwrite scratch (serializeCredential c)) = c := by
  have read : ∀ {offset count : Nat} (fits : offset + count ≤ fabricRecordBytes)
      (field : List.Vector UInt8 count), slice (serializeCredential c) offset count = field.toList →
        block (overwrite scratch (serializeCredential c)) offset count fits = field := by
    intro offset count fits field same
    apply List.Vector.toList_injective
    change slice (overwrite scratch (serializeCredential c)).toList offset count = field.toList
    rw [toList_serialized, same]
  obtain ⟨identityHash, tid, publicKey, w, verifyHash⟩ := Gateway.slice_serializeCredential c
  rw [parseCredential, read _ _ identityHash, read _ _ tid, read _ _ publicKey, read _ _ w,
    read _ _ verifyHash]

/-- A put of a board succeeds and stores the record. -/
theorem putCredential_delivered (ready : Ready hmac gateway client link.queue)
    (stores : Stores link.state ledger) (c : FabricCredential) (slot : UInt16) :
    Routine.Ensures (Link.Answered hmac gateway) (fun _ => True)
      (fun result client' link' => result = some () ∧ Ready hmac gateway client' link'.queue ∧
        Stores link'.state (ledger.store Credential.tid (Gateway.hexCredential c slot).place
          (Gateway.hexCredential c slot)))
      (FabricUdpClient.putCredential slot c) client link := by
  have handled := Gateway.handle_putCredential stores client.nextRequestId c slot
  have sent := @transact_delivered hmac gateway
    { client with recordScratch := overwrite client.recordScratch (serializeCredential c) } link
    gwPutCredential slot (serializeCredential c) 0
    (fun outcome state => outcome.status = gwOk ∧ Stores state
      (ledger.store Credential.tid (Gateway.hexCredential c slot).place
        (Gateway.hexCredential c slot)))
    ⟨ready.gateway, ready.stale⟩ (Nat.le_of_eq (Gateway.length_serializeCredential c))
    (handled.mono (fun _ always => always) fun outcome state held =>
      ⟨⟨held.1.1, held.2⟩, by rw [held.1.2]; exact Nat.le_refl 0⟩)
  simp only [FabricUdpClient.putCredential, keepingFabricUs, toList_serialized,
    Routine.ensures_bind (r := modify _), Routine.ensures_modify, Routine.ensures_bind (r := get),
    Routine.ensures_get, Routine.ensures_bind, Routine.ensures_attempt]
  apply sent.mono
  rintro result client' link' ⟨outcome, same, answers⟩
  obtain ⟨ok, stores'⟩ := answers.holds
  rw [if_pos ok] at same
  subst same
  exact ⟨rfl, ⟨answers.ready.gateway, answers.ready.stale⟩, stores'⟩

/-- A query of a board returns the record that the gateway answers with. -/
theorem query_delivered (ready : Ready hmac gateway client link.queue) {op : UInt8} {slot : UInt16}
    {key : Block} {held : Option FabricCredential}
    (handled : (Gateway.handle ⟨op, client.nextRequestId, slot, key.toList⟩).Ensures
      Gateway.Committed (fun _ => True) (fun outcome state =>
        Gateway.QueryAnswered held outcome ∧ state = link.state) link.state) :
    Routine.Ensures (Link.Answered hmac gateway) (fun _ => True)
      (fun result client' link' => result = held ∧ Ready hmac gateway client' link'.queue ∧
        link'.state = link.state ∧ (held = none → client'.lastStatus = gwNotFound))
      (transact op fabricRecordBytes slot key.toList >>= credentialOf) client link := by
  have room : ∀ outcome, Gateway.QueryAnswered held outcome →
      outcome.payload.length ≤ fabricRecordBytes := by
    intro outcome answered
    cases held with
    | none =>
        rw [answered.2]
        exact Nat.zero_le _
    | some c =>
        rw [answered.2, Gateway.length_serializeCredential]
  have sent := @transact_delivered hmac gateway client link op slot key.toList fabricRecordBytes
    (fun outcome state => Gateway.QueryAnswered held outcome ∧ state = link.state)
    ready (by rw [List.Vector.toList_length]; decide)
    (handled.mono (fun _ always => always) fun outcome state answered =>
      ⟨answered, room outcome answered.1⟩)
  refine sent.bind ?_ ?_
  · rintro client' link' ⟨outcome, same, answers⟩
    obtain ⟨answered, state⟩ := answers.holds
    cases held with
    | none =>
        refine ⟨rfl, answers.ready, state, fun _ => ?_⟩
        rw [answers.lastStatus, answered.1]
    | some c =>
        rw [if_pos answered.1] at same
        cases same
  · rintro payload client' link' ⟨outcome, same, answers⟩
    obtain ⟨answered, state⟩ := answers.holds
    cases held with
    | none =>
        rw [if_neg (by rw [answered.1]; decide)] at same
        cases same
    | some c =>
        rw [if_pos answered.1] at same
        cases Option.some.inj same
        simp only [credentialOf, Routine.ensures_bind (r := modify _), Routine.ensures_modify,
          Routine.ensures_bind (r := guard _), Routine.ensures_guard,
          Routine.ensures_bind (r := get), Routine.ensures_get, Routine.ensures_pure, answered.2,
          Gateway.length_serializeCredential, parseCredential_serialized]
        refine ⟨fun _ => ⟨trivial, ⟨answers.ready.gateway, answers.ready.stale⟩, state, ?_⟩,
          fun other => absurd trivial other⟩
        rintro ⟨⟩

end Operations

/-- A put that a board makes. -/
structure Put (ι : Type) where
  board : ι
  slot : UInt16
  credential : FabricCredential

namespace Put

variable {ι : Type}

/-- The pair that the put writes. -/
def place (put : Put ι) : Block × UInt16 := (put.credential.identityHash, put.slot)

def hexCredential (put : Put ι) : Credential := Gateway.hexCredential put.credential put.slot

theorem hexPlace_inj {put put' : Put ι} :
    put.hexCredential.place = put'.hexCredential.place ↔ put.place = put'.place := by
  simp only [Credential.place, hexCredential, Gateway.hexCredential, place, Prod.mk.injEq,
    Gateway.encodeToString_inj, List.Vector.toList_injective.eq_iff]

theorem hexTid_inj {put : Put ι} {tid : Block} :
    put.hexCredential.tid = Gateway.encodeToString tid.toList ↔ put.credential.tid = tid := by
  simp only [hexCredential, Gateway.hexCredential, Gateway.encodeToString_inj,
    List.Vector.toList_injective.eq_iff]

/-- The put is the last one for its pair. -/
def Current (put : Put ι) (puts : List (Put ι)) : Prop :=
  ∃ front back, puts = front ++ put :: back ∧ ∀ later ∈ back, later.place ≠ put.place

/-- Two different pairs never use the same temporary identity. -/
def Apart (puts : List (Put ι)) : Prop :=
  ∀ put ∈ puts, ∀ put' ∈ puts, put.credential.tid = put'.credential.tid → put.place = put'.place

theorem Current.mem {puts : List (Put ι)} {put : Put ι} (current : put.Current puts) :
    put ∈ puts := by
  obtain ⟨front, back, rfl, -⟩ := current
  exact List.mem_append_right _ List.mem_cons_self

/-- A further put is current, and replaces the one of its pair. -/
theorem current_concat {puts : List (Put ι)} {put other : Put ι} :
    other.Current (puts ++ [put]) ↔
      other = put ∨ other.Current puts ∧ put.place ≠ other.place := by
  constructor
  · rintro ⟨front, back, parts, last⟩
    obtain rfl | ⟨back, final, rfl⟩ := List.eq_nil_or_concat back
    · obtain ⟨-, same⟩ := List.append_inj' parts rfl
      exact .inl (List.cons.inj same).1.symm
    · rw [List.concat_eq_append] at parts last
      rw [← List.cons_append, ← List.append_assoc] at parts
      obtain ⟨rfl, same⟩ := List.append_inj' parts rfl
      obtain rfl := (List.cons.inj same).1
      exact .inr ⟨⟨front, back, rfl, fun later mem => last later (List.mem_append_left _ mem)⟩,
        last _ (List.mem_append_right _ List.mem_cons_self)⟩
  · rintro (rfl | ⟨⟨front, back, rfl, last⟩, apart⟩)
    · exact ⟨puts, [], rfl, nofun⟩
    · refine ⟨front, back ++ [put], by rw [List.append_assoc, List.cons_append], ?_⟩
      intro later mem
      obtain mem | mem := List.mem_append.mp mem
      · exact last later mem
      · rwa [List.mem_singleton.mp mem]

end Put

section Ledgers

variable {ι : Type}

/-- The ledger after a sequence of puts on the empty one. -/
def ledgerOf (puts : List (Put ι)) : Ledger :=
  puts.foldl (fun ledger put => ledger.store Credential.tid put.hexCredential.place
    put.hexCredential) .empty

theorem ledgerOf_concat (puts : List (Put ι)) (put : Put ι) :
    ledgerOf (puts ++ [put]) =
      (ledgerOf puts).store Credential.tid put.hexCredential.place put.hexCredential := by
  rw [ledgerOf, List.foldl_append]
  rfl

/-- The ledger holds exactly the current puts. -/
theorem record_ledgerOf (puts : List (Put ι)) (place : String × UInt16) (c : Credential) :
    (ledgerOf puts).record place = some c ↔
      ∃ put : Put ι, put.Current puts ∧ put.hexCredential.place = place ∧
        put.hexCredential = c := by
  induction puts using List.reverseRecOn with
  | nil =>
      constructor
      · intro held
        cases held
      · rintro ⟨put, current, -⟩
        cases current.mem
  | append_singleton puts put ih =>
      rw [ledgerOf_concat, IndexedStore.record_store]
      by_cases own : place = put.hexCredential.place
      · subst own
        rw [Function.update_self]
        constructor
        · intro held
          exact ⟨put, Put.current_concat.mpr (.inl rfl), rfl, Option.some.inj held⟩
        · rintro ⟨other, current, same, rfl⟩
          obtain rfl | ⟨-, replaced⟩ := Put.current_concat.mp current
          · rfl
          · exact absurd (Put.hexPlace_inj.mp same).symm replaced
      · rw [Function.update_of_ne own, ih]
        constructor
        · rintro ⟨other, current, rfl, rfl⟩
          refine ⟨other, Put.current_concat.mpr (.inr ⟨current, ?_⟩), rfl, rfl⟩
          intro same
          exact own (Put.hexPlace_inj.mpr same.symm)
        · rintro ⟨other, current, rfl, rfl⟩
          obtain rfl | ⟨older, -⟩ := Put.current_concat.mp current
          · exact absurd rfl own
          · exact ⟨other, older, rfl, rfl⟩

/-- Temporary identities that are kept apart keep every record in the index. -/
theorem complete_ledgerOf {puts : List (Put ι)} (apart : Put.Apart puts) :
    (ledgerOf puts).Complete Credential.tid := by
  induction puts using List.reverseRecOn with
  | nil =>
      intro place c held
      cases held
  | append_singleton puts put ih =>
      have before := ih fun p mem p' mem' =>
        apart p (List.mem_append_left _ mem) p' (List.mem_append_left _ mem')
      rw [ledgerOf_concat]
      apply before.store
      intro other held stored same
      obtain ⟨older, current, rfl, rfl⟩ := (record_ledgerOf puts other held).mp stored
      apply Put.hexPlace_inj.mpr
      refine apart older (List.mem_append_left _ current.mem) put
        (List.mem_append_right _ List.mem_cons_self) (Put.hexTid_inj.mp same)

/-- No index entry outlives its record. -/
theorem sound_ledgerOf (puts : List (Put ι)) : (ledgerOf puts).Sound Credential.tid := by
  induction puts using List.reverseRecOn with
  | nil =>
      intro tid place entry
      cases entry
  | append_singleton puts put ih =>
      rw [ledgerOf_concat]
      exact ih.store _ _

end Ledgers

/-- Boards that share a gateway: the committed texts, and for each board its client and the
answers on their way to it. -/
structure Fleet (ι : Type) where
  state : StateTexts
  client : ι → FabricUdpClient
  queue : ι → List Bytes

namespace Fleet

variable {ι : Type}

/-- What a board's call starts from. -/
def link (fleet : Fleet ι) (board : ι) : Link := ⟨fleet.state, fleet.queue board, 0⟩

/-- The empty ledger, and boards that await nothing. -/
structure Initial (gateway : Transport.Endpoint) (fleet : Fleet ι) : Prop where
  state : fleet.state = fun _ => []
  address : ∀ board, (fleet.client board).gateway = gateway
  queue : ∀ board, fleet.queue board = []

/-- The texts are those of the puts, and every board can make a call. -/
structure Good (hmac : Bytes → Digest) (gateway : Transport.Endpoint) (puts : List (Put ι))
    (fleet : Fleet ι) : Prop where
  stores : Stores fleet.state (ledgerOf puts)
  ready : ∀ board, Ready hmac gateway (fleet.client board) (fleet.queue board)

variable {hmac : Bytes → Digest} {gateway : Transport.Endpoint} {fleet : Fleet ι}
variable {puts : List (Put ι)}

theorem Good.put (good : Good hmac gateway puts fleet) (put : Put ι) :
    Routine.Ensures (Link.Answered hmac gateway) (fun _ => True)
      (fun result client link => result = some () ∧ Ready hmac gateway client link.queue ∧
        Stores link.state (ledgerOf (puts ++ [put])))
      (FabricUdpClient.putCredential put.slot put.credential) (fleet.client put.board)
      (fleet.link put.board) := by
  rw [ledgerOf_concat]
  exact @putCredential_delivered _ _ _ (fleet.link put.board) _ (good.ready put.board) good.stores
    put.credential put.slot

theorem Good.queryByIdentitySlot (good : Good hmac gateway puts fleet) (board : ι)
    (identityHash : Block) (slot : UInt16) {held : Option (Put ι)}
    (holds : (ledgerOf puts).record (Gateway.encodeToString identityHash.toList, slot) =
      held.map Put.hexCredential) :
    Routine.Ensures (Link.Answered hmac gateway) (fun _ => True)
      (fun result client link => result = held.map Put.credential ∧
        Ready hmac gateway client link.queue ∧ link.state = fleet.state ∧
          (held = none → client.lastStatus = gwNotFound))
      (FabricUdpClient.queryByIdentitySlot identityHash slot) (fleet.client board)
      (fleet.link board) := by
  have handled := @Gateway.handle_queryIdSlot _ _ good.stores (fleet.client board).nextRequestId
    identityHash slot (held.map fun put => (put.credential, put.slot))
    (by rw [holds, Option.map_map]; rfl)
  rw [Option.map_map] at handled
  refine (@query_delivered hmac gateway _ (fleet.link board) (good.ready board) _ _ _ _
    handled).mono ?_
  rintro result client link ⟨rfl, ready, state, absent⟩
  refine ⟨rfl, ready, state, fun none => absent ?_⟩
  rw [none]
  rfl

theorem Good.queryByTid (good : Good hmac gateway puts fleet) (board : ι) (tid : Block)
    {held : Option (Put ι)}
    (holds : ((ledgerOf puts).index (Gateway.encodeToString tid.toList)).bind
      (ledgerOf puts).record = held.map Put.hexCredential) :
    Routine.Ensures (Link.Answered hmac gateway) (fun _ => True)
      (fun result client link => result = held.map Put.credential ∧
        Ready hmac gateway client link.queue ∧ link.state = fleet.state ∧
          (held = none → client.lastStatus = gwNotFound))
      (FabricUdpClient.queryByTid tid) (fleet.client board) (fleet.link board) := by
  have handled := @Gateway.handle_queryTid _ _ good.stores (fleet.client board).nextRequestId 0 tid
    (held.map fun put => (put.credential, put.slot)) (by rw [holds, Option.map_map]; rfl)
  rw [Option.map_map] at handled
  refine (@query_delivered hmac gateway _ (fleet.link board) (good.ready board) _ _ _ _
    handled).mono ?_
  rintro result client link ⟨rfl, ready, state, absent⟩
  refine ⟨rfl, ready, state, fun none => absent ?_⟩
  rw [none]
  rfl

/-- What the ledger holds under a place is the record of a current put. -/
theorem held_ledgerOf (puts : List (Put ι)) (place : String × UInt16) :
    ∃ held : Option (Put ι), (ledgerOf puts).record place = held.map Put.hexCredential := by
  cases stored : (ledgerOf puts).record place with
  | none => exact ⟨none, rfl⟩
  | some c =>
      obtain ⟨put, -, -, rfl⟩ := (record_ledgerOf puts place c).mp stored
      exact ⟨some put, rfl⟩

section Histories

variable [DecidableEq ι]

/-- The boards after a call of one of them. -/
def after (fleet : Fleet ι) (board : ι) (client : FabricUdpClient) (link : Link) : Fleet ι where
  state := link.state
  client := Function.update fleet.client board client
  queue := Function.update fleet.queue board link.queue

/-- The boards after any calls of theirs, with the puts among them. -/
inductive History (hmac : Bytes → Digest) (gateway : Transport.Endpoint) (start : Fleet ι) :
    List (Put ι) → Fleet ι → Prop where
  | start : History hmac gateway start [] start
  | put {puts : List (Put ι)} {fleet : Fleet ι} {result : Option Unit} {client : FabricUdpClient}
      {link : Link} (earlier : History hmac gateway start puts fleet) (put : Put ι)
      (run : Routine.Run (Link.Answered hmac gateway)
        (FabricUdpClient.putCredential put.slot put.credential) (fleet.client put.board)
        (fleet.link put.board) result client link) :
      History hmac gateway start (puts ++ [put]) (fleet.after put.board client link)
  | queryByIdentitySlot {puts : List (Put ι)} {fleet : Fleet ι} {result : Option FabricCredential}
      {client : FabricUdpClient} {link : Link} (earlier : History hmac gateway start puts fleet)
      (board : ι) (identityHash : Block) (slot : UInt16)
      (run : Routine.Run (Link.Answered hmac gateway)
        (FabricUdpClient.queryByIdentitySlot identityHash slot) (fleet.client board)
        (fleet.link board) result client link) :
      History hmac gateway start puts (fleet.after board client link)
  | queryByTid {puts : List (Put ι)} {fleet : Fleet ι} {result : Option FabricCredential}
      {client : FabricUdpClient} {link : Link} (earlier : History hmac gateway start puts fleet)
      (board : ι) (tid : Block)
      (run : Routine.Run (Link.Answered hmac gateway) (FabricUdpClient.queryByTid tid)
        (fleet.client board) (fleet.link board) result client link) :
      History hmac gateway start puts (fleet.after board client link)

variable {start : Fleet ι} {puts' : List (Put ι)}

theorem Good.after (good : Good hmac gateway puts fleet) (board : ι) {client : FabricUdpClient}
    {link : Link} (ready : Ready hmac gateway client link.queue)
    (stores : Stores link.state (ledgerOf puts')) :
    Good hmac gateway puts' (fleet.after board client link) := by
  refine ⟨stores, fun other => ?_⟩
  by_cases own : other = board
  · subst own
    simp only [Fleet.after, Function.update_self]
    exact ready
  · simp only [Fleet.after, Function.update_of_ne own]
    exact good.ready other

/-- Whatever the boards do, the texts stay those of the puts. -/
theorem History.good (initial : start.Initial gateway)
    (history : History hmac gateway start puts fleet) : Good hmac gateway puts fleet := by
  induction history with
  | start =>
      refine ⟨?_, fun board => ⟨initial.address board, ?_⟩⟩
      · rw [initial.state]
        exact stores_empty
      · rw [initial.queue]
        exact nofun
  | put earlier put run ih =>
      obtain ⟨-, ready, stores⟩ := (ih.put put).post_of_run run trivial
      exact ih.after put.board ready stores
  | queryByIdentitySlot earlier board identityHash slot run ih =>
      obtain ⟨held, holds⟩ := held_ledgerOf _ (Gateway.encodeToString identityHash.toList, slot)
      obtain ⟨-, ready, state, -⟩ :=
        (ih.queryByIdentitySlot board identityHash slot holds).post_of_run run trivial
      exact ih.after board ready (state ▸ ih.stores)
  | @queryByTid puts fleet _ _ _ earlier board tid run ih =>
      have held : ∃ held : Option (Put ι), ((ledgerOf puts).index
          (Gateway.encodeToString tid.toList)).bind (ledgerOf puts).record =
            held.map Put.hexCredential := by
        cases (ledgerOf puts).index (Gateway.encodeToString tid.toList) with
        | none => exact ⟨none, rfl⟩
        | some place => exact held_ledgerOf puts place
      obtain ⟨held, holds⟩ := held
      obtain ⟨-, ready, state, -⟩ := (ih.queryByTid board tid holds).post_of_run run trivial
      exact ih.after board ready (state ▸ ih.stores)

/-- Every board can put a further record. -/
theorem History.exists_put (initial : start.Initial gateway)
    (history : History hmac gateway start puts fleet) (put : Put ι) :
    ∃ fleet', History hmac gateway start (puts ++ [put]) fleet' := by
  obtain ⟨⟨result, client, link, run⟩, -⟩ :=
    ((history.good initial).put put).total (Link.answered_responsive hmac gateway)
  exact ⟨_, history.put put run⟩

/-- After any history of puts in which two pairs never use the same temporary identity, every
board finds the record that was last put for a pair by both queries, finds nothing under a
temporary identity that no pair uses now, and can put every record. -/
theorem credential_round_trip (initial : start.Initial gateway) (apart : Put.Apart puts)
    (history : History hmac gateway start puts fleet) (board : ι) :
    (∀ put : Put ι, put.Current puts →
      Routine.Total (Link.Answered hmac gateway) (fun result _ _ => result = some put.credential)
        (FabricUdpClient.queryByIdentitySlot put.credential.identityHash put.slot)
        (fleet.client board) (fleet.link board) ∧
      Routine.Total (Link.Answered hmac gateway) (fun result _ _ => result = some put.credential)
        (FabricUdpClient.queryByTid put.credential.tid) (fleet.client board) (fleet.link board)) ∧
    (∀ tid, (∀ put : Put ι, put.Current puts → put.credential.tid ≠ tid) →
      Routine.Total (Link.Answered hmac gateway)
        (fun result client _ => result = none ∧ client.lastStatus = gwNotFound)
        (FabricUdpClient.queryByTid tid) (fleet.client board) (fleet.link board)) ∧
    ∀ slot credential, Routine.Total (Link.Answered hmac gateway)
      (fun result _ _ => result = some ()) (FabricUdpClient.putCredential slot credential)
      (fleet.client board) (fleet.link board) := by
  have responsive := Link.answered_responsive hmac gateway
  have good := history.good initial
  refine ⟨?_, ?_, ?_⟩
  · intro put current
    have stored : (ledgerOf puts).record
        (Gateway.encodeToString put.credential.identityHash.toList, put.slot) =
          (some put).map Put.hexCredential :=
      (record_ledgerOf puts _ _).mpr ⟨put, current, rfl, rfl⟩
    have indexed := complete_ledgerOf apart _ _ stored
    have found : ((ledgerOf puts).index put.hexCredential.tid).bind (ledgerOf puts).record =
        (some put).map Put.hexCredential := by
      rw [indexed]
      exact stored
    exact ⟨((good.queryByIdentitySlot board _ _ stored).total responsive).mono
        fun _ _ _ answered => answered.1,
      ((good.queryByTid board _ found).total responsive).mono fun _ _ _ answered => answered.1⟩
  · intro tid unused
    have absent : (ledgerOf puts).index (Gateway.encodeToString tid.toList) = none := by
      rw [Option.eq_none_iff_forall_not_mem]
      intro place entry
      obtain ⟨c, stored, tagged⟩ := sound_ledgerOf puts _ place entry
      obtain ⟨put, current, -, rfl⟩ := (record_ledgerOf puts place c).mp stored
      exact unused put current (Put.hexTid_inj.mp tagged)
    have nothing : ((ledgerOf puts).index (Gateway.encodeToString tid.toList)).bind
        (ledgerOf puts).record = (none : Option (Put ι)).map Put.hexCredential := by
      rw [absent]
      rfl
    refine ((good.queryByTid board tid nothing).total responsive).mono ?_
    intro result client link answered
    exact ⟨answered.1, answered.2.2.2 rfl⟩
  · intro slot credential
    exact ((good.put ⟨board, slot, credential⟩).total responsive).mono
      fun _ _ _ answered => answered.1

/-- A record whose fields repeat one byte each. -/
def exampleCredential (id tid : UInt8) : FabricCredential where
  identityHash := List.Vector.replicate _ id
  tid := List.Vector.replicate _ tid
  publicKey := List.Vector.replicate _ 0
  w := List.Vector.replicate _ 0
  verifyHash := List.Vector.replicate _ 0

/-- One pair changes its temporary identity; the new one is found and the old one is not. -/
theorem credential_round_trip_replaced : ∃ fleet : Fleet Unit,
    Routine.Total (Link.Answered (fun _ => List.Vector.replicate _ 0) ⟨0, 5400⟩)
      (fun result _ _ => result = some (exampleCredential 1 3))
      (FabricUdpClient.queryByTid (exampleCredential 1 3).tid) (fleet.client ()) (fleet.link ()) ∧
    Routine.Total (Link.Answered (fun _ => List.Vector.replicate _ 0) ⟨0, 5400⟩)
      (fun result client _ => result = none ∧ client.lastStatus = gwNotFound)
      (FabricUdpClient.queryByTid (exampleCredential 1 2).tid) (fleet.client ())
      (fleet.link ()) := by
  let start : Fleet Unit := ⟨fun _ => [], fun _ => .start ⟨0, 5400⟩ ⟨0, 0, 0, 0⟩, fun _ => []⟩
  have initial : start.Initial ⟨0, 5400⟩ := ⟨rfl, fun _ => rfl, fun _ => rfl⟩
  let first : Put Unit := ⟨(), 0, exampleCredential 1 2⟩
  let second : Put Unit := ⟨(), 0, exampleCredential 1 3⟩
  obtain ⟨fleet₁, history₁⟩ := History.exists_put initial
    (@History.start Unit _ (fun _ => List.Vector.replicate _ 0) ⟨0, 5400⟩ start) first
  obtain ⟨fleet, history⟩ := history₁.exists_put initial second
  have apart : Put.Apart ([] ++ [first] ++ [second]) := by
    intro put mem put' mem' _
    simp only [List.nil_append, List.mem_append, List.mem_singleton] at mem mem'
    obtain rfl | rfl := mem <;> obtain rfl | rfl := mem' <;> rfl
  obtain ⟨found, absent, -⟩ := credential_round_trip initial apart history ()
  refine ⟨fleet, (found second ?_).2, absent _ ?_⟩
  · exact ⟨[first], [], rfl, nofun⟩
  · intro put current same
    obtain rfl | ⟨older, apart⟩ := Put.current_concat.mp current
    · have bytes := congrArg (fun tid : Block => tid.toList.head?) same
      exact absurd bytes (by decide)
    · exact apart (by rw [List.mem_singleton.mp older.mem]; rfl)

end Histories

end Fleet

end Apqe
