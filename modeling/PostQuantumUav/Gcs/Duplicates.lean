import PostQuantumUav.Gcs.PublishFetch
import PostQuantumUav.Library.LastWrite

/-!
# Extra copies of enrolments

The network may deliver a datagram again after it has arrived. A packet carries
nothing that tells when it was made, and the server keeps what arrived last: an
extra copy is a no-op while its record is the current one, and brings the record
back when another one has replaced it.
-/

namespace Gcs

open LastWrite

/-- A datagram that arrives, for the first time or as an extra copy. -/
structure Arrival where
  datagram : Bytes
  copy : Bool

/-- An arrival order in which every extra copy repeats a datagram that has arrived. -/
structure Delivery where
  arrivals : List Arrival
  copied : ∀ front a back, arrivals = front ++ a :: back → a.copy = true →
    ∃ b ∈ front, b.datagram = a.datagram

namespace Delivery

/-- Everything that arrives, in order. -/
def datagrams (arrivals : List Arrival) : List Bytes := arrivals.map Arrival.datagram

/-- Every datagram once, at its first arrival. -/
def firsts (arrivals : List Arrival) : List Bytes :=
  datagrams (arrivals.filter fun a => ¬ a.copy)

theorem exists_first (d : Delivery) {a : Arrival} (mem : a ∈ d.arrivals) :
    ∃ b ∈ d.arrivals, b.copy = false ∧ b.datagram = a.datagram := by
  suffices before : ∀ n front a back, front.length = n → d.arrivals = front ++ a :: back →
      ∃ b ∈ d.arrivals, b.copy = false ∧ b.datagram = a.datagram by
    obtain ⟨front, back, split⟩ := List.append_of_mem mem
    exact before _ front a back rfl split
  intro n
  induction n using Nat.strong_induction_on with
  | _ n ih =>
      intro front a back length split
      cases copy : a.copy with
      | false => exact ⟨a, by rw [split]; simp, copy, rfl⟩
      | true =>
          obtain ⟨b, mem, same⟩ := d.copied front a back split copy
          obtain ⟨front', back', split'⟩ := List.append_of_mem mem
          have shorter : front'.length < n := by
            rw [← length, split']
            simp
          obtain ⟨c, mem', first, same'⟩ := ih _ shorter front' b (back' ++ a :: back) rfl
            (by rw [split, split', List.append_assoc, List.cons_append])
          exact ⟨c, mem', first, same'.trans same⟩

section Writes

variable {K V : Type} [DecidableEq K] (write : Bytes → Option (K × V))

/-- At the arrival of each extra copy, its record is the one that arrived last for its key. -/
def Prompt (d : Delivery) : Prop :=
  ∀ front a back, d.arrivals = front ++ a :: back → a.copy = true →
    ∀ key value, write a.datagram = some (key, value) →
      last ((datagrams front).filterMap write) key = some value

/-- Extra copies write no key that the first arrivals do not write. -/
theorem last_eq_none_iff (d : Delivery) (key : K) :
    last ((datagrams d.arrivals).filterMap write) key = none ↔
      last ((firsts d.arrivals).filterMap write) key = none := by
  simp only [last_eq_none, List.mem_filterMap, firsts, datagrams, List.mem_map, List.mem_filter]
  constructor
  · rintro none w ⟨_, ⟨a, ⟨mem, -⟩, rfl⟩, written⟩
    exact none w ⟨_, ⟨a, mem, rfl⟩, written⟩
  · rintro none w ⟨_, ⟨a, mem, rfl⟩, written⟩
    obtain ⟨b, mem', first, same⟩ := d.exists_first mem
    exact none w ⟨_, ⟨b, ⟨mem', by simp [first]⟩, same⟩, written⟩

/-- Prompt copies leave every key as the first arrivals do. -/
theorem Prompt.last_eq {d : Delivery} (prompt : Prompt write d) (key : K) :
    last ((datagrams d.arrivals).filterMap write) key =
      last ((firsts d.arrivals).filterMap write) key := by
  suffices upTo : ∀ front back, d.arrivals = front ++ back →
      last ((datagrams front).filterMap write) key = last ((firsts front).filterMap write) key from
    upTo d.arrivals [] (List.append_nil _).symm
  intro front
  induction front using List.reverseRecOn with
  | nil => exact fun _ _ => rfl
  | append_singleton front a ih =>
      intro back split
      rw [List.append_assoc, List.singleton_append] at split
      have earlier := ih (a :: back) split
      have all : (datagrams (front ++ [a])).filterMap write =
          (datagrams front).filterMap write ++ (write a.datagram).toList := by
        rw [datagrams, List.map_append, List.filterMap_append]
        cases written : write a.datagram <;> simp [written, datagrams]
      cases copy : a.copy with
      | true =>
          have once : firsts (front ++ [a]) = firsts front := by
            simp [firsts, List.filter_append, copy]
          rw [once, all, ← earlier]
          cases written : write a.datagram with
          | none => simp
          | some w =>
              change last (_ ++ [w]) key = _
              rw [last_append]
              split
              · rename_i same
                subst same
                exact (prompt front a back split copy w.1 w.2 written).symm
              · rfl
      | false =>
          have once : (firsts (front ++ [a])).filterMap write =
              (firsts front).filterMap write ++ (write a.datagram).toList := by
            simp only [firsts, datagrams, List.filter_append, List.map_append,
              List.filterMap_append]
            cases written : write a.datagram <;> simp [written, copy]
          rw [once, all]
          cases write a.datagram with
          | none => simpa using earlier
          | some w =>
              change last (_ ++ [w]) key = last (_ ++ [w]) key
              rw [last_append, last_append, earlier]

end Writes

end Delivery

section Tables

variable (hmac : Bytes → Tag)

/-- The row of `credential_roots` that a packet writes. -/
def rootWrite (packet : Bytes) : Option ((Bytes × Nat) × RootRecord) :=
  match parseRootRecord hmac packet with
  | .error _ => none
  | .ok (deviceId, version, record) =>
      if record.expiryUnix > Ledger.sqliteMax then none else some ((deviceId, version), record)

/-- The row of `lms_paths` that a packet writes. -/
def pathWrite (packet : Bytes) : Option ((Bytes × Nat × Nat) × Bytes) :=
  match parsePathRecord hmac packet with
  | .error _ => none
  | .ok (deviceId, version, q, path) => some ((deviceId, version, q), path)

/-- The tables after a sequence of packets. A service that a packet ends is started again. -/
def process (ledger : Ledger) (packets : List Bytes) : Ledger :=
  packets.foldl (Link.serve hmac) ledger

variable {hmac} {ledger : Ledger} {packet : Bytes}

/-- A packet of one op is not a record of the other. -/
theorem pathWrite_of_root {values : Bytes × Nat × RootRecord}
    (parsed : parseRootRecord hmac packet = .ok values) : pathWrite hmac packet = none := by
  have sized := (MainLoop.parseRootRecord_form parsed).1
  rw [pathWrite, parsePathRecord, if_pos (.inl (by rw [sized]; decide))]

/-- One packet writes at most one row. -/
theorem serve_eq (valid : ledger.Valid) :
    (Link.serve hmac ledger packet).roots =
        ((rootWrite hmac packet).toList.foldl apply ledger.roots) ∧
      (Link.serve hmac ledger packet).paths =
        ((pathWrite hmac packet).toList.foldl apply ledger.paths) := by
  cases rootParsed : parseRootRecord hmac packet with
  | ok values =>
      obtain ⟨deviceId, version, record⟩ := values
      rw [pathWrite_of_root rootParsed, rootWrite, rootParsed]
      dsimp only
      by_cases large : record.expiryUnix > Ledger.sqliteMax
      · have stopped : handle hmac ledger packet = .stopped :=
          (MainLoop.handle_stopped_iff valid).mpr
            ⟨⟨_, rootParsed⟩, (MainLoop.parseRootRecord_form rootParsed).2.2.2 ▸ large⟩
        rw [Link.serve, stopped, if_pos large]
        exact ⟨rfl, rfl⟩
      · obtain ⟨ledger', stored⟩ := ledger.exists_upsertRoot deviceId version
          (Nat.not_lt.mp large)
        rw [Link.serve, handle_rootRecord rootParsed stored, if_neg large]
        exact ⟨Ledger.roots_upsertRoot stored, Ledger.paths_upsertRoot stored⟩
  | error rejected =>
      have noRoot : rootWrite hmac packet = none := by rw [rootWrite, rootParsed]
      cases pathParsed : parsePathRecord hmac packet with
      | ok values =>
          obtain ⟨deviceId, version, q, path⟩ := values
          rw [noRoot, pathWrite, pathParsed, Link.serve, handle_pathRecord pathParsed]
          exact ⟨Ledger.roots_upsertPath .., Ledger.paths_upsertPath ..⟩
      | error rejected' =>
          have noPath : pathWrite hmac packet = none := by rw [pathWrite, pathParsed]
          rw [noRoot, noPath, Link.serve]
          split
          · rename_i ledger' reply turn
            rcases handle_writes turn with ⟨_, _, _, parsed, -⟩ | ⟨_, _, _, _, parsed, -⟩ | rfl
            · cases rootParsed.symm.trans parsed
            · cases pathParsed.symm.trans parsed
            · exact ⟨rfl, rfl⟩
          · exact ⟨rfl, rfl⟩

theorem valid_serve (valid : ledger.Valid) (packet : Bytes) :
    (Link.serve hmac ledger packet).Valid := by
  rw [Link.serve]
  split
  · rename_i turn
    exact (MainLoop.handle_replied_valid valid turn).1
  · exact valid

/-- A sequence of packets writes its rows in order. -/
theorem process_eq (valid : ledger.Valid) (packets : List Bytes) :
    (process hmac ledger packets).roots = (packets.filterMap (rootWrite hmac)).foldl apply
        ledger.roots ∧
      (process hmac ledger packets).paths = (packets.filterMap (pathWrite hmac)).foldl apply
        ledger.paths := by
  induction packets generalizing ledger with
  | nil => exact ⟨rfl, rfl⟩
  | cons packet rest ih =>
      obtain ⟨roots, paths⟩ := @serve_eq hmac ledger packet valid
      obtain ⟨roots', paths'⟩ := ih (valid_serve valid packet)
      rw [process, List.foldl_cons]
      refine ⟨roots'.trans ?_, paths'.trans ?_⟩
      · rw [roots]
        cases written : rootWrite hmac packet <;> simp [written]
      · rw [paths]
        cases written : pathWrite hmac packet <;> simp [written]

/-- Every key holds the record that arrived last for it. -/
theorem process_last (valid : ledger.Valid) (packets : List Bytes) :
    (∀ key, (process hmac ledger packets).roots key =
        (last (packets.filterMap (rootWrite hmac)) key).or (ledger.roots key)) ∧
      ∀ key, (process hmac ledger packets).paths key =
        (last (packets.filterMap (pathWrite hmac)) key).or (ledger.paths key) := by
  obtain ⟨roots, paths⟩ := @process_eq hmac ledger valid packets
  refine ⟨fun key => ?_, fun key => ?_⟩
  · rw [roots, foldl_apply]
  · rw [paths, foldl_apply]

open Delivery in
/-- Every key holds the record that arrived last. Extra copies leave the tables as the first
arrivals alone do exactly when every key ends with the value that arrived last for the first time.
Copies that arrive while their own record is the current one have this effect. -/
theorem copies_harmless_iff (hmac : Bytes → Tag) (history : List Bytes) (d : Delivery) :
    let ledger := MainLoop.ledgerAfter hmac 1 history
    ((∀ key, (process hmac ledger (datagrams d.arrivals)).roots key =
        (last ((datagrams d.arrivals).filterMap (rootWrite hmac)) key).or (ledger.roots key)) ∧
      ∀ key, (process hmac ledger (datagrams d.arrivals)).paths key =
        (last ((datagrams d.arrivals).filterMap (pathWrite hmac)) key).or (ledger.paths key)) ∧
    (process hmac ledger (datagrams d.arrivals) = process hmac ledger (firsts d.arrivals) ↔
      (∀ key, last ((datagrams d.arrivals).filterMap (rootWrite hmac)) key =
        last ((firsts d.arrivals).filterMap (rootWrite hmac)) key) ∧
      ∀ key, last ((datagrams d.arrivals).filterMap (pathWrite hmac)) key =
        last ((firsts d.arrivals).filterMap (pathWrite hmac)) key) ∧
    (Prompt (rootWrite hmac) d → Prompt (pathWrite hmac) d →
      process hmac ledger (datagrams d.arrivals) = process hmac ledger (firsts d.arrivals)) := by
  intro ledger
  have valid : ledger.Valid := MainLoop.valid_ledgerAfter history
  generalize ledger = ledger at valid
  obtain ⟨allRoots, allPaths⟩ := @process_eq hmac ledger valid (datagrams d.arrivals)
  obtain ⟨firstRoots, firstPaths⟩ := @process_eq hmac ledger valid (firsts d.arrivals)
  have iff : process hmac ledger (datagrams d.arrivals) = process hmac ledger (firsts d.arrivals) ↔
      (∀ key, last ((datagrams d.arrivals).filterMap (rootWrite hmac)) key =
        last ((firsts d.arrivals).filterMap (rootWrite hmac)) key) ∧
      ∀ key, last ((datagrams d.arrivals).filterMap (pathWrite hmac)) key =
        last ((firsts d.arrivals).filterMap (pathWrite hmac)) key := by
    rw [Ledger.ext_iff, allRoots, allPaths, firstRoots, firstPaths,
      foldl_apply_eq_iff (d.last_eq_none_iff _), foldl_apply_eq_iff (d.last_eq_none_iff _)]
  exact ⟨process_last valid _, iff, fun roots paths => iff.mpr ⟨roots.last_eq _, paths.last_eq _⟩⟩

/-- The enrolment of version 1 by one device with a status. -/
def statusRecord (status : UInt8) : Bytes :=
  tagged MainLoop.zeroTag (Puav.GcsLedgerClient.enrollRootRequest
    (List.Vector.replicate 32 0x41) 1 (List.Vector.replicate 16 0) (List.Vector.replicate 32 0x52)
    0x00010001 status 0)

/-- A copy of the first datagram arrives after the second. -/
def lateCopy (first second : Bytes) : Delivery where
  arrivals := [⟨first, false⟩, ⟨second, false⟩, ⟨first, true⟩]
  copied := by
    intro front a back split copy
    match front, split with
    | [], split => cases split; nomatch copy
    | [_], split => cases split; nomatch copy
    | [_, _], split => cases split; exact ⟨_, List.mem_cons_self, rfl⟩
    | _ :: _ :: _ :: _, split => simp at split

/-- The status that was replaced is back. -/
theorem lateCopy_restores_status :
    process MainLoop.zeroTag (MainLoop.ledgerAfter MainLoop.zeroTag 1 [])
        (Delivery.datagrams (lateCopy (statusRecord 1) (statusRecord 3)).arrivals) ≠
      process MainLoop.zeroTag (MainLoop.ledgerAfter MainLoop.zeroTag 1 [])
        (Delivery.firsts (lateCopy (statusRecord 1) (statusRecord 3)).arrivals) := by
  have written (status : UInt8) (range : status ≤ 3) :
      rootWrite MainLoop.zeroTag (statusRecord status) = some
        (((List.Vector.replicate 32 0x41 : Puav.Identity).toList, 1),
          ⟨(List.Vector.replicate 16 0 : Puav.Identifier).toList,
            (List.Vector.replicate 32 0x52 : Puav.Digest).toList, 0x00010001, status.toNat,
            0⟩) := by
    rw [rootWrite, statusRecord, parseRootRecord_request _ _ _ _ _ _ range rfl]
    exact if_neg (Nat.not_lt_zero _)
  have writtenActive := written 1 (by decide)
  have writtenRevoked := written 3 (by decide)
  generalize statusRecord 1 = active at *
  generalize statusRecord 3 = revoked at *
  have valid := @MainLoop.valid_ledgerAfter MainLoop.zeroTag 1 []
  generalize MainLoop.ledgerAfter MainLoop.zeroTag 1 [] = ledger at *
  intro same
  have all := (@process_eq MainLoop.zeroTag _ valid
    (Delivery.datagrams (lateCopy active revoked).arrivals)).1
  rw [same, (process_eq valid _).1] at all
  have key := congrFun all ((List.Vector.replicate 32 0x41 : Puav.Identity).toList, 1)
  rw [foldl_apply, foldl_apply] at key
  simp [Delivery.firsts, Delivery.datagrams, lateCopy, writtenActive, writtenRevoked, last] at key

end Tables

end Gcs
