import PostQuantumUav.Gcs.AuditedLedger
import PostQuantumUav.Library.HashLog
import PostQuantumUav.Library.HashTree

/-!
# What the last hash of an audit file stands for

Every record is hashed with the hash of the record before it, and the server keeps the last
of these hashes. A file that an auditor accepts and that ends in this hash holds the records
of the server, up to spaces and the order of members. So it replays to the tables of the
server, whoever has written it.

Otherwise SHA-256 has given one digest to two different records, or a record the digest that
an empty file starts from.
-/

namespace Gcs

open Json

/-- The text that the hash of a line is taken of. -/
def hashedText (line : Text) : Text :=
  canonical (((lineFields line).getD []).filter fun f => f.1 ≠ "block_hash".toList)

/-- The hash that a hashed text names. -/
def namedHash (text : Text) : Text :=
  ((lineFields text).bind fun fields => textOf fields "previous_hash".toList).getD []

section Audits

variable (sha256 : Bytes → List.Vector UInt8 32)

/-- The hash that a line after these would have to name. -/
def endHash (lines : List Text) : Text :=
  HashLog.last (fun text => hexdigest sha256 (encode text)) zeroHash (lines.map hashedText)

/-- An auditor accepts the line after a hash. Its members are plain strings, which need no escapes,
and plain numbers. -/
structure AcceptsLine (previousHash line : Text) : Prop where
  verifies : Verifies sha256 previousHash line
  flat : ∀ fields, lineFields line = some fields → isFlat fields = true

/-- An auditor accepts every line of the file. -/
def Accepts (lines : List Text) : Prop :=
  ∀ front line back, lines = front ++ line :: back → AcceptsLine sha256 (endHash sha256 front) line

/-- The strings that an auditor hashes. -/
def evidence (lines : List Text) : List Bytes := lines.map fun line => encode (hashedText line)

/-- Two different records of the files have one digest, or a record has the all-zero one. -/
def Broken (lines lines' : List Text) : Prop :=
  HashTree.Collides sha256 (evidence lines) (evidence lines') ∨
    ∃ data, (data ∈ evidence lines ∨ data ∈ evidence lines') ∧ hexdigest sha256 data = zeroHash

/-- Replaying the lines gives the tables: every root, and of every path that is stored, and of no
other one, its hash. -/
structure Replays (ledger : Ledger) (lines : List Text) : Prop where
  roots : (lines.filterMap rootEntry).foldl LastWrite.apply (fun _ => none) = ledger.roots
  paths : ∀ key, LastWrite.last (lines.filterMap pathEntry) key =
    (ledger.paths key).map (hexdigest sha256)

end Audits

variable {sha256 : Bytes → List.Vector UInt8 32}

section Texts

theorem lineFields_eq_some {line : Text} {fields : List (Text × Json)} :
    lineFields line = some fields ↔ loads pythonWords line = some (.object fields) := by
  rw [lineFields]
  split
  · rename_i found
    rw [found, Option.some.injEq, Option.some.injEq, Json.object.injEq]
  · rename_i other
    exact iff_of_false (Option.some_ne_none _).symm (other fields)

theorem nodup_of_lineFields {line : Text} {fields : List (Text × Json)}
    (read : lineFields line = some fields) : (fields.map Prod.fst).Nodup := by
  refine nodup_of_loads (fun w word fields object => ?_) (lineFields_eq_some.mp read)
  simp only [pythonWords, List.mem_cons, List.not_mem_nil, or_false] at word
  rcases word with rfl | rfl | rfl | rfl | rfl | rfl <;> cases object

/-- A hashed text is read as the members of its line without the hash. -/
theorem lineFields_hashedText {line : Text} {fields : List (Text × Json)}
    (read : lineFields line = some fields) (flat : isFlat fields = true) :
    ∃ hashed, lineFields (hashedText line) = some hashed ∧ isFlat hashed = true ∧
      hashedText line = canonical hashed ∧
      ∀ name, name ≠ "block_hash".toList → get? hashed name = get? fields name := by
  have distinct : ((fields.filter fun f => f.1 ≠ "block_hash".toList).map Prod.fst).Nodup :=
    (nodup_of_lineFields read).sublist (List.filter_sublist.map _)
  have plain : isFlat (fields.filter fun f => f.1 ≠ "block_hash".toList) = true := by
    rw [isFlat, List.all_eq_true] at flat ⊢
    exact fun f mem => flat f (List.mem_of_mem_filter mem)
  have others : ∀ name, name ≠ "block_hash".toList →
      get? (fields.filter fun f => f.1 ≠ "block_hash".toList) name = get? fields name :=
    fun name other => get?_filter fields other
  rw [hashedText, read, Option.getD_some]
  generalize fields.filter (fun f => f.1 ≠ "block_hash".toList) = hashed at *
  have sorted := perm_sortKeys hashed
  have distinct' := (sorted.map Prod.fst).nodup_iff.mpr distinct
  have plain' := (isFlat_of_perm sorted).trans plain
  have loaded := @loads_object pythonWords [] _ [] rfl rfl plain' distinct'
  rw [List.append_nil] at loaded
  refine ⟨sortKeys hashed, lineFields_eq_some.mpr loaded, plain', ?_, fun name other => ?_⟩
  · rw [canonical, canonical, sortKeys_eq_of_perm sorted distinct']
  · rw [get?_of_perm sorted distinct', others name other]

/-- It names the same rows. -/
theorem entries_hashedText {line : Text} {fields : List (Text × Json)}
    (read : lineFields line = some fields) (flat : isFlat fields = true) :
    rootEntry (hashedText line) = rootEntry line ∧
      pathEntry (hashedText line) = pathEntry line := by
  obtain ⟨hashed, read', -, -, same⟩ := lineFields_hashedText read flat
  have texts : ∀ name, name ≠ "block_hash".toList → textOf hashed name = textOf fields name :=
    fun name other => by rw [textOf, textOf, same name other]
  have bytes : ∀ name, name ≠ "block_hash".toList → bytesOf hashed name = bytesOf fields name :=
    fun name other => by rw [bytesOf, bytesOf, texts name other]
  have naturals : ∀ name, name ≠ "block_hash".toList →
      naturalOf hashed name = naturalOf fields name :=
    fun name other => by rw [naturalOf, naturalOf, same name other]
  rw [rootEntry, rootEntry, pathEntry, pathEntry, read, read']
  simp only [Option.bind_eq_bind, Option.bind_some, texts "event".toList (by decide),
    bytes "device_id".toList (by decide), naturals "version".toList (by decide),
    bytes "identifier".toList (by decide), bytes "root".toList (by decide),
    naturals "suite_id".toList (by decide), naturals "status".toList (by decide),
    naturals "expiry_unix".toList (by decide), naturals "q".toList (by decide),
    texts "path_sha256".toList (by decide), and_self]

/-- A character that is printed has one byte. -/
theorem ofNat_byte {c : Char} (printed : isPlain c = true ∨ c ∈ ['"', '{', '}']) :
    Char.ofNat (UInt8.ofNat c.toNat).toNat = c := by
  have small : c.toNat < 256 := by
    rcases printed with plain | bracket
    · simp only [isPlain, decide_eq_true_eq] at plain
      have high : c.toNat ≤ '~'.toNat := plain.2.1
      exact Nat.lt_of_le_of_lt high (by decide)
    · simp only [List.mem_cons, List.not_mem_nil, or_false] at bracket
      rcases bracket with rfl | rfl | rfl <;> decide
  rw [UInt8.toNat_ofNat', Nat.mod_eq_of_lt small, Char.ofNat_toNat]

theorem printed_canonical {fields : List (Text × Json)} (flat : isFlat fields = true) {c : Char}
    (mem : c ∈ canonical fields) : isPlain c = true ∨ c ∈ ['"', '{', '}'] := by
  rw [canonical, print, List.mem_append, List.mem_cons, List.mem_singleton] at mem
  rcases mem with (rfl | inside) | rfl
  · exact .inr (by decide)
  · by_contra special
    rw [not_or, Bool.not_eq_true] at special
    refine notMem_printFields special.1 (fun quote => ?_) List.not_mem_nil
      ((isFlat_of_perm (perm_sortKeys fields)).trans flat) inside
    exact special.2 (quote ▸ List.mem_cons_self)
  · exact .inr (by decide)

/-- The text of a flat object is encoded without loss. -/
theorem encode_canonical_inj {fields fields' : List (Text × Json)} (flat : isFlat fields = true)
    (flat' : isFlat fields' = true)
    (same : encode (canonical fields) = encode (canonical fields')) :
    canonical fields = canonical fields' := by
  have decoded : ∀ {fields : List (Text × Json)}, isFlat fields = true →
      (encode (canonical fields)).map (fun byte => Char.ofNat byte.toNat) = canonical fields := by
    intro fields flat
    rw [encode, List.map_map]
    exact (List.map_congr_left fun c mem => ofNat_byte (printed_canonical flat mem)).trans
      (List.map_id _)
  rw [← decoded flat, same, decoded flat']

end Texts

section Evidence

variable {lines lines' : List Text}

/-- The texts that an auditor hashes are linked. -/
theorem Accepts.linked (accepts : Accepts sha256 lines) :
    HashLog.Linked (fun text => hexdigest sha256 (encode text)) zeroHash namedHash
      (lines.map hashedText) := by
  intro front text back split
  obtain ⟨front, rest, rfl, rfl, others⟩ := List.map_eq_append_iff.mp split
  obtain ⟨line, back, rfl, rfl, rfl⟩ := List.map_eq_cons_iff.mp others
  obtain ⟨⟨fields, read, names, -⟩, flat⟩ := accepts front line back rfl
  have read := lineFields_eq_some.mpr read
  obtain ⟨hashed, read', -, -, same⟩ := lineFields_hashedText read (flat fields read)
  rw [namedHash, read', Option.bind_some, textOf, same _ (by decide), names]
  rfl

theorem Accepts.flat (accepts : Accepts sha256 lines) {line : Text} (mem : line ∈ lines) :
    ∃ fields, lineFields line = some fields ∧ isFlat fields = true := by
  obtain ⟨front, back, split⟩ := List.append_of_mem mem
  obtain ⟨⟨fields, read, -⟩, flat⟩ := accepts front line back split
  exact ⟨fields, lineFields_eq_some.mpr read, flat fields (lineFields_eq_some.mpr read)⟩

/-- Replaying an accepted file is replaying its hashed texts. -/
theorem Accepts.entries (accepts : Accepts sha256 lines) :
    lines.filterMap rootEntry = (lines.map hashedText).filterMap rootEntry ∧
      lines.filterMap pathEntry = (lines.map hashedText).filterMap pathEntry := by
  rw [List.filterMap_map, List.filterMap_map]
  refine ⟨List.filterMap_congr fun line mem => ?_, List.filterMap_congr fun line mem => ?_⟩
  all_goals obtain ⟨fields, read, flat⟩ := accepts.flat mem
  · exact (entries_hashedText read flat).1.symm
  · exact (entries_hashedText read flat).2.symm

/-- Two accepted files that end in the same hash have the same hashed texts. -/
theorem Accepts.eq_of_endHash (accepts : Accepts sha256 lines) (accepts' : Accepts sha256 lines')
    (same : endHash sha256 lines = endHash sha256 lines') :
    lines.map hashedText = lines'.map hashedText ∨ Broken sha256 lines lines' := by
  rcases accepts.linked.eq_of_last_eq accepts'.linked same with equal | collision | zero
  · exact .inl equal
  · obtain ⟨_, mem, _, mem', different, digests⟩ := collision
    obtain ⟨line, present, rfl⟩ := List.mem_map.mp mem
    obtain ⟨line', present', rfl⟩ := List.mem_map.mp mem'
    refine .inr (.inl ⟨_, List.mem_map_of_mem present, _, List.mem_map_of_mem present', ?_, ?_⟩)
    · obtain ⟨fields, read, flat⟩ := accepts.flat present
      obtain ⟨fields', read', flat'⟩ := accepts'.flat present'
      obtain ⟨hashed, -, plain, text, -⟩ := lineFields_hashedText read flat
      obtain ⟨hashed', -, plain', text', -⟩ := lineFields_hashedText read' flat'
      rw [text, text'] at different ⊢
      exact fun encoded => different (encode_canonical_inj plain plain' encoded)
    · exact List.Vector.toList_injective (Hex.encode_inj.mp digests)
  · obtain ⟨_, mem, digest⟩ := zero
    rcases mem with mem | mem
    all_goals obtain ⟨line, present, rfl⟩ := List.mem_map.mp mem
    · exact .inr (.inr ⟨_, .inl (List.mem_map_of_mem present), digest⟩)
    · exact .inr (.inr ⟨_, .inr (List.mem_map_of_mem present), digest⟩)

end Evidence

section Server

variable {event : AuditEvent} {timestamp : Timestamp} {previousHash : Text}

/-- The hash of a record is taken of its members. -/
theorem hashedText_recordText (plain : previousHash.all isPlain = true) :
    hashedText (recordText sha256 (body sha256 event timestamp previousHash)) =
      canonical (body sha256 event timestamp previousHash) := by
  obtain ⟨fields, text, perm, flat, nodup⟩ := @recordText_eq sha256 event timestamp _ plain
  obtain ⟨distinct, -, apart⟩ :=
    List.nodup_append'.mp (@names_body sha256 event timestamp previousHash)
  have read := @loads_object pythonWords [' '] fields [] (by decide) rfl flat nodup
  rw [List.append_nil, ← text, ← lineFields_eq_some] at read
  have others : (fields.filter fun f => f.1 ≠ "block_hash".toList).Perm
      (body sha256 event timestamp previousHash) := by
    refine (perm.filter _).trans ?_
    rw [List.filter_append, List.filter_eq_self.mpr]
    · exact .of_eq (List.append_nil _)
    · intro f mem
      rw [decide_eq_true_eq]
      exact fun same => apart (List.mem_map_of_mem mem) (same ▸ List.mem_cons_self)
  rw [hashedText, read, Option.getD_some, canonical, canonical, sortKeys_eq_of_perm others]
  exact (others.map Prod.fst).nodup_iff.mpr distinct

theorem acceptsLine_recordText (plain : previousHash.all isPlain = true) :
    AcceptsLine sha256 previousHash
      (recordText sha256 (body sha256 event timestamp previousHash)) := by
  refine ⟨verifies_recordText event timestamp plain, fun fields read => ?_⟩
  obtain ⟨fields', text, -, flat, nodup⟩ := @recordText_eq sha256 event timestamp _ plain
  have read' := @loads_object pythonWords [' '] fields' [] (by decide) rfl flat nodup
  rw [List.append_nil, ← text, ← lineFields_eq_some, read, Option.some.injEq] at read'
  rwa [read']

theorem Accepts.append {lines : List Text} {line : Text} (accepts : Accepts sha256 lines)
    (acceptsLine : AcceptsLine sha256 (endHash sha256 lines) line) :
    Accepts sha256 (lines ++ [line]) := by
  intro front line' back split
  obtain ⟨rfl, rfl⟩ | ⟨back', split'⟩ := split_concat split
  · exact acceptsLine
  · exact accepts front line' back' split'

/-- An auditor accepts the records of the server, and they end in the hash of the last one. -/
theorem Linked.accepts {attempts : List Attempt} (linked : Linked sha256 attempts) :
    Accepts sha256 (texts sha256 attempts) ∧
      endHash sha256 (texts sha256 attempts) = lastHash sha256 attempts := by
  induction attempts using List.reverseRecOn with
  | nil =>
      refine ⟨?_, rfl⟩
      intro front line back split
      exact absurd split (by simp [texts])
  | append_singleton attempts a ih =>
      have earlier : Linked sha256 attempts := by
        rintro front b back rfl
        exact linked front b (back ++ [a]) (by simp)
      obtain ⟨accepts, ends⟩ := ih earlier
      obtain ⟨event, timestamp, built⟩ := linked attempts a [] rfl
      have plain : (lastHash sha256 attempts).all isPlain = true := plain_lastHash
      rw [lastHash_append]
      by_cases complete : a.complete sha256 = true
      · have further : texts sha256 (attempts ++ [a]) =
            texts sha256 attempts ++ [recordText sha256 a.body] := by
          rw [texts, List.filter_append, List.filter_cons_of_pos complete, List.filter_nil,
            List.map_append]
          rfl
        rw [further, if_pos complete, built]
        refine ⟨accepts.append ?_, ?_⟩
        · rw [ends]
          exact acceptsLine_recordText plain
        · rw [endHash, List.map_append, List.map_singleton, HashLog.last_append,
            hashedText_recordText plain]
          rfl
      · have same : texts sha256 (attempts ++ [a]) = texts sha256 attempts := by
          rw [texts, List.filter_append, List.filter_cons_of_neg complete, List.filter_nil,
            List.append_nil]
          rfl
        rw [same, if_neg complete]
        exact ⟨accepts, ends⟩

end Server

namespace AuditedLedger

variable {server : AuditedLedger}

/-- An action of an accounted server leaves the tables and the records, or writes a row and its
record. -/
theorem Accounted.step_cases (accounted : Accounted sha256 server) {event : AuditEvent}
    {timestamp : Timestamp} {stop : Option Stop}
    (logged : server.Writes event → server.Logged sha256 event timestamp stop) :
    let next := server.upsert sha256 event timestamp stop
    (next.ledger = server.ledger ∧
        texts sha256 next.log.attempts = texts sha256 server.log.attempts) ∨
      ∃ hash, hash.all isPlain = true ∧ execute server.ledger event = some next.ledger ∧
        texts sha256 next.log.attempts = texts sha256 server.log.attempts ++
          [recordText sha256 (body sha256 event timestamp hash)] := by
  dsimp only
  rw [AuditedLedger.upsert]
  cases running : server.log.previousHash with
  | none => exact .inl ⟨rfl, rfl⟩
  | some hash =>
      have plain : hash.all isPlain = true := by
        rw [accounted.tidy.previousHash hash running]
        exact plain_lastHash
      rw [if_neg (Option.some_ne_none hash)]
      cases changed : unchanged server.ledger event with
      | true =>
          rw [if_pos rfl]
          split <;> exact .inl ⟨rfl, rfl⟩
      | false =>
          rw [if_neg Bool.false_ne_true]
          cases executed : execute server.ledger event with
          | none => exact .inl ⟨rfl, rfl⟩
          | some ledger =>
              have whole : ∀ {cut : Option Nat}, (∀ written, cut = some written →
                    (recordLine sha256 (body sha256 event timestamp hash)).length ≤ written) →
                  texts sha256 (server.log.step sha256 (.append event timestamp cut)).attempts =
                    texts sha256 server.log.attempts ++
                      [recordText sha256 (body sha256 event timestamp hash)] := fun all =>
                (accounted.tidy.append_whole accounted.linked running event timestamp all).2.2
              have complete := logged ⟨by rw [running]; exact Option.some_ne_none hash, changed,
                by rw [executed]; rfl⟩
              cases stop with
              | none => exact .inr ⟨hash, plain, rfl, whole (by rintro _ ⟨⟩)⟩
              | some stop =>
                  cases stop with
                  | beforeCommit => exact .inl ⟨rfl, rfl⟩
                  | beforeAppend => exact complete.elim
                  | appending written =>
                      refine .inr ⟨hash, plain, rfl, whole ?_⟩
                      rintro _ ⟨⟩
                      exact complete hash running

/-- The records say of every path whether it is stored, and with which hash. -/
theorem lastPath_run {actions : List Action} (logged : CommitsLogged sha256 actions)
    (key : Bytes × Nat × Nat) :
    LastWrite.last ((texts sha256 (run sha256 actions).log.attempts).filterMap pathEntry) key =
      ((run sha256 actions).ledger.paths key).map (hexdigest sha256) := by
  induction actions using List.reverseRecOn with
  | nil => rfl
  | append_singleton actions action ih =>
      have earlier : CommitsLogged sha256 actions := by
        rintro front event timestamp stop back rfl
        exact logged front event timestamp stop (back ++ [action]) (by simp)
      have accounted := accounted_run earlier
      have last : run sha256 (actions ++ [action]) = (run sha256 actions).step sha256 action := by
        simp [run]
      rw [last]
      cases action with
      | restart => exact ih earlier
      | upsert event timestamp stop =>
          have stepped := accounted.step_cases (logged actions event timestamp stop [] rfl)
          have upserts : (run sha256 actions).step sha256 (.upsert event timestamp stop) =
              (run sha256 actions).upsert sha256 event timestamp stop := by
            cases event <;> rfl
          rw [upserts]
          rcases stepped with ⟨tables, records⟩ | ⟨hash, plain, executed, records⟩
          · rw [tables, records]
            exact ih earlier
          · rw [records, List.filterMap_append]
            cases event with
            | root deviceId version record sourceIp =>
                rw [Ledger.paths_upsertRoot executed]
                simp only [List.filterMap_cons, List.filterMap_nil, List.append_nil,
                  (entries_root timestamp plain deviceId version record sourceIp).2]
                exact ih earlier
            | path deviceId version q path sourceIp =>
                rw [← Option.some.inj executed, Ledger.paths_upsertPath]
                simp only [List.filterMap_cons, List.filterMap_nil,
                  (entries_path timestamp plain deviceId version q path sourceIp).2]
                rw [LastWrite.last_append]
                by_cases same : (deviceId, version, q) = key
                · rw [if_pos same, ← same, Function.update_self]
                  rfl
                · rw [if_neg same, Function.update_of_ne (Ne.symm same)]
                  exact ih earlier

/-- A file that an auditor accepts and that ends in the hash which the server keeps replays to the
tables of the server, unless the digests of its records or of the server's are broken. -/
theorem accepted_file_replays (sha256 : Bytes → List.Vector UInt8 32) (actions : List Action)
    (logged : CommitsLogged sha256 actions) (lines : List Text) (accepts : Accepts sha256 lines)
    (kept : (run sha256 actions).log.previousHash = some (endHash sha256 lines)) :
    Replays sha256 (run sha256 actions).ledger lines ∨
      Broken sha256 lines (texts sha256 (run sha256 actions).log.attempts) := by
  have accounted := accounted_run logged
  obtain ⟨own, ends⟩ := accounted.linked.accepts
  rcases accepts.eq_of_endHash own ((accounted.tidy.previousHash _ kept).trans ends.symm) with
    equal | broken
  · refine .inl ⟨?_, fun key => ?_⟩
    · rw [accepts.entries.1, equal, ← own.entries.1]
      exact accounted.roots
    · rw [accepts.entries.2, equal, ← own.entries.2]
      exact lastPath_run logged key
  · exact .inr broken

/-- A root and a path are enrolled, and the path is sent again. -/
def enrolments : List Action :=
  [.upsert enrolment clock none, .upsert zeroPath clock none, .upsert zeroPath clock none]

theorem run_enrolments (sha256 : Bytes → List.Vector UInt8 32) :
    let first := body sha256 enrolment clock zeroHash
    let second := body sha256 zeroPath clock (blockHash sha256 first)
    (run sha256 enrolments).log.previousHash = some (blockHash sha256 second) ∧
      (run sha256 enrolments).log.attempts =
        [⟨first, (recordLine sha256 first).length⟩,
          ⟨second, (recordLine sha256 second).length⟩] := by
  have storable : ¬ Ledger.sqliteMax < enrolledRoot.expiryUnix := by decide
  simp [storable, run, step, enrolments, upsertRoot, upsertPath, upsert, enrolment, zeroPath,
    unchanged, execute, Ledger.upsertRoot, Ledger.upsertPath, commit, AuditLog.run, AuditLog.step,
    loadLastAuditHash_nil, appendAudit]

/-- The file of a server after the enrolment of a root and of a path. -/
theorem accepted_file_replays_enrolments : ∃ lines, lines.length = 2 ∧
    Accepts (Cell.digitHash _) lines ∧
    (run (Cell.digitHash _) enrolments).log.previousHash = some (endHash (Cell.digitHash _) lines) ∧
    (Replays (Cell.digitHash _) (run (Cell.digitHash _) enrolments).ledger lines ∨
      Broken (Cell.digitHash _) lines
        (texts (Cell.digitHash _) (run (Cell.digitHash _) enrolments).log.attempts)) := by
  have logged : CommitsLogged (Cell.digitHash _) enrolments := by
    intro front event timestamp stop back split _
    match front, split with
    | [], split => cases split; trivial
    | [_], split => cases split; trivial
    | [_, _], split => cases split; trivial
    | _ :: _ :: _ :: _, split => simp [enrolments] at split
  have accounted := accounted_run logged
  obtain ⟨accepts, ends⟩ := accounted.linked.accepts
  obtain ⟨running, attempts⟩ := run_enrolments (Cell.digitHash _)
  have kept := running.trans
    (congrArg some ((accounted.tidy.previousHash _ running).trans ends.symm))
  refine ⟨_, ?_, accepts, kept, accepted_file_replays (Cell.digitHash _) _ logged _ accepts kept⟩
  rw [attempts]
  simp [texts, Attempt.complete, recordLine]

end AuditedLedger

end Gcs
