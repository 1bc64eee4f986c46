import PostQuantumUav.Gcs.AuditLog

/-!
# The audit chain over appends and restarts

A run is a sequence of appends, each of which a stop may cut, and of restarts. As
long as every append starts a line, the complete records are the lines of the file
in order, at most the last one is torn, and the hash that the process keeps is that
of the last complete record.

An append after a torn line continues this line, and neither record can be read.
-/

namespace Gcs

open Json

section Records

variable {sha256 : Bytes → List.Vector UInt8 32}

theorem plain_hex (bytes : Bytes) : (Hex.encode bytes).all isPlain = true :=
  Hex.all_encode (Hex.of_all_bytes (by decide +kernel)) bytes

theorem isScalar_hex (bytes : Bytes) : isScalar (hex bytes) = true := plain_hex bytes

theorem isScalar_integer (n : Nat) : isScalar (integer n) = true := isNumber_toDigits n

theorem plain_zeroHash : zeroHash.all isPlain = true := by decide

variable (event : AuditEvent) (timestamp : Timestamp) (previousHash : Text)

theorem isFlat_fields : isFlat (event.fields sha256) = true := by
  cases event with
  | root deviceId version record sourceIp =>
      have plain : isScalar (.string sourceIp.val) = true := sourceIp.property
      simp only [AuditEvent.fields, isFlat, List.all_cons, List.all_nil, isScalar_hex,
        isScalar_integer, plain]
      decide
  | path deviceId version q path sourceIp =>
      have plain : isScalar (.string sourceIp.val) = true := sourceIp.property
      have digest : isScalar (.string (hexdigest sha256 path)) = true := plain_hex _
      simp only [AuditEvent.fields, isFlat, List.all_cons, List.all_nil, isScalar_hex,
        isScalar_integer, plain, digest]
      decide

/-- The three further members of a record have names of their own. -/
theorem names_fields : ((event.fields sha256).map Prod.fst ++ ["timestamp".toList,
    "previous_hash".toList, "block_hash".toList]).Nodup := by
  cases event with
  | root => exact (by decide : List.Nodup ["event".toList, "device_id".toList, "version".toList,
      "identifier".toList, "root".toList, "suite_id".toList, "status".toList,
      "expiry_unix".toList, "source_ip".toList, "timestamp".toList, "previous_hash".toList,
      "block_hash".toList])
  | path => exact (by decide : List.Nodup ["event".toList, "device_id".toList, "version".toList,
      "q".toList, "path_sha256".toList, "source_ip".toList, "timestamp".toList,
      "previous_hash".toList, "block_hash".toList])

theorem body_eq : body sha256 event timestamp previousHash = event.fields sha256 ++
      [("timestamp".toList, .number timestamp.val),
        ("previous_hash".toList, .string previousHash)] := by
  obtain ⟨-, -, apart⟩ := List.nodup_append'.mp (@names_fields sha256 event)
  have timestampAbsent : "timestamp".toList ∉ (event.fields sha256).map Prod.fst :=
    fun mem => apart mem (by decide)
  have previousAbsent : "previous_hash".toList ∉ (event.fields sha256).map Prod.fst :=
    fun mem => apart mem (by decide)
  rw [body, set_of_absent _ timestampAbsent, set_of_absent, List.append_assoc]
  · rfl
  · rw [List.map_append, List.mem_append, not_or]
    exact ⟨previousAbsent, (by decide : "previous_hash".toList ∉ ["timestamp".toList])⟩

theorem names_body : ((body sha256 event timestamp previousHash).map Prod.fst ++
    ["block_hash".toList]).Nodup := by
  rw [body_eq, List.map_append, List.append_assoc]
  exact names_fields event

/-- What is written: the hashed members and their hash. -/
theorem sealed_eq : Json.set (body sha256 event timestamp previousHash) "block_hash".toList
    (.string (blockHash sha256 (body sha256 event timestamp previousHash))) =
      body sha256 event timestamp previousHash ++ [("block_hash".toList,
        .string (blockHash sha256 (body sha256 event timestamp previousHash)))] := by
  obtain ⟨-, -, apart⟩ := List.nodup_append'.mp (@names_body sha256 event timestamp previousHash)
  exact set_of_absent _ fun mem => apart mem List.mem_cons_self

variable {previousHash}

theorem isFlat_body (plain : previousHash.all isPlain = true) :
    isFlat (body sha256 event timestamp previousHash) = true := by
  have number : isScalar (.number timestamp.val) = true := timestamp.property
  have string : isScalar (.string previousHash) = true := plain
  have fields : isFlat (event.fields sha256) = true := isFlat_fields event
  rw [isFlat] at fields
  rw [body_eq, isFlat, List.all_append, fields]
  simp only [List.all_cons, List.all_nil, number, string]
  decide

/-- The text of a record as an object whose members are in the order of their names. -/
theorem recordText_eq (plain : previousHash.all isPlain = true) :
    ∃ fields, recordText sha256 (body sha256 event timestamp previousHash) =
        print [' '] (.object fields) ∧
      fields.Perm (body sha256 event timestamp previousHash ++ [("block_hash".toList,
        .string (blockHash sha256 (body sha256 event timestamp previousHash)))]) ∧
      isFlat fields = true ∧ (fields.map Prod.fst).Nodup := by
  have perm := perm_sortKeys (body sha256 event timestamp previousHash ++ [("block_hash".toList,
    .string (blockHash sha256 (body sha256 event timestamp previousHash)))])
  refine ⟨_, by rw [recordText, sealed_eq], perm, ?_, ?_⟩
  · have digest : isScalar (.string (blockHash sha256
        (body sha256 event timestamp previousHash))) = true := plain_hex _
    have inner := @isFlat_body sha256 event timestamp _ plain
    rw [isFlat] at inner
    rw [isFlat_of_perm perm, isFlat, List.all_append, inner]
    simp only [List.all_cons, List.all_nil, digest]
    decide
  · rw [(perm.map Prod.fst).nodup_iff, List.map_append]
    exact names_body event timestamp previousHash

/-- What an auditor checks about a line: it is JSON, it names the hash of the record before it,
and its hash is that of its other members. -/
def Verifies (sha256 : Bytes → List.Vector UInt8 32) (previousHash line : Text) : Prop :=
  ∃ fields, loads pythonWords line = some (.object fields) ∧
    get? fields "previous_hash".toList = some (.string previousHash) ∧
    get? fields "block_hash".toList = some (.string (hexdigest sha256 (encode (canonical
      (fields.filter fun f => f.1 ≠ "block_hash".toList)))))

theorem verifies_recordText (plain : previousHash.all isPlain = true) :
    Verifies sha256 previousHash
      (recordText sha256 (body sha256 event timestamp previousHash)) := by
  obtain ⟨fields, text, perm, flat, nodup⟩ := @recordText_eq sha256 event timestamp _ plain
  obtain ⟨distinct, -, apart⟩ :=
    List.nodup_append'.mp (@names_body sha256 event timestamp previousHash)
  have read := @loads_object pythonWords [' '] fields [] (by decide) rfl flat nodup
  rw [List.append_nil] at read
  refine ⟨fields, text ▸ read, ?_, ?_⟩
  · refine get?_of_mem nodup (perm.mem_iff.mpr ?_)
    rw [body_eq]
    simp
  · have others : (fields.filter fun f => f.1 ≠ "block_hash".toList).Perm
        (body sha256 event timestamp previousHash) := by
      refine (perm.filter _).trans ?_
      rw [List.filter_append, List.filter_eq_self.mpr]
      · exact .of_eq (List.append_nil _)
      · intro f mem
        rw [decide_eq_true_eq]
        exact fun same => apart (List.mem_map_of_mem mem) (same ▸ List.mem_cons_self)
    have same : canonical (fields.filter fun f => f.1 ≠ "block_hash".toList) =
        canonical (body sha256 event timestamp previousHash) := by
      rw [canonical, canonical, sortKeys_eq_of_perm others]
      exact (others.map Prod.fst).nodup_iff.mpr distinct
    rw [same]
    exact get?_of_mem nodup (perm.mem_iff.mpr (List.mem_append_right _ List.mem_cons_self))

/-- A record stands on one line. -/
theorem newline_notMem_recordText (plain : previousHash.all isPlain = true) :
    '\n' ∉ recordText sha256 (body sha256 event timestamp previousHash) := by
  obtain ⟨fields, text, -, flat, -⟩ := @recordText_eq sha256 event timestamp _ plain
  rw [text]
  exact newline_notMem_print (by decide) flat

end Records

section Runs

/-- A record that was to be written, and how many characters of its line were. -/
structure Attempt where
  body : List (Text × Json)
  written : Nat

/-- The file, the hash that the process keeps unless it is down, and what was appended. -/
structure AuditLog where
  file : Text
  previousHash : Option Text
  attempts : List Attempt

inductive AuditAction where
  | append (event : AuditEvent) (timestamp : Timestamp) (cut : Option Nat)
  | restart

variable (sha256 : Bytes → List.Vector UInt8 32)

/-- The whole JSON text is in the file, with or without its line break. -/
def Attempt.complete (a : Attempt) : Bool := (recordText sha256 a.body).length ≤ a.written

/-- The hash of the last complete record. -/
def lastHash (attempts : List Attempt) : Text :=
  match (attempts.filter (Attempt.complete sha256)).getLast? with
  | none => zeroHash
  | some a => blockHash sha256 a.body

namespace AuditLog

/-- One action; nothing is appended while the process is down. -/
def step (log : AuditLog) : AuditAction → AuditLog
  | .restart => { log with previousHash := loadLastAuditHash log.file }
  | .append event timestamp cut =>
      match log.previousHash with
      | none => log
      | some previousHash =>
          let body := body sha256 event timestamp previousHash
          let appended := appendAudit sha256 log.file previousHash event timestamp cut
          ⟨appended.1, appended.2,
            log.attempts ++ [⟨body, cut.getD (recordLine sha256 body).length⟩]⟩

/-- A run of a server that starts without an audit file. -/
def run (actions : List AuditAction) : AuditLog :=
  actions.foldl (step sha256) ⟨[], loadLastAuditHash [], []⟩

/-- Every record names the last complete record before it, and the complete records are lines
that an auditor accepts. -/
structure IsChain (log : AuditLog) : Prop where
  linked : ∀ front a back, log.attempts = front ++ a :: back →
    get? a.body "previous_hash".toList = some (.string (lastHash sha256 front))
  line : ∀ a ∈ log.attempts, a.complete sha256 → recordText sha256 a.body ∈ log.file.splitOn '\n'
  verifies : ∀ front a back, log.attempts = front ++ a :: back → a.complete sha256 →
    Verifies sha256 (lastHash sha256 front) (recordText sha256 a.body)

end AuditLog

/-- The next character written starts a line. -/
def StartsLine (file : Text) : Prop := file = [] ∨ file.getLast? = some '\n'

/-- Every append of a running process starts a line. -/
def StartsLines (actions : List AuditAction) : Prop :=
  ∀ front event timestamp cut back, actions = front ++ .append event timestamp cut :: back →
    (AuditLog.run sha256 front).previousHash ≠ none → StartsLine (AuditLog.run sha256 front).file

section Lines

/-- Lines that are ended are split apart again. -/
theorem splitOn_lines {lines : List Text} (separate : ∀ line ∈ lines, '\n' ∉ line) (tail : Text) :
    (lines.flatMap (· ++ ['\n']) ++ tail).splitOn '\n' = lines ++ tail.splitOn '\n' := by
  induction lines with
  | nil => rfl
  | cons line lines ih =>
      have here := separate line List.mem_cons_self
      have later := ih fun line mem => separate line (List.mem_cons_of_mem _ mem)
      rw [List.flatMap_cons, List.append_assoc, List.append_assoc, List.singleton_append,
        List.splitOn_append_cons_self_of_not_mem here, later, List.cons_append]

/-- A split of a list that ends in `b` is at `b` or inside the rest. -/
theorem split_concat {α : Type} {l front back : List α} {a b : α}
    (split : l ++ [b] = front ++ a :: back) :
    (front = l ∧ a = b) ∨ ∃ back', l = front ++ a :: back' := by
  obtain rfl | ⟨back', c, rfl⟩ := List.eq_nil_or_concat back
  · obtain ⟨rfl, last⟩ := List.append_inj' split rfl
    exact .inl ⟨rfl, (List.singleton_inj.mp last).symm⟩
  · rw [List.concat_eq_append, ← List.cons_append, ← List.append_assoc] at split
    exact .inr ⟨back', (List.append_inj' split rfl).1⟩

variable (attempts : List Attempt)

/-- The texts of the complete records. -/
def texts : List Text :=
  (attempts.filter (Attempt.complete sha256)).map fun a => recordText sha256 a.body

/-- A file that holds the complete records and nothing else. -/
def whole : Text := (texts sha256 attempts).flatMap (· ++ ['\n'])

/-- Every record was built on the last complete record before it. -/
def Linked : Prop :=
  ∀ front a back, attempts = front ++ a :: back →
    ∃ event timestamp, a.body = body sha256 event timestamp (lastHash sha256 front)

variable {sha256 attempts}

theorem plain_lastHash : (lastHash sha256 attempts).all isPlain = true := by
  rw [lastHash]
  split
  · exact plain_zeroHash
  · exact plain_hex _

theorem lastHash_append (a : Attempt) : lastHash sha256 (attempts ++ [a]) =
    if a.complete sha256 then blockHash sha256 a.body else lastHash sha256 attempts := by
  rw [lastHash, List.filter_append]
  by_cases complete : a.complete sha256 = true
  · rw [if_pos complete, List.filter_cons_of_pos complete, List.filter_nil, List.getLast?_concat]
  · rw [if_neg complete, List.filter_cons_of_neg complete, List.filter_nil, List.append_nil]
    rfl

theorem whole_append (a : Attempt) : whole sha256 (attempts ++ [a]) =
    if a.complete sha256 then whole sha256 attempts ++ recordLine sha256 a.body
    else whole sha256 attempts := by
  rw [whole, texts, List.filter_append]
  by_cases complete : a.complete sha256 = true
  · rw [if_pos complete, List.filter_cons_of_pos complete, List.filter_nil, List.map_append,
      List.flatMap_append, List.map_singleton, List.flatMap_singleton]
    rfl
  · rw [if_neg complete, List.filter_cons_of_neg complete, List.filter_nil, List.append_nil]
    rfl

theorem Linked.append (linked : Linked sha256 attempts) (event : AuditEvent)
    (timestamp : Timestamp) (written : Nat) : Linked sha256
      (attempts ++ [⟨body sha256 event timestamp (lastHash sha256 attempts), written⟩]) := by
  intro front a back split
  obtain ⟨rfl, rfl⟩ | ⟨back', split'⟩ := split_concat split
  · exact ⟨event, timestamp, rfl⟩
  · exact linked front a back' split'

theorem Linked.newline_notMem (linked : Linked sha256 attempts) :
    ∀ line ∈ texts sha256 attempts, '\n' ∉ line := by
  intro line mem
  obtain ⟨a, kept, rfl⟩ := List.mem_map.mp mem
  obtain ⟨front, back, split⟩ := List.append_of_mem (List.mem_filter.mp kept).1
  obtain ⟨event, timestamp, built⟩ := linked front a back split
  rw [built]
  exact newline_notMem_recordText event timestamp plain_lastHash

/-- A record of the file starts with its brace. -/
theorem texts_visible :
    ∀ line ∈ texts sha256 attempts, (line.any fun c => ! isSpace c) = true := by
  intro line mem
  obtain ⟨a, -, rfl⟩ := List.mem_map.mp mem
  exact List.any_eq_true.mpr ⟨'{', List.mem_cons_self, by decide⟩

/-- The record of an attempt is read back with its hash. -/
theorem Linked.loads (linked : Linked sha256 attempts) {a : Attempt} (mem : a ∈ attempts) :
    ∃ fields, loads pythonWords (recordText sha256 a.body) = some (.object fields) ∧
      get? fields "block_hash".toList = some (.string (blockHash sha256 a.body)) := by
  obtain ⟨front, back, split⟩ := List.append_of_mem mem
  obtain ⟨event, timestamp, built⟩ := linked front a back split
  obtain ⟨fields, text, perm, flat, nodup⟩ :=
    @recordText_eq sha256 event timestamp _ (@plain_lastHash sha256 front)
  have read := @loads_object pythonWords [' '] fields [] (by decide) rfl flat nodup
  rw [List.append_nil, ← text, ← built] at read
  exact ⟨fields, read, get?_of_mem nodup (perm.mem_iff.mpr (by simp [built]))⟩

/-- A restart takes the hash of the last complete record. -/
theorem loadLastAuditHash_whole (linked : Linked sha256 attempts) :
    loadLastAuditHash (whole sha256 attempts) = some (lastHash sha256 attempts) := by
  have lines : ((whole sha256 attempts).splitOn '\n').filter (fun line => line.any fun c =>
      ! isSpace c) = texts sha256 attempts := by
    rw [← List.append_nil (whole sha256 attempts), whole, splitOn_lines linked.newline_notMem,
      List.filter_append, List.filter_eq_self.mpr texts_visible]
    exact List.append_nil _
  rw [loadLastAuditHash, lines, texts, List.getLast?_map, lastHash]
  cases last : (attempts.filter (Attempt.complete sha256)).getLast? with
  | none => rfl
  | some a =>
      have mem := (List.mem_filter.mp (List.mem_of_getLast? last)).1
      obtain ⟨fields, read, hash⟩ := linked.loads mem
      simp only [Option.map_some, read, hash, str]

end Lines

section Invariant

namespace AuditLog

variable {sha256} {log : AuditLog}

/-- The file holds the complete records and nothing else. -/
structure Tidy (sha256 : Bytes → List.Vector UInt8 32) (log : AuditLog) : Prop where
  file : log.file = whole sha256 log.attempts
  previousHash : ∀ hash, log.previousHash = some hash → hash = lastHash sha256 log.attempts

/-- The last line of the file is the start of a record. -/
def Torn (sha256 : Bytes → List.Vector UInt8 32) (log : AuditLog) : Prop :=
  ∃ front a, log.attempts = front ++ [a] ∧ a.written ≤ (recordText sha256 a.body).length ∧
    (recordText sha256 a.body).take a.written ≠ [] ∧
    log.file = whole sha256 front ++ (recordText sha256 a.body).take a.written

/-- A torn line cannot be continued by a new one. -/
theorem Torn.not_startsLine (linked : Linked sha256 log.attempts) (torn : Torn sha256 log) :
    ¬ StartsLine log.file := by
  obtain ⟨front, a, attempts, -, some, file⟩ := torn
  obtain ⟨event, timestamp, built⟩ := linked front a [] attempts
  rintro (empty | newline)
  · rw [file] at empty
    exact some (List.append_eq_nil_iff.mp empty).2
  · rw [file, List.getLast?_append] at newline
    cases last : ((recordText sha256 a.body).take a.written).getLast? with
    | none => exact some (List.getLast?_eq_none_iff.mp last)
    | some c =>
        rw [last] at newline
        have mem := List.mem_of_mem_take (List.mem_of_getLast? last)
        rw [Option.some.inj newline, built] at mem
        exact newline_notMem_recordText event timestamp plain_lastHash mem

/-- What is written of a line is nothing, a part of its text, or enough to make it whole. -/
theorem cut_cases (attempts : List Attempt) (a : Attempt) :
    whole sha256 attempts ++ (recordLine sha256 a.body).take a.written =
        whole sha256 (attempts ++ [a]) ∨
      a.written ≤ (recordText sha256 a.body).length ∧
        (recordText sha256 a.body).take a.written ≠ [] ∧
        whole sha256 attempts ++ (recordLine sha256 a.body).take a.written =
          whole sha256 attempts ++ (recordText sha256 a.body).take a.written := by
  have longer : (recordLine sha256 a.body).length = (recordText sha256 a.body).length + 1 :=
    List.length_append
  rw [whole_append]
  by_cases all : (recordText sha256 a.body).length < a.written
  · have complete : a.complete sha256 = true := decide_eq_true (Nat.le_of_lt all)
    rw [if_pos complete, List.take_of_length_le (by omega)]
    exact .inl rfl
  · have part := Nat.not_lt.mp all
    have inside : (recordLine sha256 a.body).take a.written =
        (recordText sha256 a.body).take a.written := List.take_append_of_le_length part
    by_cases nothing : (recordText sha256 a.body).take a.written = []
    · have incomplete : ¬ a.complete sha256 = true := by
        intro complete
        rw [List.take_of_length_le (of_decide_eq_true complete)] at nothing
        exact List.cons_ne_nil _ _ nothing
      rw [if_neg incomplete, inside, nothing, List.append_nil]
      exact .inl rfl
    · exact .inr ⟨part, nothing, by rw [inside]⟩

/-- What an append of a running process does. -/
theorem step_append {hash : Text} (running : log.previousHash = some hash) (event : AuditEvent)
    (timestamp : Timestamp) (cut : Option Nat) :
    log.step sha256 (.append event timestamp cut) =
      ⟨log.file ++ (recordLine sha256 (body sha256 event timestamp hash)).take
          (cut.getD (recordLine sha256 (body sha256 event timestamp hash)).length),
        if cut = none then some (blockHash sha256 (body sha256 event timestamp hash)) else none,
        log.attempts ++ [⟨body sha256 event timestamp hash,
          cut.getD (recordLine sha256 (body sha256 event timestamp hash)).length⟩]⟩ := by
  rw [step, running]
  cases cut <;> simp [appendAudit]

theorem Tidy.restart (linked : Linked sha256 log.attempts) (tidy : Tidy sha256 log) :
    Tidy sha256 (log.step sha256 .restart) := by
  refine ⟨tidy.file, ?_⟩
  intro hash loaded
  have whole := loadLastAuditHash_whole linked
  rw [← tidy.file] at whole
  exact Option.some.inj (loaded.symm.trans whole)

/-- An append of a whole line after whole lines leaves whole lines. -/
theorem Tidy.append_whole (linked : Linked sha256 log.attempts) (tidy : Tidy sha256 log)
    {hash : Text} (running : log.previousHash = some hash) (event : AuditEvent)
    (timestamp : Timestamp) {cut : Option Nat} (all : ∀ written, cut = some written →
      (recordLine sha256 (body sha256 event timestamp hash)).length ≤ written) :
    Linked sha256 (log.step sha256 (.append event timestamp cut)).attempts ∧
      Tidy sha256 (log.step sha256 (.append event timestamp cut)) ∧
      texts sha256 (log.step sha256 (.append event timestamp cut)).attempts =
        texts sha256 log.attempts ++ [recordText sha256 (body sha256 event timestamp hash)] := by
  rw [step_append running]
  obtain rfl := tidy.previousHash hash running
  have further := linked.append event timestamp
  generalize body sha256 event timestamp (lastHash sha256 log.attempts) = next at all further ⊢
  have enough : (recordLine sha256 next).length ≤ cut.getD (recordLine sha256 next).length := by
    cases cut with
    | none => exact Nat.le_refl _
    | some written => exact all written rfl
  generalize cut.getD (recordLine sha256 next).length = written at enough
  have longer : (recordLine sha256 next).length = (recordText sha256 next).length + 1 :=
    List.length_append
  have complete : Attempt.complete sha256 ⟨next, written⟩ = true :=
    decide_eq_true (by rw [longer] at enough; exact Nat.le_of_succ_le enough)
  refine ⟨further written, ⟨?_, ?_⟩, ?_⟩
  · rw [whole_append, if_pos complete, tidy.file, List.take_of_length_le enough]
  · intro hash running
    rw [lastHash_append, if_pos complete]
    split at running
    · exact (Option.some.inj running).symm
    · nomatch running
  · rw [texts, List.filter_append, List.filter_cons_of_pos complete, List.filter_nil,
      List.map_append]
    rfl

/-- An append after whole lines leaves whole lines, or tears its own line. -/
theorem Tidy.append (linked : Linked sha256 log.attempts) (tidy : Tidy sha256 log)
    (event : AuditEvent) (timestamp : Timestamp) (cut : Option Nat) :
    Linked sha256 (log.step sha256 (.append event timestamp cut)).attempts ∧
      (Tidy sha256 (log.step sha256 (.append event timestamp cut)) ∨
        Torn sha256 (log.step sha256 (.append event timestamp cut))) := by
  cases head : log.previousHash with
  | none =>
      have unchanged : log.step sha256 (.append event timestamp cut) = log := by
        rw [step, head]
      rw [unchanged]
      exact ⟨linked, .inl tidy⟩
  | some hash =>
      obtain rfl := tidy.previousHash hash head
      have further := linked.append event timestamp
      rw [step_append head]
      generalize body sha256 event timestamp (lastHash sha256 log.attempts) = next at further
      refine ⟨further _, ?_⟩
      rw [tidy.file]
      obtain complete | ⟨part, some, torn⟩ := @cut_cases sha256 log.attempts
        ⟨next, cut.getD (recordLine sha256 next).length⟩
      · refine .inl ⟨complete, ?_⟩
        intro hash running
        cases cut with
        | none =>
            rw [lastHash_append, if_pos]
            · exact (Option.some.inj running).symm
            · exact decide_eq_true (by simp [recordLine])
        | some written => nomatch running
      · exact .inr ⟨log.attempts, _, rfl, part, some, torn⟩

/-- What the file looks like after a run whose appends start lines. -/
theorem run_linked (actions : List AuditAction) (starts : StartsLines sha256 actions) :
    Linked sha256 (run sha256 actions).attempts ∧
      (Tidy sha256 (run sha256 actions) ∨ Torn sha256 (run sha256 actions)) := by
  induction actions using List.reverseRecOn with
  | nil =>
      refine ⟨fun front a back split => ?_, .inl ⟨rfl, ?_⟩⟩
      · simp [run] at split
      · rintro hash ⟨⟩
        rfl
  | append_singleton actions action ih =>
      have earlier : StartsLines sha256 actions := by
        rintro front event timestamp cut back rfl running
        exact starts front event timestamp cut (back ++ [action]) (by simp) running
      obtain ⟨linked, state⟩ := ih earlier
      have last : run sha256 (actions ++ [action]) = (run sha256 actions).step sha256 action := by
        simp [run]
      rw [last]
      cases action with
      | restart =>
          exact ⟨linked, state.imp (Tidy.restart linked) id⟩
      | append event timestamp cut =>
          by_cases down : (run sha256 actions).previousHash = none
          · have unchanged : (run sha256 actions).step sha256 (.append event timestamp cut) =
                run sha256 actions := by
              rw [step, down]
            rw [unchanged]
            exact ⟨linked, state⟩
          · have start := starts actions event timestamp cut [] rfl down
            obtain tidy | torn := state
            · exact tidy.append linked event timestamp cut
            · exact absurd start (torn.not_startsLine linked)

end AuditLog

end Invariant

/-- The chain stays one chain in every run in which each append starts a line. -/
theorem chain_of_startsLines (sha256 : Bytes → List.Vector UInt8 32) (actions : List AuditAction)
    (starts : StartsLines sha256 actions) : (AuditLog.run sha256 actions).IsChain sha256 := by
  obtain ⟨linked, state⟩ := AuditLog.run_linked actions starts
  refine ⟨?_, ?_, ?_⟩
  · intro front a back split
    obtain ⟨event, timestamp, built⟩ := linked front a back split
    obtain ⟨distinct, -⟩ := List.nodup_append'.mp
      (@names_body sha256 event timestamp (lastHash sha256 front))
    rw [built]
    refine get?_of_mem distinct ?_
    rw [body_eq]
    simp
  · intro a mem complete
    obtain tidy | ⟨front, b, attempts, part, -, file⟩ := state
    · rw [tidy.file, ← List.append_nil (whole sha256 _), whole, splitOn_lines linked.newline_notMem]
      exact List.mem_append_left _ (List.mem_map_of_mem (List.mem_filter.mpr ⟨mem, complete⟩))
    · have earlier : Linked sha256 front := by
        rintro front' a' back rfl
        exact linked front' a' (back ++ [b]) (by simp [attempts])
      rw [file, whole, splitOn_lines earlier.newline_notMem]
      rw [attempts, List.mem_append, List.mem_singleton] at mem
      obtain mem | rfl := mem
      · exact List.mem_append_left _ (List.mem_map_of_mem (List.mem_filter.mpr ⟨mem, complete⟩))
      · obtain ⟨event, timestamp, built⟩ := linked front a [] attempts
        have text : (recordText sha256 a.body).take a.written = recordText sha256 a.body :=
          List.take_of_length_le (of_decide_eq_true complete)
        have single : '\n' ∉ recordText sha256 a.body := by
          rw [built]
          exact newline_notMem_recordText event timestamp plain_lastHash
        rw [text, List.splitOn_eq_singleton single]
        exact List.mem_append_right _ List.mem_cons_self
  · intro front a back split _
    obtain ⟨event, timestamp, built⟩ := linked front a back split
    rw [built]
    exact verifies_recordText event timestamp plain_lastHash

/-- A digest whose text is not that of the all-zero hash. -/
def ones (_ : Bytes) : List.Vector UInt8 32 := List.Vector.replicate 32 0x11

theorem isPlain_address : "10.0.0.2".toList.all isPlain = true := by decide

def enrolledDevice : Bytes := List.replicate 32 0x41

def enrolledPath : Bytes := List.replicate 320 0

/-- A device enrols a path of zeros. -/
def zeroPath : AuditEvent :=
  .path enrolledDevice 1 0 enrolledPath ⟨"10.0.0.2".toList, isPlain_address⟩

def clock : Timestamp := ⟨"1.5".toList, by decide⟩

def onesHash : Text := List.replicate 64 '1'

theorem blockHash_ones (record : List (Text × Json)) :
    blockHash ones record = onesHash :=
  (by decide : Hex.encode (List.Vector.replicate 32 0x11).toList = onesHash)

theorem loadLastAuditHash_nil : loadLastAuditHash [] = some zeroHash := by decide

theorem chain_of_startsLines_restart : (AuditLog.run ones
    [.append zeroPath clock none, .restart, .append zeroPath clock none]).IsChain ones := by
  refine chain_of_startsLines ones _ ?_
  intro front event timestamp cut back split _
  match front, split with
  | [], _ => exact .inl rfl
  | [_], split => cases split
  | [_, _], split =>
      cases split
      refine .inr ?_
      simp [AuditLog.run, AuditLog.step, loadLastAuditHash_nil, appendAudit, recordLine]
  | _ :: _ :: _ :: _, split => simp at split

/-- The record after a torn line starts a chain of its own. -/
theorem tornLine_breaks_chain : ¬ (AuditLog.run ones [.append zeroPath clock none,
    .append zeroPath clock (some 5), .restart, .append zeroPath clock none]).IsChain ones := by
  have torn : loadLastAuditHash (recordLine ones (body ones zeroPath clock zeroHash) ++
      (recordLine ones (body ones zeroPath clock onesHash)).take 5) =
        some zeroHash := by
    decide +kernel
  generalize start : body ones zeroPath clock zeroHash = first at torn
  generalize second_eq : body ones zeroPath clock onesHash = second at torn
  have attempts : (AuditLog.run ones [.append zeroPath clock none,
      .append zeroPath clock (some 5), .restart, .append zeroPath clock none]).attempts =
        [⟨first, (recordLine ones first).length⟩, ⟨second, 5⟩] ++
          ⟨first, (recordLine ones first).length⟩ :: [] := by
    simp [AuditLog.run, AuditLog.step, loadLastAuditHash_nil, appendAudit, blockHash_ones, start,
      second_eq, torn]
  intro chain
  have linked := chain.linked _ _ [] attempts
  have complete : Attempt.complete ones ⟨first, (recordLine ones first).length⟩ = true :=
    decide_eq_true (by simp [recordLine])
  have cut : Attempt.complete ones ⟨second, 5⟩ = false := by
    rw [← second_eq]
    decide +kernel
  have previous : get? first "previous_hash".toList = some (.string zeroHash) := by
    rw [← start]
    rfl
  have last : lastHash ones [⟨first, (recordLine ones first).length⟩, ⟨second, 5⟩] = onesHash := by
    simp [lastHash, complete, cut, blockHash_ones]
  rw [previous, last] at linked
  exact absurd (Json.string.inj (Option.some.inj linked)) (by decide)

end Runs

end Gcs
