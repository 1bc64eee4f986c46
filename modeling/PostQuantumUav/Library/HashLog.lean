import Mathlib.Data.List.Induction

/-!
# Logs linked by digests

Each record of a log names the digest of the record before it, and the first one a fixed
start. The digest of the last record stands for the whole log.

Two logs that end in the same digest are equal, unless two different records have one
digest or the digest of a record is the start.
-/

namespace HashLog

variable {Record Digest : Type} (digest : Record → Digest) (start : Digest)
  (previous : Record → Digest)

/-- The digest that a further record names. -/
def last (records : List Record) : Digest := (records.getLast?.map digest).getD start

/-- Every record names the digest of the one before it. -/
def Linked (records : List Record) : Prop :=
  ∀ front record back, records = front ++ record :: back → previous record = last digest start front

@[simp] theorem last_nil : last digest start [] = start := rfl

@[simp] theorem last_append (records : List Record) (record : Record) :
    last digest start (records ++ [record]) = digest record := by
  rw [last, List.getLast?_concat]
  rfl

variable {digest start previous} {records : List Record}

theorem Linked.front {record : Record}
    (linked : Linked digest start previous (records ++ [record])) :
    Linked digest start previous records ∧ previous record = last digest start records := by
  refine ⟨?_, linked records record [] rfl⟩
  rintro front other back rfl
  exact linked front other (back ++ [record]) (by simp)

/-- The last digest binds the whole log. -/
theorem Linked.eq_of_last_eq {records' : List Record}
    (linked : Linked digest start previous records)
    (linked' : Linked digest start previous records')
    (same : last digest start records = last digest start records') :
    records = records' ∨
      (∃ record ∈ records, ∃ record' ∈ records', record ≠ record' ∧
        digest record = digest record') ∨
      ∃ record, (record ∈ records ∨ record ∈ records') ∧ digest record = start := by
  induction records using List.reverseRecOn generalizing records' with
  | nil =>
      obtain rfl | ⟨records', record', rfl⟩ := List.eq_nil_or_concat records'
      · exact .inl rfl
      · rw [List.concat_eq_append] at same ⊢
        rw [last_nil, last_append] at same
        exact .inr (.inr ⟨record', .inr List.mem_concat_self, same.symm⟩)
  | append_singleton records record ih =>
      rw [last_append] at same
      obtain rfl | ⟨records', record', rfl⟩ := List.eq_nil_or_concat records'
      · exact .inr (.inr ⟨record, .inl List.mem_concat_self, same⟩)
      · rw [List.concat_eq_append] at linked' same ⊢
        rw [last_append] at same
        by_cases equal : record = record'
        · subst equal
          obtain ⟨earlier, names⟩ := linked.front
          obtain ⟨earlier', names'⟩ := linked'.front
          rcases ih earlier earlier' (names.symm.trans names') with rfl | collision | cyclic
          · exact .inl rfl
          · obtain ⟨r, mem, r', mem', different⟩ := collision
            exact .inr (.inl ⟨r, List.mem_append_left _ mem, r', List.mem_append_left _ mem',
              different⟩)
          · obtain ⟨r, mem, starts⟩ := cyclic
            exact .inr (.inr ⟨r, mem.imp (List.mem_append_left _) (List.mem_append_left _), starts⟩)
        · exact .inr (.inl ⟨record, List.mem_concat_self, record', List.mem_concat_self, equal,
            same⟩)

end HashLog
