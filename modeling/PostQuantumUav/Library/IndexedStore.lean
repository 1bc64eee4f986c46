import Mathlib.Logic.Function.Basic
import Mathlib.Tactic.Common

/-!
# Records with a secondary index

A store maps keys to values, and an index maps a tag of each value back to the
key it is stored under. `store` and `remove` maintain the index by hand: a store
that changes a value's tag erases the old index entry and writes the new one, an
unchanged store writes nothing, and a removal erases the entry of the removed
value. Neither looks at whom an index entry points to.

The index finds every record exactly as long as no value is stored under a tag
that a record with another key carries at that moment; it never points to a
missing record or to one with another tag. Renaming keys and tags injectively
changes nothing else.
-/

/-- A map of records and a map from tags to the keys of records. -/
structure IndexedStore (Key Value Tag : Type) where
  record : Key → Option Value
  index : Tag → Option Key

namespace IndexedStore

section Meaning

variable {Key Value Tag : Type} (tag : Value → Tag)

def empty : IndexedStore Key Value Tag := ⟨fun _ => none, fun _ => none⟩

/-- The index finds every record. -/
def Complete (s : IndexedStore Key Value Tag) : Prop :=
  ∀ key value, s.record key = some value → s.index (tag value) = some key

/-- Every index entry points to a record with its tag. -/
def Sound (s : IndexedStore Key Value Tag) : Prop :=
  ∀ t key, s.index t = some key → ∃ value, s.record key = some value ∧ tag value = t

/-- No record under another key carries the tag of `value`. -/
def Fresh (s : IndexedStore Key Value Tag) (key : Key) (value : Value) : Prop :=
  ∀ other held, s.record other = some held → tag held = tag value → other = key

variable {tag}

/-- Two records found under the same tag are one record. -/
theorem Complete.key_unique {s : IndexedStore Key Value Tag} (complete : s.Complete tag)
    {k k' : Key} {v v' : Value} (first : s.record k = some v) (second : s.record k' = some v')
    (same : tag v = tag v') : k = k' := by
  have entry := complete k v first
  rw [same, complete k' v' second, Option.some.injEq] at entry
  exact entry.symm

end Meaning

variable {Key Value Tag : Type} [DecidableEq Key] [DecidableEq Tag]

section Remove

variable (tag : Value → Tag)

/-- Remove the record of a key and the index entry of its tag. -/
def remove (s : IndexedStore Key Value Tag) (key : Key) : IndexedStore Key Value Tag :=
  match s.record key with
  | none => s
  | some old =>
      { record := Function.update s.record key none
        index := Function.update s.index (tag old) none }

variable {tag} {s : IndexedStore Key Value Tag}

theorem Complete.remove (complete : s.Complete tag) (key : Key) :
    (s.remove tag key).Complete tag := by
  rw [IndexedStore.remove]
  cases before : s.record key with
  | none => exact complete
  | some old =>
      intro k v held
      change Function.update s.record key none k = some v at held
      have other : k ≠ key := by
        rintro rfl
        rw [Function.update_self] at held
        cases held
      rw [Function.update_of_ne other] at held
      change Function.update s.index (tag old) none (tag v) = some k
      rw [Function.update_of_ne fun equal => other (complete.key_unique held before equal)]
      exact complete k v held

/-- A removal erases the only entry that can point to the removed record. -/
theorem Sound.remove (sound : s.Sound tag) (key : Key) : (s.remove tag key).Sound tag := by
  rw [IndexedStore.remove]
  cases before : s.record key with
  | none => exact sound
  | some old =>
      intro t k entry
      change Function.update s.index (tag old) none t = some k at entry
      have kept : t ≠ tag old := by
        rintro rfl
        rw [Function.update_self] at entry
        cases entry
      rw [Function.update_of_ne kept] at entry
      obtain ⟨held, found, tagged⟩ := sound t k entry
      have other : k ≠ key := by
        rintro rfl
        rw [before] at found
        cases found
        exact kept tagged.symm
      refine ⟨held, ?_, tagged⟩
      change Function.update s.record key none k = some held
      rw [Function.update_of_ne other, found]

end Remove

variable [DecidableEq Value]

section Store

variable (tag : Value → Tag)

/-- The index without the entry of the value that `key` held under another tag. -/
def withoutOld (s : IndexedStore Key Value Tag) (key : Key) (value : Value) : Tag → Option Key :=
  match s.record key with
  | none => s.index
  | some old => if tag old ≠ tag value then Function.update s.index (tag old) none else s.index

/-- Write a value under a key and index it by its tag, unless nothing would change. -/
def store (s : IndexedStore Key Value Tag) (key : Key) (value : Value) :
    IndexedStore Key Value Tag :=
  if s.record key = some value then s
  else
    { record := Function.update s.record key (some value)
      index := Function.update (s.withoutOld tag key value) (tag value) (some key) }

variable {tag} {s : IndexedStore Key Value Tag} {key : Key} {value : Value}

theorem store_unchanged (same : s.record key = some value) : s.store tag key value = s :=
  if_pos same

theorem record_store (s : IndexedStore Key Value Tag) (key : Key) (value : Value) :
    (s.store tag key value).record = Function.update s.record key (some value) := by
  rw [store]
  split
  · rename_i same
    rw [← same, Function.update_eq_self]
  · rfl

theorem record_store_self (s : IndexedStore Key Value Tag) (key : Key) (value : Value) :
    (s.store tag key value).record key = some value := by
  rw [record_store, Function.update_self]

theorem record_store_of_ne {other : Key} (ne : other ≠ key) :
    (s.store tag key value).record other = s.record other := by
  rw [record_store, Function.update_of_ne ne]

omit [DecidableEq Key] [DecidableEq Value] in
/-- An entry that stays is an old one, and not that of a value whose tag is replaced. -/
theorem withoutOld_eq_some {t : Tag} {k : Key} (entry : s.withoutOld tag key value t = some k) :
    s.index t = some k ∧
      ∀ old, s.record key = some old → tag old ≠ tag value → t ≠ tag old := by
  rw [withoutOld] at entry
  cases before : s.record key with
  | none =>
      rw [before] at entry
      exact ⟨entry, nofun⟩
  | some old =>
      rw [before] at entry
      dsimp only at entry
      split at entry
      · have kept : t ≠ tag old := by
          rintro rfl
          rw [Function.update_self] at entry
          cases entry
        rw [Function.update_of_ne kept] at entry
        refine ⟨entry, ?_⟩
        rintro _ ⟨⟩ _
        exact kept
      · rename_i unchanged
        refine ⟨entry, ?_⟩
        rintro _ ⟨⟩ changed
        exact absurd changed unchanged

/-- A store leaves no index entry without its record, fresh or not. -/
theorem Sound.store (sound : s.Sound tag) (key : Key) (value : Value) :
    (s.store tag key value).Sound tag := by
  by_cases same : s.record key = some value
  · rwa [store_unchanged same]
  · intro t k entry
    rw [record_store]
    rw [IndexedStore.store, if_neg same] at entry
    dsimp only at entry
    by_cases own : t = tag value
    · subst own
      rw [Function.update_self, Option.some.injEq] at entry
      exact ⟨value, by rw [← entry, Function.update_self], rfl⟩
    · rw [Function.update_of_ne own] at entry
      obtain ⟨old, kept⟩ := withoutOld_eq_some entry
      obtain ⟨held, found, tagged⟩ := sound t k old
      have other : k ≠ key := by
        rintro rfl
        exact kept held found (tagged ▸ own) tagged.symm
      exact ⟨held, by rw [Function.update_of_ne other, found], tagged⟩

/-- A fresh tag keeps every record in the index. -/
theorem Complete.store (complete : s.Complete tag) (fresh : s.Fresh tag key value) :
    (s.store tag key value).Complete tag := by
  by_cases same : s.record key = some value
  · rwa [store_unchanged same]
  · intro k v held
    rw [record_store] at held
    rw [IndexedStore.store, if_neg same]
    dsimp only
    by_cases own : k = key
    · subst own
      rw [Function.update_self, Option.some.injEq] at held
      rw [← held, Function.update_self]
    · rw [Function.update_of_ne own] at held
      have otherTag : tag v ≠ tag value := fun equal => own (fresh k v held equal)
      rw [Function.update_of_ne otherTag, withoutOld]
      cases before : s.record key with
      | none => exact complete k v held
      | some old =>
          -- The erased entry belongs to the key that is written.
          have keep : tag v ≠ tag old := fun equal =>
            own (complete.key_unique held before equal)
          dsimp only
          split
          · rw [Function.update_of_ne keep]
            exact complete k v held
          · exact complete k v held

/-- If the index finds every record after a store, the stored tag was fresh. -/
theorem Complete.fresh (complete : (s.store tag key value).Complete tag) :
    s.Fresh tag key value := by
  intro other held found equal
  by_contra ne
  rw [← record_store_of_ne ne] at found
  exact ne (complete.key_unique found (record_store_self s key value) equal)

end Store

section Renaming

variable {Key' Tag' : Type}

/-- `renamed` holds the records and entries of `s` under other names for keys and tags. Only
keys with `keys` and tags with `tags` are in use. -/
structure Renames (tag : Value → Tag) (keys : Key → Prop) (tags : Tag → Prop)
    (onKey : Key → Key') (onTag : Tag → Tag') (s : IndexedStore Key Value Tag)
    (renamed : IndexedStore Key' Value Tag') : Prop where
  record : ∀ key, keys key → renamed.record (onKey key) = s.record key
  index : ∀ t, tags t → renamed.index (onTag t) = (s.index t).map onKey
  usedRecord : ∀ key value, s.record key = some value → keys key ∧ tags (tag value)
  usedEntry : ∀ t key, s.index t = some key → tags t ∧ keys key

variable {tag : Value → Tag} {keys : Key → Prop} {tags : Tag → Prop} {onKey : Key → Key'}
  {onTag : Tag → Tag'} {s : IndexedStore Key Value Tag} {renamed : IndexedStore Key' Value Tag'}

omit [DecidableEq Key] [DecidableEq Tag] [DecidableEq Value] in
theorem renames_empty :
    Renames tag keys tags onKey onTag (empty : IndexedStore Key Value Tag) empty where
  record _ _ := rfl
  index _ _ := rfl
  usedRecord key value held := by cases held
  usedEntry t key entry := by cases entry

variable [DecidableEq Key'] [DecidableEq Tag']

omit [DecidableEq Value] [DecidableEq Tag] [DecidableEq Tag'] in
/-- Writing a record under both names keeps the correspondence. -/
theorem Renames.updateRecord (h : Renames tag keys tags onKey onTag s renamed)
    (injective : ∀ k k', keys k → keys k' → onKey k = onKey k' → k = k') {key : Key}
    (used : keys key) (value : Option Value) (usedValue : ∀ v, value = some v → tags (tag v)) :
    Renames tag keys tags onKey onTag { s with record := Function.update s.record key value }
      { renamed with record := Function.update renamed.record (onKey key) value } where
  record other usedOther := by
    by_cases same : other = key
    · subst same
      simp only [Function.update_self]
    · have differ : onKey other ≠ onKey key := fun equal =>
        same (injective other key usedOther used equal)
      simp only [Function.update_of_ne differ, Function.update_of_ne same,
        h.record other usedOther]
  index := h.index
  usedRecord other held found := by
    by_cases same : other = key
    · subst same
      exact ⟨used, usedValue held (by simpa only [Function.update_self] using found)⟩
    · exact h.usedRecord other held (by simpa only [Function.update_of_ne same] using found)
  usedEntry := h.usedEntry

omit [DecidableEq Value] [DecidableEq Key] [DecidableEq Key'] in
/-- Writing an index entry under both names keeps the correspondence. -/
theorem Renames.updateIndex (h : Renames tag keys tags onKey onTag s renamed)
    (injective : ∀ t t', tags t → tags t' → onTag t = onTag t' → t = t') {t : Tag}
    (used : tags t) (place : Option Key) (usedPlace : ∀ key, place = some key → keys key) :
    Renames tag keys tags onKey onTag { s with index := Function.update s.index t place }
      { renamed with index := Function.update renamed.index (onTag t) (place.map onKey) } where
  record := h.record
  index other usedOther := by
    by_cases same : other = t
    · subst same
      simp only [Function.update_self]
    · have differ : onTag other ≠ onTag t := fun equal =>
        same (injective other t usedOther used equal)
      simp only [Function.update_of_ne differ, Function.update_of_ne same, h.index other usedOther]
  usedRecord := h.usedRecord
  usedEntry other key entry := by
    by_cases same : other = t
    · subst same
      exact ⟨used, usedPlace key (by simpa only [Function.update_self] using entry)⟩
    · exact h.usedEntry other key (by simpa only [Function.update_of_ne same] using entry)

variable (keysInjective : ∀ k k', keys k → keys k' → onKey k = onKey k' → k = k')
  (tagsInjective : ∀ t t', tags t → tags t' → onTag t = onTag t' → t = t')

include keysInjective tagsInjective

/-- A store under names that are used renames to the store under their new names. -/
theorem Renames.store (h : Renames tag keys tags onKey onTag s renamed) {key : Key}
    {value : Value} (used : keys key) (usedValue : tags (tag value)) :
    Renames tag keys tags onKey onTag (s.store tag key value)
      (renamed.store (onTag ∘ tag) (onKey key) value) := by
  rw [IndexedStore.store, IndexedStore.store, h.record key used]
  split
  · exact h
  · have replaced : Renames tag keys tags onKey onTag
        { s with index := s.withoutOld tag key value }
        { renamed with index := renamed.withoutOld (onTag ∘ tag) (onKey key) value } := by
      rw [withoutOld, withoutOld, h.record key used]
      cases before : s.record key with
      | none => exact h
      | some old =>
          have usedOld := (h.usedRecord key old before).2
          have changed : (onTag ∘ tag) old ≠ (onTag ∘ tag) value ↔ tag old ≠ tag value :=
            not_congr ⟨tagsInjective _ _ usedOld usedValue, congrArg onTag⟩
          simp only [changed]
          split
          · exact h.updateIndex tagsInjective usedOld none nofun
          · exact h
    have written := replaced.updateRecord keysInjective used (some value) (by
      rintro _ ⟨⟩
      exact usedValue)
    refine written.updateIndex tagsInjective usedValue (some key) ?_
    rintro _ ⟨⟩
    exact used

omit [DecidableEq Value] in
/-- A removal under a name that is used renames to the removal under its new name. -/
theorem Renames.remove (h : Renames tag keys tags onKey onTag s renamed) {key : Key}
    (used : keys key) :
    Renames tag keys tags onKey onTag (s.remove tag key)
      (renamed.remove (onTag ∘ tag) (onKey key)) := by
  rw [IndexedStore.remove, IndexedStore.remove, h.record key used]
  cases before : s.record key with
  | none => exact h
  | some old =>
      exact (h.updateRecord keysInjective used none nofun).updateIndex tagsInjective
        (h.usedRecord key old before).2 none nofun

end Renaming

end IndexedStore
