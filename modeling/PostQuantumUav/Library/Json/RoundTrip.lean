import Mathlib.Data.Char
import Mathlib.Data.List.Induction
import Mathlib.Data.List.Lex
import Mathlib.Data.List.Sort
import PostQuantumUav.Library.Json.Basic

/-!
# Flat objects are read back

An object whose values are plain strings and number tokens prints to a text that
reads back as the same object, whatever spacing the printer uses. The text has no
line break, so it can stand on a line of its own.

Sorting the members by name gives one list for all orders of the same members.
-/

namespace Json

section Scalars

/-- A plain string or a number token. -/
def isScalar : Json → Bool
  | .string value => value.all isPlain
  | .number token => isNumber token
  | _ => false

theorem closing_append {value : Text} (plain : value.all isPlain = true) (rest : Text) :
    closing (value ++ '"' :: rest) = some (value, rest) := by
  induction value with
  | nil => rfl
  | cons c value ih =>
      obtain ⟨here, later⟩ := Bool.and_eq_true_iff.mp ((List.all_cons ..).symm.trans plain)
      simp only [isPlain, decide_eq_true_eq] at here
      obtain ⟨printable, -, notQuote, notSlash⟩ := here
      have continues : ¬ (c < ' ' ∨ c = '\\') := by
        rintro (control | slash)
        · exact absurd printable (Char.not_le.mpr control)
        · exact notSlash slash
      rw [List.cons_append, closing, if_neg continues, ih later]
      · rfl
      · exact notQuote

theorem isNumber_ne_nil {token : Text} (number : isNumber token = true) :
    ∃ c rest, token = c :: rest ∧ isNumberCharacter c = true := by
  cases token with
  | nil => exact absurd number (by decide)
  | cons c rest =>
      simp only [isNumber, List.all_cons, decide_eq_true_eq, Bool.and_eq_true] at number
      exact ⟨c, rest, rfl, number.1.1⟩

/-- What follows does not continue a number. -/
def Delimited (rest : Text) : Prop := ∀ c, rest.head? = some c → isNumberCharacter c = false

theorem takeWhile_number {token rest : Text} (number : token.all isNumberCharacter = true)
    (delimited : Delimited rest) :
    (token ++ rest).takeWhile isNumberCharacter = token ∧
      (token ++ rest).dropWhile isNumberCharacter = rest := by
  have all : ∀ c ∈ token, isNumberCharacter c = true := List.all_eq_true.mp number
  rw [List.takeWhile_append_of_pos all, List.dropWhile_append_of_pos all]
  cases rest with
  | nil => exact ⟨List.append_nil _, rfl⟩
  | cons c rest =>
      have stop : isNumberCharacter c = false := delimited c rfl
      rw [List.takeWhile_cons_of_neg (by rw [stop]; decide), List.append_nil,
        List.dropWhile_cons_of_neg (by rw [stop]; decide)]
      exact ⟨rfl, rfl⟩

theorem value_scalar {words : List (Text × Json)} {gap rest : Text} {v : Json} (fuel : Nat)
    (scalar : isScalar v = true) (delimited : Delimited rest) :
    value words (fuel + 1) (print gap v ++ rest) = some (v, rest) := by
  cases v with
  | string s =>
      have text : print gap (.string s) ++ rest = '"' :: (s ++ '"' :: rest) := by simp [print]
      rw [text, value, closing_append scalar]
      rfl
  | number token =>
      obtain ⟨c, tail, rfl, first⟩ := isNumber_ne_nil scalar
      have all : (c :: tail).all isNumberCharacter = true := by
        have number : isNumber (c :: tail) = true := scalar
        rw [isNumber, decide_eq_true_eq] at number
        exact number.1
      obtain ⟨taken, dropped⟩ := takeWhile_number all delimited
      change value words (fuel + 1) ((c :: tail) ++ rest) = _
      rw [value]
      · rw [taken, dropped, if_pos (show isNumber (c :: tail) = true from scalar)]
      · rintro text equal
        cases (List.cons.inj equal).1
        exact absurd first (by decide)
      · rintro text equal
        cases (List.cons.inj equal).1
        exact absurd first (by decide)
      · rintro text equal
        cases (List.cons.inj equal).1
        exact absurd first (by decide)
  | _ => exact absurd scalar Bool.false_ne_true

end Scalars

section Spaces

theorem skip_append {gap : Text} (spaces : gap.all isSpace = true) (text : Text) :
    skip (gap ++ text) = skip text :=
  List.dropWhile_append_of_pos (List.all_eq_true.mp spaces)

theorem skip_cons {c : Char} (visible : isSpace c = false) (text : Text) :
    skip (c :: text) = c :: text :=
  List.dropWhile_cons_of_neg (by rw [visible]; decide)

end Spaces

section Objects

variable {words : List (Text × Json)} {gap rest : Text}

/-- Plain names with scalar values. -/
def isFlat (fields : List (Text × Json)) : Bool :=
  fields.all fun f => f.1.all isPlain && isScalar f.2

/-- A scalar starts with a visible character. -/
theorem skip_print {v : Json} (scalar : isScalar v = true) (rest : Text) :
    skip (print gap v ++ rest) = print gap v ++ rest := by
  cases v with
  | string s => exact skip_cons (by decide) _
  | number token =>
      obtain ⟨c, tail, rfl, first⟩ := isNumber_ne_nil scalar
      refine skip_cons ?_ _
      cases blank : isSpace c with
      | false => rfl
      | true =>
          simp only [isSpace, decide_eq_true_eq] at blank
          obtain rfl | rfl | rfl | rfl := blank <;> exact absurd first (by decide)
  | _ => exact absurd scalar Bool.false_ne_true

/-- The members of an object start with a quote. -/
theorem printFields_cons (f : Text × Json) (fields : List (Text × Json)) :
    ∃ body, printFields gap (f :: fields) = '"' :: body := by
  obtain ⟨name, v⟩ := f
  cases fields with
  | nil => exact ⟨_, rfl⟩
  | cons g fields => exact ⟨_, rfl⟩

theorem members_printFields (spaces : gap.all isSpace = true) {fields : List (Text × Json)}
    (some : fields ≠ []) (flat : isFlat fields = true) {inner : Nat} :
    ∀ {fuel : Nat}, fields.length ≤ fuel →
      members (value words (inner + 1)) fuel (printFields gap fields ++ '}' :: rest) =
        .some (fields, rest) := by
  induction fields with
  | nil => exact absurd rfl some
  | cons f fields ih =>
      obtain ⟨name, v⟩ := f
      intro fuel enough
      obtain ⟨fuel, rfl⟩ := Nat.exists_eq_add_of_le' (Nat.lt_of_lt_of_le (Nat.succ_pos _) enough)
      simp only [isFlat, List.all_cons, Bool.and_eq_true] at flat
      obtain ⟨⟨plain, scalar⟩, later⟩ := flat
      have first : ∀ next, quoted (printField gap (name, v) ++ next) =
          .some (name, ':' :: (gap ++ (print gap v ++ next))) := by
        intro next
        have text : printField gap (name, v) ++ next =
            '"' :: (name ++ '"' :: ':' :: (gap ++ (print gap v ++ next))) := by simp [printField]
        rw [text, quoted, closing_append plain]
      have colon : ∀ next, skip (':' :: next) = ':' :: next := skip_cons (by decide)
      cases fields with
      | nil =>
          rw [members, show printFields gap [(name, v)] = printField gap (name, v) from rfl, first]
          simp only [Option.bind_eq_bind, Option.bind_some, colon, expect, List.head?_cons,
            if_true, List.tail_cons, skip_append spaces, skip_print scalar]
          rw [value_scalar inner scalar (by rintro c ⟨⟩; decide)]
          simp only [Option.bind_some, skip_cons (by decide : isSpace '}' = false)]
      | cons g fields =>
          have text : printFields gap ((name, v) :: g :: fields) ++ '}' :: rest =
              printField gap (name, v) ++ ',' :: (gap ++ (printFields gap (g :: fields) ++
                '}' :: rest)) := by
            simp [printFields]
          have skipped : skip (printFields gap (g :: fields) ++ '}' :: rest) =
              printFields gap (g :: fields) ++ '}' :: rest := by
            obtain ⟨body, opened⟩ := @printFields_cons gap g fields
            rw [opened]
            exact skip_cons (by decide) _
          rw [members, text, first]
          simp only [Option.bind_eq_bind, Option.bind_some, colon, expect, List.head?_cons,
            if_true, List.tail_cons, skip_append spaces, skip_print scalar]
          rw [value_scalar inner scalar (by rintro c ⟨⟩; decide)]
          simp only [Option.bind_some, skip_cons (by decide : isSpace ',' = false),
            skip_append spaces, skipped]
          rw [ih (List.cons_ne_nil _ _) later (Nat.le_of_succ_le_succ enough)]
          rfl

theorem set_of_absent {fields : List (Text × Json)} {name : Text} (v : Json)
    (absent : name ∉ fields.map Prod.fst) : set fields name v = fields ++ [(name, v)] := by
  induction fields with
  | nil => rfl
  | cons f fields ih =>
      rw [List.map_cons, List.mem_cons, not_or] at absent
      rw [set, if_neg (Ne.symm absent.1), ih absent.2, List.cons_append]

/-- Members with different names stay as they are. -/
theorem dict_of_nodup {fields : List (Text × Json)} (nodup : (fields.map Prod.fst).Nodup) :
    dict fields = fields := by
  induction fields using List.reverseRecOn with
  | nil => rfl
  | append_singleton fields f ih =>
      rw [List.map_append, List.nodup_append'] at nodup
      obtain ⟨earlier, -, apart⟩ := nodup
      have absent : f.1 ∉ fields.map Prod.fst := fun mem => apart mem List.mem_cons_self
      rw [dict, List.foldl_append, List.foldl_cons, List.foldl_nil]
      change set (dict fields) f.1 f.2 = _
      rw [ih earlier, set_of_absent f.2 absent]

theorem names_set (fields : List (Text × Json)) (name : Text) (v : Json) :
    (set fields name v).map Prod.fst =
      if name ∈ fields.map Prod.fst then fields.map Prod.fst
      else fields.map Prod.fst ++ [name] := by
  induction fields with
  | nil => rfl
  | cons f fields ih =>
      rw [set]
      by_cases same : f.1 = name
      · rw [if_pos same, if_pos (by simp [same]), List.map_cons, List.map_cons, same]
      · rw [if_neg same, List.map_cons, ih]
        simp only [List.map_cons, List.mem_cons, Ne.symm same, false_or]
        split <;> rfl

/-- A dictionary has a name only once. -/
theorem nodup_dict (fields : List (Text × Json)) : ((dict fields).map Prod.fst).Nodup := by
  induction fields using List.reverseRecOn with
  | nil => exact List.nodup_nil
  | append_singleton fields f ih =>
      rw [dict, List.foldl_append, List.foldl_cons, List.foldl_nil]
      change ((set (dict fields) f.1 f.2).map Prod.fst).Nodup
      rw [names_set]
      split
      · exact ih
      · rename_i absent
        rw [← List.concat_eq_append]
        exact ih.concat absent

/-- So has an object that was read, unless it is one of the words. -/
theorem nodup_of_loads {words : List (Text × Json)} (scalars : ∀ w ∈ words, ∀ fields,
    w.2 ≠ .object fields) {text : Text} {fields : List (Text × Json)}
    (read : loads words text = some (.object fields)) : (fields.map Prod.fst).Nodup := by
  rw [loads] at read
  cases found : value words (text.length + 1) (skip text) with
  | none => rw [found] at read; cases read
  | some parsed =>
      obtain ⟨v, rest⟩ := parsed
      rw [found] at read
      obtain ⟨-, same⟩ := Option.ite_none_right_eq_some.mp read
      obtain rfl := Option.some.inj same
      rw [value.eq_def] at found
      simp only at found
      split at found
      · obtain ⟨_, -, same⟩ := Option.map_eq_some_iff.mp found
        cases same
      · split at found
        · cases found
          exact List.nodup_nil
        · obtain ⟨_, -, same⟩ := Option.map_eq_some_iff.mp found
          cases same
          exact nodup_dict _
      · split at found
        · cases found
        · obtain ⟨_, -, same⟩ := Option.map_eq_some_iff.mp found
          cases same
      · split at found
        · cases found
        · obtain ⟨w, present, same⟩ := Option.map_eq_some_iff.mp found
          exact absurd (congrArg Prod.fst same)
            (scalars w (List.mem_of_find?_eq_some present) fields)

theorem length_le_printFields (fields : List (Text × Json)) :
    fields.length ≤ (printFields gap fields).length := by
  induction fields with
  | nil => exact Nat.zero_le _
  | cons f fields ih =>
      cases fields with
      | nil =>
          obtain ⟨body, opened⟩ := @printFields_cons gap f []
          rw [opened]
          exact Nat.succ_le_succ (Nat.zero_le _)
      | cons g fields =>
          simp only [printFields, List.length_append, List.length_cons] at ih ⊢
          omega

/-- A flat object is read back from its text, with spaces after it. -/
theorem loads_object {fields : List (Text × Json)} {tail : Text} (spaces : gap.all isSpace = true)
    (after : tail.all isSpace = true) (flat : isFlat fields = true)
    (nodup : (fields.map Prod.fst).Nodup) :
    loads words (print gap (.object fields) ++ tail) = some (.object fields) := by
  have trailing : skip tail = [] := by
    rw [← List.append_nil tail, skip_append after]
    rfl
  have text : print gap (.object fields) ++ tail =
      '{' :: (printFields gap fields ++ '}' :: tail) := by
    simp [print]
  have enough : fields.length ≤ (print gap (.object fields) ++ tail).length := by
    have shorter := @length_le_printFields gap fields
    rw [text, List.length_cons, List.length_append]
    omega
  have skipped : skip (print gap (.object fields) ++ tail) =
      print gap (.object fields) ++ tail := by
    rw [text]
    exact skip_cons (by decide) _
  obtain ⟨n, long⟩ : ∃ n, (print gap (.object fields) ++ tail).length = n + 1 := by
    rw [text, List.length_cons]
    exact ⟨_, rfl⟩
  rw [loads, skipped, long, text, value]
  cases fields with
  | nil => simp [printFields, skip_cons (by decide : isSpace '}' = false), trailing]
  | cons f fields =>
      have read := @members_printFields words gap tail spaces (f :: fields) (List.cons_ne_nil _ _)
        flat n (n + 1) (by omega)
      obtain ⟨body, opened⟩ := @printFields_cons gap f fields
      rw [opened, List.cons_append] at read ⊢
      rw [skip_cons (by decide)]
      simp [read, trailing, dict_of_nodup nodup]

theorem isPlain_of_number {c : Char} (number : isNumberCharacter c = true) : isPlain c = true := by
  simp only [isNumberCharacter, decide_eq_true_eq, Char.isDigit, Bool.and_eq_true] at number
  obtain ⟨low, high⟩ | rfl | rfl | rfl | rfl | rfl := number
  · simp only [isPlain, decide_eq_true_eq]
    refine ⟨?_, ?_, ?_, ?_⟩
    · exact UInt32.le_trans (by decide) low
    · exact UInt32.le_trans high (by decide)
    · rintro rfl
      exact absurd low (by decide)
    · rintro rfl
      exact absurd high (by decide)
  all_goals decide

/-- A character that is neither plain nor a quote occurs in no member. -/
theorem notMem_printFields {c : Char} (special : isPlain c = false) (notQuote : c ≠ '"')
    (gapless : c ∉ gap) {fields : List (Text × Json)} (flat : isFlat fields = true) :
    c ∉ printFields gap fields := by
  have plain : ∀ text : Text, text.all isPlain = true → c ∉ text := by
    intro text all mem
    exact absurd (List.all_eq_true.mp all c mem) (by rw [special]; decide)
  have field : ∀ f : Text × Json, (f.1.all isPlain && isScalar f.2) = true →
      c ∉ printField gap f := by
    rintro ⟨name, v⟩ valid mem
    obtain ⟨plainName, scalar⟩ := Bool.and_eq_true_iff.mp valid
    have value : c ∉ print gap v := by
      cases v with
      | string s => simpa [print, notQuote] using plain s scalar
      | number token =>
          refine plain token (List.all_eq_true.mpr fun d mem => isPlain_of_number ?_)
          have number : isNumber token = true := scalar
          rw [isNumber, decide_eq_true_eq] at number
          exact List.all_eq_true.mp number.1 d mem
      | _ => exact absurd scalar Bool.false_ne_true
    have notColon : c ≠ ':' := by
      rintro rfl
      exact absurd special (by decide)
    simp [printField, plain name plainName, gapless, value, notQuote, notColon] at mem
  induction fields with
  | nil => exact List.not_mem_nil
  | cons f fields ih =>
      obtain ⟨here, later⟩ := Bool.and_eq_true_iff.mp ((List.all_cons ..).symm.trans flat)
      have notComma : c ≠ ',' := by
        rintro rfl
        exact absurd special (by decide)
      cases fields with
      | nil => exact field f here
      | cons g fields => simp [printFields, field f here, ih later, gapless, notComma]

/-- A line break cannot occur in the text of a flat object. -/
theorem newline_notMem_print {fields : List (Text × Json)} (gapless : '\n' ∉ gap)
    (flat : isFlat fields = true) : '\n' ∉ print gap (.object fields) := by
  have inside := notMem_printFields (by decide) (by decide) gapless flat
  simp [print, inside]

end Objects

section Sorting

/-- The members in the order of their names. -/
def sortKeys (fields : List (Text × Json)) : List (Text × Json) :=
  fields.insertionSort fun f g => f.1 ≤ g.1

theorem perm_sortKeys (fields : List (Text × Json)) : (sortKeys fields).Perm fields :=
  List.perm_insertionSort _ _

instance : Std.Total fun f g : Text × Json => f.1 ≤ g.1 := ⟨fun f g => le_total f.1 g.1⟩

instance : IsTrans (Text × Json) fun f g => f.1 ≤ g.1 := ⟨fun _ _ _ => le_trans⟩

/-- The order in which different names are given does not matter. -/
theorem sortKeys_eq_of_perm {fields fields' : List (Text × Json)} (perm : fields.Perm fields')
    (nodup : (fields.map Prod.fst).Nodup) : sortKeys fields = sortKeys fields' := by
  have reorder : (sortKeys fields).Perm (sortKeys fields') :=
    (perm_sortKeys fields).trans (perm.trans (perm_sortKeys fields').symm)
  refine reorder.eq_of_pairwise ?_ (List.pairwise_insertionSort _ _)
    (List.pairwise_insertionSort _ _)
  intro f g mem mem' le ge
  have here : f ∈ fields := (perm_sortKeys fields).mem_iff.mp mem
  have there : g ∈ fields := perm.mem_iff.mpr ((perm_sortKeys fields').mem_iff.mp mem')
  exact List.inj_on_of_nodup_map nodup here there (le_antisymm le ge)

theorem isFlat_of_perm {fields fields' : List (Text × Json)} (perm : fields.Perm fields') :
    isFlat fields = isFlat fields' := by
  rw [isFlat, isFlat, Bool.eq_iff_iff, List.all_eq_true, List.all_eq_true]
  exact forall_congr' fun f => by rw [perm.mem_iff]

end Sorting

section Lookup

/-- A member with a name of its own is found. -/
theorem get?_of_mem {fields : List (Text × Json)} {name : Text} {v : Json}
    (nodup : (fields.map Prod.fst).Nodup) (mem : (name, v) ∈ fields) :
    get? fields name = some v := by
  induction fields with
  | nil => exact absurd mem List.not_mem_nil
  | cons f fields ih =>
      obtain ⟨fresh, nodup⟩ := List.nodup_cons.mp nodup
      by_cases same : f.1 = name
      · obtain rfl | later := List.mem_cons.mp mem
        · rw [get?, List.find?_cons_of_pos (by simp)]
          rfl
        · exact absurd (List.mem_map_of_mem later) (same ▸ fresh)
      · have later : (name, v) ∈ fields := by
          obtain rfl | later := List.mem_cons.mp mem
          · exact absurd rfl same
          · exact later
        rw [get?, List.find?_cons_of_neg (by simpa using same)]
        exact ih nodup later

/-- What is found is a member. -/
theorem mem_of_get? {fields : List (Text × Json)} {name : Text} {v : Json}
    (found : get? fields name = some v) : (name, v) ∈ fields := by
  obtain ⟨f, present, rfl⟩ := Option.map_eq_some_iff.mp found
  have named := List.find?_some present
  rw [decide_eq_true_eq] at named
  exact named ▸ List.mem_of_find?_eq_some present

/-- The order of the members does not matter. -/
theorem get?_of_perm {fields fields' : List (Text × Json)} (perm : fields.Perm fields')
    (nodup : (fields.map Prod.fst).Nodup) (name : Text) : get? fields name = get? fields' name := by
  have nodup' : (fields'.map Prod.fst).Nodup := (perm.map Prod.fst).nodup_iff.mp nodup
  refine Option.ext fun v => ⟨fun found => ?_, fun found => ?_⟩
  · exact get?_of_mem nodup' (perm.mem_iff.mp (mem_of_get? found))
  · exact get?_of_mem nodup (perm.mem_iff.mpr (mem_of_get? found))

/-- Nor do members of another name. -/
theorem get?_filter (fields : List (Text × Json)) {name other : Text} (different : name ≠ other) :
    get? (fields.filter fun f => f.1 ≠ other) name = get? fields name := by
  rw [get?, get?, List.find?_filter]
  refine congrArg (Option.map Prod.snd) ?_
  refine congrArg (fun p => List.find? p fields) (funext fun f => ?_)
  by_cases same : f.1 = name
  · simp [same, different]
  · simp [same]

end Lookup

section Decimal

/-- Only zero starts with a zero. -/
theorem head_toDigits (n : Nat) :
    (Nat.toDigits 10 n).head? = some '0' → Nat.toDigits 10 n = ['0'] := by
  induction n using Nat.strong_induction_on with
  | _ n ih =>
      intro zero
      by_cases small : n < 10
      · rw [Nat.toDigits_of_lt_base small] at zero ⊢
        exact congrArg (fun c => [c]) (Option.some.inj zero)
      · rw [Nat.toDigits_of_base_le (by decide) (Nat.not_lt.mp small)] at zero
        have front : (Nat.toDigits 10 (n / 10)).head? = some '0' := by
          cases digits : Nat.toDigits 10 (n / 10) with
          | nil => exact absurd digits Nat.toDigits_ne_nil
          | cons c rest => simpa [digits] using zero
        have one := ih (n / 10) (by omega) front
        have read := congrArg (fun text => Nat.ofDigitChars 10 text 0) one
        rw [Nat.ofDigitChars_toDigits (by decide) (by decide)] at read
        have : n / 10 = 0 := read
        omega

/-- A natural number is written as a number token. -/
theorem isNumber_toDigits (n : Nat) : isNumber (Nat.toDigits 10 n) = true := by
  have digits : (Nat.toDigits 10 n).all Char.isDigit = true :=
    List.all_eq_true.mpr fun c mem => Nat.isDigit_of_mem_toDigits (by decide) (by decide) mem
  have notMinus : (Nat.toDigits 10 n).head? ≠ some '-' := by
    intro minus
    exact absurd (List.all_eq_true.mp digits '-' (List.mem_of_mem_head? minus)) (by decide)
  have characters : (Nat.toDigits 10 n).all isNumberCharacter = true :=
    List.all_eq_true.mpr fun c mem => by
      simp [isNumberCharacter, List.all_eq_true.mp digits c mem]
  have taken : (Nat.toDigits 10 n).takeWhile Char.isDigit = Nat.toDigits 10 n :=
    by simpa using @List.takeWhile_append_of_pos _ Char.isDigit _ [] (List.all_eq_true.mp digits)
  have dropped : (Nat.toDigits 10 n).dropWhile Char.isDigit = [] :=
    by simpa using @List.dropWhile_append_of_pos _ Char.isDigit _ [] (List.all_eq_true.mp digits)
  rw [isNumber, decide_eq_true_eq, if_neg notMinus, isUnsigned, decide_eq_true_eq, taken, dropped,
    isInteger, decide_eq_true_eq, isDigits, decide_eq_true_eq]
  exact ⟨characters, ⟨⟨Nat.toDigits_ne_nil, digits⟩, head_toDigits n⟩, rfl⟩

end Decimal

end Json
