import Mathlib.Data.List.Basic
import Mathlib.Tactic.Common

/-!
# JSON texts

Values, the text a value prints to, and the recursive descent that reads a text.
The printer takes the whitespace that follows commas and colons; the reader takes
the literal words that it knows. Numbers stay the tokens they are written as.

The fragment is that without escape sequences: strings are plain, and a text with
a backslash is refused.
-/

abbrev Text := List Char

inductive Json where
  | null
  | bool (value : Bool)
  | number (token : Text)
  | string (value : Text)
  | array (items : List Json)
  | object (fields : List (Text × Json))

namespace Json

section Characters

def isSpace (c : Char) : Bool := c = ' ' ∨ c = '\t' ∨ c = '\n' ∨ c = '\r'

/-- A character that stands for itself in a string. -/
def isPlain (c : Char) : Bool := ' ' ≤ c ∧ c ≤ '~' ∧ c ≠ '"' ∧ c ≠ '\\'

def isNumberCharacter (c : Char) : Bool :=
  c.isDigit ∨ c = '-' ∨ c = '+' ∨ c = '.' ∨ c = 'e' ∨ c = 'E'

def skip (text : Text) : Text := text.dropWhile isSpace

end Characters

section Numbers

/-- One or more digits. -/
def isDigits (text : Text) : Bool := text ≠ [] ∧ text.all Char.isDigit

def isExponent : Text → Bool
  | [] => true
  | c :: text => (c = 'e' ∨ c = 'E') ∧
      isDigits (if text.head? = some '-' ∨ text.head? = some '+' then text.tail else text)

def isFraction (text : Text) : Bool :=
  if text.head? = some '.' then
    isDigits (text.tail.takeWhile Char.isDigit) ∧ isExponent (text.tail.dropWhile Char.isDigit)
  else isExponent text

/-- The integer part has no leading zero. -/
def isInteger (text : Text) : Bool := isDigits text ∧ (text.head? = some '0' → text = ['0'])

def isUnsigned (text : Text) : Bool :=
  isInteger (text.takeWhile Char.isDigit) ∧ isFraction (text.dropWhile Char.isDigit)

/-- The grammar of number tokens, over characters that can occur in one. -/
def isNumber (text : Text) : Bool :=
  text.all isNumberCharacter ∧ isUnsigned (if text.head? = some '-' then text.tail else text)

end Numbers

section Printing

variable (gap : Text)

mutual

/-- The text of a value; `gap` follows every comma and colon. -/
def print : Json → Text
  | .null => "null".toList
  | .bool true => "true".toList
  | .bool false => "false".toList
  | .number token => token
  | .string value => '"' :: value ++ ['"']
  | .array items => '[' :: printItems items ++ [']']
  | .object fields => '{' :: printFields fields ++ ['}']

def printItems : List Json → Text
  | [] => []
  | [v] => print v
  | v :: rest => print v ++ ',' :: gap ++ printItems rest

def printFields : List (Text × Json) → Text
  | [] => []
  | [f] => printField f
  | f :: rest => printField f ++ ',' :: gap ++ printFields rest

def printField : Text × Json → Text
  | (name, v) => '"' :: name ++ '"' :: ':' :: gap ++ print v

end

end Printing

section Reading

/-- The rest of a string, up to its closing quote. -/
def closing : Text → Option (Text × Text)
  | [] => none
  | '"' :: text => some ([], text)
  | c :: text =>
      if c < ' ' ∨ c = '\\' then none
      else (closing text).map fun (value, text) => (c :: value, text)

def quoted : Text → Option (Text × Text)
  | '"' :: text => closing text
  | _ => none

def expect (c : Char) (text : Text) : Option Text :=
  if text.head? = some c then some text.tail else none

/-- The members of an object after its opening brace, with at least one member. -/
def members (value : Text → Option (Json × Text)) : Nat → Text → Option (List (Text × Json) × Text)
  | 0, _ => none
  | fuel + 1, text => do
      let (name, text) ← quoted text
      let text ← expect ':' (skip text)
      let (v, text) ← value (skip text)
      match skip text with
      | '}' :: text => some ([(name, v)], text)
      | ',' :: text => do
          let (rest, text) ← members value fuel (skip text)
          some ((name, v) :: rest, text)
      | _ => none

/-- The items of an array after its opening bracket, with at least one item. -/
def elements (value : Text → Option (Json × Text)) : Nat → Text → Option (List Json × Text)
  | 0, _ => none
  | fuel + 1, text => do
      let (v, text) ← value text
      match skip text with
      | ']' :: text => some ([v], text)
      | ',' :: text => do
          let (rest, text) ← elements value fuel (skip text)
          some (v :: rest, text)
      | _ => none

/-- Give a name its value in a dictionary. -/
def set (fields : List (Text × Json)) (name : Text) (v : Json) : List (Text × Json) :=
  match fields with
  | [] => [(name, v)]
  | f :: rest => if f.1 = name then (name, v) :: rest else f :: set rest name v

/-- Later members replace earlier ones of the same name. -/
def dict (fields : List (Text × Json)) : List (Text × Json) :=
  fields.foldl (fun read f => set read f.1 f.2) []

def get? (fields : List (Text × Json)) (name : Text) : Option Json :=
  (fields.find? fun f => f.1 = name).map Prod.snd

def word (words : List (Text × Json)) (text : Text) : Option (Json × Text) :=
  (words.find? fun w => w.1.isPrefixOf text).map fun w => (w.2, text.drop w.1.length)

/-- The value at the start of a text, and what follows it. -/
def value (words : List (Text × Json)) : Nat → Text → Option (Json × Text)
  | 0, _ => none
  | fuel + 1, text =>
      match text with
      | '"' :: text => (closing text).map fun (s, text) => (.string s, text)
      | '{' :: text =>
          match skip text with
          | '}' :: text => some (.object [], text)
          | text => (members (value words fuel) fuel text).map fun (fields, text) =>
              (.object (dict fields), text)
      | '[' :: text =>
          match skip text with
          | ']' :: text => some (.array [], text)
          | text => (elements (value words fuel) fuel text).map fun (items, text) =>
              (.array items, text)
      | text =>
          if isNumber (text.takeWhile isNumberCharacter) then
            some (.number (text.takeWhile isNumberCharacter), text.dropWhile isNumberCharacter)
          else word words text

/-- Read a whole text. -/
def loads (words : List (Text × Json)) (text : Text) : Option Json :=
  match value words (text.length + 1) (skip text) with
  | none => none
  | some (v, rest) => if skip rest = [] then some v else none

end Reading

end Json
