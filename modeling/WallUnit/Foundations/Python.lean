import Mathlib.Data.List.Infix

/-!
Owns Python values as `json.loads` builds them, and the string and dictionary
operations programs apply to them: truth, membership, formatting, whitespace.

`str.lower` and the `str()` of a value that is not a string need tables this
module does not own; an `Interpreter` supplies them, with what programs rely on.
-/

namespace WallUnit.Foundations.Python

/-- A `str`, as its code points. -/
abbrev Text := List Char

/-- A value built from JSON. A float is kept as whether it is zero and its
text. -/
inductive Value where
  | none
  | bool (value : Bool)
  | int (value : Int)
  | float (zero : Bool) (text : Text)
  | str (text : Text)
  | list (items : List Value)
  | dict (entries : List (Text × Value))

abbrev Dict := List (Text × Value)

/-- The exceptions the modelled operations raise. -/
inductive Error where
  | typeError
  | attributeError
  | keyError
deriving DecidableEq, Repr

/-- `entries.get(key)`. -/
def Dict.get? (entries : Dict) (key : Text) : Option Value :=
  (entries.find? fun entry => entry.1 = key).map Prod.snd

/-- `entries[key] = value`: in its place, or behind the others. -/
def Dict.set (entries : Dict) (key : Text) (value : Value) : Dict :=
  if entries.any fun entry => entry.1 = key then
    entries.map fun entry => if entry.1 = key then (key, value) else entry
  else entries ++ [(key, value)]

/-- `bool(value)`. -/
def Value.truthy : Value → Bool
  | .none => false
  | .bool value => value
  | .int value => value ≠ 0
  | .float zero _ => !zero
  | .str text => text ≠ []
  | .list items => !items.isEmpty
  | .dict entries => !entries.isEmpty

/-- `value == text` for a string `text`. -/
def Value.isStr (text : Text) : Value → Bool
  | .str other => other = text
  | _ => false

/-- `entries.get(key) or default`. -/
def Dict.getOr (entries : Dict) (key default : Text) : Value :=
  match entries.get? key with
  | some value => if value.truthy then value else .str default
  | none => .str default

/-- `needle in haystack` for strings. -/
def contains (needle haystack : Text) : Bool := decide (needle <:+: haystack)

/-- `needle in value`: a substring, an element or a key. -/
def Value.contains (needle : Text) : Value → Except Error Bool
  | .str text => .ok (Python.contains needle text)
  | .list items => .ok (items.any fun item => item.isStr needle)
  | .dict entries => .ok (entries.any fun entry => entry.1 = needle)
  | _ => .error .typeError

/-- `str.isspace` of one code point, which is also `\s`. -/
def isSpace (char : Char) : Bool :=
  let code := char.toNat
  (9 ≤ code && code ≤ 13) || (28 ≤ code && code ≤ 32) || code = 133 || code = 160 ||
    code = 5760 || (8192 ≤ code && code ≤ 8202) || code = 8232 || code = 8233 || code = 8239 ||
    code = 8287 || code = 12288

/-- `str.strip()`. -/
def strip (text : Text) : Text :=
  ((text.dropWhile isSpace).reverse.dropWhile isSpace).reverse

/-- `re.sub(r"\s+", "", text)`. -/
def removeSpace (text : Text) : Text := text.filter fun char => !isSpace char

/-- The parts of the interpreter that are taken as given. A leading ASCII string
lowers to itself with `A`-`Z` replaced, whatever follows it. -/
structure Interpreter where
  lower : Text → Text
  display : Value → Text
  parsesAsFloat : Text → Bool
  lower_append : ∀ head tail : Text, (∀ char ∈ head, char.toNat < 128) →
    ∃ rest, lower (head ++ tail) = head.map Char.toLower ++ rest

/-- `f"{value}"`. -/
def Interpreter.format (python : Interpreter) : Value → Text
  | .str text => text
  | value => python.display value

/-- An interpreter that lowers ASCII letters only. -/
def Interpreter.ascii (display : Value → Text) (parsesAsFloat : Text → Bool) : Interpreter where
  lower := fun text => text.map Char.toLower
  display := display
  parsesAsFloat := parsesAsFloat
  lower_append := fun _ tail _ => ⟨tail.map Char.toLower, List.map_append⟩

section

variable {entries : Dict} {key other : Text} {value : Value}

theorem Dict.get?_cons (entry : Text × Value) (rest : Dict) (key : Text) :
    Dict.get? (entry :: rest) key = if entry.1 = key then some entry.2 else Dict.get? rest key := by
  by_cases here : entry.1 = key
  · rw [if_pos here, Dict.get?, List.find?_cons_of_pos (by simpa using here), Option.map_some]
  · rw [if_neg here, Dict.get?, List.find?_cons_of_neg (by simpa using here), Dict.get?]

theorem Dict.get?_append (entries more : Dict) (key : Text) :
    Dict.get? (entries ++ more) key = (entries.get? key).or (Dict.get? more key) := by
  rw [Dict.get?, List.find?_append, Option.map_or, Dict.get?, Dict.get?]

theorem Dict.get?_eq_none_iff :
    entries.get? key = none ↔ (entries.any fun entry => entry.1 = key) = false := by
  rw [Dict.get?, Option.map_eq_none_iff, List.find?_eq_none, List.any_eq_false]

/-- Replacing the value of one key leaves the others. -/
theorem Dict.get?_replace_ne (differs : other ≠ key) :
    Dict.get? (entries.map fun entry => if entry.1 = key then (key, value) else entry) other =
      entries.get? other := by
  induction entries with
  | nil => rfl
  | cons entry rest inductionHypothesis =>
      rw [List.map_cons, Dict.get?_cons, Dict.get?_cons, inductionHypothesis]
      by_cases same : entry.1 = key
      · rw [if_pos same, if_neg differs.symm, if_neg (same ▸ differs.symm)]
      · rw [if_neg same]

theorem Dict.get?_replace_self (present : (entries.any fun entry => entry.1 = key) = true) :
    Dict.get? (entries.map fun entry => if entry.1 = key then (key, value) else entry) key =
      some value := by
  induction entries with
  | nil => contradiction
  | cons entry rest inductionHypothesis =>
      rw [List.map_cons, Dict.get?_cons]
      by_cases same : entry.1 = key
      · rw [if_pos same, if_pos rfl]
      · rw [List.any_cons, decide_eq_false same, Bool.false_or] at present
        rw [if_neg same, if_neg same, inductionHypothesis present]

theorem Dict.get?_set_self : (entries.set key value).get? key = some value := by
  rw [Dict.set]
  split_ifs with known
  · exact Dict.get?_replace_self known
  · rw [Dict.get?_append, Dict.get?_eq_none_iff.mpr (Bool.not_eq_true _ ▸ known), Option.none_or,
      Dict.get?_cons, if_pos rfl]

theorem Dict.get?_set_ne (differs : other ≠ key) :
    (entries.set key value).get? other = entries.get? other := by
  rw [Dict.set]
  split_ifs with known
  · exact Dict.get?_replace_ne differs
  · rw [Dict.get?_append, Dict.get?_cons, if_neg differs.symm]
    exact Option.or_none

end

/-- A word in the leading ASCII part of a text is found in its lower case. -/
theorem Interpreter.lower_infix (python : Interpreter) {needle head : Text} (tail : Text)
    (ascii : ∀ char ∈ head, char.toNat < 128) (inside : needle <:+: head.map Char.toLower) :
    needle <:+: python.lower (head ++ tail) := by
  obtain ⟨rest, lowered⟩ := python.lower_append head tail ascii
  rw [lowered]
  exact inside.trans (List.prefix_append _ _).isInfix

end WallUnit.Foundations.Python
