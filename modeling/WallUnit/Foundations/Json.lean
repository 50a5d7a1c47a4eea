import Mathlib.Data.List.Basic

/-!
Owns the grammar of JSON texts: which texts are well formed, and which value a reader
gives to each, whatever it makes of numbers, strings, arrays and objects. A minimal writer
of objects of strings, and that what it writes reads back.

Does not own the white space around a text, nor a parser.
-/

namespace WallUnit.Foundations.Json

/-- White space between the tokens of a text. -/
def Blank (text : List Char) : Prop := ∀ char ∈ text, char ∈ [' ', '\t', '\n', '\r']

instance : DecidablePred Blank := List.decidableBAll fun char => char ∈ [' ', '\t', '\n', '\r']

/-! ### Strings -/

/-- What a backslash may stand before, apart from `u`, and the code point of the pair. -/
def escapes : List (Char × Nat) :=
  [('"', 34), ('\\', 92), ('/', 47), ('b', 8), ('f', 12), ('n', 10), ('r', 13), ('t', 9)]

def hexDigits : List Char := "0123456789abcdefABCDEF".toList

structure HexDigit where
  char : Char
  isHex : char ∈ hexDigits

def HexDigit.value (digit : HexDigit) : Nat :=
  let place := hexDigits.idxOf digit.char
  if place < 16 then place else place - 6

/-- A piece of a string as it is written. -/
inductive Piece where
  | plain (char : Char) (allowed : 32 ≤ char.toNat ∧ char ≠ '"' ∧ char ≠ '\\')
  | escape (char : Char) (code : Nat) (known : (char, code) ∈ escapes)
  | unit (first second third fourth : HexDigit)

def Piece.text : Piece → List Char
  | .plain char _ => [char]
  | .escape char _ _ => ['\\', char]
  | .unit first second third fourth =>
      ['\\', 'u', first.char, second.char, third.char, fourth.char]

def Piece.code : Piece → Nat
  | .plain char _ => char.toNat
  | .escape _ code _ => code
  | .unit first second third fourth =>
      ((first.value * 16 + second.value) * 16 + third.value) * 16 + fourth.value

/-- The code points of a string. Two surrogates that belong together are one code point,
any other surrogate stands for itself. -/
def codePoints : List Piece → List Nat
  | [] => []
  | [piece] => [piece.code]
  | high :: low :: rest =>
      if 0xD800 ≤ high.code ∧ high.code < 0xDC00 ∧ 0xDC00 ≤ low.code ∧ low.code < 0xE000 then
        (0x10000 + (high.code - 0xD800) * 0x400 + (low.code - 0xDC00)) :: codePoints rest
      else high.code :: codePoints (low :: rest)

def quoted (pieces : List Piece) : List Char := '"' :: pieces.flatMap Piece.text ++ ['"']

/-! ### Numbers -/

def Digits (text : List Char) : Prop := text ≠ [] ∧ ∀ char ∈ text, char.isDigit = true

/-- A number as it is written. -/
structure Numeral where
  sign : List Char
  whole : List Char
  fraction : List Char
  exponent : List Char
  sign_wf : sign = [] ∨ sign = ['-']
  whole_wf : whole = ['0'] ∨ Digits whole ∧ whole.head? ≠ some '0'
  fraction_wf : fraction = [] ∨ ∃ digits, Digits digits ∧ fraction = '.' :: digits
  exponent_wf : exponent = [] ∨ ∃ mark ∈ ['e', 'E'], ∃ sign ∈ [[], ['+'], ['-']], ∃ digits,
    Digits digits ∧ exponent = mark :: sign ++ digits

def Numeral.text (numeral : Numeral) : List Char :=
  numeral.sign ++ numeral.whole ++ numeral.fraction ++ numeral.exponent

/-- A number is digits, signs, a point and an `e`. -/
theorem Numeral.char_cases (numeral : Numeral) {char : Char} (member : char ∈ numeral.text) :
    char.isDigit = true ∨ char ∈ ['-', '+', '.', 'e', 'E'] := by
  have digit {digits : List Char} (all : Digits digits) (inside : char ∈ digits) :
      char.isDigit = true := all.2 char inside
  simp only [Numeral.text, List.mem_append] at member
  rcases member with ((sign | whole) | fraction) | exponent
  · rcases numeral.sign_wf with none | minus
    · rw [none] at sign
      contradiction
    · rw [minus, List.mem_singleton] at sign
      exact Or.inr (by simp [sign])
  · rcases numeral.whole_wf with zero | digits
    · rw [zero, List.mem_singleton] at whole
      exact Or.inl (by rw [whole]; rfl)
    · exact Or.inl (digit digits.1 whole)
  · rcases numeral.fraction_wf with none | ⟨digits, all, written⟩
    · rw [none] at fraction
      contradiction
    · rw [written, List.mem_cons] at fraction
      rcases fraction with point | inside
      · exact Or.inr (by simp [point])
      · exact Or.inl (digit all inside)
  · rcases numeral.exponent_wf with none | ⟨mark, known, sign, signs, digits, all, written⟩
    · rw [none] at exponent
      contradiction
    · rw [written, List.cons_append, List.mem_cons, List.mem_append] at exponent
      rcases exponent with letter | inside | inside
      · rw [← letter] at known
        simp only [List.mem_cons, List.not_mem_nil, or_false] at known
        exact Or.inr (by simp [known])
      · simp only [List.mem_cons, List.not_mem_nil, or_false] at signs
        rcases signs with rfl | rfl | rfl
        · contradiction
        · exact Or.inr (by simp [List.mem_singleton.mp inside])
        · exact Or.inr (by simp [List.mem_singleton.mp inside])
      · exact Or.inl (digit all inside)

/-! ### Texts -/

/-- What a reader makes of each kind of text. -/
structure Reading (Key Value : Type) where
  null : Value
  bool : Bool → Value
  number : Numeral → Value
  string : List Nat → Value
  key : List Nat → Key
  array : List Value → Value
  object : List (Key × Value) → Value

/-- A value inside an array or an object, with the white space around it. -/
structure Element (Value : Type) where
  before : List Char
  text : List Char
  value : Value
  after : List Char
  blank : Blank before ∧ Blank after

/-- A member of an object, with the white space before its name and behind it. -/
structure Member (Value : Type) where
  before : List Char
  name : List Piece
  after : List Char
  element : Element Value
  blank : Blank before ∧ Blank after

section

variable {Key Value : Type}

def Element.padded (element : Element Value) : List Char :=
  element.before ++ element.text ++ element.after

def Member.padded (member : Member Value) : List Char :=
  member.before ++ quoted member.name ++ member.after ++ ':' :: member.element.padded

def Member.entry (reading : Reading Key Value) (member : Member Value) : Key × Value :=
  (reading.key (codePoints member.name), member.element.value)

/-- `space` is there for what has no elements. -/
def arrayText (space : List Char) (elements : List (Element Value)) : List Char :=
  '[' :: space ++ [','].intercalate (elements.map Element.padded) ++ [']']

def objectText (space : List Char) (members : List (Member Value)) : List Char :=
  '{' :: space ++ [','].intercalate (members.map Member.padded) ++ ['}']

/-- The text is well formed and the reader gives it this value. -/
inductive Spells (reading : Reading Key Value) : List Char → Value → Prop
  | null : Spells reading "null".toList reading.null
  | bool (value : Bool) :
      Spells reading (if value then "true" else "false").toList (reading.bool value)
  | number (numeral : Numeral) : Spells reading numeral.text (reading.number numeral)
  | string (pieces : List Piece) :
      Spells reading (quoted pieces) (reading.string (codePoints pieces))
  | array (space : List Char) (elements : List (Element Value)) (blank : Blank space)
      (each : ∀ element ∈ elements, Spells reading element.text element.value) :
      Spells reading (arrayText space elements) (reading.array (elements.map Element.value))
  | object (space : List Char) (members : List (Member Value)) (blank : Blank space)
      (each : ∀ member ∈ members, Spells reading member.element.text member.element.value) :
      Spells reading (objectText space members)
        (reading.object (members.map (Member.entry reading)))

/-- Only an object begins with a brace. -/
theorem Spells.exists_members {reading : Reading Key Value} {text : List Char} {value : Value}
    (spells : Spells reading text value) (opens : text.head? = some '{') :
    ∃ (space : List Char) (members : List (Member Value)),
      Blank space ∧
      (∀ member ∈ members, Spells reading member.element.text member.element.value) ∧
      text = objectText space members := by
  cases spells with
  | null => contradiction
  | bool value => cases value <;> contradiction
  | number numeral =>
      have digit := numeral.char_cases (List.mem_of_mem_head? opens)
      exact absurd digit (by decide)
  | string pieces =>
      rw [quoted, List.cons_append, List.head?_cons] at opens
      contradiction
  | array space elements blank each =>
      rw [arrayText, List.cons_append, List.cons_append, List.head?_cons] at opens
      contradiction
  | object space members blank each => exact ⟨space, members, blank, each, rfl⟩

end

/-! ### Writing strings -/

/-- A string as a minimal writer spells it: a backslash before each `"` and `\`. -/
def escaped (text : List Char) : List Char :=
  text.flatMap fun char => if char = '"' ∨ char = '\\' then ['\\', char] else [char]

/-- The characters a minimal writer may be given. -/
def Printable (text : List Char) : Prop := ∀ char ∈ text, 32 ≤ char.toNat ∧ char.toNat < 0xD800

instance : DecidablePred Printable :=
  List.decidableBAll fun char : Char => 32 ≤ char.toNat ∧ char.toNat < 0xD800

theorem escaped_append (first second : List Char) :
    escaped (first ++ second) = escaped first ++ escaped second := List.flatMap_append

theorem codePoints_of_no_surrogate {pieces : List Piece}
    (basic : ∀ piece ∈ pieces, piece.code < 0xD800) :
    codePoints pieces = pieces.map Piece.code := by
  induction pieces with
  | nil => rfl
  | cons piece rest inductionHypothesis =>
      have tail : codePoints rest = rest.map Piece.code := by
        apply inductionHypothesis
        intro other member
        exact basic other (List.mem_cons_of_mem _ member)
      have low := basic piece List.mem_cons_self
      cases rest with
      | nil => rfl
      | cons next rest =>
          rw [codePoints, if_neg (by omega), tail]
          rfl

/-- The piece that stands for a character, in the writer's spelling. -/
theorem exists_piece {char : Char} (printable : 32 ≤ char.toNat) :
    ∃ piece : Piece, piece.text = escaped [char] ∧ piece.code = char.toNat := by
  by_cases special : char = '"' ∨ char = '\\'
  · have known : (char, char.toNat) ∈ escapes := by
      rcases special with rfl | rfl <;> decide
    refine ⟨.escape char char.toNat known, ?_, rfl⟩
    rw [escaped, List.flatMap_singleton, if_pos special]
    rfl
  · rw [not_or] at special
    refine ⟨.plain char ⟨printable, special⟩, ?_, rfl⟩
    rw [escaped, List.flatMap_singleton, if_neg (not_or.mpr special)]
    rfl

/-- What the writer spells, the reader reads back. -/
theorem exists_pieces {text : List Char} (printable : Printable text) :
    ∃ pieces : List Piece, pieces.flatMap Piece.text = escaped text ∧
      pieces.map Piece.code = text.map Char.toNat := by
  induction text with
  | nil => exact ⟨[], rfl, rfl⟩
  | cons char rest inductionHypothesis =>
      obtain ⟨piece, spelled, code⟩ := exists_piece (printable char List.mem_cons_self).1
      obtain ⟨pieces, others, codes⟩ := inductionHypothesis fun other member =>
        printable other (List.mem_cons_of_mem _ member)
      refine ⟨piece :: pieces, ?_, ?_⟩
      · rw [List.flatMap_cons, spelled, others, ← escaped_append, List.singleton_append]
      · rw [List.map_cons, code, codes, List.map_cons]

theorem exists_quoted {text : List Char} (printable : Printable text) :
    ∃ pieces : List Piece, quoted pieces = '"' :: escaped text ++ ['"'] ∧
      codePoints pieces = text.map Char.toNat := by
  obtain ⟨pieces, spelled, codes⟩ := exists_pieces printable
  refine ⟨pieces, by rw [quoted, spelled], ?_⟩
  rw [← codes]
  apply codePoints_of_no_surrogate
  intro piece member
  have read : piece.code ∈ text.map Char.toNat := codes ▸ List.mem_map_of_mem member
  obtain ⟨char, inside, code⟩ := List.mem_map.mp read
  rw [← code]
  exact (printable char inside).2

/-- A name and a string, as a writer joins them. -/
def stringMember (entry : List Char × List Char) : List Char :=
  '"' :: escaped entry.1 ++ ['"', ':', '"'] ++ escaped entry.2 ++ ['"']

def stringObject (entries : List (List Char × List Char)) : List Char :=
  '{' :: [','].intercalate (entries.map stringMember) ++ ['}']

section

variable {Key Value : Type} (reading : Reading Key Value)

/-- The entry of an object that a reader makes of a name and a string. -/
def stringEntry (entry : List Char × List Char) : Key × Value :=
  (reading.key (entry.1.map Char.toNat), reading.string (entry.2.map Char.toNat))

theorem exists_stringMember {entry : List Char × List Char} (name : Printable entry.1)
    (value : Printable entry.2) :
    ∃ member : Member Value, member.padded = stringMember entry ∧
      member.entry reading = stringEntry reading entry ∧
      Spells reading member.element.text member.element.value := by
  obtain ⟨namePieces, nameText, nameCodes⟩ := exists_quoted name
  obtain ⟨pieces, text, codes⟩ := exists_quoted value
  have blank : Blank [] := by
    intro char member
    contradiction
  refine ⟨⟨[], namePieces, [], ⟨[], quoted pieces, reading.string (codePoints pieces), [],
    blank, blank⟩, blank, blank⟩, ?_, ?_, .string pieces⟩
  · simp [Member.padded, Element.padded, nameText, text, stringMember]
  · simp only [Member.entry, nameCodes, codes, stringEntry]

/-- An object of strings, written without white space, is well formed, and its fields are the
strings. -/
theorem stringObject_spells {entries : List (List Char × List Char)}
    (printable : ∀ entry ∈ entries, Printable entry.1 ∧ Printable entry.2) :
    Spells reading (stringObject entries)
      (reading.object (entries.map (stringEntry reading))) := by
  have written : ∃ members : List (Member Value),
      members.map Member.padded = entries.map stringMember ∧
      members.map (Member.entry reading) = entries.map (stringEntry reading) ∧
      ∀ member ∈ members, Spells reading member.element.text member.element.value := by
    induction entries with
    | nil => exact ⟨[], rfl, rfl, by simp⟩
    | cons entry rest inductionHypothesis =>
        obtain ⟨name, value⟩ := printable entry List.mem_cons_self
        obtain ⟨member, padded, read, spells⟩ := exists_stringMember reading name value
        obtain ⟨members, others, reads, each⟩ := inductionHypothesis fun other inside =>
          printable other (List.mem_cons_of_mem _ inside)
        refine ⟨member :: members, ?_, ?_, List.forall_mem_cons.mpr ⟨spells, each⟩⟩
        · rw [List.map_cons, List.map_cons, padded, others]
        · rw [List.map_cons, List.map_cons, read, reads]
  obtain ⟨members, padded, read, each⟩ := written
  have blank : Blank [] := by
    intro char member
    contradiction
  have spells := @Spells.object _ _ reading [] members blank each
  rw [objectText, padded, read] at spells
  exact spells

end

end WallUnit.Foundations.Json
