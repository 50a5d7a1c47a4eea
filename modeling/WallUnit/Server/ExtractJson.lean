import Mathlib.Data.Bool.AllAny
import Mathlib.Data.List.TakeWhile
import WallUnit.Foundations.Json
import WallUnit.Foundations.Python

/-!
Owns `_extract_json` of `router.py`: the strips of a markdown fence at both ends, and the
scan for the brace that closes the first object. An object stands where the model wrote
it: `extractJson_finds`.

Does not own `json.loads`, which is a parameter and answers `none` for a
`JSONDecodeError`.
-/

namespace WallUnit.Server.ExtractJson

open WallUnit.Foundations
open WallUnit.Foundations.Json
open WallUnit.Foundations.Python (Text isSpace strip)

/-- Three backquotes. -/
def fence : Text := "```".toList

/-- `` re.sub(r"^```(?:json)?\s*", "", text) ``. -/
def stripOpening (text : Text) : Text :=
  if fence.isPrefixOf text then
    let rest := text.drop fence.length
    let rest := if "json".toList.isPrefixOf rest then rest.drop "json".toList.length else rest
    rest.dropWhile isSpace
  else text

/-- `text.rstrip()`, which is also what `\s*` takes in front of a match at the end. -/
def rstrip (text : Text) : Text := (text.reverse.dropWhile isSpace).reverse

/-- `` re.sub(r"\s*```$", "", text) ``: `$` matches at the end and in front of a line feed
that ends the text. -/
def stripClosing (text : Text) : Text :=
  if fence.isSuffixOf text then rstrip (text.take (text.length - fence.length))
  else if (fence ++ ['\n']).isSuffixOf text then
    rstrip (text.take (text.length - (fence ++ ['\n']).length)) ++ ['\n']
  else text

/-- The variables of the scan. -/
structure Scan where
  depth : Int
  inStr : Bool
  esc : Bool
deriving DecidableEq, Repr

def Scan.start : Scan := ⟨0, false, false⟩

/-- One character of the scan. -/
def Scan.step (scan : Scan) (char : Char) : Scan :=
  if scan.inStr then
    if scan.esc then { scan with esc := false }
    else if char = '\\' then { scan with esc := true }
    else if char = '"' then { scan with inStr := false }
    else scan
  else if char = '"' then { scan with inStr := true }
  else if char = '{' then { scan with depth := scan.depth + 1 }
  else if char = '}' then { scan with depth := scan.depth - 1 }
  else scan

/-- The candidate the scan ends with. `read` is `text[start:i]`. -/
def candidateFrom : Scan → Text → Text → Option Text
  | _, _, [] => none
  | scan, read, char :: rest =>
      if scan.inStr = false ∧ char = '}' ∧ (scan.step char).depth = 0 then some (read ++ [char])
      else candidateFrom (scan.step char) (read ++ [char]) rest

/-- `_extract_json`. -/
def extractJson {Value : Type} (loads : Text → Option Value) (text : Text) : Option Value :=
  if text = [] then none
  else
    let text := stripClosing (stripOpening (strip text))
    -- `text[start:]`, which is empty if there is no brace
    let rest := text.dropWhile fun char => char ≠ '{'
    if rest = [] then none
    else (candidateFrom Scan.start [] rest).bind loads

/-! ### The scan -/

/-- Inside an object, the scan reads the text and is where it was. -/
def Neutral (text : Text) : Prop :=
  ∀ (depth : Int) (read rest : Text), 0 < depth →
    candidateFrom ⟨depth, false, false⟩ read (text ++ rest) =
      candidateFrom ⟨depth, false, false⟩ (read ++ text) rest

/-- A character the scan reacts to outside strings. -/
def marks : Text := ['"', '{', '}']

theorem neutral_nil : Neutral [] := by
  intro depth read rest _
  rw [List.nil_append, List.append_nil]

theorem Neutral.append {left right : Text} (first : Neutral left) (second : Neutral right) :
    Neutral (left ++ right) := by
  intro depth read rest positive
  rw [List.append_assoc, first depth read _ positive, second depth _ rest positive,
    List.append_assoc]

theorem neutral_char {char : Char} (quiet : char ∉ marks) : Neutral [char] := by
  intro depth read rest _
  simp only [marks, List.mem_cons, List.not_mem_nil, or_false, not_or] at quiet
  have same : (⟨depth, false, false⟩ : Scan).step char = ⟨depth, false, false⟩ := by
    simp [Scan.step, quiet]
  rw [List.cons_append, candidateFrom, same, if_neg (by simp [quiet]), List.nil_append]

theorem neutral_of_quiet {text : Text} (quiet : ∀ char ∈ text, char ∉ marks) : Neutral text := by
  induction text with
  | nil => exact neutral_nil
  | cons char text inductionHypothesis =>
      have head := neutral_char (quiet char List.mem_cons_self)
      apply head.append
      apply inductionHypothesis
      intro other member
      exact quiet other (List.mem_cons_of_mem _ member)

/-- Inside a string the scan never ends. -/
theorem candidateFrom_inStr (depth : Int) (esc : Bool) (read rest : Text) (char : Char) :
    candidateFrom ⟨depth, true, esc⟩ read (char :: rest) =
      candidateFrom ((⟨depth, true, esc⟩ : Scan).step char) (read ++ [char]) rest := by
  rw [candidateFrom, if_neg]
  rintro ⟨outside, -⟩
  contradiction

theorem candidateFrom_plain {char : Char} (plain : char ≠ '"' ∧ char ≠ '\\') (depth : Int)
    (read rest : Text) :
    candidateFrom ⟨depth, true, false⟩ read (char :: rest) =
      candidateFrom ⟨depth, true, false⟩ (read ++ [char]) rest := by
  rw [candidateFrom_inStr]
  simp [Scan.step, plain]

theorem candidateFrom_escape (char : Char) (depth : Int) (read rest : Text) :
    candidateFrom ⟨depth, true, false⟩ read ('\\' :: char :: rest) =
      candidateFrom ⟨depth, true, false⟩ (read ++ ['\\', char]) rest := by
  rw [candidateFrom_inStr]
  have escaped : (⟨depth, true, false⟩ : Scan).step '\\' = ⟨depth, true, true⟩ := rfl
  rw [escaped, candidateFrom_inStr, List.append_assoc]
  rfl

theorem hexDigit_plain (digit : HexDigit) : digit.char ≠ '"' ∧ digit.char ≠ '\\' := by
  constructor
  · intro mark
    exact absurd (mark ▸ digit.isHex) (by decide)
  · intro mark
    exact absurd (mark ▸ digit.isHex) (by decide)

/-- A piece of a string leaves the scan inside the string. -/
theorem candidateFrom_piece (piece : Piece) (depth : Int) (read rest : Text) :
    candidateFrom ⟨depth, true, false⟩ read (piece.text ++ rest) =
      candidateFrom ⟨depth, true, false⟩ (read ++ piece.text) rest := by
  cases piece with
  | plain char allowed => exact candidateFrom_plain allowed.2 depth read rest
  | escape char code known => exact candidateFrom_escape char depth read rest
  | unit first second third fourth =>
      rw [Piece.text, List.cons_append, List.cons_append, candidateFrom_escape,
        List.cons_append, candidateFrom_plain (hexDigit_plain first),
        List.cons_append, candidateFrom_plain (hexDigit_plain second),
        List.cons_append, candidateFrom_plain (hexDigit_plain third),
        List.cons_append, candidateFrom_plain (hexDigit_plain fourth), List.nil_append]
      simp only [List.append_assoc, List.cons_append, List.nil_append]

theorem candidateFrom_pieces (pieces : List Piece) (depth : Int) (read rest : Text) :
    candidateFrom ⟨depth, true, false⟩ read (pieces.flatMap Piece.text ++ rest) =
      candidateFrom ⟨depth, true, false⟩ (read ++ pieces.flatMap Piece.text) rest := by
  induction pieces generalizing read with
  | nil => rw [List.flatMap_nil, List.nil_append, List.append_nil]
  | cons piece pieces inductionHypothesis =>
      rw [List.flatMap_cons, List.append_assoc, candidateFrom_piece, inductionHypothesis,
        List.append_assoc]

/-- Braces inside a string do not count. -/
theorem neutral_quoted (pieces : List Piece) : Neutral (quoted pieces) := by
  intro depth read rest _
  have opens : (⟨depth, false, false⟩ : Scan).step '"' = ⟨depth, true, false⟩ := rfl
  have closes : (⟨depth, true, false⟩ : Scan).step '"' = ⟨depth, false, false⟩ := rfl
  rw [quoted, List.cons_append, List.cons_append, List.append_assoc, candidateFrom, opens,
    if_neg (by simp), candidateFrom_pieces, List.singleton_append, candidateFrom_inStr, closes]
  simp only [List.append_assoc, List.cons_append, List.nil_append]

/-- An object inside the object. -/
theorem Neutral.braces {inner : Text} (neutral : Neutral inner) :
    Neutral ('{' :: inner ++ ['}']) := by
  intro depth read rest positive
  have opens : (⟨depth, false, false⟩ : Scan).step '{' = ⟨depth + 1, false, false⟩ := rfl
  have closes : (⟨depth + 1, false, false⟩ : Scan).step '}' = ⟨depth, false, false⟩ := by
    simp [Scan.step]
  have inside : depth ≠ 0 := by omega
  rw [List.cons_append, List.cons_append, List.append_assoc, candidateFrom, opens,
    if_neg (by simp), neutral _ _ _ (by omega), List.singleton_append, candidateFrom, closes,
    if_neg (by simp [inside])]
  simp only [List.append_assoc, List.cons_append, List.nil_append]

theorem neutral_of_allowed {allowed : Char → Prop} {text : Text}
    (each : ∀ char ∈ text, allowed char)
    (none : ¬ allowed '"' ∧ ¬ allowed '{' ∧ ¬ allowed '}') : Neutral text := by
  apply neutral_of_quiet
  intro char member mark
  have fine := each char member
  simp only [marks, List.mem_cons, List.not_mem_nil, or_false] at mark
  rcases mark with rfl | rfl | rfl
  · exact none.1 fine
  · exact none.2.1 fine
  · exact none.2.2 fine

theorem neutral_blank {space : Text} (blank : Blank space) : Neutral space :=
  neutral_of_allowed blank (by decide)

theorem neutral_numeral (numeral : Numeral) : Neutral numeral.text :=
  neutral_of_allowed (fun _ member => numeral.char_cases member) (by decide)

theorem neutral_intercalate {texts : List Text} (each : ∀ text ∈ texts, Neutral text) :
    Neutral ([','].intercalate texts) := by
  induction texts with
  | nil => exact neutral_nil
  | cons text texts inductionHypothesis =>
      have head := each text List.mem_cons_self
      have rest := inductionHypothesis fun other member =>
        each other (List.mem_cons_of_mem _ member)
      cases texts with
      | nil =>
          rw [List.intercalate_singleton]
          exact head
      | cons next texts =>
          rw [List.intercalate_cons_cons]
          apply (head.append _).append rest
          exact neutral_char (by decide)

section

variable {Key Value : Type} {reading : Reading Key Value}

theorem neutral_element {element : Element Value} (neutral : Neutral element.text) :
    Neutral element.padded :=
  ((neutral_blank element.blank.1).append neutral).append (neutral_blank element.blank.2)

theorem neutral_member {member : Member Value} (neutral : Neutral member.element.text) :
    Neutral member.padded := by
  have name := (neutral_blank member.blank.1).append (neutral_quoted member.name)
  have colon : Neutral [':'] := neutral_char (by decide)
  exact (name.append (neutral_blank member.blank.2)).append (colon.append (neutral_element neutral))

theorem neutral_members {space : Text} {members : List (Member Value)} (blank : Blank space)
    (each : ∀ member ∈ members, Neutral member.element.text) :
    Neutral (space ++ [','].intercalate (members.map Member.padded)) := by
  apply (neutral_blank blank).append
  apply neutral_intercalate
  intro text written
  obtain ⟨member, inside, rfl⟩ := List.mem_map.mp written
  exact neutral_member (each member inside)

/-- The scan passes over every value inside the object. -/
theorem neutral_of_spells {text : Text} {value : Value} (spells : Spells reading text value) :
    Neutral text := by
  induction spells with
  | null => exact neutral_of_quiet (List.all_iff_forall_prop.mp rfl)
  | bool value => cases value <;> exact neutral_of_quiet (List.all_iff_forall_prop.mp rfl)
  | number numeral => exact neutral_numeral numeral
  | string pieces => exact neutral_quoted pieces
  | array space elements blank each inductionHypothesis =>
      have opens : Neutral ['['] := neutral_char (by decide)
      have closes : Neutral [']'] := neutral_char (by decide)
      have inner : Neutral ([','].intercalate (elements.map Element.padded)) := by
        apply neutral_intercalate
        intro text written
        obtain ⟨element, inside, rfl⟩ := List.mem_map.mp written
        exact neutral_element (inductionHypothesis element inside)
      exact ((opens.append (neutral_blank blank)).append inner).append closes
  | object space members blank each inductionHypothesis =>
      exact (neutral_members blank inductionHypothesis).braces

/-- The scan of an object ends with the object. -/
theorem candidateFrom_object {text : Text} {value : Value} (spells : Spells reading text value)
    (opens : text.head? = some '{') (rest : Text) :
    candidateFrom Scan.start [] (text ++ rest) = some text := by
  obtain ⟨space, members, blank, each, rfl⟩ := spells.exists_members opens
  have inner := neutral_members blank fun member inside => neutral_of_spells (each member inside)
  have first : Scan.start.step '{' = ⟨1, false, false⟩ := rfl
  have last : (⟨1, false, false⟩ : Scan).step '}' = ⟨0, false, false⟩ := rfl
  rw [objectText, List.cons_append, List.cons_append, List.cons_append, List.append_assoc,
    candidateFrom, first,
    if_neg (by simp [Scan.start]), inner 1 _ _ (by decide), List.singleton_append, candidateFrom,
    last, if_pos ⟨rfl, rfl, rfl⟩]
  rfl

end

/-! ### The strips -/

section

variable {word left right : Text} {char : Char}

/-- A word without the character that `right` begins with does not reach into `right`. -/
theorem isPrefix_of_notMem (absent : char ∉ word) (opens : right.head? = some char)
    (begins : word <+: left ++ right) : word <+: left := by
  rcases List.prefix_or_prefix_of_prefix begins (List.prefix_append left right) with
    inside | ⟨more, rfl⟩
  · exact inside
  · have reaches : more <+: right := (List.prefix_append_right_inj left).mp begins
    cases more with
    | nil => rw [List.append_nil]
    | cons first more =>
        obtain ⟨rest, rfl⟩ := reaches
        have same : first = char := Option.some.inj opens
        rw [← same] at absent
        exact absurd (List.mem_append_right _ List.mem_cons_self) absent

/-- A word without the character that `left` ends with does not reach into `left`. -/
theorem isSuffix_of_notMem (absent : char ∉ word) (closes : left.getLast? = some char)
    (ends : word <:+ left ++ right) : word <:+ right := by
  rw [← List.reverse_prefix] at ends ⊢
  rw [List.reverse_append] at ends
  apply @isPrefix_of_notMem word.reverse right.reverse left.reverse char _ _ ends
  · rwa [List.mem_reverse]
  · rwa [List.head?_reverse]

theorem dropWhile_append_of_head {keep : Char → Bool} (opens : right.head? = some char)
    (stop : keep char = false) :
    (left ++ right).dropWhile keep = left.dropWhile keep ++ right := by
  rw [List.dropWhile_append]
  split_ifs with empty
  · rw [List.isEmpty_iff.mp empty, List.nil_append]
    cases right with
    | nil => rfl
    | cons first rest =>
        rw [Option.some.inj opens, List.dropWhile_cons, stop, if_neg Bool.false_ne_true]
  · rfl

theorem rstrip_append_of_last (closes : left.getLast? = some char) (solid : isSpace char = false) :
    rstrip (left ++ right) = left ++ rstrip right := by
  rw [rstrip, List.reverse_append, dropWhile_append_of_head _ solid, List.reverse_append,
    List.reverse_reverse, rstrip]
  rwa [List.head?_reverse]

end

/-- The object stands in the text, and no brace stands before it. -/
def Around (object text : Text) : Prop :=
  ∃ before after : Text, '{' ∉ before ∧ text = before ++ object ++ after

section

variable {object text : Text}

theorem Around.dropWhile {keep : Char → Bool} (around : Around object text)
    (opens : object.head? = some '{') (stop : keep '{' = false) :
    Around object (text.dropWhile keep) := by
  obtain ⟨before, after, clear, rfl⟩ := around
  refine ⟨before.dropWhile keep, after, ?_, ?_⟩
  · intro member
    exact clear ((List.dropWhile_sublist keep).mem member)
  · rw [List.append_assoc, dropWhile_append_of_head _ stop, List.append_assoc]
    rw [List.head?_append, opens, Option.some_or]

theorem Around.rstrip (around : Around object text) (closes : object.getLast? = some '}') :
    Around object (ExtractJson.rstrip text) := by
  obtain ⟨before, after, clear, rfl⟩ := around
  refine ⟨before, ExtractJson.rstrip after, clear, ?_⟩
  apply @rstrip_append_of_last _ _ '}' _ (by decide)
  rw [List.getLast?_append, closes, Option.some_or]

theorem Around.strip (around : Around object text) (opens : object.head? = some '{')
    (closes : object.getLast? = some '}') : Around object (strip text) :=
  (around.dropWhile opens (by decide)).rstrip closes

/-- A word that begins the text stands before the object. -/
theorem Around.drop {word : Text} (around : Around object text) (opens : object.head? = some '{')
    (absent : '{' ∉ word) (begins : word <+: text) : Around object (text.drop word.length) := by
  obtain ⟨before, after, clear, rfl⟩ := around
  rw [List.append_assoc] at begins ⊢
  have inside : word <+: before := by
    apply isPrefix_of_notMem absent _ begins
    rw [List.head?_append, opens, Option.some_or]
  obtain ⟨before, rfl⟩ := inside
  refine ⟨before, after, ?_, ?_⟩
  · intro member
    exact clear (List.mem_append_right _ member)
  · rw [List.append_assoc, List.drop_left, List.append_assoc]

/-- A word that ends the text stands behind the object. -/
theorem Around.take {word : Text} (around : Around object text)
    (closes : object.getLast? = some '}') (absent : '}' ∉ word) (ends : word <:+ text) :
    Around object (text.take (text.length - word.length)) := by
  obtain ⟨before, after, clear, rfl⟩ := around
  have inside : word <:+ after := by
    apply isSuffix_of_notMem absent _ ends
    rw [List.getLast?_append, closes, Option.some_or]
  obtain ⟨after, rfl⟩ := inside
  refine ⟨before, after, clear, ?_⟩
  rw [← List.append_assoc, @List.length_append _ _ word, Nat.add_sub_cancel, List.take_left]

theorem Around.append (around : Around object text) (more : Text) :
    Around object (text ++ more) := by
  obtain ⟨before, after, clear, rfl⟩ := around
  exact ⟨before, after ++ more, clear, List.append_assoc _ _ _⟩

theorem Around.stripOpening (around : Around object text) (opens : object.head? = some '{') :
    Around object (ExtractJson.stripOpening text) := by
  rw [ExtractJson.stripOpening]
  by_cases fenced : fence.isPrefixOf text = true
  · have rest := around.drop opens (by decide) (List.isPrefixOf_iff_prefix.mp fenced)
    rw [if_pos fenced]
    apply Around.dropWhile _ opens (by decide)
    split_ifs with named
    · exact rest.drop opens (by decide) (List.isPrefixOf_iff_prefix.mp named)
    · exact rest
  · rw [if_neg fenced]
    exact around

theorem Around.stripClosing (around : Around object text)
    (closes : object.getLast? = some '}') : Around object (ExtractJson.stripClosing text) := by
  rw [ExtractJson.stripClosing]
  split_ifs with fenced broken
  · have rest := around.take closes (by decide) (List.isSuffixOf_iff_suffix.mp fenced)
    exact rest.rstrip closes
  · have rest := around.take closes (by decide) (List.isSuffixOf_iff_suffix.mp broken)
    exact (rest.rstrip closes).append _
  · exact around

end

/-! ### The object the model wrote -/

/-- An object ends with a brace. -/
theorem getLast_of_object {Key Value : Type} {reading : Reading Key Value} {object : Text}
    {value : Value} (spells : Spells reading object value) (opens : object.head? = some '{') :
    object.getLast? = some '}' := by
  obtain ⟨space, members, -, -, rfl⟩ := spells.exists_members opens
  exact List.getLast?_concat

/-- Whatever the model writes around an object, and whatever braces, quotes and escapes are
in its strings, the object is what comes back. All that is asked of `json.loads` is that it
gives this text its value. -/
theorem extractJson_finds {Key Value : Type} (reading : Reading Key Value)
    (loads : Text → Option Value) (before object after : Text) (value : Value)
    (spells : Spells reading object value) (opens : object.head? = some '{')
    (parses : loads object = some value) (clear : '{' ∉ before) :
    extractJson loads (before ++ object ++ after) = some value := by
  have closes := getLast_of_object spells opens
  have around : Around object (before ++ object ++ after) := ⟨before, after, clear, rfl⟩
  have stripped := ((around.strip opens closes).stripOpening opens).stripClosing closes
  have something : before ++ object ++ after ≠ [] := by
    intro empty
    have none := (List.append_eq_nil_iff.mp (List.append_eq_nil_iff.mp empty).1).2
    rw [none] at opens
    contradiction
  rw [extractJson, if_neg something]
  dsimp only
  obtain ⟨lead, rest, leadClear, text⟩ := stripped
  have headed : (object ++ rest).head? = some '{' := by
    rw [List.head?_append, opens, Option.some_or]
  have found : (lead ++ object ++ rest).dropWhile (fun char => decide (char ≠ '{')) =
      object ++ rest := by
    rw [List.append_assoc, dropWhile_append_of_head headed (by decide),
      List.dropWhile_eq_nil_iff.mpr, List.nil_append]
    intro char member
    exact decide_eq_true fun brace => leadClear (brace ▸ member)
  have present : object ++ rest ≠ [] := by
    intro empty
    rw [empty] at headed
    contradiction
  rw [text, found, if_neg present, candidateFrom_object spells opens, Option.bind_some, parses]

/-- What Python's values are to this development, for texts without fractions, exponents
and surrogates. -/
def plainReading : Reading Text Python.Value where
  null := .none
  bool := .bool
  number numeral :=
    let size : Nat := numeral.whole.foldl (fun total char => total * 10 + (char.toNat - 48)) 0
    .int (if numeral.sign = [] then size else -size)
  string codes := .str (codes.map Char.ofNat)
  key codes := codes.map Char.ofNat
  array := .list
  object := .dict

/-- A brace and a quote. -/
def sayPieces : List Piece := [.plain '}' (by decide), .escape '"' 34 (by decide)]

def sayMember : Member Python.Value where
  before := []
  name := [.plain 's' (by decide), .plain 'a' (by decide), .plain 'y' (by decide)]
  after := []
  element :=
    { before := [' ']
      text := quoted sayPieces
      value := .str ['}', '"']
      after := []
      blank := ⟨by decide, by decide⟩ }
  blank := ⟨by decide, by decide⟩

def sayObject : Text := objectText [] [sayMember]

def sayLoads (text : Text) : Option Python.Value :=
  if text = sayObject then some (.dict [("say".toList, .str ['}', '"'])]) else none

theorem sayObject_spells :
    Spells plainReading sayObject (.dict [("say".toList, .str ['}', '"'])]) := by
  refine @Spells.object _ _ plainReading [] [sayMember] (by decide) ?_
  intro member inside
  rw [List.mem_singleton.mp inside]
  exact Spells.string sayPieces

theorem extractJson_finds_fenced :
    extractJson sayLoads ("```json\n".toList ++ sayObject ++ "\n```".toList) =
      some (.dict [("say".toList, .str ['}', '"'])]) :=
  extractJson_finds plainReading sayLoads _ sayObject _ _ sayObject_spells rfl (if_pos rfl)
    (by decide)

end WallUnit.Server.ExtractJson
