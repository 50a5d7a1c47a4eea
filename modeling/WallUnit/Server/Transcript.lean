import Mathlib
import WallUnit.Foundations.Python
import WallUnit.Foundations.Regex

/-!
Owns `_is_routable_transcript` of `voice_server.py`: the expression for annotations alone,
the test for a letter, and what is left of a transcript outside its annotations.

Does not own `str.isalpha`, which is a parameter, nor who calls the filter.
-/

namespace WallUnit.Server.Transcript

open WallUnit.Foundations.Python (Text isSpace)
open WallUnit.Foundations.Regex

/-! ### The filter -/

/-- `[\[\(]`. -/
def isOpening (char : Char) : Bool := char = '[' || char = '('

/-- `[\]\)]`. -/
def isClosing (char : Char) : Bool := char = ']' || char = ')'

theorem isOpening_iff {char : Char} : isOpening char = true ↔ char = '[' ∨ char = '(' := by
  simp [isOpening]

theorem isClosing_iff {char : Char} : isClosing char = true ↔ char = ']' ∨ char = ')' := by
  simp [isClosing]

theorem isClosing_of_isOpening {char : Char} (opens : isOpening char = true) :
    isClosing char = false := by
  rcases isOpening_iff.mp opens with rfl | rfl <;> rfl

theorem isSpace_of_isOpening {char : Char} (opens : isOpening char = true) :
    isSpace char = false := by
  rcases isOpening_iff.mp opens with rfl | rfl <;> rfl

theorem isSpace_of_isClosing {char : Char} (closes : isClosing char = true) :
    isSpace char = false := by
  rcases isClosing_iff.mp closes with rfl | rfl <;> rfl

/-- The classes `_WHISPER_ANNOT_RE` tells apart. -/
inductive Glyph where
  | space
  | opening
  | closing
  | other
deriving DecidableEq, Repr

def glyph (char : Char) : Glyph :=
  if isSpace char then .space
  else if isOpening char then .opening
  else if isClosing char then .closing
  else .other

/-- `\s*`. -/
def whiteSpace : RegularExpression Glyph := (oneOf [.space]).star

/-- `[\[\(][^\]\)]*[\]\)]\s*`. -/
def annotation : RegularExpression Glyph :=
  oneOf [.opening] * (oneOf [.space, .opening, .other]).star * oneOf [.closing] * whiteSpace

/-- `_WHISPER_ANNOT_RE`, between its `^` and its `$`. -/
def whisperAnnotRe : RegularExpression Glyph := whiteSpace * oneOrMore annotation

/-- `_WHISPER_ANNOT_RE.match(text)`. -/
def whisperAnnotMatch (text : Text) : Bool :=
  matchesToEnd glyph (fun char => char = '\n') whisperAnnotRe text

/-- `_is_routable_transcript`. -/
def isRoutableTranscript (isAlpha : Char → Bool) (text : Text) : Bool :=
  if text = [] then false
  else if whisperAnnotMatch text then false
  else if !text.any isAlpha then false
  else true

/-! ### What stands outside the annotations -/

/-- What is kept of a text, read from inside an annotation or from outside. A bracket opens
an annotation if one that closes follows. -/
def keepOutside : Bool → Text → Text
  | _, [] => []
  | true, char :: rest => if isClosing char then keepOutside false rest else keepOutside true rest
  | false, char :: rest =>
      if isOpening char && rest.any isClosing then keepOutside true rest
      else char :: keepOutside false rest

/-- The text without its annotations, each removed from its bracket to the next that closes. -/
def removeSpans (text : Text) : Text := keepOutside false text

theorem removeSpans_cons {char : Char} {rest : Text} (plain : isOpening char = false) :
    removeSpans (char :: rest) = char :: removeSpans rest := by
  simp [removeSpans, keepOutside, plain]

theorem keepOutside_inside {body rest : Text} {closing : Char}
    (inner : ∀ char ∈ body, isClosing char = false) (closes : isClosing closing = true) :
    keepOutside true (body ++ closing :: rest) = removeSpans rest := by
  induction body with
  | nil => simp [keepOutside, closes, removeSpans]
  | cons char body inductionHypothesis =>
      have inside := inner char List.mem_cons_self
      rw [List.cons_append, keepOutside, if_neg (by simp [inside])]
      apply inductionHypothesis
      intro other member
      exact inner other (List.mem_cons_of_mem _ member)

theorem removeSpans_span {opening closing : Char} {body rest : Text}
    (opens : isOpening opening = true) (inner : ∀ char ∈ body, isClosing char = false)
    (closes : isClosing closing = true) :
    removeSpans (opening :: (body ++ closing :: rest)) = removeSpans rest := by
  have closed : (isOpening opening && (body ++ closing :: rest).any isClosing) = true := by
    simp [opens, closes]
  rw [removeSpans, keepOutside, if_pos closed]
  exact keepOutside_inside inner closes

theorem removeSpans_of_unclosed {text : Text} (unclosed : ∀ char ∈ text, isClosing char = false) :
    removeSpans text = text := by
  induction text with
  | nil => rfl
  | cons char rest inductionHypothesis =>
      have later : ∀ other ∈ rest, isClosing other = false := by
        intro other member
        exact unclosed other (List.mem_cons_of_mem _ member)
      have stays : (isOpening char && rest.any isClosing) = false := by
        rw [List.any_eq_false.mpr (by simpa using later), Bool.and_false]
      have tail := inductionHypothesis later
      rw [removeSpans] at tail
      rw [removeSpans, keepOutside, stays, if_neg Bool.false_ne_true, tail]

/-- Induction along the characters and the annotations of a text. -/
theorem span_induction {holds : Text → Prop}
    (unclosed : ∀ text, (∀ char ∈ text, isClosing char = false) → holds text)
    (plain : ∀ char rest, isOpening char = false → holds rest → holds (char :: rest))
    (span : ∀ opening body closing rest, isOpening opening = true →
      (∀ char ∈ body, isClosing char = false) → isClosing closing = true → holds rest →
      holds (opening :: (body ++ closing :: rest)))
    (text : Text) : holds text := by
  induction length : text.length using Nat.strong_induction_on generalizing text with
  | _ size inductionHypothesis =>
      subst length
      by_cases closed : ∃ char ∈ text, isClosing char = true
      · cases text with
        | nil => simp at closed
        | cons char rest =>
            cases opens : isOpening char with
            | false =>
                apply plain char rest opens
                exact inductionHypothesis rest.length (by simp) rest rfl
            | true =>
                obtain ⟨found, member, foundCloses⟩ := closed
                have later : found ∈ rest := by
                  rcases List.mem_cons.mp member with rfl | later
                  · rw [isClosing_of_isOpening opens] at foundCloses
                    contradiction
                  · exact later
                obtain ⟨closing, body, tail, inner, closes, rfl, -⟩ :=
                  List.exists_of_eraseP later foundCloses
                apply span char body closing tail opens _ closes
                · exact inductionHypothesis tail.length (by simp; omega) tail rfl
                · intro other inside
                  exact Bool.eq_false_iff.mpr (inner other inside)
      · apply unclosed
        intro char member
        apply Bool.eq_false_iff.mpr
        intro closes
        exact closed ⟨char, member, closes⟩

/-! ### What the expression matches -/

theorem glyph_space_iff {char : Char} : glyph char ∈ [Glyph.space] ↔ isSpace char = true := by
  rw [List.mem_singleton, glyph]
  split_ifs with white opens closes <;> simp [white]

theorem isOpening_of_isSpace {char : Char} (white : isSpace char = true) :
    isOpening char = false := by
  cases opens : isOpening char with
  | false => rfl
  | true =>
      rw [isSpace_of_isOpening opens] at white
      contradiction

theorem glyph_opening_iff {char : Char} :
    glyph char ∈ [Glyph.opening] ↔ isOpening char = true := by
  rw [List.mem_singleton]
  constructor
  · intro same
    rw [glyph] at same
    split_ifs at same with white opens
    exact opens
  · intro opens
    rw [glyph, isSpace_of_isOpening opens, opens]
    rfl

theorem glyph_closing_iff {char : Char} :
    glyph char = Glyph.closing ↔ isClosing char = true := by
  constructor
  · intro same
    rw [glyph] at same
    split_ifs at same with white opens closes
    exact closes
  · intro closes
    have opens : isOpening char = false := by
      apply Bool.eq_false_iff.mpr
      intro opens
      rw [isClosing_of_isOpening opens] at closes
      contradiction
    rw [glyph, isSpace_of_isClosing closes, opens, closes]
    rfl

theorem glyph_inner_iff {char : Char} :
    glyph char ∈ [Glyph.space, .opening, .other] ↔ isClosing char = false := by
  rw [← Bool.not_eq_true, ← glyph_closing_iff]
  cases glyph char <;> decide

theorem matches_whiteSpace {text : Text} :
    Matches glyph whiteSpace text ↔ ∀ char ∈ text, isSpace char = true := by
  rw [whiteSpace, matches_star_oneOf]
  apply forall_congr'
  intro char
  rw [glyph_space_iff]

theorem matches_annotation {text : Text} :
    Matches glyph annotation text ↔
      ∃ opening body closing white, text = opening :: (body ++ closing :: white) ∧
        isOpening opening = true ∧ (∀ char ∈ body, isClosing char = false) ∧
        isClosing closing = true ∧ ∀ char ∈ white, isSpace char = true := by
  constructor
  · intro found
    obtain ⟨front, white, rfl, found, blank⟩ := matches_mul.mp found
    obtain ⟨front, last, rfl, found, ends⟩ := matches_mul.mp found
    obtain ⟨first, body, rfl, begins, inner⟩ := matches_mul.mp found
    obtain ⟨opening, rfl, opens⟩ := matches_oneOf.mp begins
    obtain ⟨closing, rfl, closes⟩ := matches_oneOf.mp ends
    refine ⟨opening, body, closing, white, by simp, glyph_opening_iff.mp opens, ?_, ?_,
      matches_whiteSpace.mp blank⟩
    · intro char member
      exact glyph_inner_iff.mp (matches_star_oneOf.mp inner char member)
    · exact glyph_closing_iff.mp (List.mem_singleton.mp closes)
  · rintro ⟨opening, body, closing, white, rfl, opens, inner, closes, blank⟩
    have begins : Matches glyph (oneOf [.opening]) [opening] :=
      matches_oneOf.mpr ⟨opening, rfl, glyph_opening_iff.mpr opens⟩
    have holds : Matches glyph (oneOf [.space, .opening, .other]).star body := by
      apply matches_star_oneOf.mpr
      intro char member
      exact glyph_inner_iff.mpr (inner char member)
    have ends : Matches glyph (oneOf [.closing]) [closing] :=
      matches_oneOf.mpr ⟨closing, rfl, List.mem_singleton.mpr (glyph_closing_iff.mpr closes)⟩
    have whole := ((begins.mul holds).mul ends).mul (matches_whiteSpace.mpr blank)
    rwa [List.append_assoc, List.append_assoc] at whole

/-- White space behind the text belongs to its last annotation. -/
theorem whisperAnnotRe_append_space {text : Text} {char : Char} (white : isSpace char = true)
    (found : Matches glyph whisperAnnotRe text) :
    Matches glyph whisperAnnotRe (text ++ [char]) := by
  obtain ⟨blank, spans, rfl, leading, spansMatch⟩ := matches_mul.mp found
  obtain ⟨piece, rest, rfl, first, others⟩ := matches_mul.mp spansMatch
  have widens : ∀ piece, Matches glyph annotation piece →
      Matches glyph annotation (piece ++ [char]) := by
    intro piece matched
    obtain ⟨opening, body, closing, trailing, rfl, opens, inner, closes, spaces⟩ :=
      matches_annotation.mp matched
    apply matches_annotation.mpr
    refine ⟨opening, body, closing, trailing ++ [char], by simp, opens, inner, closes, ?_⟩
    intro other member
    rcases List.mem_append.mp member with earlier | last
    · exact spaces other earlier
    · rw [List.mem_singleton.mp last]
      exact white
  have reaches : rest = [] ∨ Matches glyph annotation.star (rest ++ [char]) := by
    apply others.star_induction
    · exact Or.inl rfl
    · intro piece rest matched later
      apply Or.inr
      rcases later with rfl | later
      · rw [List.append_nil, ← List.append_nil (piece ++ [char])]
        exact (widens piece matched).star_append matches_star_nil
      · rw [List.append_assoc]
        exact matched.star_append later
  rw [List.append_assoc]
  apply leading.mul
  rcases reaches with rfl | later
  · rw [List.append_nil, ← List.append_nil (piece ++ [char])]
    exact (widens piece first).mul matches_star_nil
  · rw [List.append_assoc]
    exact first.mul later

/-- `$` takes no line feed that the expression would not. -/
theorem whisperAnnotMatch_iff {text : Text} :
    whisperAnnotMatch text = true ↔ Matches glyph whisperAnnotRe text := by
  apply matchesToEnd_iff
  intro text char feeds found
  apply whisperAnnotRe_append_space _ found
  rw [of_decide_eq_true feeds]
  rfl

/-! ### Annotations alone -/

theorem removeSpans_append_of_space {white rest : Text}
    (blank : ∀ char ∈ white, isSpace char = true) :
    removeSpans (white ++ rest) = white ++ removeSpans rest := by
  induction white with
  | nil => rfl
  | cons char white inductionHypothesis =>
      have plain := isOpening_of_isSpace (blank char List.mem_cons_self)
      rw [List.cons_append, removeSpans_cons plain, List.cons_append, inductionHypothesis]
      intro other member
      exact blank other (List.mem_cons_of_mem _ member)

theorem length_removeSpans_le (text : Text) : (removeSpans text).length ≤ text.length := by
  induction text using span_induction with
  | unclosed text unclosed => rw [removeSpans_of_unclosed unclosed]
  | plain char rest plain inductionHypothesis =>
      rw [removeSpans_cons plain, List.length_cons, List.length_cons]
      omega
  | span opening body closing rest opens inner closes inductionHypothesis =>
      rw [removeSpans_span opens inner closes]
      simp only [List.length_cons, List.length_append]
      omega

/-- Of a repetition of annotations only white space is left. -/
theorem removeSpans_of_star {text : Text} (found : Matches glyph annotation.star text) :
    ∀ char ∈ removeSpans text, isSpace char = true := by
  apply found.star_induction
  · simp [removeSpans, keepOutside]
  · intro piece rest matched later
    obtain ⟨opening, body, closing, white, rfl, opens, inner, closes, blank⟩ :=
      matches_annotation.mp matched
    rw [List.cons_append, List.append_assoc, List.cons_append,
      removeSpans_span opens inner closes, removeSpans_append_of_space blank]
    intro char member
    rcases List.mem_append.mp member with leading | kept
    · exact blank char leading
    · exact later char kept

theorem removeSpans_of_matches {text : Text} (found : Matches glyph whisperAnnotRe text) :
    (∀ char ∈ removeSpans text, isSpace char = true) ∧ removeSpans text ≠ text := by
  obtain ⟨white, spans, rfl, leading, spansMatch⟩ := matches_mul.mp found
  have blank := matches_whiteSpace.mp leading
  have outside := removeSpans_of_star spansMatch.star_of_oneOrMore
  obtain ⟨piece, rest, rfl, first, -⟩ := matches_mul.mp spansMatch
  obtain ⟨opening, body, closing, trailing, rfl, opens, inner, closes, -⟩ :=
    matches_annotation.mp first
  rw [removeSpans_append_of_space blank]
  constructor
  · intro char member
    rcases List.mem_append.mp member with early | kept
    · exact blank char early
    · exact outside char kept
  · intro same
    have tail := congrArg List.length (List.append_cancel_left same)
    rw [List.cons_append, List.append_assoc, List.cons_append,
      removeSpans_span opens inner closes] at tail
    have shorter := length_removeSpans_le (trailing ++ rest)
    simp only [List.length_cons, List.length_append] at tail shorter
    omega

/-- A text with only white space outside its annotations is white space, or the expression
matches it. -/
theorem space_or_matches {text : Text} (outside : ∀ char ∈ removeSpans text, isSpace char = true) :
    (∀ char ∈ text, isSpace char = true) ∨ Matches glyph whisperAnnotRe text := by
  induction text using span_induction with
  | unclosed text unclosed =>
      rw [removeSpans_of_unclosed unclosed] at outside
      exact Or.inl outside
  | plain char rest plain inductionHypothesis =>
      rw [removeSpans_cons plain] at outside
      have white := outside char List.mem_cons_self
      rcases inductionHypothesis fun other member =>
        outside other (List.mem_cons_of_mem _ member) with blank | found
      · exact Or.inl (List.forall_mem_cons.mpr ⟨white, blank⟩)
      · obtain ⟨leading, spans, rfl, blank, spansMatch⟩ := matches_mul.mp found
        have wider : Matches glyph whiteSpace (char :: leading) :=
          matches_whiteSpace.mpr (List.forall_mem_cons.mpr ⟨white, matches_whiteSpace.mp blank⟩)
        exact Or.inr (wider.mul spansMatch)
  | span opening body closing rest opens inner closes inductionHypothesis =>
      rw [removeSpans_span opens inner closes] at outside
      have annotates : ∀ trailing : Text, (∀ char ∈ trailing, isSpace char = true) →
          Matches glyph annotation (opening :: (body ++ closing :: trailing)) := by
        intro trailing blank
        exact matches_annotation.mpr
          ⟨opening, body, closing, trailing, rfl, opens, inner, closes, blank⟩
      have empty : Matches glyph whiteSpace [] := matches_star_nil
      apply Or.inr
      rcases inductionHypothesis outside with blank | found
      · have none : Matches glyph annotation.star [] := matches_star_nil
        have single := (annotates rest blank).mul none
        rw [List.append_nil] at single
        exact empty.mul single
      · obtain ⟨leading, spans, rfl, blank, spansMatch⟩ := matches_mul.mp found
        have several := (annotates leading (matches_whiteSpace.mp blank)).mul
          spansMatch.star_of_oneOrMore
        rw [List.cons_append, List.append_assoc, List.cons_append] at several
        exact empty.mul several

/-- `_WHISPER_ANNOT_RE` matches the texts that hold an annotation and nothing but white space
outside of them. -/
theorem whisperAnnotMatch_iff_removeSpans {text : Text} :
    whisperAnnotMatch text = true ↔
      (∀ char ∈ removeSpans text, isSpace char = true) ∧ removeSpans text ≠ text := by
  rw [whisperAnnotMatch_iff]
  constructor
  · exact removeSpans_of_matches
  · rintro ⟨outside, removed⟩
    rcases space_or_matches outside with blank | found
    · exfalso
      apply removed
      calc
        removeSpans text = removeSpans (text ++ []) := by rw [List.append_nil]
        _ = text ++ removeSpans [] := removeSpans_append_of_space blank
        _ = text := List.append_nil text
    · exact found

/-! ### Which transcripts are routed -/

theorem mem_of_mem_removeSpans {text : Text} {char : Char} (kept : char ∈ removeSpans text) :
    char ∈ text := by
  induction text using span_induction with
  | unclosed text unclosed => rwa [removeSpans_of_unclosed unclosed] at kept
  | plain first rest plain inductionHypothesis =>
      rw [removeSpans_cons plain] at kept
      rcases List.mem_cons.mp kept with rfl | later
      · exact List.mem_cons_self
      · exact List.mem_cons_of_mem _ (inductionHypothesis later)
  | span opening body closing rest opens inner closes inductionHypothesis =>
      rw [removeSpans_span opens inner closes] at kept
      apply List.mem_cons_of_mem
      apply List.mem_append_right
      exact List.mem_cons_of_mem _ (inductionHypothesis kept)

theorem isRoutableTranscript_iff {isAlpha : Char → Bool} {text : Text} :
    isRoutableTranscript isAlpha text = true ↔
      whisperAnnotMatch text = false ∧ ∃ char ∈ text, isAlpha char = true := by
  rw [isRoutableTranscript]
  split_ifs with empty annotated silent
  · simp [empty]
  · simp [annotated]
  · simpa using fun _ => silent
  · simp at annotated silent
    simpa [annotated] using silent

/-- A letter stands outside the annotations. -/
def Speaks (isAlpha : Char → Bool) (text : Text) : Prop :=
  ∃ char ∈ removeSpans text, isAlpha char = true

/-- Speech is routed: the filter never drops a letter that stands outside. -/
theorem routable_of_speaks {isAlpha : Char → Bool} {text : Text}
    (letters : ∀ char, isSpace char = true → isAlpha char = false)
    (speaks : Speaks isAlpha text) : isRoutableTranscript isAlpha text = true := by
  obtain ⟨char, kept, letter⟩ := speaks
  apply isRoutableTranscript_iff.mpr
  constructor
  · apply Bool.eq_false_iff.mpr
    intro annotated
    have white := (whisperAnnotMatch_iff_removeSpans.mp annotated).1 char kept
    rw [letters char white] at letter
    contradiction
  · exact ⟨char, mem_of_mem_removeSpans kept, letter⟩

/-- Only speech is routed, unless something that is no speech stands beside an annotation
with letters. -/
theorem routable_iff_speaks_iff (isAlpha : Char → Bool)
    (letters : ∀ char, isSpace char = true → isAlpha char = false) (text : Text) :
    (isRoutableTranscript isAlpha text = true ↔ Speaks isAlpha text) ↔
      Speaks isAlpha text ∨ (∀ char ∈ removeSpans text, isSpace char = true) ∨
        ∀ char ∈ text, isAlpha char = false := by
  constructor
  · intro agrees
    by_cases speaks : Speaks isAlpha text
    · exact Or.inl speaks
    · apply Or.inr
      by_cases blank : ∀ char ∈ removeSpans text, isSpace char = true
      · exact Or.inl blank
      · apply Or.inr
        intro char member
        apply Bool.eq_false_iff.mpr
        intro letter
        apply speaks
        apply agrees.mp
        apply isRoutableTranscript_iff.mpr
        constructor
        · apply Bool.eq_false_iff.mpr
          intro annotated
          exact blank (whisperAnnotMatch_iff_removeSpans.mp annotated).1
        · exact ⟨char, member, letter⟩
  · intro condition
    constructor
    · intro routed
      obtain ⟨unannotated, char, member, letter⟩ := isRoutableTranscript_iff.mp routed
      rcases condition with speaks | blank | silent
      · exact speaks
      · -- white space alone is no annotation, so nothing was removed
        have same : removeSpans text = text := by
          by_contra removed
          rw [whisperAnnotMatch_iff_removeSpans.mpr ⟨blank, removed⟩] at unannotated
          contradiction
        rw [← same] at member
        exact ⟨char, member, letter⟩
      · rw [silent char member] at letter
        contradiction
    · exact routable_of_speaks letters

/-- `str.isalpha` on the letters of ASCII. -/
def asciiAlpha (char : Char) : Bool :=
  let code := char.toNat
  (65 ≤ code && code ≤ 90) || (97 ≤ code && code ≤ 122)

theorem asciiAlpha_of_isSpace (char : Char) (white : isSpace char = true) :
    asciiAlpha char = false := by
  simp only [isSpace, asciiAlpha, Bool.or_eq_true, Bool.and_eq_true, Bool.or_eq_false_iff,
    Bool.and_eq_false_iff, decide_eq_true_eq, decide_eq_false_iff_not] at white ⊢
  omega

theorem routable_iff_speaks_iff_plainSpeech :
    (isRoutableTranscript asciiAlpha "[BLANK_AUDIO] Yo Demerzel".toList = true ↔
        Speaks asciiAlpha "[BLANK_AUDIO] Yo Demerzel".toList) ↔
      Speaks asciiAlpha "[BLANK_AUDIO] Yo Demerzel".toList ∨
        (∀ char ∈ removeSpans "[BLANK_AUDIO] Yo Demerzel".toList, isSpace char = true) ∨
        ∀ char ∈ "[BLANK_AUDIO] Yo Demerzel".toList, asciiAlpha char = false :=
  routable_iff_speaks_iff asciiAlpha asciiAlpha_of_isSpace "[BLANK_AUDIO] Yo Demerzel".toList

/-- The full stop behind `[MUSIC]` keeps the expression from matching, and the letters of the
annotation pass for speech. -/
theorem routable_not_speaks_of_music :
    ¬ (isRoutableTranscript asciiAlpha "[MUSIC].".toList = true ↔
      Speaks asciiAlpha "[MUSIC].".toList) := by
  have routed : isRoutableTranscript asciiAlpha "[MUSIC].".toList = true := by decide
  have outside : removeSpans "[MUSIC].".toList = ['.'] := by decide
  intro agrees
  obtain ⟨char, kept, letter⟩ := agrees.mp routed
  rw [outside, List.mem_singleton] at kept
  rw [kept] at letter
  contradiction

end WallUnit.Server.Transcript
