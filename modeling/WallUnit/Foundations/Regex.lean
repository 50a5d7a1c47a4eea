import Mathlib

/-!
Owns regular expressions over classes of symbols: Mathlib's expressions with the classes
for letters, read on a text through the class of each of its symbols. Which texts each
operator matches, and a match that `$` lets end.

Does not own groups, back references, nor which of several matches is reported.
-/

namespace WallUnit.Foundations.Regex

open RegularExpression

variable {Symbol Kind : Type} {kind : Symbol → Kind}

/-- The whole text is one the pattern describes. -/
def Matches (kind : Symbol → Kind) (pattern : RegularExpression Kind) (text : List Symbol) :
    Prop :=
  text.map kind ∈ pattern.matches'

/-- A character class: one symbol of any of these kinds. -/
def oneOf : List Kind → RegularExpression Kind
  | [] => 0
  | member :: members => char member + oneOf members

/-- `pattern+`. -/
def oneOrMore (pattern : RegularExpression Kind) : RegularExpression Kind :=
  pattern * pattern.star

/-! ### The texts of an operator -/

theorem matches_mul {first second : RegularExpression Kind} {text : List Symbol} :
    Matches kind (first * second) text ↔
      ∃ left right, text = left ++ right ∧ Matches kind first left ∧
        Matches kind second right := by
  rw [Matches, matches'_mul, Language.mem_mul]
  constructor
  · rintro ⟨head, headMatches, tail, tailMatches, joined⟩
    obtain ⟨left, right, rfl, rfl, rfl⟩ := List.map_eq_append_iff.mp joined.symm
    exact ⟨left, right, rfl, headMatches, tailMatches⟩
  · rintro ⟨left, right, rfl, leftMatches, rightMatches⟩
    exact ⟨_, leftMatches, _, rightMatches, List.map_append.symm⟩

theorem Matches.mul {first second : RegularExpression Kind} {left right : List Symbol}
    (head : Matches kind first left) (tail : Matches kind second right) :
    Matches kind (first * second) (left ++ right) :=
  matches_mul.mpr ⟨left, right, rfl, head, tail⟩

theorem Matches.left {first second : RegularExpression Kind} {text : List Symbol}
    (found : Matches kind first text) : Matches kind (first + second) text := Or.inl found

theorem Matches.right {first second : RegularExpression Kind} {text : List Symbol}
    (found : Matches kind second text) : Matches kind (first + second) text := Or.inr found

theorem matches_char {member : Kind} {text : List Symbol} :
    Matches kind (char member) text ↔ ∃ symbol, text = [symbol] ∧ kind symbol = member := by
  rw [Matches, matches'_char]
  constructor
  · intro single
    obtain ⟨symbol, rfl, same⟩ := List.map_eq_singleton_iff.mp single
    exact ⟨symbol, rfl, same⟩
  · rintro ⟨symbol, rfl, rfl⟩
    rfl

theorem matches_oneOf {members : List Kind} {text : List Symbol} :
    Matches kind (oneOf members) text ↔ ∃ symbol, text = [symbol] ∧ kind symbol ∈ members := by
  induction members with
  | nil =>
      constructor
      · intro found
        exact absurd found (Language.notMem_zero _)
      · rintro ⟨symbol, -, member⟩
        exact absurd member List.not_mem_nil
  | cons member members inductionHypothesis =>
      have either : Matches kind (oneOf (member :: members)) text ↔
          Matches kind (char member) text ∨ Matches kind (oneOf members) text := Iff.rfl
      rw [either, matches_char, inductionHypothesis, ← exists_or]
      apply exists_congr
      intro symbol
      rw [List.mem_cons, ← and_or_left]

/-- One of these words. -/
def anyWord (words : List (List Kind)) : RegularExpression Kind :=
  (words.map fun word => (word.map char).prod).sum

theorem matches_anyWord {words : List (List Kind)} {text : List Symbol} :
    Matches kind (anyWord words) text ↔ text.map kind ∈ words := by
  have spelled (word : List Kind) (kinds : List Kind) :
      kinds ∈ (word.map char).prod.matches' ↔ kinds = word := by
    induction word generalizing kinds with
    | nil => exact Iff.rfl
    | cons member word inductionHypothesis =>
        rw [List.map_cons, List.prod_cons, matches'_mul, Language.mem_mul]
        constructor
        · rintro ⟨first, single, rest, later, rfl⟩
          rw [(inductionHypothesis rest).mp later, show first = [member] from single]
          rfl
        · rintro rfl
          exact ⟨[member], rfl, word, (inductionHypothesis word).mpr rfl, rfl⟩
  rw [Matches, anyWord]
  generalize text.map kind = kinds
  induction words with
  | nil =>
      constructor
      · intro found
        exact absurd found (Language.notMem_zero _)
      · intro member
        exact absurd member List.not_mem_nil
  | cons word words inductionHypothesis =>
      rw [List.map_cons, List.sum_cons, matches'_add, Language.mem_add]
      exact (or_congr (spelled word kinds) inductionHypothesis).trans List.mem_cons.symm

/-! ### Repetition -/

theorem matches_star_nil {pattern : RegularExpression Kind} : Matches kind pattern.star [] :=
  Language.nil_mem_kstar _

theorem Matches.star_append {pattern : RegularExpression Kind} {piece rest : List Symbol}
    (first : Matches kind pattern piece) (others : Matches kind pattern.star rest) :
    Matches kind pattern.star (piece ++ rest) := by
  obtain ⟨pieces, joined, all⟩ := Language.mem_kstar.mp others
  apply Language.mem_kstar.mpr
  refine ⟨piece.map kind :: pieces, ?_, ?_⟩
  · rw [List.map_append, joined, List.flatten_cons]
  · intro word member
    rcases List.mem_cons.mp member with rfl | later
    · exact first
    · exact all word later

/-- Induction along the pieces of a repetition. -/
theorem Matches.star_induction {pattern : RegularExpression Kind} {holds : List Symbol → Prop}
    {text : List Symbol} (repeats : Matches kind pattern.star text) (nil : holds [])
    (append : ∀ piece rest, Matches kind pattern piece → holds rest → holds (piece ++ rest)) :
    holds text := by
  obtain ⟨pieces, joined, all⟩ := Language.mem_kstar.mp repeats
  clear repeats
  induction pieces generalizing text with
  | nil =>
      rw [List.map_eq_nil_iff.mp joined]
      exact nil
  | cons word words inductionHypothesis =>
      obtain ⟨piece, rest, rfl, rfl, restJoined⟩ := List.map_eq_append_iff.mp joined
      apply append
      · exact all _ List.mem_cons_self
      · apply inductionHypothesis restJoined
        intro later member
        exact all later (List.mem_cons_of_mem _ member)

/-- A repeated class matches the texts of its kinds. -/
theorem matches_star_oneOf {members : List Kind} {text : List Symbol} :
    Matches kind (oneOf members).star text ↔ ∀ symbol ∈ text, kind symbol ∈ members := by
  constructor
  · intro repeats
    apply repeats.star_induction
    · simp
    · intro piece rest single later
      obtain ⟨symbol, rfl, member⟩ := matches_oneOf.mp single
      simpa using ⟨member, later⟩
  · intro all
    induction text with
    | nil => exact matches_star_nil
    | cons symbol text inductionHypothesis =>
        have head : Matches kind (oneOf members) [symbol] :=
          matches_oneOf.mpr ⟨symbol, rfl, all symbol List.mem_cons_self⟩
        apply head.star_append
        apply inductionHypothesis
        intro other member
        exact all other (List.mem_cons_of_mem _ member)

theorem Matches.star_of_oneOrMore {pattern : RegularExpression Kind} {text : List Symbol}
    (found : Matches kind (oneOrMore pattern) text) : Matches kind pattern.star text := by
  obtain ⟨piece, rest, rfl, first, others⟩ := matches_mul.mp found
  exact first.star_append others

/-- A repetition goes on with one more piece. -/
theorem Matches.star_snoc {pattern : RegularExpression Kind} {front piece : List Symbol}
    (repeats : Matches kind pattern.star front) (last : Matches kind pattern piece) :
    Matches kind (oneOrMore pattern) (front ++ piece) := by
  apply repeats.star_induction
  · simpa [oneOrMore] using last.mul matches_star_nil
  · intro first rest single later
    rw [List.append_assoc]
    exact single.mul later.star_of_oneOrMore

/-! ### The matcher -/

variable [DecidableEq Kind]

/-- `^pattern$` on a text: `$` matches at the end, and in front of a line feed that ends the
text. -/
def matchesToEnd (kind : Symbol → Kind) (lineFeed : Symbol → Bool)
    (pattern : RegularExpression Kind) (text : List Symbol) : Bool :=
  pattern.rmatch (text.map kind) ||
    (text.getLast?.any lineFeed && pattern.rmatch (text.dropLast.map kind))

theorem rmatch_map_iff {pattern : RegularExpression Kind} {text : List Symbol} :
    pattern.rmatch (text.map kind) = true ↔ Matches kind pattern text := by
  rw [rmatch_iff_matches', Matches]

/-- Where the pattern goes on matching behind a line feed, `$` adds nothing. -/
theorem matchesToEnd_iff {lineFeed : Symbol → Bool} {pattern : RegularExpression Kind}
    {text : List Symbol}
    (goesOn : ∀ text symbol, lineFeed symbol = true → Matches kind pattern text →
      Matches kind pattern (text ++ [symbol])) :
    matchesToEnd kind lineFeed pattern text = true ↔ Matches kind pattern text := by
  rw [matchesToEnd, Bool.or_eq_true, Bool.and_eq_true, rmatch_map_iff, rmatch_map_iff]
  constructor
  · rintro (whole | ⟨last, front⟩)
    · exact whole
    · obtain ⟨symbol, isLast, feeds⟩ := (Option.any_eq_true _ _).mp last
      have split := List.dropLast_append_getLast? symbol isLast
      rw [← split]
      exact goesOn _ symbol feeds front
  · exact Or.inl

end WallUnit.Foundations.Regex
