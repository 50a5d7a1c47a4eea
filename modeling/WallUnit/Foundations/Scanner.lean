import Mathlib.Data.List.Infix

/-!
Owns greedy scanners: a rule that looks at the input from its current position
and either waits for more or consumes a positive number of symbols and yields
values, and the scan that applies the rule until it waits. A rule that has decided
does not change its mind when more input arrives, so a scan does not depend on how
its input was cut. What it yields can be located: it comes from the positions it
reaches, and it reaches every position it cannot step over. Of a sequence of records
that is cut short it finds those the cut leaves whole.

Does not own any concrete frame format, nor a bound on how much may wait.
-/

namespace WallUnit.Foundations

structure Scanner (Symbol Value : Type) where
  next : List Symbol → Option (Nat × List Value)
  progress : ∀ {input : List Symbol} {count : Nat} {values : List Value},
    next input = some (count, values) → 0 < count ∧ count ≤ input.length
  stable : ∀ {input : List Symbol} {found : Nat × List Value} (more : List Symbol),
    next input = some found → next (input ++ more) = some found

namespace Scanner

variable {Symbol Value : Type} (scanner : Scanner Symbol Value)

/-- What the input yields, and the rest that waits for more. -/
def scan (input : List Symbol) : List Value × List Symbol :=
  match _found : scanner.next input with
  | none => ([], input)
  | some (count, values) =>
      let later := scan (input.drop count)
      (values ++ later.1, later.2)
termination_by input.length
decreasing_by
  have bounds := scanner.progress _found
  rw [List.length_drop]
  omega

theorem scan_of_none {input : List Symbol} (waits : scanner.next input = none) :
    scanner.scan input = ([], input) := by
  rw [scan]
  split
  · rfl
  · simp_all

theorem scan_of_some {input : List Symbol} {count : Nat} {values : List Value}
    (found : scanner.next input = some (count, values)) :
    scanner.scan input =
      (values ++ (scanner.scan (input.drop count)).1, (scanner.scan (input.drop count)).2) := by
  rw [scan]
  split
  · simp_all
  · rename_i otherCount otherValues other
    rw [found] at other
    cases other
    rfl

/-- Induction along the positions a scan stops at. -/
theorem scan_induction {holds : List Symbol → Prop}
    (waits : ∀ input, scanner.next input = none → holds input)
    (consumes : ∀ input count values, scanner.next input = some (count, values) →
      holds (input.drop count) → holds input)
    (input : List Symbol) : holds input := by
  induction length : input.length using Nat.strong_induction_on generalizing input with
  | _ size inductionHypothesis =>
      cases found : scanner.next input with
      | none => exact waits input found
      | some result =>
          obtain ⟨count, values⟩ := result
          have bounds := scanner.progress found
          apply consumes input count values found
          apply inductionHypothesis (input.drop count).length _ _ rfl
          rw [List.length_drop]
          omega

/-- More input continues the scan from what waited. -/
theorem scan_append (input more : List Symbol) :
    scanner.scan (input ++ more) =
      ((scanner.scan input).1 ++ (scanner.scan ((scanner.scan input).2 ++ more)).1,
        (scanner.scan ((scanner.scan input).2 ++ more)).2) := by
  induction input using scanner.scan_induction with
  | waits input found => simp [scanner.scan_of_none found]
  | consumes input count values found inductionHypothesis =>
      have bounds := scanner.progress found
      rw [scanner.scan_of_some found, scanner.scan_of_some (scanner.stable more found),
        List.drop_append_of_le_length bounds.2, inductionHypothesis]
      simp

/-- What waits at the end is what the rule waits on. -/
theorem next_scan_rest (input : List Symbol) : scanner.next (scanner.scan input).2 = none := by
  induction input using scanner.scan_induction with
  | waits input found => rwa [scanner.scan_of_none found]
  | consumes input count values found inductionHypothesis =>
      rwa [scanner.scan_of_some found]

/-! ### The positions of a scan -/

/-- The positions at which a scan of the input applies the rule. -/
inductive Reaches (input : List Symbol) : Nat → Prop
  | start : Reaches input 0
  | after {pos count : Nat} {values : List Value} :
      Reaches input pos → scanner.next (input.drop pos) = some (count, values) →
        Reaches input (pos + count)

variable {scanner}

/-- The positions of the rest are positions of the whole. -/
theorem Reaches.of_drop {input : List Symbol} {passed pos : Nat}
    (here : scanner.Reaches input passed) (later : scanner.Reaches (input.drop passed) pos) :
    scanner.Reaches input (passed + pos) := by
  induction later with
  | start => exact here
  | after _ found inductionHypothesis =>
      rw [List.drop_drop] at found
      rw [← Nat.add_assoc]
      exact inductionHypothesis.after found

/-- A scan that cannot step over a position comes to it. -/
theorem reaches_of_noSkip {input : List Symbol} {target : Nat}
    (noSkip : ∀ pos < target, ∃ count values,
      scanner.next (input.drop pos) = some (count, values) ∧ pos + count ≤ target) :
    scanner.Reaches input target := by
  have closer : ∀ distance pos, pos + distance = target → scanner.Reaches input pos →
      scanner.Reaches input target := by
    intro distance
    induction distance using Nat.strong_induction_on with
    | _ distance inductionHypothesis =>
        intro pos apart reached
        rcases Nat.eq_zero_or_pos distance with rfl | positive
        · rwa [← apart]
        · obtain ⟨count, values, found, inside⟩ := noSkip pos (by omega)
          have advance := (scanner.progress found).1
          exact inductionHypothesis (distance - count) (by omega) (pos + count) (by omega)
            (reached.after found)
  exact closer target 0 (Nat.zero_add target) .start

variable (scanner)

/-! ### Located values -/

/-- What the input yields, each value with the position the rule yielded it at. The
input starts at `origin`. -/
def located (input : List Symbol) (origin : Nat) : List (Nat × Value) :=
  match _found : scanner.next input with
  | none => []
  | some (count, values) =>
      values.map (Prod.mk origin) ++ located (input.drop count) (origin + count)
termination_by input.length
decreasing_by
  have bounds := scanner.progress _found
  rw [List.length_drop]
  omega

theorem located_of_none {input : List Symbol} (waits : scanner.next input = none) (origin : Nat) :
    scanner.located input origin = [] := by
  rw [located]
  split
  · rfl
  · simp_all

theorem located_of_some {input : List Symbol} {count : Nat} {values : List Value}
    (found : scanner.next input = some (count, values)) (origin : Nat) :
    scanner.located input origin =
      values.map (Prod.mk origin) ++ scanner.located (input.drop count) (origin + count) := by
  rw [located]
  split
  · simp_all
  · rename_i otherCount otherValues other
    rw [found] at other
    cases other
    rfl

/-- Without the positions they are the values of the scan. -/
theorem located_values (input : List Symbol) (origin : Nat) :
    (scanner.located input origin).map Prod.snd = (scanner.scan input).1 := by
  induction input using scanner.scan_induction generalizing origin with
  | waits input found =>
      rw [scanner.located_of_none found, scanner.scan_of_none found, List.map_nil]
  | consumes input count values found inductionHypothesis =>
      rw [scanner.located_of_some found, scanner.scan_of_some found, List.map_append,
        inductionHypothesis, List.map_map, Function.comp_def, List.map_id']

/-- The origin is added to every position. -/
theorem located_shift (input : List Symbol) (origin moved : Nat) :
    scanner.located input (origin + moved) =
      (scanner.located input moved).map fun entry => (origin + entry.1, entry.2) := by
  induction input using scanner.scan_induction generalizing moved with
  | waits input found => rw [scanner.located_of_none found, scanner.located_of_none found]; rfl
  | consumes input count values found inductionHypothesis =>
      rw [scanner.located_of_some found, scanner.located_of_some found, Nat.add_assoc,
        inductionHypothesis, List.map_append, List.map_map]
      rfl

/-- What a scan leaves is shorter by what it consumed. -/
theorem length_scan_rest_le (input : List Symbol) :
    (scanner.scan input).2.length ≤ input.length := by
  induction input using scanner.scan_induction with
  | waits input found => rw [scanner.scan_of_none found]
  | consumes input count values found inductionHypothesis =>
      rw [List.length_drop] at inductionHypothesis
      rw [scanner.scan_of_some found]
      dsimp only
      omega

/-- More input continues from what waited, at the position it waited at. -/
theorem located_append (input more : List Symbol) (origin : Nat) :
    scanner.located (input ++ more) origin =
      scanner.located input origin ++ scanner.located ((scanner.scan input).2 ++ more)
        (origin + (input.length - (scanner.scan input).2.length)) := by
  induction input using scanner.scan_induction generalizing origin with
  | waits input found => simp [scanner.scan_of_none found, scanner.located_of_none found]
  | consumes input count values found inductionHypothesis =>
      have bounds := scanner.progress found
      have shorter := scanner.length_scan_rest_le (input.drop count)
      rw [List.length_drop] at shorter
      have consumed : origin + count + ((input.drop count).length -
          (scanner.scan (input.drop count)).2.length) =
          origin + (input.length - (scanner.scan (input.drop count)).2.length) := by
        rw [List.length_drop]
        omega
      rw [scanner.located_of_some found, scanner.located_of_some (scanner.stable more found),
        List.drop_append_of_le_length bounds.2, inductionHypothesis, scanner.scan_of_some found,
        consumed, List.append_assoc]

/-- From a position it reaches, a scan yields what a scan of the rest does. -/
theorem located_suffix {input : List Symbol} {pos : Nat} (reached : scanner.Reaches input pos) :
    scanner.located (input.drop pos) pos <:+ scanner.located input 0 := by
  induction reached with
  | start => exact List.suffix_refl _
  | after _ found inductionHypothesis =>
      apply List.IsSuffix.trans _ inductionHypothesis
      rw [scanner.located_of_some found, List.drop_drop]
      exact List.suffix_append _ _

theorem Reaches.scan_suffix {scanner : Scanner Symbol Value} {input : List Symbol} {pos : Nat}
    (reached : scanner.Reaches input pos) :
    (scanner.scan (input.drop pos)).1 <:+ (scanner.scan input).1 := by
  rw [← scanner.located_values _ pos, ← scanner.located_values input 0]
  exact (scanner.located_suffix reached).map Prod.snd

/-- A value is yielded at the positions the scan reaches, and there by the rule. -/
theorem mem_located {input : List Symbol} {entry : Nat × Value} :
    entry ∈ scanner.located input 0 ↔
      ∃ count values, scanner.Reaches input entry.1 ∧
        scanner.next (input.drop entry.1) = some (count, values) ∧ entry.2 ∈ values := by
  constructor
  · intro member
    induction input using scanner.scan_induction generalizing entry with
    | waits input found =>
        rw [scanner.located_of_none found] at member
        contradiction
    | consumes input count values found inductionHypothesis =>
        rw [scanner.located_of_some found, List.mem_append] at member
        have first : scanner.Reaches input (0 + count) := Reaches.start.after found
        rcases member with now | later
        · obtain ⟨value, inside, rfl⟩ := List.mem_map.mp now
          exact ⟨count, values, .start, found, inside⟩
        · rw [Nat.add_comm, scanner.located_shift] at later
          obtain ⟨behind, member, rfl⟩ := List.mem_map.mp later
          obtain ⟨size, yielded, reached, decided, inside⟩ := inductionHypothesis member
          rw [Nat.zero_add] at first
          rw [List.drop_drop] at decided
          exact ⟨size, yielded, first.of_drop reached, decided, inside⟩
  · rintro ⟨count, values, reached, found, inside⟩
    apply (scanner.located_suffix reached).subset
    rw [scanner.located_of_some found]
    exact List.mem_append_left _ (List.mem_map_of_mem inside)

/-! ### Records -/

/-- `count` is the largest number of leading records that lie wholly in the first `cut`
symbols. -/
structure LongestWhole (record : Value → List Symbol) (values : List Value)
    (cut count : Nat) : Prop where
  within : count ≤ values.length
  whole : ((values.take count).flatMap record).length ≤ cut
  longest : ∀ other ≤ values.length,
    ((values.take other).flatMap record).length ≤ cut → other ≤ count

def wholeRecords (record : Value → List Symbol) : Nat → List Value → Nat
  | _, [] => 0
  | cut, value :: rest =>
      if (record value).length ≤ cut then
        wholeRecords record (cut - (record value).length) rest + 1
      else 0

theorem longestWhole_wholeRecords (record : Value → List Symbol) (values : List Value)
    (cut : Nat) : LongestWhole record values cut (wholeRecords record cut values) := by
  induction values generalizing cut with
  | nil => exact ⟨Nat.le_refl _, Nat.zero_le _, fun _ within _ => within⟩
  | cons value rest inductionHypothesis =>
      rw [wholeRecords]
      by_cases fits : (record value).length ≤ cut
      · have later := inductionHypothesis (cut - (record value).length)
        rw [if_pos fits]
        constructor
        · exact Nat.succ_le_succ later.within
        · have whole := later.whole
          rw [List.take_succ_cons, List.flatMap_cons, List.length_append]
          omega
        · intro other within whole
          cases other with
          | zero => exact Nat.zero_le _
          | succ other =>
              rw [List.take_succ_cons, List.flatMap_cons, List.length_append] at whole
              exact Nat.succ_le_succ
                (later.longest other (Nat.le_of_succ_le_succ within) (by omega))
      · rw [if_neg fits]
        constructor
        · exact Nat.zero_le _
        · exact Nat.zero_le _
        · intro other _ whole
          cases other with
          | zero => exact Nat.le_refl 0
          | succ other =>
              rw [List.take_succ_cons, List.flatMap_cons, List.length_append] at whole
              omega

/-- With nothing cut off every record is whole. -/
theorem LongestWhole.eq_length {record : Value → List Symbol} {values : List Value}
    {cut count : Nat} (longest : LongestWhole record values cut count)
    (uncut : (values.flatMap record).length ≤ cut) : count = values.length := by
  apply Nat.le_antisymm longest.within
  apply longest.longest values.length (Nat.le_refl _)
  rwa [List.take_length]

/-- A rule that reads each record back, and waits on every proper part of one, finds in
a cut sequence exactly the records that the cut leaves whole. -/
theorem scan_take_records {record : Value → List Symbol} {values : List Value}
    (reads : ∀ value ∈ values,
      scanner.next (record value) = some ((record value).length, [value]))
    (waits : ∀ value ∈ values, ∀ cut < (record value).length,
      scanner.next ((record value).take cut) = none)
    (cut : Nat) :
    (scanner.scan ((values.flatMap record).take cut)).1 =
      values.take (wholeRecords record cut values) := by
  induction values generalizing cut with
  | nil =>
      have idle : scanner.next [] = none := by
        cases found : scanner.next [] with
        | none => rfl
        | some result =>
            obtain ⟨count, yielded⟩ := result
            have bounds := scanner.progress found
            exact absurd (Nat.lt_of_lt_of_le bounds.1 bounds.2) (Nat.not_lt_zero 0)
      rw [List.flatMap_nil, List.take_nil, scanner.scan_of_none idle, List.take_nil]
  | cons value rest inductionHypothesis =>
      rw [List.forall_mem_cons] at reads waits
      rw [List.flatMap_cons, wholeRecords]
      by_cases fits : (record value).length ≤ cut
      · have found := scanner.stable ((rest.flatMap record).take (cut - (record value).length))
          reads.1
        rw [List.take_append, List.take_of_length_le fits, scanner.scan_of_some found,
          List.drop_left, inductionHypothesis reads.2 waits.2, if_pos fits,
          List.take_succ_cons, List.singleton_append]
      · have short : cut < (record value).length := Nat.lt_of_not_le fits
        rw [List.take_append_of_le_length (Nat.le_of_lt short),
          scanner.scan_of_none (waits.1 cut short), if_neg fits, List.take_zero]

end Scanner

end WallUnit.Foundations
