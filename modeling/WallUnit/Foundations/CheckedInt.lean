import Mathlib

/-!
Owns signed arithmetic of a fixed width that stops where the exact result leaves the width or
a divisor is 0, and the rules by which programs over it are judged: a program that `Computes`
returns a value exactly when a condition holds, and stops with an overflow when it does not.
Magnitudes are counted in bits.

Does not own unsigned or floating-point arithmetic, nor any program.
-/

namespace WallUnit.Foundations.CheckedInt

inductive Fault where
  | overflow
  | divisionByZero
deriving DecidableEq, Repr

/-- The values of a signed type. -/
def InRange (width : Nat) (value : Int) : Prop :=
  -2 ^ (width - 1) ≤ value ∧ value < 2 ^ (width - 1)

instance (width : Nat) (value : Int) : Decidable (InRange width value) := instDecidableAnd

theorem inRange_32 {value : Int} :
    InRange 32 value ↔ -2147483648 ≤ value ∧ value < 2147483648 := Iff.rfl

theorem inRange_64 {value : Int} :
    InRange 64 value ↔ -9223372036854775808 ≤ value ∧ value < 9223372036854775808 := Iff.rfl

/-! ### Operations -/

/-- The exact result, where the type holds it. -/
def check (width : Nat) (exact : Int) : Except Fault Int :=
  if InRange width exact then .ok exact else .error .overflow

def add (width : Nat) (left right : Int) : Except Fault Int := check width (left + right)

def sub (width : Nat) (left right : Int) : Except Fault Int := check width (left - right)

def mul (width : Nat) (left right : Int) : Except Fault Int := check width (left * right)

def shl (width : Nat) (value : Int) (count : Nat) : Except Fault Int :=
  check width (value * 2 ^ count)

/-- An arithmetic shift never leaves the type. -/
def shr (value : Int) (count : Nat) : Int := value / 2 ^ count

/-- Division that truncates. -/
def div (width : Nat) (left right : Int) : Except Fault Int :=
  if right = 0 then .error .divisionByZero else check width (left.tdiv right)

/-! ### Judging programs -/

variable {α β : Type}

/-- The program returns a value with the property if the condition holds, and overflows if it
does not. -/
structure Computes (program : Except Fault α) (fits : Prop) (holds : α → Prop) : Prop where
  returns : fits → ∃ value, program = .ok value ∧ holds value
  overflows : ¬ fits → program = .error .overflow

section

variable {program : Except Fault α} {fits : Prop} {holds : α → Prop}

theorem Computes.return {value : α} (property : holds value) :
    Computes (pure value : Except Fault α) True holds where
  returns _ := ⟨value, rfl, property⟩
  overflows never := absurd trivial never

theorem Computes.congr {other : Prop} (computes : Computes program fits holds)
    (same : fits ↔ other) : Computes program other holds where
  returns meets := computes.returns (same.mpr meets)
  overflows fails := computes.overflows fun meets => fails (same.mp meets)

/-- An operation whose result always fits. -/
theorem Computes.always {width : Nat} {exact : Int} {next : Int → Except Fault α}
    (within : InRange width exact) (computes : Computes (next exact) fits holds) :
    Computes (check width exact >>= next) fits holds := by
  rw [check, if_pos within]
  exact computes

/-- An operation whose result may not fit. -/
theorem Computes.when {width : Nat} {exact : Int} {next : Int → Except Fault α}
    (computes : InRange width exact → Computes (next exact) fits holds) :
    Computes (check width exact >>= next) (InRange width exact ∧ fits) holds := by
  by_cases within : InRange width exact
  · rw [check, if_pos within]
    exact (computes within).congr (by simp [within])
  · rw [check, if_neg within]
    constructor
    · intro meets
      exact absurd meets.1 within
    · intro _
      rfl

theorem Computes.div {width : Nat} {left right : Int} {next : Int → Except Fault α}
    (nonzero : right ≠ 0) (within : InRange width (left.tdiv right))
    (computes : Computes (next (left.tdiv right)) fits holds) :
    Computes (div width left right >>= next) fits holds := by
  rw [CheckedInt.div, if_neg nonzero]
  exact computes.always within

theorem Computes.bind {next : α → Except Fault β} {later : Prop} {result : β → Prop}
    (first : Computes program fits holds)
    (second : ∀ value, holds value → Computes (next value) later result) :
    Computes (program >>= next) (fits ∧ later) result := by
  constructor
  · rintro ⟨now, after⟩
    obtain ⟨value, rfl, property⟩ := first.returns now
    exact (second value property).returns after
  · intro fails
    by_cases now : fits
    · obtain ⟨value, rfl, property⟩ := first.returns now
      exact (second value property).overflows fun after => fails ⟨now, after⟩
    · rw [first.overflows now]
      rfl

theorem Computes.map (computes : Computes program fits holds) (change : α → β) :
    Computes (program.map change) fits
      (fun result => ∃ value, result = change value ∧ holds value) := by
  constructor
  · intro meets
    obtain ⟨value, rfl, property⟩ := computes.returns meets
    exact ⟨change value, rfl, value, rfl, property⟩
  · intro fails
    rw [computes.overflows fails]
    rfl

theorem Computes.ite {condition other : Prop} [Decidable condition] {left right : Except Fault α}
    (onTrue : condition → Computes left fits holds)
    (onFalse : ¬ condition → Computes right other holds) :
    Computes (if condition then left else right)
      ((condition → fits) ∧ (¬ condition → other)) holds := by
  by_cases met : condition
  · rw [if_pos met]
    exact (onTrue met).congr (by simp [met])
  · rw [if_neg met]
    exact (onFalse met).congr (by simp [met])

/-- Which programs return. -/
theorem Computes.exists_ok_iff (computes : Computes program fits holds) :
    (∃ value, program = .ok value) ↔ fits := by
  constructor
  · rintro ⟨value, returned⟩
    by_contra fails
    rw [computes.overflows fails] at returned
    contradiction
  · intro meets
    obtain ⟨value, returned, -⟩ := computes.returns meets
    exact ⟨value, returned⟩

theorem Computes.holds_of_ok (computes : Computes program fits holds) {value : α}
    (returned : program = .ok value) : holds value := by
  have meets := computes.exists_ok_iff.mp ⟨value, returned⟩
  obtain ⟨found, same, property⟩ := computes.returns meets
  rw [returned] at same
  cases same
  exact property

theorem Computes.ne_divisionByZero (computes : Computes program fits holds) :
    program ≠ .error .divisionByZero := by
  intro divides
  by_cases meets : fits
  · obtain ⟨value, returned, -⟩ := computes.returns meets
    rw [divides] at returned
    contradiction
  · rw [computes.overflows meets] at divides
    cases divides

end

/-! ### Magnitudes -/

/-- At most `2 ^ bits` on either side of 0. -/
def Bits (bits : Nat) (value : Int) : Prop := |value| ≤ 2 ^ bits

section

variable {bits more count width : Nat} {value left right : Int}

theorem bits_of_bounds (lower : -2 ^ bits ≤ value) (upper : value ≤ 2 ^ bits) : Bits bits value :=
  abs_le.mpr ⟨lower, upper⟩

theorem Bits.mono (size : Bits bits value) (wider : bits ≤ more) : Bits more value :=
  size.trans (pow_le_pow_right₀ (by decide) wider)

theorem Bits.mul (first : Bits bits left) (second : Bits more right) :
    Bits (bits + more) (left * right) := by
  rw [Bits, abs_mul, pow_add]
  exact mul_le_mul first second (abs_nonneg _) (by positivity)

theorem Bits.add (first : Bits bits left) (second : Bits bits right) :
    Bits (bits + 1) (left + right) := by
  have sum := (abs_add_le left right).trans (add_le_add first second)
  rw [Bits, pow_succ]
  linarith

theorem Bits.sub (first : Bits bits left) (second : Bits bits right) :
    Bits (bits + 1) (left - right) := by
  have sum := (abs_sub left right).trans (add_le_add first second)
  rw [Bits, pow_succ]
  linarith

theorem Bits.shl (size : Bits bits value) (count : Nat) :
    Bits (bits + count) (value * 2 ^ count) := by
  apply size.mul
  rw [Bits, abs_of_nonneg (by positivity)]

theorem Bits.shr (size : Bits (bits + count) value) : Bits bits (shr value count) := by
  have positive : (0 : Int) < 2 ^ count := by positivity
  obtain ⟨lower, upper⟩ := abs_le.mp size
  rw [pow_add] at lower upper
  apply bits_of_bounds
  · apply Int.le_ediv_of_mul_le positive
    linarith
  · apply Int.ediv_le_of_le_mul positive
    linarith

theorem Bits.inRange (size : Bits bits value) (narrow : bits + 1 < width) :
    InRange width value := by
  obtain ⟨lower, upper⟩ := abs_le.mp size
  have wider : (2 : Int) ^ bits < 2 ^ (width - 1) := pow_lt_pow_right₀ (by decide) (by omega)
  exact ⟨by linarith, by linarith⟩

theorem bits_of_inRange (within : InRange (bits + 1) value) : Bits bits value :=
  bits_of_bounds within.1 within.2.le

theorem shr_bounds (within : InRange (bits + count + 1) value) :
    -2 ^ bits ≤ shr value count ∧ shr value count ≤ 2 ^ bits :=
  abs_le.mp (bits_of_inRange within).shr

/-- A quotient is no larger than what is divided, so only the least value has one that may not
fit. -/
theorem inRange_tdiv (within : InRange width left) (notLeast : left ≠ -2 ^ (width - 1)) :
    InRange width (left.tdiv right) := by
  have shrinks : |left.tdiv right| ≤ |left| := by
    rw [Int.abs_eq_natAbs, Int.abs_eq_natAbs]
    exact_mod_cast Int.natAbs_tdiv_le_natAbs left right
  have least : -2 ^ (width - 1) < left := lt_of_le_of_ne within.1 notLeast.symm
  have smaller := shrinks.trans_lt (abs_lt.mpr ⟨least, within.2⟩)
  obtain ⟨lower, upper⟩ := abs_lt.mp smaller
  exact ⟨lower.le, upper⟩

end

end WallUnit.Foundations.CheckedInt
