import Mathlib.Data.List.Basic

/-!
Owns lists cut into pieces of bounded size, and base64 with its decoder: what the
cutting loses (nothing), how long the encoding is, and that decoding inverts it.

Does not own any message format built from them.
-/

namespace WallUnit.Foundations

/-! ### Pieces -/

/-- Successive pieces of `size` items; the last one may be shorter. -/
def pieces {α : Type} (size : Nat) (items : List α) : List (List α) :=
  if items = [] ∨ size = 0 then [] else items.take size :: pieces size (items.drop size)
termination_by items.length
decreasing_by
  rename_i proper
  rw [not_or] at proper
  have := List.length_pos_iff.mpr proper.1
  rw [List.length_drop]
  omega

section

variable {α : Type} {size : Nat}

@[simp] theorem pieces_nil : pieces size ([] : List α) = [] := by
  rw [pieces]
  simp

theorem pieces_of_ne_nil {items : List α} (positive : 0 < size) (nonempty : items ≠ []) :
    pieces size items = items.take size :: pieces size (items.drop size) := by
  rw [pieces, if_neg]
  rintro (empty | zero)
  · exact nonempty empty
  · omega

theorem pieces_of_short {items : List α} (nonempty : items ≠ []) (short : items.length ≤ size) :
    pieces size items = [items] := by
  have positive : 0 < size := Nat.lt_of_lt_of_le (List.length_pos_iff.mpr nonempty) short
  rw [pieces_of_ne_nil positive nonempty, List.take_of_length_le short,
    List.drop_eq_nil_of_le short, pieces_nil]

/-- Cutting loses nothing and keeps the order. -/
theorem flatten_pieces (positive : 0 < size) (items : List α) :
    (pieces size items).flatten = items := by
  induction items using pieces.induct size with
  | case1 items stop =>
      rcases stop with rfl | zero
      · simp
      · omega
  | case2 items go inductionHypothesis =>
      rw [not_or] at go
      rw [pieces_of_ne_nil positive go.1, List.flatten_cons, inductionHypothesis,
        List.take_append_drop]

theorem length_of_mem_pieces {items piece : List α} (member : piece ∈ pieces size items) :
    piece.length ≤ size := by
  induction items using pieces.induct size with
  | case1 items stop =>
      rw [pieces, if_pos stop] at member
      contradiction
  | case2 items go inductionHypothesis =>
      rw [pieces, if_neg go] at member
      rcases List.mem_cons.mp member with rfl | later
      · exact List.length_take_le _ _
      · exact inductionHypothesis later

end

/-! ### Base64 -/

def base64Alphabet : List Char :=
  "ABCDEFGHIJKLMNOPQRSTUVWXYZabcdefghijklmnopqrstuvwxyz0123456789+/".toList

def base64Char (sextet : Nat) : Char := base64Alphabet.getD sextet '='

def base64Value (char : Char) : Option Nat := base64Alphabet.idxOf? char

/-- Groups of three bytes to four characters, the last group padded. -/
def base64Encode : List UInt8 → List Char
  | [] => []
  | [first] =>
      [base64Char (first.toNat / 4), base64Char (first.toNat % 4 * 16), '=', '=']
  | [first, second] =>
      [base64Char (first.toNat / 4), base64Char (first.toNat % 4 * 16 + second.toNat / 16),
        base64Char (second.toNat % 16 * 4), '=']
  | first :: second :: third :: rest =>
      base64Char (first.toNat / 4) ::
        base64Char (first.toNat % 4 * 16 + second.toNat / 16) ::
        base64Char (second.toNat % 16 * 4 + third.toNat / 64) ::
        base64Char (third.toNat % 64) :: base64Encode rest

/-- The bytes of up to four sextets. -/
def base64Bytes : List Nat → List UInt8
  | [a, b] => [UInt8.ofNat (a * 4 + b / 16)]
  | [a, b, c] => [UInt8.ofNat (a * 4 + b / 16), UInt8.ofNat (b % 16 * 16 + c / 4)]
  | [a, b, c, d] =>
      [UInt8.ofNat (a * 4 + b / 16), UInt8.ofNat (b % 16 * 16 + c / 4),
        UInt8.ofNat (c % 4 * 64 + d)]
  | _ => []

def base64Decode : List Char → Option (List UInt8)
  | [] => some []
  | a :: b :: c :: d :: rest =>
      if d = '=' ∧ rest = [] then
        if c = '=' then ([a, b].mapM base64Value).map base64Bytes
        else ([a, b, c].mapM base64Value).map base64Bytes
      else
        match [a, b, c, d].mapM base64Value, base64Decode rest with
        | some sextets, some decoded => some (base64Bytes sextets ++ decoded)
        | _, _ => none
  | _ => none

theorem base64Value_char {sextet : Nat} (below : sextet < 64) :
    base64Value (base64Char sextet) = some sextet := by
  have all : ∀ sextet : Fin 64, base64Value (base64Char sextet) = some sextet.val := by
    decide +kernel
  exact all ⟨sextet, below⟩

theorem base64Char_ne_pad {sextet : Nat} (below : sextet < 64) : base64Char sextet ≠ '=' := by
  have all : ∀ sextet : Fin 64, base64Char sextet ≠ '=' := by decide +kernel
  exact all ⟨sextet, below⟩

theorem base64Char_mem {sextet : Nat} (below : sextet < 64) :
    base64Char sextet ∈ base64Alphabet := by
  have all : ∀ sextet : Fin 64, base64Char sextet ∈ base64Alphabet := by decide +kernel
  exact all ⟨sextet, below⟩

theorem length_base64Encode (bytes : List UInt8) :
    (base64Encode bytes).length = (bytes.length + 2) / 3 * 4 := by
  induction bytes using base64Encode.induct with
  | case1 => rfl
  | case2 first => simp [base64Encode]
  | case3 first second => simp [base64Encode]
  | case4 first second third rest inductionHypothesis =>
      simp only [base64Encode, List.length_cons, inductionHypothesis]
      omega

/-- Every character of an encoding is in the alphabet or the pad. -/
theorem mem_base64Encode {bytes : List UInt8} {char : Char} (member : char ∈ base64Encode bytes) :
    char ∈ base64Alphabet ∨ char = '=' := by
  induction bytes using base64Encode.induct with
  | case1 => contradiction
  | case2 first =>
      have bound := first.toNat_lt
      simp only [base64Encode, List.mem_cons, List.not_mem_nil, or_false] at member
      rcases member with rfl | rfl | rfl | rfl
      · exact Or.inl (base64Char_mem (by omega))
      · exact Or.inl (base64Char_mem (by omega))
      · exact Or.inr rfl
      · exact Or.inr rfl
  | case3 first second =>
      have firstBound := first.toNat_lt
      have secondBound := second.toNat_lt
      simp only [base64Encode, List.mem_cons, List.not_mem_nil, or_false] at member
      rcases member with rfl | rfl | rfl | rfl
      · exact Or.inl (base64Char_mem (by omega))
      · exact Or.inl (base64Char_mem (by omega))
      · exact Or.inl (base64Char_mem (by omega))
      · exact Or.inr rfl
  | case4 first second third rest inductionHypothesis =>
      have firstBound := first.toNat_lt
      have secondBound := second.toNat_lt
      have thirdBound := third.toNat_lt
      simp only [base64Encode, List.mem_cons] at member
      rcases member with rfl | rfl | rfl | rfl | later
      · exact Or.inl (base64Char_mem (by omega))
      · exact Or.inl (base64Char_mem (by omega))
      · exact Or.inl (base64Char_mem (by omega))
      · exact Or.inl (base64Char_mem (by omega))
      · exact inductionHypothesis later

theorem base64Bytes_two (first : UInt8) :
    base64Bytes [first.toNat / 4, first.toNat % 4 * 16] = [first] := by
  have whole : first.toNat / 4 * 4 + first.toNat % 4 * 16 / 16 = first.toNat := by omega
  rw [base64Bytes, whole, UInt8.ofNat_toNat]

theorem base64Bytes_three (first second : UInt8) :
    base64Bytes [first.toNat / 4, first.toNat % 4 * 16 + second.toNat / 16,
      second.toNat % 16 * 4] = [first, second] := by
  have secondBound := second.toNat_lt
  have left : first.toNat / 4 * 4 + (first.toNat % 4 * 16 + second.toNat / 16) / 16 =
      first.toNat := by omega
  have right : (first.toNat % 4 * 16 + second.toNat / 16) % 16 * 16 +
      second.toNat % 16 * 4 / 4 = second.toNat := by omega
  rw [base64Bytes, left, right, UInt8.ofNat_toNat, UInt8.ofNat_toNat]

theorem base64Bytes_four (first second third : UInt8) :
    base64Bytes [first.toNat / 4, first.toNat % 4 * 16 + second.toNat / 16,
      second.toNat % 16 * 4 + third.toNat / 64, third.toNat % 64] = [first, second, third] := by
  have secondBound := second.toNat_lt
  have thirdBound := third.toNat_lt
  have left : first.toNat / 4 * 4 + (first.toNat % 4 * 16 + second.toNat / 16) / 16 =
      first.toNat := by omega
  have middle : (first.toNat % 4 * 16 + second.toNat / 16) % 16 * 16 +
      (second.toNat % 16 * 4 + third.toNat / 64) / 4 = second.toNat := by omega
  have right : (second.toNat % 16 * 4 + third.toNat / 64) % 4 * 64 + third.toNat % 64 =
      third.toNat := by omega
  rw [base64Bytes, left, middle, right, UInt8.ofNat_toNat, UInt8.ofNat_toNat, UInt8.ofNat_toNat]

theorem base64Decode_encode (bytes : List UInt8) :
    base64Decode (base64Encode bytes) = some bytes := by
  induction bytes using base64Encode.induct with
  | case1 => rfl
  | case2 first =>
      have bound := first.toNat_lt
      have one := base64Value_char (show first.toNat / 4 < 64 by omega)
      have two := base64Value_char (show first.toNat % 4 * 16 < 64 by omega)
      simp [base64Encode, base64Decode, one, two, base64Bytes_two]
  | case3 first second =>
      have firstBound := first.toNat_lt
      have secondBound := second.toNat_lt
      have one := base64Value_char (show first.toNat / 4 < 64 by omega)
      have two := base64Value_char
        (show first.toNat % 4 * 16 + second.toNat / 16 < 64 by omega)
      have three := base64Value_char (show second.toNat % 16 * 4 < 64 by omega)
      have notPad := base64Char_ne_pad (show second.toNat % 16 * 4 < 64 by omega)
      simp [base64Encode, base64Decode, one, two, three, notPad, base64Bytes_three]
  | case4 first second third rest inductionHypothesis =>
      have firstBound := first.toNat_lt
      have secondBound := second.toNat_lt
      have thirdBound := third.toNat_lt
      have one := base64Value_char (show first.toNat / 4 < 64 by omega)
      have two := base64Value_char
        (show first.toNat % 4 * 16 + second.toNat / 16 < 64 by omega)
      have three := base64Value_char
        (show second.toNat % 16 * 4 + third.toNat / 64 < 64 by omega)
      have four := base64Value_char (show third.toNat % 64 < 64 by omega)
      have notPad := base64Char_ne_pad (show third.toNat % 64 < 64 by omega)
      simp [base64Encode, base64Decode, one, two, three, four, notPad, inductionHypothesis,
        base64Bytes_four]

end WallUnit.Foundations
