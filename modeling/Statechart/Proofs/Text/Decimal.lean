import Mathlib.Algebra.Group.Nat.Defs
import Mathlib.Data.Nat.Basic
import Statechart.Text.Decimal

namespace Statechart.Text

variable {taken rest : List Char} {width n : Nat}

theorem isDigit_iff {c : Char} : c.isDigit ↔ 48 ≤ c.toNat ∧ c.toNat ≤ 57 := by
  simp only [Char.isDigit, Bool.and_eq_true, decide_eq_true_eq, ge_iff_le, UInt32.le_iff_toNat_le]
  rfl

def Ends (cs : List Char) : Prop := ∀ c ∈ cs.head?, c.isDigit = false

theorem ends_cons {c : Char} (other : c.isDigit = false) (cs : List Char) : Ends (c :: cs) := by
  rintro _ ⟨⟩
  exact other

theorem takeWhile_digits (all : ∀ c ∈ taken, c.isDigit) (ends : Ends rest) :
    (taken ++ rest).takeWhile Char.isDigit = taken := by
  rw [List.takeWhile_append_of_pos all]
  cases rest with
  | nil => rw [List.takeWhile_nil, List.append_nil]
  | cons c cs => rw [List.takeWhile_cons_of_neg (by simp [ends c rfl]), List.append_nil]

theorem dropWhile_digits (all : ∀ c ∈ taken, c.isDigit) (ends : Ends rest) :
    (taken ++ rest).dropWhile Char.isDigit = rest := by
  rw [List.dropWhile_append_of_pos all]
  cases rest with
  | nil => rfl
  | cons c cs => rw [List.dropWhile_cons_of_neg (by simp [ends c rfl])]

theorem allDigits?_append (all : ∀ c ∈ taken, c.isDigit) (some : taken ≠ []) (ends : Ends rest) :
    allDigits? (taken ++ rest) = .some (taken, rest) := by
  unfold allDigits?
  simp only [takeWhile_digits all ends, dropWhile_digits all ends]
  rw [if_neg (by simpa using some)]

theorem number?_append (all : ∀ c ∈ taken, c.isDigit) (some : taken ≠ []) :
    number? taken.length (taken ++ rest) = .some (ofDigits taken, rest) := by
  have first : ((taken ++ rest).takeWhile Char.isDigit).take taken.length = taken := by
    rw [List.takeWhile_append_of_pos all, List.take_left]
  unfold number?
  simp only [first]
  rw [if_neg (by simpa using some), List.drop_left]

theorem ofDigits_eq (cs : List Char) : ofDigits cs = Nat.ofDigitChars 10 cs 0 := by
  rw [Nat.ofDigitChars_eq_foldl]
  unfold ofDigits digitValue
  simp only [Nat.mul_comm]

theorem ofDigits_digits (n : Nat) : ofDigits (digits n) = n := by
  rw [ofDigits_eq]
  exact Nat.ofDigitChars_ten_toDigits

theorem isDigit_of_mem_digits {c : Char} (member : c ∈ digits n) : c.isDigit :=
  Nat.isDigit_of_mem_toDigits (by decide) (by decide) member

theorem digits_ne_nil (n : Nat) : digits n ≠ [] := Nat.toDigits_ne_nil

theorem exists_digits (n : Nat) : ∃ c cs, digits n = c :: cs ∧ c.isDigit := by
  obtain ⟨c, cs, whole⟩ := List.exists_cons_of_ne_nil (digits_ne_nil n)
  have member : c ∈ digits n := by
    rw [whole]
    exact List.mem_cons_self
  exact ⟨c, cs, whole, isDigit_of_mem_digits member⟩

theorem head?_digits (positive : 0 < n) : (digits n).head? ≠ some '0' := by
  induction n using Nat.strong_induction_on with
  | _ n ih =>
    unfold digits at ih ⊢
    rw [Nat.toDigits_eq_if (by decide)]
    split
    · rename_i small
      have cases : n = 1 ∨ n = 2 ∨ n = 3 ∨ n = 4 ∨ n = 5 ∨ n = 6 ∨ n = 7 ∨ n = 8 ∨ n = 9 := by omega
      rcases cases with rfl | rfl | rfl | rfl | rfl | rfl | rfl | rfl | rfl <;> decide
    · rename_i large
      rw [List.head?_append, Option.or_of_isSome (by simp [Nat.toDigits_ne_nil])]
      exact ih (n / 10) (by omega) (by omega)

theorem isDigit_of_mem_padded {c : Char} (member : c ∈ padded width n) : c.isDigit := by
  rcases List.mem_append.mp member with zero | digit
  · rw [List.eq_of_mem_replicate zero]
    decide
  · exact isDigit_of_mem_digits digit

theorem padded_ne_nil (width n : Nat) : padded width n ≠ [] := List.append_ne_nil_of_right_ne_nil _ (digits_ne_nil n)

theorem exists_padded (width n : Nat) : ∃ c cs, padded width n = c :: cs ∧ c.isDigit := by
  obtain ⟨c, cs, whole⟩ := List.exists_cons_of_ne_nil (padded_ne_nil width n)
  have member : c ∈ padded width n := by
    rw [whole]
    exact List.mem_cons_self
  exact ⟨c, cs, whole, isDigit_of_mem_padded member⟩

theorem length_padded (wide : 0 < width) (fits : n < 10 ^ width) : (padded width n).length = width := by
  have short : (digits n).length ≤ width := (Nat.length_toDigits_le_iff (by decide) wide).mpr fits
  unfold padded
  rw [List.length_append, List.length_replicate]
  omega

theorem ofDigits_padded (width n : Nat) : ofDigits (padded width n) = n := by
  have digits := ofDigits_digits n
  rw [ofDigits_eq] at digits ⊢
  unfold padded
  rw [Nat.ofDigitChars_append, Nat.ofDigitChars_replicate_zero, Nat.mul_zero]
  exact digits

theorem ofDigits_zeros (cs : List Char) (k : Nat) : ofDigits (cs ++ List.replicate k '0') = ofDigits cs * 10 ^ k := by
  rw [ofDigits_eq, ofDigits_eq, Nat.ofDigitChars_append, Nat.ofDigitChars_replicate_zero, Nat.mul_comm]

theorem number?_padded (wide : 0 < width) (fits : n < 10 ^ width) (rest : List Char) :
    number? width (padded width n ++ rest) = some (n, rest) := by
  have read : number? (padded width n).length (padded width n ++ rest) = some (ofDigits (padded width n), rest) :=
    number?_append (fun _ => isDigit_of_mem_padded) (padded_ne_nil width n)
  rwa [length_padded wide fits, ofDigits_padded] at read

theorem allDigits?_padded (width n : Nat) (ends : Ends rest) :
    allDigits? (padded width n ++ rest) = some (padded width n, rest) :=
  allDigits?_append (fun _ => isDigit_of_mem_padded) (padded_ne_nil width n) ends

end Statechart.Text
