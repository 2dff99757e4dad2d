import Offside.Scan.Escape
import Offside.Scan.Numeral

/-!
Numbers written in digits, and what the scanners make of them.
-/

namespace Offside

namespace Text

theorem digitValue_digitChar {digit : Nat} (small : digit < 16) :
    digitValue digit.digitChar = digit := by
  have all : ∀ digit < 16, digitValue (Nat.digitChar digit) = digit := by decide
  exact all digit small

theorem isHexDigit_digitChar {digit : Nat} (small : digit < 16) :
    isHexDigit digit.digitChar = true := by
  have all : ∀ digit < 16, isHexDigit (Nat.digitChar digit) = true := by decide
  exact all digit small

theorem numberOf_append (base : Nat) (digits : List Char) (last : Char) :
    numberOf base (digits ++ [last]) = numberOf base digits * base + digitValue last := by
  rw [numberOf, List.foldl_append]
  rfl

/-- A number is what its digits spell. -/
theorem numberOf_toDigits {base : Nat} (lower : 1 < base) (upper : base ≤ 16) (number : Nat) :
    numberOf base (Nat.toDigits base number) = number := by
  induction number using Nat.strongRecOn with
  | ind number inductionHypothesis =>
    by_cases small : number < base
    · rw [Nat.toDigits_of_lt_base small]
      change 0 * base + digitValue number.digitChar = number
      rw [digitValue_digitChar (by omega), Nat.zero_mul, Nat.zero_add]
    · have larger : base ≤ number := Nat.le_of_not_lt small
      have quotient : number / base < number := Nat.div_lt_self (by omega) lower
      have remainder : number % base < base := Nat.mod_lt number (by omega)
      rw [Nat.toDigits_of_base_le lower larger, numberOf_append, inductionHypothesis _ quotient,
        digitValue_digitChar (by omega), Nat.mul_comm]
      exact Nat.div_add_mod number base

theorem isHexDigit_of_mem_toDigits {number : Nat} {c : Char}
    (member : c ∈ Nat.toDigits 16 number) : isHexDigit c = true := by
  induction number using Nat.strongRecOn with
  | ind number inductionHypothesis =>
    by_cases small : number < 16
    · rw [Nat.toDigits_of_lt_base small, List.mem_singleton] at member
      rw [member]
      exact isHexDigit_digitChar small
    · have larger : 16 ≤ number := Nat.le_of_not_lt small
      rw [Nat.toDigits_of_base_le (by decide) larger, List.mem_append, List.mem_singleton] at member
      rcases member with earlier | last
      · exact inductionHypothesis _ (Nat.div_lt_self (by omega) (by decide)) earlier
      · rw [last]
        exact isHexDigit_digitChar (Nat.mod_lt number (by decide))

theorem isDigit_of_mem_toDigits {number : Nat} {c : Char} (member : c ∈ Nat.toDigits 10 number) :
    isDigit c = true := by
  have digit := Nat.isDigit_of_mem_toDigits (by decide) (by decide) member
  simpa [isDigit, Char.isDigit, Char.le_def] using digit

/-- Only the number zero starts with a zero. -/
theorem head?_toDigits {number : Nat} (positive : 0 < number) :
    (Nat.toDigits 10 number).head? ≠ some '0' := by
  induction number using Nat.strongRecOn with
  | ind number inductionHypothesis =>
    by_cases small : number < 10
    · rw [Nat.toDigits_of_lt_base small]
      have all : ∀ digit < 10, 0 < digit → [Nat.digitChar digit].head? ≠ some '0' := by decide
      exact all number small positive
    · have larger : 10 ≤ number := Nat.le_of_not_lt small
      have quotient := inductionHypothesis _ (Nat.div_lt_self positive (by decide))
        (Nat.div_pos larger (by decide))
      rw [Nat.toDigits_of_base_le (by decide) larger]
      cases digits : Nat.toDigits 10 (number / 10) with
      | nil => exact absurd digits Nat.toDigits_ne_nil
      | cons first others =>
        rw [digits] at quotient
        exact quotient

end Text

namespace Scan

/-- A run is taken whole if what follows does not continue it. -/
theorem run_append {test : Char → Bool} {text follow : List Char}
    (all : ∀ c ∈ text, test c = true) (stops : follow.head?.any test = false) :
    run test (text ++ follow) = ⟨text, follow⟩ := by
  have nothing : follow.takeWhile test = [] ∧ follow.dropWhile test = follow := by
    cases follow with
    | nil => exact ⟨rfl, rfl⟩
    | cons c follow =>
      have fails : test c = false := stops
      simp [fails]
  rw [run, List.takeWhile_append_of_pos all, List.dropWhile_append_of_pos all, nothing.1, nothing.2,
    List.append_nil]

theorem upTo_append {test : Char → Bool} {count : Nat} {text follow : List Char}
    (all : ∀ c ∈ text, test c = true) (short : text.length ≤ count)
    (stops : follow.head?.any test = false) :
    upTo test count (text ++ follow) = ⟨text, follow⟩ := by
  induction text generalizing count with
  | nil =>
    cases count with
    | zero => rfl
    | succ count =>
      cases follow with
      | nil => rfl
      | cons c follow =>
        have fails : test c = false := stops
        simp [upTo, fails, Split.nothing]
  | cons c text inductionHypothesis =>
    cases count with
    | zero => simp at short
    | succ count =>
      have passes := all c List.mem_cons_self
      have later := inductionHypothesis
        (fun other member => all other (List.mem_cons_of_mem c member))
        (Nat.le_of_succ_le_succ short)
      rw [List.cons_append, upTo, if_pos passes, later]
      rfl

end Scan

end Offside
