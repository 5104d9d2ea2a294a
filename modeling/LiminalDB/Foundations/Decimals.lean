import LiminalDB.Foundations.Words
import Mathlib.Algebra.Order.Field.Rat
import Mathlib.Data.Rat.Floor
import Mathlib.Tactic.Ring

/-! # Decimal texts of exact numbers

A decimal is a numeral with or without a point, and a number is written with two decimals by rounding it to the
next hundredth, ties to the even one. What is written so is read as the rounded number
(`parseSigned_fixed2`), and it holds only digits, a point and a sign (`mem_fixed2`). -/

namespace LiminalDB

/-- Decimal digits, and more of them behind a point. -/
def parseDecimal (raw : String) : Option ℚ :=
  let whole := raw.toList.takeWhile Char.isDigit
  let fraction := (raw.toList.dropWhile Char.isDigit).tail
  let point := (raw.toList.dropWhile Char.isDigit).head?
  if whole ≠ [] ∧ fraction.all Char.isDigit ∧ (point = none ∨ point = some '.') then
    some (Nat.ofDigitChars 10 (whole ++ fraction) 0 / 10 ^ fraction.length)
  else none

namespace Decimal

/-- A decimal, with a sign before it if it is negative. -/
def parseSigned (raw : String) : Option ℚ :=
  if raw.toList.head? = some '-' then (parseDecimal (String.ofList raw.toList.tail)).map (-·)
  else parseDecimal raw

/-- To the nearest integer, halves to the even one. -/
def roundEven (x : ℚ) : ℤ :=
  let low := ⌊x⌋
  if x - low < 1 / 2 then low
  else if x - low = 1 / 2 ∧ low % 2 = 0 then low
  else low + 1

/-- The hundredths of a number, without its sign. -/
def hundredths (x : ℚ) : ℕ := (roundEven (|x| * 100)).toNat

/-- As many hundredths, with two digits behind the point. -/
def hundredthsText (n : ℕ) : String :=
  String.ofList (Nat.toDigits 10 (n / 100) ++ ['.', (n / 10 % 10).digitChar, (n % 10).digitChar])

/-- A number with two decimals. -/
def fixed2 (x : ℚ) : String := if x < 0 then "-" ++ hundredthsText (hundredths x) else hundredthsText (hundredths x)

/-- The number that is written. -/
def rounded2 (x : ℚ) : ℚ := if x < 0 then -(hundredths x / 100) else hundredths x / 100

/-- A number is written with digits only. -/
theorem isDigit_toDigits {n : ℕ} : ∀ c ∈ Nat.toDigits 10 n, c.isDigit = true :=
  fun _ hc => Nat.isDigit_of_mem_toDigits (by decide) (by decide) hc

/-- Its last place is a digit. -/
theorem isDigit_digitChar_mod (n : ℕ) : (n % 10).digitChar.isDigit = true := by
  rw [Nat.isDigit_digitChar]
  exact decide_eq_true (Nat.mod_lt _ (by decide))

/-- The digits of a numeral of hundredths, with those behind the point. -/
theorem ofDigitChars_hundredths (n : ℕ) : Nat.ofDigitChars 10
    (Nat.toDigits 10 (n / 100) ++ [(n / 10 % 10).digitChar, (n % 10).digitChar]) 0 = n := by
  rw [Nat.ofDigitChars_append, Nat.ofDigitChars_ten_toDigits,
    Nat.ofDigitChars_cons_digitChar_of_lt_ten (Nat.mod_lt _ (by decide)),
    Nat.ofDigitChars_cons_digitChar_of_lt_ten (Nat.mod_lt _ (by decide)), Nat.ofDigitChars_nil]
  omega

/-- What is written of a number of hundredths is read as this number of hundredths. -/
theorem parseDecimal_hundredthsText (n : ℕ) : parseDecimal (hundredthsText n) = some ((n : ℚ) / 100) := by
  have hpoint : Char.isDigit '.' = false := by decide
  -- The digits before the point end at the point.
  have htake : (Nat.toDigits 10 (n / 100) ++ ['.', (n / 10 % 10).digitChar, (n % 10).digitChar]).takeWhile
      Char.isDigit = Nat.toDigits 10 (n / 100) := by
    rw [List.takeWhile_append_of_pos isDigit_toDigits, List.takeWhile_cons_of_neg (by simp [hpoint]),
      List.append_nil]
  have hdrop : (Nat.toDigits 10 (n / 100) ++ ['.', (n / 10 % 10).digitChar, (n % 10).digitChar]).dropWhile
      Char.isDigit = ['.', (n / 10 % 10).digitChar, (n % 10).digitChar] := by
    rw [List.dropWhile_append_of_pos isDigit_toDigits, List.dropWhile_cons_of_neg (by simp [hpoint])]
  unfold parseDecimal hundredthsText
  rw [String.toList_ofList, htake, hdrop]
  have hfraction : [(n / 10 % 10).digitChar, (n % 10).digitChar].all Char.isDigit := by
    rw [List.all_cons, List.all_cons, isDigit_digitChar_mod, isDigit_digitChar_mod]
    rfl
  dsimp only [List.tail_cons, List.head?_cons]
  rw [if_pos ⟨Nat.toDigits_ne_nil, hfraction, .inr rfl⟩, ofDigitChars_hundredths]
  norm_num

/-- A numeral begins with a digit. -/
theorem head?_hundredthsText (n : ℕ) : (hundredthsText n).toList.head? ≠ some '-' := by
  intro hminus
  rw [hundredthsText, String.toList_ofList, List.head?_append_of_ne_nil _ Nat.toDigits_ne_nil] at hminus
  exact absurd (isDigit_toDigits '-' (List.mem_of_head? hminus)) (by decide)

/-- What is written with two decimals is read as the rounded number. -/
theorem parseSigned_fixed2 (x : ℚ) : parseSigned (fixed2 x) = some (rounded2 x) := by
  unfold fixed2 rounded2
  split
  · have htext : ("-" ++ hundredthsText (hundredths x)).toList = '-' :: (hundredthsText (hundredths x)).toList := by
      rw [String.toList_append]
      rfl
    rw [parseSigned, htext, List.head?_cons, if_pos rfl, List.tail_cons, String.ofList_toList,
      parseDecimal_hundredthsText]
    rfl
  · rw [parseSigned, if_neg (head?_hundredthsText _), parseDecimal_hundredthsText]

/-- It holds nothing but digits, the point and the sign. -/
theorem mem_fixed2 {x : ℚ} {c : Char} (h : c ∈ (fixed2 x).toList) : c.isDigit = true ∨ c = '.' ∨ c = '-' := by
  have htext : ∀ c ∈ (hundredthsText (hundredths x)).toList, c.isDigit = true ∨ c = '.' ∨ c = '-' := by
    intro c hc
    rw [hundredthsText, String.toList_ofList, List.mem_append] at hc
    rcases hc with hc | hc
    · exact .inl (isDigit_toDigits c hc)
    · simp only [List.mem_cons, List.not_mem_nil, or_false] at hc
      rcases hc with rfl | rfl | rfl
      · exact .inr (.inl rfl)
      · exact .inl (isDigit_digitChar_mod _)
      · exact .inl (isDigit_digitChar_mod _)
  unfold fixed2 at h
  split at h
  · rw [String.toList_append, List.mem_append] at h
    rcases h with h | h
    · exact .inr (.inr (by simpa using h))
    · exact htext c h
  · exact htext c h

end Decimal

end LiminalDB
