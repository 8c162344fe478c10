import SteeredActors.Text.Digits

/-!
# Decimal numbers

The decimal digits of a number write that number, without a zero before them. So a reader that takes
digits as long as there are any reads a number back from its digits, whatever comes after them.
-/

set_option autoImplicit false
set_option relaxedAutoImplicit false

namespace SteeredActors.Text

/-- What follows a number does not go on with it. -/
def NoDigit (rest : List Char) : Prop := ∀ c ∈ rest.head?, isDigit c = false

theorem isDigit_eq (c : Char) : isDigit c = c.isDigit := by
  simp [isDigit, Char.isDigit, Char.le_def]

theorem isDigit_of_mem_toDigits {n : Nat} {c : Char} (mem : c ∈ Nat.toDigits 10 n) :
    isDigit c = true :=
  (isDigit_eq c).trans (Nat.isDigit_of_mem_toDigits (by decide) (by decide) mem)

theorem ne_of_isDigit {d c : Char} (digit : isDigit d = true) (other : isDigit c = false) : d ≠ c := by
  rintro rfl
  simp [digit] at other

theorem exists_toDigits (n : Nat) : ∃ d ds, Nat.toDigits 10 n = d :: ds ∧ isDigit d = true := by
  cases written : Nat.toDigits 10 n with
  | nil => exact absurd written Nat.toDigits_ne_nil
  | cons d ds => exact ⟨d, ds, rfl, isDigit_of_mem_toDigits (n := n) (by simp [written])⟩

theorem digitsValue_toDigits (n : Nat) : digitsValue (Nat.toDigits 10 n) = n := by
  have read := Nat.ofDigitChars_ten_toDigits (n := n)
  rw [Nat.ofDigitChars_eq_foldl] at read
  simpa [digitsValue, Nat.mul_comm] using read

theorem toDigits_zero : Nat.toDigits 10 0 = ['0'] := rfl

/-- Only the number zero begins with a zero. -/
theorem head?_toDigits {n : Nat} (positive : 0 < n) : (Nat.toDigits 10 n).head? ≠ some '0' := by
  induction n using Nat.strongRecOn with
  | _ n ih =>
    by_cases small : n < 10
    · rw [Nat.toDigits_of_lt_base small]
      simp only [List.head?_cons, ne_eq, Option.some.injEq, Nat.digitChar_eq_zero]
      omega
    · have shorter := ih (n / 10) (by omega) (by omega)
      rw [Nat.toDigits_of_base_le (by decide) (by omega)]
      obtain ⟨d, ds, digits, _⟩ := exists_toDigits (n / 10)
      simpa [digits] using shorter

/-- The digits of a number are all that is taken. -/
theorem takeWhile_toDigits {rest : List Char} (ends : NoDigit rest) (n : Nat) :
    (Nat.toDigits 10 n ++ rest).takeWhile isDigit = Nat.toDigits 10 n := by
  rw [List.takeWhile_append_of_pos fun c mem => isDigit_of_mem_toDigits mem]
  cases rest with
  | nil => simp
  | cons c rest => simp [ends c rfl]

/-- What follows the digits of a number is all that is left. -/
theorem dropWhile_toDigits {rest : List Char} (ends : NoDigit rest) (n : Nat) :
    (Nat.toDigits 10 n ++ rest).dropWhile isDigit = rest := by
  rw [List.dropWhile_append_of_pos fun c mem => isDigit_of_mem_toDigits mem]
  cases rest with
  | nil => rfl
  | cons c rest => simp [ends c rfl]

/-- A hexadecimal digit stands for its value. -/
theorem hexValue?_digitChar {n : Nat} (small : n < 16) : hexValue? (Nat.digitChar n) = some n := by
  have each : ∀ m < 16, hexValue? (Nat.digitChar m) = some m := by decide
  exact each n small

end SteeredActors.Text
