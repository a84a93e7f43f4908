/-!
# Decimal numerals

The programs of this library read digits by hand, in one and the same way. Here their test of a
digit and their sum over digits are those of the library of numbers (`isDigit_eq`,
`foldl_digits`), so that what is known of `Nat.toDigits` and `Nat.ofDigitChars` can be used.
`Spells` says which texts stand for a number where signs and leading zeros are allowed.
-/

namespace LayeredConfig.Text

/-- One decimal digit or more. -/
def IsNumeral (cs : List Char) : Prop := cs ≠ [] ∧ ∀ c ∈ cs, c.isDigit = true

instance (cs : List Char) : Decidable (IsNumeral cs) :=
  decidable_of_iff (cs ≠ [] ∧ cs.all Char.isDigit = true) (by rw [List.all_eq_true, IsNumeral])

/-- A text spells a number of 64 bits: decimal digits, any zeros in front of them, and perhaps a
plus sign in front of all. -/
def Spells (s : String) (n : Nat) : Prop :=
  ∃ digits, IsNumeral digits ∧ (s.toList = digits ∨ s.toList = '+' :: digits) ∧
    Nat.ofDigitChars 10 digits 0 = n ∧ n < UInt64.size

theorem isDigit_eq (c : Char) : decide ('0' ≤ c ∧ c ≤ '9') = c.isDigit := by
  rw [Char.isDigit, Bool.decide_and]
  rfl

theorem foldl_digits (cs : List Char) :
    cs.foldl (fun n c => n * 10 + (c.toNat - '0'.toNat)) 0 = Nat.ofDigitChars 10 cs 0 := by
  simp only [Nat.ofDigitChars, Nat.mul_comm]

theorem isNumeral_toDigits (n : Nat) : IsNumeral (Nat.toDigits 10 n) :=
  ⟨Nat.toDigits_ne_nil, fun _ inside =>
    Nat.isDigit_of_mem_toDigits (by decide) (by decide) inside⟩

/-- No number but zero is written with a zero in front. -/
theorem head?_toDigits_ne_zero {n : Nat} (positive : 0 < n) :
    (Nat.toDigits 10 n).head? ≠ some '0' := by
  induction n using Nat.strongRecOn with
  | ind n ih =>
    rw [Nat.toDigits_eq_if (by decide)]
    split
    · simpa using Nat.ne_of_gt positive
    · have front := ih (n / 10) (by omega) (by omega)
      obtain ⟨c, rest, digits⟩ :=
        List.exists_cons_of_ne_nil (Nat.toDigits_ne_nil : Nat.toDigits 10 (n / 10) ≠ [])
      rw [digits] at front ⊢
      exact front

end LayeredConfig.Text
