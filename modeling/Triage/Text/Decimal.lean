import Triage.Text.Basic

/-! Decimal numerals.

`digits` writes a natural number in decimal without leading zeros, `padded` with
at least a given number of digits, and `value` reads digits back, leading zeros
included (`value_digits`, `value_padded`). -/
namespace Triage.Decimal

/-- The digit that stands for a number below ten. -/
def digit (n : Nat) : Char := Char.ofNat ('0'.toNat + n)

/-- A number in decimal, without leading zeros. -/
def digits (n : Nat) : Text :=
  if n < 10 then [digit n] else digits (n / 10) ++ [digit (n % 10)]

/-- A number in decimal, with zeros before it up to a width. -/
def padded (width n : Nat) : Text :=
  List.replicate (width - (digits n).length) '0' ++ digits n

/-- The number that a digit stands for. -/
def digitValue (c : Char) : Nat := c.toNat - '0'.toNat

/-- The number that a run of digits stands for. -/
def value (text : Text) : Nat := text.foldl (fun n c => 10 * n + digitValue c) 0

/-! ### Reading back -/

theorem digitValue_digit {n : Nat} (h : n < 10) : digitValue (digit n) = n := by
  have : ∀ k < 10, digitValue (digit k) = k := by decide
  exact this n h

theorem isDigit_digit {n : Nat} (h : n < 10) : (digit n).isDigit = true := by
  have : ∀ k < 10, (digit k).isDigit = true := by decide
  exact this n h

theorem value_append_singleton (text : Text) (c : Char) :
    value (text ++ [c]) = 10 * value text + digitValue c := by
  simp [value]

theorem value_digits (n : Nat) : value (digits n) = n := by
  induction n using Nat.strongRecOn with
  | ind n ih =>
    rw [digits]
    split
    · next h => simp [value, digitValue_digit h]
    · next h =>
      rw [value_append_singleton, ih (n / 10) (by omega),
        digitValue_digit (Nat.mod_lt _ (by omega))]
      omega

theorem value_zeros_append (k : Nat) (text : Text) :
    value (List.replicate k '0' ++ text) = value text := by
  induction k with
  | zero => rfl
  | succ k ih =>
    rw [List.replicate_succ, List.cons_append, ← ih]
    rfl

theorem value_padded (width n : Nat) : value (padded width n) = n := by
  rw [padded, value_zeros_append, value_digits]

theorem digits_ne_nil (n : Nat) : digits n ≠ [] := by
  rw [digits]; split <;> simp

theorem isDigit_of_mem_digits {n : Nat} {c : Char} (h : c ∈ digits n) : c.isDigit = true := by
  induction n using Nat.strongRecOn with
  | ind n ih =>
    rw [digits] at h
    split at h
    · next hn => rw [List.mem_singleton] at h; exact h ▸ isDigit_digit hn
    · next hn =>
      rcases List.mem_append.1 h with h | h
      · exact ih (n / 10) (by omega) h
      · rw [List.mem_singleton] at h
        exact h ▸ isDigit_digit (Nat.mod_lt _ (by omega))

end Triage.Decimal
