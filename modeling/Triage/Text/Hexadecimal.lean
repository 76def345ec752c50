import Triage.Text.Basic

/-! Hexadecimal digits. They are read in either case and written in lower case. -/
namespace Triage.Hexadecimal

/-- The value of a hexadecimal digit. -/
def digitValue? (c : Char) : Option Nat :=
  if c.isDigit then some (c.toNat - '0'.toNat)
  else if 'a' ≤ c ∧ c ≤ 'f' then some (c.toNat - 'a'.toNat + 10)
  else if 'A' ≤ c ∧ c ≤ 'F' then some (c.toNat - 'A'.toNat + 10)
  else none

/-- The value of a row of hexadecimal digits, if each character is one. -/
def value? (text : Text) : Option Nat :=
  text.foldlM (fun n c => (digitValue? c).map fun d => 16 * n + d) 0

/-- The digit of a number below sixteen. -/
def digit (n : Nat) : Char :=
  if n < 10 then Char.ofNat ('0'.toNat + n) else Char.ofNat ('a'.toNat + (n - 10))

theorem digitValue?_digit {n : Nat} (h : n < 16) : digitValue? (digit n) = some n := by
  have : ∀ k < 16, digitValue? (digit k) = some k := by decide
  exact this n h

end Triage.Hexadecimal
