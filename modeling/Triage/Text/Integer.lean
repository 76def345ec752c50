import Triage.Text.Decimal

/-! Signed integers of 64 bits, as written in queries and records.

An integer is written with a minus sign if it is negative and no leading zeros.
It is read with either sign or none and any number of leading zeros, as long as
its value fits. -/
namespace Triage.Integer

/-- An integer as text. -/
def text (n : Int64) : Text :=
  if n.toInt < 0 then '-' :: Decimal.digits n.toInt.natAbs else Decimal.digits n.toInt.natAbs

/-- The 64-bit integer of a value, if it fits. -/
def ofInt? (n : Int) : Option Int64 :=
  if Int64.minValue.toInt ≤ n ∧ n ≤ Int64.maxValue.toInt then some (Int64.ofInt n) else none

/-- The value of one or more digits. -/
def natural? (text : Text) : Option Nat :=
  if !text.isEmpty && text.all Char.isDigit then some (Decimal.value text) else none

/-- Reads an integer: an optional sign, then one or more digits. -/
def read? : Text → Option Int64
  | '+' :: rest => (natural? rest).bind fun n => ofInt? n
  | '-' :: rest => (natural? rest).bind fun n => ofInt? (-n)
  | rest => (natural? rest).bind fun n => ofInt? n

/-! ### Reading back -/

theorem ofInt?_toInt (n : Int64) : ofInt? n.toInt = some n := by
  rw [ofInt?, if_pos ⟨Int64.minValue_le_toInt n, Int64.toInt_le n⟩, Int64.ofInt_toInt]

theorem natural?_digits (n : Nat) : natural? (Decimal.digits n) = some n := by
  have h : (Decimal.digits n).all Char.isDigit = true :=
    List.all_eq_true.2 fun _ hc => Decimal.isDigit_of_mem_digits hc
  simp [natural?, h, Decimal.digits_ne_nil, Decimal.value_digits]

theorem read?_digits (n : Nat) : read? (Decimal.digits n) = ofInt? n := by
  have h := natural?_digits n
  have hd := fun c hc => Decimal.isDigit_of_mem_digits (n := n) (c := c) hc
  cases hs : Decimal.digits n with
  | nil => exact absurd hs (Decimal.digits_ne_nil n)
  | cons c rest =>
    rw [hs] at h hd
    have hc := hd c (by simp)
    have hp : c ≠ '+' := by rintro rfl; simp at hc
    have hm : c ≠ '-' := by rintro rfl; simp at hc
    have hr : read? (c :: rest) = (natural? (c :: rest)).bind fun k => ofInt? k := by
      unfold read?
      split
      · next heq => exact absurd (List.cons.inj heq).1 hp
      · next heq => exact absurd (List.cons.inj heq).1 hm
      · rfl
    rw [hr, h, Option.bind_some]

/-- What is written reads back. -/
theorem read?_text (n : Int64) : read? (text n) = some n := by
  unfold text
  split
  · next h =>
    simp only [read?, natural?_digits, Option.bind_some]
    rw [show (-(n.toInt.natAbs : Int)) = n.toInt by omega, ofInt?_toInt]
  · next h =>
    rw [read?_digits, show ((n.toInt.natAbs : Nat) : Int) = n.toInt by omega, ofInt?_toInt]

end Triage.Integer
