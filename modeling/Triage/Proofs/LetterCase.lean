import Mathlib.Data.List.Forall2
import Mathlib.Data.List.TakeWhile
import Triage.Text.Blank
import Triage.Text.Letter
import Triage.Text.Lowercase

/-! Texts that differ in the case of ASCII letters.

Two characters are the same letter (`SameLetter`) if they are equal in ASCII lower
case, and texts have the same letters if they do one by one (`SameLetters`). What
does not tell a capital ASCII letter from the small one (`IgnoresCase`) agrees on
them. The tables of word characters, blanks and case all ignore the case of ASCII
letters, so texts of the same letters are cut at the same places and have the same
lower case (`SameLetters.lower`), where a sigma at the end of a word is the same as
well. -/
namespace Triage.Text

/-! ### Characters -/

/-- The same character, or the capital and the small form of an ASCII letter. -/
def SameLetter (c d : Char) : Prop := c.toLower = d.toLower

/-- A function of characters that does not tell the two forms of an ASCII letter apart. -/
def IgnoresCase (f : Char → α) : Prop := ∀ c d, SameLetter c d → f c = f d

theorem toLower_of_isUpper {c : Char} (h : c.isUpper = true) :
    ∃ n < 26, c = Char.ofNat (65 + n) ∧ c.toLower = Char.ofNat (97 + n) := by
  have hletters : ∀ n < 26, (Char.ofNat (65 + n)).toLower = Char.ofNat (97 + n) := by decide
  have hc : 65 ≤ c.toNat ∧ c.toNat ≤ 90 :=
    (of_decide_eq_true h).imp UInt32.le_iff_toNat_le.1 UInt32.le_iff_toNat_le.1
  have heq : c = Char.ofNat (65 + (c.toNat - 65)) := by
    rw [show 65 + (c.toNat - 65) = c.toNat by omega, Char.ofNat_toNat]
  have hlow := hletters (c.toNat - 65) (by omega)
  rw [← heq] at hlow
  exact ⟨c.toNat - 65, by omega, heq, hlow⟩

theorem toLower_of_not_isUpper {c : Char} (h : c.isUpper = false) : c.toLower = c := by
  unfold Char.toLower
  exact dif_neg (of_decide_eq_false h)

/-- A function that agrees on the two forms of the 26 letters ignores case. -/
theorem ignoresCase_of_letters {f : Char → α}
    (h : ∀ n < 26, f (Char.ofNat (65 + n)) = f (Char.ofNat (97 + n))) : IgnoresCase f := by
  have hlower : ∀ c, f c = f c.toLower := by
    intro c
    cases hc : c.isUpper with
    | true =>
      obtain ⟨n, hn, heq, hlow⟩ := toLower_of_isUpper hc
      rw [hlow, ← h n hn, ← heq]
    | false => rw [toLower_of_not_isUpper hc]
  intro c d hcd
  rw [hlower c, hcd, ← hlower d]

theorem ignoresCase_isAlpha : IgnoresCase Char.isAlpha := ignoresCase_of_letters (by decide)

theorem ignoresCase_isDigit : IgnoresCase Char.isDigit := ignoresCase_of_letters (by decide)

theorem ignoresCase_isBlank : IgnoresCase isBlank := ignoresCase_of_letters (by decide)

theorem ignoresCase_isWordChar : IgnoresCase isWordChar :=
  ignoresCase_of_letters (by decide)

theorem ignoresCase_isCased : IgnoresCase isCased := ignoresCase_of_letters (by decide)

theorem ignoresCase_isCaseIgnorable : IgnoresCase isCaseIgnorable :=
  ignoresCase_of_letters (by decide)

theorem ignoresCase_lowerChar : IgnoresCase lowerChar :=
  ignoresCase_of_letters (by decide)

theorem isAlpha_of_isDigit {c : Char} (h : c.isDigit = true) : c.isAlpha = false := by
  have hdigit : c.toNat ≤ 57 :=
    UInt32.le_iff_toNat_le.1 (of_decide_eq_true (Bool.and_eq_true_iff.1 h).2)
  have hupper : c.isUpper = false := by
    refine decide_eq_false fun hc => ?_
    have hletter : 65 ≤ c.toNat := UInt32.le_iff_toNat_le.1 hc.1
    omega
  have hlower : c.isLower = false := by
    refine Bool.and_eq_false_imp.2 fun hc => ?_
    have hletter : 97 ≤ c.toNat := UInt32.le_iff_toNat_le.1 (of_decide_eq_true hc)
    omega
  exact Bool.or_eq_false_iff.2 ⟨hupper, hlower⟩

/-- What is no ASCII letter has no other form. -/
theorem SameLetter.eq {c d : Char} (h : SameLetter c d) (hc : c.isAlpha = false) : d = c := by
  have hupper : ∀ e : Char, e.isAlpha = false → e.isUpper = false := by
    intro e he
    exact (Bool.or_eq_false_iff.1 he).1
  have hd : d.isAlpha = false := (ignoresCase_isAlpha c d h).symm.trans hc
  rw [← toLower_of_not_isUpper (hupper c hc), h, toLower_of_not_isUpper (hupper d hd)]

theorem SameLetter.eq_iff {c d e : Char} (h : SameLetter c d) (he : e.isAlpha = false) :
    c = e ↔ d = e := by
  constructor
  · rintro rfl
    exact h.eq he
  · rintro rfl
    exact SameLetter.eq (Eq.symm h) he

/-! ### Texts -/

/-- Texts of the same letters, character by character. -/
abbrev SameLetters (a b : Text) : Prop := List.Forall₂ SameLetter a b

theorem equalAsciiCase_iff {a b : Text} : equalAsciiCase a b = true ↔ SameLetters a b := by
  rw [equalAsciiCase, decide_eq_true_iff, ← List.forall₂_eq_eq_eq, List.forall₂_map_left_iff,
    List.forall₂_map_right_iff]
  rfl

namespace SameLetters

variable {a b : Text}

theorem refl (a : Text) : SameLetters a a := List.forall₂_same.2 fun _ _ => rfl

theorem symm (h : SameLetters a b) : SameLetters b a := by
  induction h with
  | nil => exact .nil
  | cons hc _ ih => exact .cons (Eq.symm hc) ih

theorem map_eq {f : Char → α} (h : SameLetters a b) (hf : IgnoresCase f) : a.map f = b.map f := by
  induction h with
  | nil => rfl
  | cons hc _ ih => rw [List.map_cons, List.map_cons, hf _ _ hc, ih]

theorem all_eq {p : Char → Bool} (h : SameLetters a b) (hp : IgnoresCase p) :
    a.all p = b.all p := by
  induction h with
  | nil => rfl
  | cons hc _ ih => rw [List.all_cons, List.all_cons, hp _ _ hc, ih]

theorem head_any_eq {p : Char → Bool} (h : SameLetters a b) (hp : IgnoresCase p) :
    a.head?.any p = b.head?.any p := by
  cases h with
  | nil => rfl
  | cons hc _ => exact hp _ _ hc

theorem isEmpty_eq (h : SameLetters a b) : a.isEmpty = b.isEmpty := by
  cases h <;> rfl

theorem takeWhile {p : Char → Bool} (h : SameLetters a b) (hp : IgnoresCase p) :
    SameLetters (a.takeWhile p) (b.takeWhile p) := by
  induction h with
  | nil => exact .nil
  | @cons c d _ _ hc _ ih =>
    simp only [List.takeWhile_cons, hp c d hc]
    cases p d with
    | true => exact .cons hc ih
    | false => exact .nil

theorem dropWhile {p : Char → Bool} (h : SameLetters a b) (hp : IgnoresCase p) :
    SameLetters (a.dropWhile p) (b.dropWhile p) := by
  induction h with
  | nil => exact .nil
  | @cons c d _ _ hc hrest ih =>
    simp only [List.dropWhile_cons, hp c d hc]
    cases p d with
    | true => exact ih
    | false => exact .cons hc hrest

theorem trim (h : SameLetters a b) : SameLetters (Text.trim a) (Text.trim b) := by
  have hstart := h.dropWhile ignoresCase_isBlank
  have hend : SameLetters (trimStart a).reverse (trimStart b).reverse :=
    List.forall₂_reverse_iff.2 hstart
  exact List.forall₂_reverse_iff.2 (hend.dropWhile ignoresCase_isBlank)

/-- A text without ASCII letters is the only one of its letters. -/
theorem eq_of_all (h : SameLetters a b) (ha : ∀ c ∈ a, c.isAlpha = false) : b = a := by
  induction h with
  | nil => rfl
  | cons hc _ ih =>
    rw [List.forall_mem_cons] at ha
    rw [hc.eq ha.1, ih ha.2]

/-- The digits at the front are the same. -/
theorem takeWhile_isDigit (h : SameLetters a b) :
    b.takeWhile Char.isDigit = a.takeWhile Char.isDigit :=
  (h.takeWhile ignoresCase_isDigit).eq_of_all fun _ hc =>
    isAlpha_of_isDigit (List.mem_takeWhile_imp hc)

theorem meetsCased_eq (h : SameLetters a b) : meetsCased a = meetsCased b := by
  have hhead : ∀ t, meetsCased t = (t.dropWhile isCaseIgnorable).head?.any isCased := by
    intro t
    unfold meetsCased
    cases t.dropWhile isCaseIgnorable <;> rfl
  rw [hhead, hhead]
  exact (h.dropWhile ignoresCase_isCaseIgnorable).head_any_eq ignoresCase_isCased

theorem lowerBetween_eq {before after : Text} {c d : Char} (hc : SameLetter c d)
    (hbefore : SameLetters before before') (hafter : SameLetters after after') :
    lowerBetween before c after = lowerBetween before' d after' := by
  unfold lowerBetween
  simp only [hc.eq_iff (e := 'Σ') rfl, hbefore.meetsCased_eq, hafter.meetsCased_eq,
    ignoresCase_lowerChar c d hc]

theorem lowerAfter_eq (h : SameLetters a b) {before before' : Text}
    (hbefore : SameLetters before before') : lowerAfter before a = lowerAfter before' b := by
  induction h generalizing before before' with
  | nil => rfl
  | cons hc hrest ih =>
    rw [lowerAfter, lowerAfter, lowerBetween_eq hc hbefore hrest, ih (.cons hc hbefore)]

/-- **Texts of the same letters have the same lower case.** -/
theorem lower_eq (h : SameLetters a b) : a.lower = b.lower := h.lowerAfter_eq .nil

end SameLetters
end Triage.Text
