import Triage.Field.Suggestion

/-! Suggested fields in order of likeness.

A text resembles a field if it stands inside one of the field's names, and more closely
if it begins one. The ranking of a text lists the fields that it resembles closely and
then the others, both as they are listed (`Field.ranking`). Suggestions are collected in
two steps, of which the second is left out when the first fills the room, and they are
the front of the ranking all the same (`Field.suggestions_eq_take_ranking`). -/
namespace Triage.Field

/-! ### Likeness -/

/-- Whether a text begins a name of a field. -/
def Begins (text : Text) (field : Field) : Prop := ∃ name ∈ field.names, text <+: name

/-- Whether a text stands inside a name of a field. -/
def StandsIn (text : Text) (field : Field) : Prop := ∃ name ∈ field.names, text <:+: name

theorem beginsWith_iff {text : Text} {field : Field} :
    field.beginsWith text = true ↔ Begins text field := by
  simp only [beginsWith, Begins, List.any_eq_true, List.isPrefixOf_iff_prefix]

theorem mentions_iff {text : Text} {field : Field} :
    field.mentions text = true ↔ StandsIn text field := by
  simp only [mentions, StandsIn, List.any_eq_true, Text.holds_iff_infix]

theorem Begins.standsIn {text : Text} {field : Field} (h : Begins text field) :
    StandsIn text field := by
  obtain ⟨name, hname, hprefix⟩ := h
  exact ⟨name, hname, hprefix.isInfix⟩

instance (text : Text) (field : Field) : Decidable (Begins text field) :=
  decidable_of_iff _ beginsWith_iff

instance (text : Text) (field : Field) : Decidable (StandsIn text field) :=
  decidable_of_iff _ mentions_iff

/-- The fields that a text resembles, those with a name that it begins first. -/
def ranking (text : Text) : List Field :=
  all.filter (Begins text) ++ all.filter fun field => StandsIn text field ∧ ¬ Begins text field

theorem mem_ranking {text : Text} {field : Field} : field ∈ ranking text ↔ StandsIn text field := by
  simp only [ranking, List.mem_append, List.mem_filter, field.mem_all, true_and,
    decide_eq_true_eq]
  constructor
  · rintro (h | h)
    · exact h.standsIn
    · exact h.1
  · intro h
    by_cases hbegins : Begins text field
    · exact .inl hbegins
    · exact .inr ⟨h, hbegins⟩

theorem nodup_all : all.Nodup := by decide

theorem nodup_ranking (text : Text) : (ranking text).Nodup := by
  refine List.nodup_append.2 ⟨nodup_all.filter _, nodup_all.filter _, ?_⟩
  rintro a ha b hb rfl
  exact (of_decide_eq_true (List.mem_filter.1 hb).2).2 (of_decide_eq_true (List.mem_filter.1 ha).2)

/-! ### Suggestions -/

/-- What stands in a list but not in its front tells how long the front is. -/
theorem length_take_of_mem {l : List α} {a : α} {n : Nat} (h : a ∈ l) (hn : a ∉ l.take n) :
    (l.take n).length = n := by
  rw [List.length_take]
  refine Nat.min_eq_left (Nat.le_of_lt (Nat.lt_of_not_le fun hle => hn ?_))
  rwa [List.take_of_length_le hle]

/-- Without the text that every name holds, suggestions are the front of the ranking. -/
theorem suggestions_of_ne_nil {text : Text} (h : text.lower ≠ []) (max : Nat) :
    suggestions text max = (ranking text.lower).take max := by
  have hclose : all.filter (·.beginsWith text.lower) = all.filter (Begins text.lower) :=
    List.filter_congr fun field _ => by rw [Bool.eq_iff_iff, beginsWith_iff, decide_eq_true_iff]
  have hmore : (all.filter fun field => field.mentions text.lower &&
        !(all.filter (·.beginsWith text.lower)).contains field) =
      all.filter fun field => StandsIn text.lower field ∧ ¬ Begins text.lower field := by
    refine List.filter_congr fun field _ => ?_
    rw [hclose, Bool.eq_iff_iff, decide_eq_true_iff, Bool.and_eq_true, mentions_iff,
      Bool.not_eq_true', ← Bool.not_eq_true, List.contains_iff_mem, List.mem_filter,
      decide_eq_true_iff]
    simp only [field.mem_all, true_and]
  have hsome : text.lower.isEmpty = false := by simpa using h
  simp only [suggestions, hsome, Bool.false_eq_true, if_false, hmore]
  rw [hclose, ranking]
  split
  · rfl
  · next hfull =>
    rw [List.append_nil, List.take_append_of_le_length (Nat.le_of_not_lt hfull)]

/-- **Suggestions are the front of the ranking.** For a text in any case they are its first `max`
fields: those with a name that the text in lower case begins, in the order of the fields, and then
those with a name in which it stands, in that order again. There are none for the empty text. So no
field is suggested twice, there are never more than `max`, and a field with such a name is left out
only if there are `max` others. -/
theorem suggestions_eq_take_ranking (text : Text) (max : Nat) :
    suggestions text max =
        (if text.lower = [] then [] else (ranking text.lower).take max) ∧
      (suggestions text max).Nodup ∧ (suggestions text max).length ≤ max ∧
      (text.lower ≠ [] → ∀ field, StandsIn text.lower field → field ∉ suggestions text max →
        (suggestions text max).length = max) := by
  by_cases h : text.lower = []
  · have hnone : suggestions text max = [] := by simp [suggestions, h]
    rw [hnone, if_pos h]
    exact ⟨rfl, List.nodup_nil, Nat.zero_le max, fun hne => absurd h hne⟩
  · rw [suggestions_of_ne_nil h, if_neg h]
    refine ⟨rfl, (nodup_ranking _).sublist (List.take_sublist _ _), List.length_take_le _ _, ?_⟩
    exact fun _ field hin hout => length_take_of_mem (mem_ranking.2 hin) hout

example : suggestions "ST".toList 3 = [status, estimate] := by decide +kernel

end Triage.Field
