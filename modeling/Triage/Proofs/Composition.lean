import Triage.Proofs.Grammar.Likeness
import Triage.Proofs.Spelling

/-! Queries put together as texts.

A text that is read as a filter is split in front of a closing parenthesis just as
it is at the end of a text, and the grammar does not ask where tokens stand. So in
parentheses it is the same filter written as a single term (`lexes_parenthesized`),
and texts in parentheses are joined by operators as their filters are
(`Query.parse_composed`). -/
namespace Triage

/-- A text in parentheses. -/
def Text.parenthesized (text : Text) : Text := ['('] ++ (text ++ [')'])

/-- A row of tokens is like itself moved. -/
theorem Token.like_shift (n : Nat) (ts : List Token) :
    List.Forall₂ (Token.Like Eq) ts (ts.map (Token.shift n)) := by
  rw [List.forall₂_map_right_iff, List.forall₂_same]
  exact fun token _ => ⟨rfl, rfl, Token.likeLiteral_refl (fun _ => rfl) token.literal⟩

/-- A query that is a filter alone is derived from a phrase of that filter. -/
theorem Grammar.Derives.phrase {ts : List Token} {f : Filter}
    (h : Derives ts ⟨some f, []⟩) : Phrase .disjunction ts f := by
  cases h.filterPart with
  | some hf => exact hf

namespace Query

variable {a b rest : Text} {f g : Filter}

/-- A text that is read as a filter makes a phrase of that filter wherever the text closes. -/
theorem lexes_of_parse (h : parse a = .ok ⟨some f, []⟩) (hr : Closes rest) :
    Lexes a rest True (Grammar.Phrase .disjunction · f) := by
  obtain ⟨ts, hy, hderives⟩ := parse_iff_derives.1 h
  intro p
  -- At another offset the tokens are the same, only moved, and the grammar does not see that.
  refine ⟨fun _ => ?_, fun hn => absurd trivial hn⟩
  obtain ⟨us, heq, hs⟩ := (hy.shift p).splits hr
  rw [List.map_append] at heq
  obtain ⟨rfl, -⟩ := List.append_inj' heq rfl
  exact ⟨_, hs, hderives.phrase.congr (Token.like_shift p ts)⟩

/-- In parentheses it makes a single term. -/
theorem lexes_parenthesized (h : parse a = .ok ⟨some f, []⟩) :
    Lexes a.parenthesized rest True (Grammar.Phrase .primary · f) := by
  refine (lexes_leftParen.append
    ((lexes_of_parse h (closes_rightParen rest)).append lexes_rightParen)).mono (by simp) ?_
  intro _ hform
  obtain ⟨_, _, rfl, ⟨first, rfl, hfirst⟩, ts, _, rfl, hts, last, rfl, hlast⟩ := hform
  exact .group hfirst hts hlast

/-- A text whose tokens make a phrase is read as its filter. -/
theorem parse_of_lexes (h : Lexes a [] True (Grammar.Phrase .disjunction · f)) :
    parse a = .ok ⟨some f, []⟩ := by
  obtain ⟨ts, hs, hphrase⟩ := (h 0).1 trivial
  have hderives : Grammar.Derives (ts ++ []) ⟨some f, []⟩ := .intro (.some hphrase) .none
  rw [List.append_nil] at hderives
  exact parse_iff_derives.2 ⟨ts, Yields.iff_tokens.2 hs.tokenize, hderives⟩

/-- **Queries are put together safely.** Texts that are read as filters, each in parentheses, are
read as the conjunction of the filters if `AND` or only a blank stands between them, as their
disjunction if `OR` does, and as the negation behind `NOT`. -/
theorem parse_composed (ha : parse a = .ok ⟨some f, []⟩) (hb : parse b = .ok ⟨some g, []⟩) :
    parse (a.parenthesized ++ " AND ".toList ++ b.parenthesized) = .ok ⟨some (.and f g), []⟩ ∧
    parse (a.parenthesized ++ " ".toList ++ b.parenthesized) = .ok ⟨some (.and f g), []⟩ ∧
    parse (a.parenthesized ++ " OR ".toList ++ b.parenthesized) = .ok ⟨some (.or f g), []⟩ ∧
    parse ("NOT ".toList ++ a.parenthesized) = .ok ⟨some (.not f), []⟩ := by
  have hand : ("AND".toList, Token.Kind.and) ∈ writtenKeywords := by decide
  have hor : ("OR".toList, Token.Kind.or) ∈ writtenKeywords := by decide
  have hnot : ("NOT".toList, Token.Kind.not) ∈ writtenKeywords := by decide
  refine ⟨parse_of_lexes ?_, parse_of_lexes ?_, parse_of_lexes ?_, parse_of_lexes ?_⟩
  · rw [List.append_assoc]
    refine ((lexes_parenthesized ha).append
      ((lexes_operator hand).append (lexes_parenthesized hb))).mono (by simp) ?_
    intro _ hform
    obtain ⟨us, _, rfl, hf, _, vs, rfl, ⟨word, rfl, hword⟩, hg⟩ := hform
    exact .conjunction (.and (.negation (.primary hf)) hword (.primary hg))
  · rw [List.append_assoc]
    refine ((lexes_parenthesized ha).append
      (lexes_blank.append (lexes_parenthesized hb))).mono (by simp) ?_
    intro _ hform
    obtain ⟨us, _, rfl, hf, _, vs, rfl, rfl, hg⟩ := hform
    exact .conjunction (.implied (.negation (.primary hf)) (.primary hg))
  · rw [List.append_assoc]
    refine ((lexes_parenthesized ha).append
      ((lexes_operator hor).append (lexes_parenthesized hb))).mono (by simp) ?_
    intro _ hform
    obtain ⟨us, _, rfl, hf, _, vs, rfl, ⟨word, rfl, hword⟩, hg⟩ := hform
    exact .or (.conjunction (.negation (.primary hf))) hword (.negation (.primary hg))
  · have hblank : Breaks ([' '] ++ a.parenthesized ++ []) := breaks_cons (by decide) _
    refine ((lexes_keyword hnot hblank).append
      (lexes_blank.append (lexes_parenthesized ha))).mono (by simp) ?_
    intro _ hform
    obtain ⟨_, _, rfl, ⟨word, rfl, hword⟩, _, us, rfl, rfl, hf⟩ := hform
    exact .conjunction (.negation (.not hword (.primary hf)))

/-- A word that could begin a sort clause stays a word, and a disjunction stays one term. -/
theorem parse_composed_sort :
    parse "(x sort) AND (p:1 OR by)".toList =
      .ok ⟨some (.and
        (.and (.contains none "x".toList false) (.contains none "sort".toList false))
        (.or (.equals .priority (.integer 1)) (.contains none "by".toList false))), []⟩ := by
  have ha : parse "x sort".toList = .ok ⟨some
      (.and (.contains none "x".toList false) (.contains none "sort".toList false)), []⟩ := by
    apply eq_ok_of_toOption
    decide +kernel
  have hb : parse "p:1 OR by".toList = .ok ⟨some
      (.or (.equals .priority (.integer 1)) (.contains none "by".toList false)), []⟩ := by
    apply eq_ok_of_toOption
    decide +kernel
  exact (parse_composed ha hb).1

end Query
end Triage
