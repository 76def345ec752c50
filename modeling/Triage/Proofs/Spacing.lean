import Triage.Proofs.Grammar.Likeness

/-! Spacing between tokens.

The lexemes of a text written anew with other blanks between them (`Spaced`) are read as the
same lexemes: where a word ended a break follows again, and where the word `by` did not follow
the word `sort` another first word follows still (`Leads.spaced`). So the other text has the
same tokens, but for their places, and means the same query (`Query.parse_spaced`). -/
namespace Triage

/-- Pieces of text in order, with blanks behind each of them and at least one between two. -/
inductive Spaced : List Text → Text → Prop where
  | nil : Spaced [] []
  | cons {piece gap rest : Text} {pieces : List Text} :
      gap.isBlankText = true → (pieces ≠ [] → gap ≠ []) → Spaced pieces rest →
      Spaced (piece :: pieces) (piece ++ (gap ++ rest))

/-- A word breaks where a piece ends. -/
theorem Spaced.breaks {pieces : List Text} {gap rest : Text} (h : Spaced pieces rest)
    (hgap : gap.isBlankText = true) (hne : pieces ≠ [] → gap ≠ []) : Breaks (gap ++ rest) := by
  cases gap with
  | nil =>
    cases h with
    | nil => exact breaks_nil
    | cons _ _ _ => exact absurd rfl (hne (List.cons_ne_nil _ _))
  | cons c gap =>
    have hc : Text.isBlank c = true := (Bool.and_eq_true_iff.1 (List.all_cons.symm.trans hgap)).1
    refine breaks_cons (Bool.eq_false_iff.2 fun hw => ?_) _
    exact Bool.noConfusion (hc.symm.trans (Text.isBlank_of_isWordChar hw))

/-- A token apart from its place. -/
def Token.unplaced (token : Token) : Token := { token with position := 0 }

/-- Tokens that are the same apart from their places are alike. -/
theorem Token.forall₂_like {ts us : List Token}
    (h : us.map Token.unplaced = ts.map Token.unplaced) :
    List.Forall₂ (Token.Like Eq) ts us := by
  have hmap : List.Forall₂ (fun t u => u.unplaced = t.unplaced) ts us := by
    rw [← List.forall₂_eq_eq_eq, List.forall₂_map_left_iff, List.forall₂_map_right_iff] at h
    exact h.flip
  refine hmap.imp fun t u htu => ?_
  obtain ⟨hkind, hlexeme, -, hliteral⟩ := Token.mk.inj htu
  exact ⟨hkind, hlexeme.symm, hliteral ▸ Token.likeLiteral_refl (fun _ => rfl) _⟩

/-- **Spaced out, lexemes are read as before.** -/
theorem Leads.spaced {p q : Nat} {text other : Text} {ts : List Token}
    (h : Leads [] p text ts) (hs : Spaced (ts.map Token.lexeme) other) :
    ∃ us, Leads [] q other us ∧ us.map Token.unplaced = ts.map Token.unplaced := by
  induction h generalizing q other with
  | done =>
    cases hs
    exact ⟨[], .done, rfl⟩
  | blank _ _ ih => exact ih hs
  | @lexeme p c text lexeme ts hb hr hle hrest ih =>
    obtain ⟨tail, hlen, htext⟩ := hr.exists_tail hle
    have htake : (lexeme.token p (c :: text)).lexeme = c :: tail := by
      rw [Lexeme.token, htext, ← List.cons_append, hlen, List.take_left]
    rw [List.map_cons, htake] at hs
    obtain _ | @⟨_, gap, rest, _, hgap, hne, hs⟩ := hs
    obtain ⟨us, hus, hmap⟩ := ih (q := q + lexeme.length + gap.length) hs
    have hafter := hus.blanks hgap
    -- A break follows as before, and whether `by` does depends on the next lexeme alone.
    have hread : Lexeme.Reads c (tail ++ (gap ++ rest)) lexeme := by
      rw [List.append_nil, htext] at hr
      refine hr.transfer hlen fun _ hbreaks => ⟨hs.breaks hgap hne, fun hnone => ?_⟩
      rw [← List.append_nil (List.drop _ _)] at hbreaks hnone
      refine hrest.byLength?_eq_none hafter ?_ hbreaks (hs.breaks hgap hne) hnone
      have hlexemes := congrArg (List.head? <| ·.map Token.lexeme) hmap
      simpa [Function.comp_def, Token.unplaced] using hlexemes
    refine ⟨_, .of_reads hb (by rwa [List.append_nil]) hlen hafter, ?_⟩
    rw [List.map_cons, List.map_cons, hmap]
    refine congrArg (· :: _) ?_
    rw [Token.unplaced, Token.unplaced, htake]
    rfl

namespace Query

/-- Texts that are split into the same tokens, but for their places, are read as one query. -/
theorem parse_congr {a b : Text} {ts us : List Token} (ha : tokenize a = .ok ts)
    (hb : tokenize b = .ok us) (h : us.map Token.unplaced = ts.map Token.unplaced) {query : Query}
    (hq : parse a = .ok query) : parse b = .ok query := by
  obtain ⟨other, hother, hlike⟩ := parse_like harmless_eq (b := b) (fun ts' hts' => by
    obtain rfl := Except.ok.inj (ha.symm.trans hts'.tokens_eq)
    exact ⟨us, .of_tokens hb, Token.forall₂_like h⟩) hq
  rwa [eq_of_like hlike]

/-- **Spacing between tokens is irrelevant.** The lexemes of a text with other blanks in front,
behind and between them make the same tokens in other places, and are read as the same query or
not at all. -/
theorem parse_spaced {text gap other : Text} {tokens : List Token}
    (h : tokenize text = .ok tokens) (hgap : gap.isBlankText = true)
    (hs : Spaced ((tokens.filter (·.kind ≠ .eof)).map Token.lexeme) other) :
    (∃ others, tokenize (gap ++ other) = .ok others ∧
        others.map Token.unplaced = tokens.map Token.unplaced) ∧
      ∀ query, parse (gap ++ other) = .ok query ↔ parse text = .ok query := by
  have hyields := Yields.of_tokens h
  obtain ⟨ts, rfl, hleads⟩ := hyields.leads
  rw [hyields.filter_kind rfl] at hs
  obtain ⟨us, hus, hmap⟩ := hleads.spaced (q := 0 + gap.length) hs
  have hothers := (hus.blanks hgap).yields
  have hall (m n : Nat) : (us ++ [Token.mk .eof [] m none]).map Token.unplaced =
      (ts ++ [Token.mk .eof [] n none]).map Token.unplaced := by
    rw [List.map_append, List.map_append, hmap]
    rfl
  exact ⟨⟨_, hothers.tokens_eq, hall _ _⟩, fun query =>
    ⟨parse_congr hothers.tokens_eq h (hall _ _).symm, parse_congr h hothers.tokens_eq (hall _ _)⟩⟩

/-- Blanks between tokens that touched, a sign and dots among them, and around a word `sort` that
`by` does not follow. -/
theorem parse_spaced_sort :
    parse "\n\t( sort ) by p : -1 .. 2 \x7ba b\x7d ".toList = .ok ⟨some
      (.and (.and (.and (.contains none "sort".toList false) (.contains none "by".toList false))
          (.range .priority (.integer (-1)) (.integer 2)))
        (.contains none "a b".toList false)), []⟩ := by
  have h : tokenize "(sort)by p:-1..2\x7ba b\x7d".toList = .ok
      [⟨.leftParen, "(".toList, 0, none⟩, ⟨.identifier, "sort".toList, 1, none⟩,
        ⟨.rightParen, ")".toList, 5, none⟩, ⟨.identifier, "by".toList, 6, none⟩,
        ⟨.identifier, "p".toList, 9, none⟩, ⟨.colon, ":".toList, 10, none⟩,
        ⟨.number, "-1".toList, 11, some (.integer (-1))⟩, ⟨.dotDot, "..".toList, 13, none⟩,
        ⟨.number, "2".toList, 15, some (.integer 2)⟩,
        ⟨.string, "\x7ba b\x7d".toList, 16, some (.text "a b".toList)⟩, ⟨.eof, [], 21, none⟩] := by
    apply eq_ok_of_toOption
    decide +kernel
  have hgap : Text.isBlankText "\n\t".toList = true := by decide
  have space {piece rest : Text} {pieces : List Text} (hs : Spaced pieces rest) :
      Spaced (piece :: pieces) (piece ++ (" ".toList ++ rest)) :=
    .cons (by decide) (fun _ => by decide) hs
  refine ((parse_spaced h hgap
    (?_ : Spaced _ "( sort ) by p : -1 .. 2 \x7ba b\x7d ".toList)).2 _).2 ?_
  · exact space <| space <| space <| space <| space <| space <| space <| space <| space <|
      space .nil
  · apply eq_ok_of_toOption
    decide +kernel

end Query
end Triage
