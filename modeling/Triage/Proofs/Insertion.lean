import Triage.Proofs.Lexing.Leads
import Triage.Proofs.Readers

/-! Texts put into a query.

A text value is written so that nothing of it reaches into the query around it: behind a mark
and in front of what breaks a word it is one token, whatever characters it holds, and the query
before and behind keeps its own tokens (`tokenize_insert`). -/
namespace Triage

/-- A piece that ends neither in a word nor in a blank is passed over whatever follows. -/
theorem Leads.closed {p : Nat} {piece : Text} {ts : List Token} (h : Leads [] p piece ts) {c : Char}
    (hc : piece.getLast? = some c) (hw : Text.isWordChar c = false) (hb : Text.isBlank c = false)
    (rest : Text) : Leads rest p piece ts := by
  refine h.before fun before after _ _ hpiece hend _ _ hbreaks => ?_
  -- What is behind a word of the piece is not empty, so it ends as the piece does.
  obtain ⟨init, rfl⟩ : ∃ init, after = init ++ [c] := by
    rw [hpiece] at hc
    cases hafter : after.getLast? with
    | none =>
      rw [List.getLast?_eq_none_iff.1 hafter, List.append_nil] at hc
      obtain ⟨d, hd, hword⟩ := hend
      obtain rfl := Option.some.inj (hd.symm.trans hc)
      exact Bool.noConfusion (hword.symm.trans hw)
    | some d =>
      rw [List.getLast?_append, hafter] at hc
      obtain rfl := Option.some.inj hc
      exact List.getLast?_eq_some_iff.1 hafter
  have hcloses := closes_cons hw hb
  rw [List.append_nil, List.append_assoc, List.singleton_append] at *
  rw [Lexeme.byLength?_append (hcloses []), Lexeme.byLength?_append (hcloses rest)]
  exact ⟨hbreaks.of_append.append (hcloses rest).breaks, id⟩

/-- Behind a piece a text makes the tokens that it makes by itself, moved. -/
theorem Splits.tokenize_append {a b : Text} {ts bs : List Token} (ha : Splits 0 a b ts)
    (hb : Triage.tokenize b = .ok bs) :
    Triage.tokenize (a ++ b) = .ok (ts ++ bs.map (Token.shift a.length)) := by
  have hmoved := ((Yields.of_tokens hb).shift a.length).tokens_eq
  unfold Splits at ha
  rw [Nat.zero_add, ← Nat.add_zero a.length, hmoved] at ha
  exact ha

/-- A text value in front of what breaks a word is one token that stands for it. -/
theorem splits_text (p : Nat) (s : Text) {rest : Text} (hr : Breaks rest) :
    ∃ token, Splits p (Value.text s).render rest [token] ∧ token.kind.isValue = true ∧
      token.text = s ∧ token.position = p ∧
      (token.kind = .identifier → s.lower ∉ Text.reserved ∧ s.allDigits = false) := by
  cases hq : s.needsQuotes with
  | true =>
    have hrender : (Value.text s).render = s.quoted := if_pos hq
    rw [hrender]
    exact ⟨_, splits_quoted p s rest, rfl, rfl, rfl, fun hk => Token.Kind.noConfusion hk⟩
  | false =>
    have hrender : (Value.text s).render = s := if_neg (by simp [hq])
    obtain ⟨-, -, -, hreserved, hdigits⟩ := Text.needsQuotes_eq_false_iff.1 hq
    rw [hrender]
    exact ⟨_, splits_bare p hq hr, rfl, rfl, rfl, fun _ => ⟨hreserved, hdigits⟩⟩

/-- **A text value is put into a query safely.** Behind a colon or a comma, and in front of a text
that does not go on with a word, it makes a single token that stands for it; the tokens before it
stay as they are, and those behind it move. -/
theorem tokenize_insert {a b : Text} {as bs : List Token} (s : Text)
    (ha : tokenize a = .ok as) (hmark : a.getLast? = some ':' ∨ a.getLast? = some ',')
    (hb : tokenize b = .ok bs) (hbreaks : Breaks b) :
    ∃ token, tokenize (a ++ (Value.text s).render ++ b) =
        .ok (as.filter (·.kind ≠ .eof) ++ token ::
          bs.map (Token.shift (a.length + (Value.text s).render.length))) ∧
      token.kind.isValue = true ∧ token.text = s ∧ token.position = a.length ∧
      (token.kind = .identifier → s.lower ∉ Text.reserved ∧ s.allDigits = false) := by
  obtain ⟨ts, rfl, hleads⟩ := (Yields.of_tokens ha).leads
  obtain ⟨token, hvalue, hkind, htext, hposition, hidentifier⟩ :=
    splits_text (0 + a.length) s hbreaks
  have hbefore : Leads ((Value.text s).render ++ b) 0 a ts := by
    obtain hc | hc := hmark
    · exact hleads.closed hc (by decide) (by decide) _
    · exact hleads.closed hc (by decide) (by decide) _
  have hall := (hbefore.splits.append hvalue).tokenize_append hb
  rw [List.length_append, List.append_assoc ts, List.singleton_append] at hall
  rw [Nat.zero_add] at hposition
  rw [(Yields.of_tokens ha).filter_kind rfl]
  exact ⟨token, hall, hkind, htext, hposition, hidentifier⟩

/-- A text that looks as if it closed its quotes and went on with the query, and that ends with a
backslash in front of the closing quote. -/
theorem tokenize_insert_quotes :
    ∃ token,
      tokenize ("id:x,".toList ++ (Value.text "y\") OR\\".toList).render ++ ") OR z".toList) = .ok
        [⟨.identifier, "id".toList, 0, none⟩, ⟨.colon, ":".toList, 2, none⟩,
          ⟨.identifier, "x".toList, 3, none⟩, ⟨.comma, ",".toList, 4, none⟩, token,
          ⟨.rightParen, ")".toList, 16, none⟩, ⟨.or, "OR".toList, 18, none⟩,
          ⟨.identifier, "z".toList, 21, none⟩, ⟨.eof, [], 22, none⟩] ∧
      token.kind.isValue = true ∧ token.text = "y\") OR\\".toList := by
  have ha : tokenize "id:x,".toList = .ok
      [⟨.identifier, "id".toList, 0, none⟩, ⟨.colon, ":".toList, 2, none⟩,
        ⟨.identifier, "x".toList, 3, none⟩, ⟨.comma, ",".toList, 4, none⟩,
        ⟨.eof, [], 5, none⟩] := by
    apply eq_ok_of_toOption
    decide +kernel
  have hb : tokenize ") OR z".toList = .ok
      [⟨.rightParen, ")".toList, 0, none⟩, ⟨.or, "OR".toList, 2, none⟩,
        ⟨.identifier, "z".toList, 5, none⟩, ⟨.eof, [], 6, none⟩] := by
    apply eq_ok_of_toOption
    decide +kernel
  obtain ⟨token, hall, hkind, htext, -⟩ :=
    tokenize_insert "y\") OR\\".toList ha (.inr (by decide)) hb (closes_rightParen _).breaks
  exact ⟨token, hall, hkind, htext⟩

end Triage
