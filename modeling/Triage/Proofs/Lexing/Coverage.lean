import Triage.Proofs.Lexing.Places

/-! Nothing of a text is lost when it is split.

The tokens of a text are slices of it that stand in order, each behind the one before, and
what they leave out are blanks (`Covers`, `covers_of_tokenize`). Both follow from how a piece
of text is passed over: a lexeme takes up what stands before the next place
(`Leads.ordered`), and only a blank is passed over without one (`Leads.isBlank_of_outside`). -/
namespace Triage

/-- The offset behind the last character of a token. -/
def Token.stop (token : Token) : Nat := token.position + token.lexeme.length

/-- Tokens that account for every character of a text. -/
structure Covers (text : Text) (ts : List Token) : Prop where
  kinds : ∀ token ∈ ts, token.kind ≠ .eof ∧ token.kind ≠ .error ∧ token.kind ≠ .leftBrace
  /-- Each token is the slice of the text at its position. -/
  slices : ∀ token ∈ ts, token.lexeme ≠ [] ∧
    token.lexeme = (text.drop token.position).take token.lexeme.length
  /-- Each token ends before the next ones begin. -/
  ordered : ts.Pairwise fun a b => a.stop ≤ b.position
  /-- A character outside of all tokens is blank. -/
  blanks : ∀ i (hi : i < text.length),
    (∀ token ∈ ts, ¬ (token.position ≤ i ∧ i < token.stop)) → Text.isBlank text[i] = true

theorem Lexeme.Reads.kind_ne_leftBrace {c : Char} {rest : Text} {lexeme : Lexeme}
    (h : Reads c rest lexeme) : lexeme.kind ≠ .leftBrace := by
  cases h with
  | mark hm =>
    have hkinds : ∀ mark ∈ marks, mark.2 ≠ .leftBrace := by decide
    exact hkinds _ hm
  | dots | quoted _ | braced _ => exact Token.Kind.noConfusion
  | numeral _ _ =>
    obtain hk | hk := kind_ofNumeral (c :: rest.takeWhile Text.isWordChar) <;> simp [hk]
  | word _ _ _ =>
    simp only [ofWord]
    repeat' split
    all_goals simp

namespace Leads

variable {rest piece : Text} {p : Nat} {ts : List Token}

theorem kind_ne (h : Leads rest p piece ts) :
    ∀ token ∈ ts, token.kind ≠ .eof ∧ token.kind ≠ .error ∧ token.kind ≠ .leftBrace := by
  induction h with
  | done => exact fun token ht => absurd ht List.not_mem_nil
  | blank _ _ ih => exact ih
  | lexeme _ hr _ _ ih =>
    intro token ht
    rcases List.mem_cons.1 ht with rfl | ht
    · exact ⟨hr.kind_ne.1, hr.kind_ne.2, hr.kind_ne_leftBrace⟩
    · exact ih token ht

/-- The tokens of a piece begin in it or behind it, each where the one before has ended. -/
theorem ordered (h : Leads rest p piece ts) :
    (∀ token ∈ ts, p ≤ token.position) ∧ ts.Pairwise fun a b => a.stop ≤ b.position := by
  induction h with
  | done => exact ⟨fun token ht => absurd ht List.not_mem_nil, .nil⟩
  | blank _ _ ih => exact ⟨fun token ht => Nat.le_of_succ_le (ih.1 token ht), ih.2⟩
  | @lexeme p c text lexeme ts _ _ hle _ ih =>
    obtain ⟨hfrom, hpairs⟩ := ih
    refine ⟨fun token ht => ?_, .cons (fun token ht => ?_) hpairs⟩
    · rcases List.mem_cons.1 ht with rfl | ht
      · exact Nat.le_refl p
      · exact Nat.le_trans (Nat.le_add_right p _) (hfrom token ht)
    · rw [Token.stop, Lexeme.length_token hle]
      exact hfrom token ht

/-- A character of a piece that stands in no token is blank. -/
theorem isBlank_of_outside (h : Leads rest p piece ts) {i : Nat} {d : Char}
    (hd : piece[i]? = some d)
    (hout : ∀ token ∈ ts, ¬ (token.position ≤ p + i ∧ p + i < token.stop)) :
    Text.isBlank d = true := by
  induction h generalizing i with
  | done => cases hd
  | @blank p c text ts hb _ ih =>
    cases i with
    | zero =>
      obtain rfl := Option.some.inj hd
      exact hb
    | succ i =>
      refine ih hd fun token ht => ?_
      rw [Nat.add_assoc, Nat.add_comm 1]
      exact hout token ht
  | @lexeme p c text lexeme ts _ _ hle _ ih =>
    have hhead := hout _ List.mem_cons_self
    rw [Token.stop, Lexeme.length_token hle] at hhead
    have hi : lexeme.length ≤ i := by
      have hstart : (lexeme.token p (c :: text)).position = p := rfl
      omega
    -- Behind the lexeme the character is one of what is left of the piece.
    obtain ⟨k, rfl⟩ := Nat.exists_eq_add_of_le hi
    refine ih (i := k) ?_ fun token ht => ?_
    · rwa [List.getElem?_drop]
    · rw [Nat.add_assoc]
      exact hout token (List.mem_cons_of_mem _ ht)

end Leads

/-- **Splitting a text loses nothing.** The tokens end with the end of the text, and with no other;
the tokens before are slices of the text, in order and apart, and all else is blank. -/
theorem covers_of_tokenize {text : Text} {tokens : List Token} (h : tokenize text = .ok tokens) :
    ∃ ts, tokens = ts ++ [⟨.eof, [], text.length, none⟩] ∧ Covers text ts := by
  obtain ⟨ts, rfl, hleads⟩ := (Yields.of_tokens h).leads
  rw [Nat.zero_add] at h ⊢
  refine ⟨ts, rfl, hleads.kind_ne, fun token ht => ?_, hleads.ordered.2, fun i hi hout => ?_⟩
  · have hplaced := placed_of_tokenize h token (List.mem_append_left _ ht)
    exact ⟨hplaced.lexeme_ne_nil (hleads.kind_ne token ht).1,
      List.prefix_iff_eq_take.1 hplaced.standsAt⟩
  · refine hleads.isBlank_of_outside (List.getElem?_eq_getElem hi) ?_
    rwa [Nat.zero_add]

/-- A word that is not ASCII, dots and a sign without blanks between them, a text with a blank in
it, and a token of two words. -/
theorem covers_of_tokenize_sortBy :
    Covers " é..-1\x7ba b\x7dsort \t BY:".toList
      [⟨.identifier, "é".toList, 1, none⟩, ⟨.dotDot, "..".toList, 2, none⟩,
        ⟨.number, "-1".toList, 4, some (.integer (-1))⟩,
        ⟨.string, "\x7ba b\x7d".toList, 6, some (.text "a b".toList)⟩,
        ⟨.sortBy, "sort \t BY".toList, 11, none⟩, ⟨.colon, ":".toList, 20, none⟩] := by
  have h : tokenize " é..-1\x7ba b\x7dsort \t BY:".toList = .ok
      ([⟨.identifier, "é".toList, 1, none⟩, ⟨.dotDot, "..".toList, 2, none⟩,
        ⟨.number, "-1".toList, 4, some (.integer (-1))⟩,
        ⟨.string, "\x7ba b\x7d".toList, 6, some (.text "a b".toList)⟩,
        ⟨.sortBy, "sort \t BY".toList, 11, none⟩, ⟨.colon, ":".toList, 20, none⟩] ++
        [⟨.eof, [], 21, none⟩]) := by
    apply eq_ok_of_toOption
    decide +kernel
  obtain ⟨ts, hts, hcovers⟩ := covers_of_tokenize h
  obtain ⟨rfl, -⟩ := List.append_inj' hts rfl
  exact hcovers

end Triage
