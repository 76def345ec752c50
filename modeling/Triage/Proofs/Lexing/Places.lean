import Triage.Proofs.Lexing.Faults

/-! Where tokens and faults stand in the text.

A cursor that has gone `p` characters into a text has before it what is left of the
text from there on, so what it says of its place it says of the text: where splitting
fails there stands the character that the error names, and a
token stands where its position points and is spelled as its kind asks
(`Token.Placed`, `placed_of_tokenize`). -/
namespace Triage

/-- A piece of text stands at the offset `p`. -/
abbrev Text.StandsAt (piece : Text) (p : Nat) (text : Text) : Prop := piece <+: text.drop p

/-- A piece that is not empty stands inside the text. -/
theorem Text.StandsAt.lt_length {piece text : Text} {p : Nat} (h : StandsAt piece p text)
    (hne : piece ≠ []) : p < text.length := by
  have hle := h.length_le
  have hpos := List.length_pos_iff.2 hne
  rw [List.length_drop] at hle
  omega

/-- A text that begins with a character after `p` characters goes on behind it. -/
theorem drop_succ_of_eq_cons {text rest : Text} {p : Nat} {c : Char}
    (h : text.drop p = c :: rest) : text.drop (p + 1) = rest := by
  rw [← List.drop_drop, h]
  rfl

/-- Where splitting fails there stands the character that the error names. -/
theorem Cursor.standsAt_of_tokens_error {text : Text} {p : Nat} {e : LexError}
    (h : tokens ⟨p, text.drop p⟩ = .error e) : Text.StandsAt [e.character] e.position text := by
  obtain ⟨piece, c, rest, ts, htext, -, -, hf⟩ := leads_of_error h
  rw [hf.position_eq, hf.character_eq, Text.StandsAt, ← List.drop_drop, htext, List.drop_left]
  exact List.prefix_append [c] rest

/-! ### Tokens -/

/-- A token stands in a text where its position points, and is spelled as its kind asks. -/
structure Token.Placed (text : Text) (token : Token) : Prop where
  standsAt : Text.StandsAt token.lexeme token.position text
  kind_ne_error : token.kind ≠ .error
  position_eof : token.kind = .eof → token.position = text.length
  lexeme_ne_nil : token.kind ≠ .eof → token.lexeme ≠ []
  lexeme_dotDot : token.kind = .dotDot → token.lexeme = "..".toList
  lexeme_leftParen : token.kind = .leftParen → token.lexeme = "(".toList

namespace Lexeme

theorem kind_ofNumeral (word : Text) :
    (ofNumeral word).kind = .number ∨ (ofNumeral word).kind = .identifier := by
  unfold ofNumeral
  split
  · exact .inl rfl
  · exact .inr rfl

theorem kind_ofWord (word rest : Text) :
    (ofWord word rest).kind ≠ .dotDot ∧ (ofWord word rest).kind ≠ .leftParen := by
  simp only [ofWord]
  repeat' split
  all_goals simp

/-- The dots of a range and the parenthesis of a group are spelled in one way. -/
theorem Reads.spelling {c : Char} {rest : Text} {lexeme : Lexeme} (h : Reads c rest lexeme) :
    (lexeme.kind = .dotDot → (c :: rest).take lexeme.length = "..".toList) ∧
      (lexeme.kind = .leftParen → (c :: rest).take lexeme.length = "(".toList) := by
  cases h with
  | @mark _ kind _ hm =>
    have hmarks : ∀ mark ∈ marks, mark.2 ≠ .dotDot ∧ (mark.2 = .leftParen → mark.1 = '(') := by
      decide
    obtain ⟨hd, hp⟩ := hmarks _ hm
    exact ⟨fun hk => absurd hk hd, fun hk => congrArg (fun d => [d]) (hp hk)⟩
  | dots => exact ⟨fun _ => rfl, fun hk => Token.Kind.noConfusion hk⟩
  | quoted _ => exact ⟨fun hk => Token.Kind.noConfusion hk, fun hk => Token.Kind.noConfusion hk⟩
  | braced _ => exact ⟨fun hk => Token.Kind.noConfusion hk, fun hk => Token.Kind.noConfusion hk⟩
  | numeral _ _ =>
    obtain hk | hk := kind_ofNumeral (c :: rest.takeWhile Text.isWordChar) <;> simp [hk]
  | word _ _ _ =>
    obtain ⟨hd, hp⟩ := kind_ofWord (c :: rest.takeWhile Text.isWordChar)
      (rest.dropWhile Text.isWordChar)
    exact ⟨fun hk => absurd hk hd, fun hk => absurd hk hp⟩

end Lexeme

/-- Where a text has gone on for `p` characters, its tokens stand in it. -/
theorem Yields.placed {text : Text} {p : Nat} {ts : List Token} (hp : p ≤ text.length)
    (h : Yields p (text.drop p) ts) : ∀ token ∈ ts, token.Placed text := by
  generalize hd : text.drop p = rest at h
  induction h with
  | @done p =>
    intro token ht
    obtain rfl := List.mem_singleton.1 ht
    have hend : p = text.length := Nat.le_antisymm hp (List.drop_eq_nil_iff.1 hd)
    exact ⟨List.nil_prefix, by simp, fun _ => hend, fun hk => absurd rfl hk, by simp, by simp⟩
  | @blank p c rest ts _ _ ih =>
    have hlength := congrArg List.length hd
    rw [List.length_drop, List.length_cons] at hlength
    exact ih (by omega) (drop_succ_of_eq_cons hd)
  | @lexeme p c rest lexeme ts _ hr _ ih =>
    have hle := hr.length_le
    rw [← hd, List.length_drop] at hle
    intro token ht
    rcases List.mem_cons.1 ht with rfl | ht
    · obtain ⟨heof, herror⟩ := hr.kind_ne
      obtain ⟨hdots, hparen⟩ := hr.spelling
      refine ⟨?_, herror, fun hk => absurd hk heof, fun _ hnil => ?_, hdots, hparen⟩
      · rw [Text.StandsAt, Lexeme.token, hd]
        exact List.take_prefix _ _
      · have hpos := Lexeme.length_pos_of_read hr.read_eq
        rcases List.take_eq_nil_iff.1 hnil with hzero | hcons
        · omega
        · exact List.cons_ne_nil c rest hcons
    · exact ih (by omega) (by rw [← List.drop_drop, hd]) token ht

/-- The tokens of a text stand in it where they say. -/
theorem placed_of_tokenize {text : Text} {tokens : List Token} (h : tokenize text = .ok tokens) :
    ∀ token ∈ tokens, token.Placed text :=
  (Yields.of_tokens (show Cursor.tokens ⟨0, text.drop 0⟩ = .ok tokens from h)).placed
    (Nat.zero_le _)

/-- A text without a fault ends with the token of its end, and no other. -/
theorem exists_end_of_tokenize {text : Text} {tokens : List Token}
    (h : tokenize text = .ok tokens) :
    ∃ ts, tokens = ts ++ [⟨.eof, [], text.length, none⟩] ∧ ∀ token ∈ ts, token.kind ≠ .eof := by
  have hyields : Yields 0 text tokens := Yields.of_tokens h
  obtain ⟨ts, rfl, -⟩ := hyields.splits closes_nil
  rw [Nat.zero_add] at h ⊢
  exact ⟨ts, rfl, Cursor.kind_ne_eof_of_tokens h⟩

end Triage
