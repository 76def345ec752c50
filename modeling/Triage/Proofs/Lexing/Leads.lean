import Triage.Proofs.Lexing.Following

/-! Pieces of text up to a place where no lexeme is cut.

`Leads` says that a piece of text is passed over lexeme by lexeme up to the text behind it,
which no lexeme reaches into. Such a piece splits into its tokens (`Leads.splits`), and up to
the end of a text it is what the text yields (`Yields.leads`, `Leads.yields`). What stands
behind a piece may be changed as long as every lexeme in it is read as before
(`Leads.before`). -/
namespace Triage

/-- A piece of text at the offset `p` is passed over up to `rest`, which makes the tokens `ts`. -/
inductive Leads (rest : Text) : Nat → Text → List Token → Prop where
  | done {p : Nat} : Leads rest p [] []
  | blank {p : Nat} {c : Char} {text : Text} {ts : List Token} :
      Text.isBlank c = true → Leads rest (p + 1) text ts → Leads rest p (c :: text) ts
  | lexeme {p : Nat} {c : Char} {text : Text} {lexeme : Lexeme} {ts : List Token} :
      Text.isBlank c = false → Lexeme.Reads c (text ++ rest) lexeme →
      lexeme.length ≤ (c :: text).length →
      Leads rest (p + lexeme.length) ((c :: text).drop lexeme.length) ts →
      Leads rest p (c :: text) (lexeme.token p (c :: text) :: ts)

namespace Lexeme

variable {lexeme : Lexeme} {p : Nat} {text : Text}

/-- A lexeme that ends in a text makes the same token in front of more text. -/
theorem token_append (h : lexeme.length ≤ text.length) (rest : Text) :
    lexeme.token p (text ++ rest) = lexeme.token p text := by
  rw [token, List.take_append_of_le_length h, token]

/-- Behind a lexeme what is left of a text ends where the text ends. -/
theorem add_length_drop (p : Nat) (h : lexeme.length ≤ text.length) :
    p + lexeme.length + (text.drop lexeme.length).length = p + text.length := by
  rw [List.length_drop]
  omega

theorem length_token (h : lexeme.length ≤ text.length) :
    (lexeme.token p text).lexeme.length = lexeme.length := by
  rw [token, List.length_take, Nat.min_eq_left h]

end Lexeme

namespace Leads

variable {rest more piece : Text} {p : Nat} {ts : List Token}

theorem splits (h : Leads rest p piece ts) : Splits p piece rest ts := by
  induction h with
  | @done p => exact splits_nil p rest
  | @blank p c text ts hb _ ih => exact (splits_blank p (text ++ rest) hb).append ih
  | @lexeme p c text lexeme ts hb hr hle _ ih =>
    unfold Splits at ih ⊢
    rw [List.cons_append, Cursor.tokens_reads p hb hr, ← List.cons_append,
      Lexeme.token_append hle, List.drop_append_of_le_length hle, ih, Lexeme.add_length_drop p hle]
    cases Cursor.tokens ⟨p + (c :: text).length, rest⟩ <;> rfl

/-- A lexeme and what is behind it are passed over. -/
theorem of_reads {c : Char} {tail after : Text} {lexeme : Lexeme} (hb : Text.isBlank c = false)
    (hr : Lexeme.Reads c (tail ++ after ++ rest) lexeme)
    (hlen : lexeme.length = (c :: tail).length) (h : Leads rest (p + lexeme.length) after ts) :
    Leads rest p (c :: tail ++ after) (⟨lexeme.kind, c :: tail, p, lexeme.literal⟩ :: ts) := by
  have htoken : lexeme.token p (c :: (tail ++ after)) =
      ⟨lexeme.kind, c :: tail, p, lexeme.literal⟩ := by
    rw [Lexeme.token, hlen, ← List.cons_append, List.take_left]
  have hle : lexeme.length ≤ (c :: (tail ++ after)).length := by
    rw [hlen, ← List.cons_append, List.length_append]
    exact Nat.le_add_right _ _
  have hdrop : (c :: (tail ++ after)).drop lexeme.length = after := by
    rw [hlen, ← List.cons_append, List.drop_left]
  rw [List.cons_append, ← htoken]
  exact .lexeme hb hr hle (by rwa [hdrop])

/-- A piece leads to another text as well if behind each of its words that text breaks the word
and does not bring `by`. -/
theorem before (h : Leads rest p piece ts)
    (hm : ∀ before after q us, piece = before ++ after → EndsInWord before →
      Leads rest q after us → Leads more q after us → Breaks (after ++ rest) →
      Breaks (after ++ more) ∧
        (Lexeme.byLength? (after ++ rest) = none → Lexeme.byLength? (after ++ more) = none)) :
    Leads more p piece ts := by
  induction h with
  | done => exact .done
  | @blank p c text ts hb _ ih =>
    refine .blank hb (ih fun before after q us hp hend => ?_)
    exact hm (c :: before) after q us (congrArg (c :: ·) hp) (hend.append [c])
  | @lexeme p c text lexeme ts hb hr hle hrest ih =>
    obtain ⟨tail, hlen, htext⟩ := hr.exists_tail hle
    have hmore := ih fun before after q us hp hend => by
      refine hm (c :: tail ++ before) after q us ?_ (hend.append _)
      rw [List.append_assoc, ← hp, List.cons_append, ← htext]
    refine .lexeme hb ?_ hle hmore
    rw [htext, List.append_assoc] at hr ⊢
    refine hr.transfer hlen fun hend hafter => ?_
    exact hm (c :: tail) _ _ ts (congrArg (c :: ·) htext) hend hrest hmore hafter

/-- A text is passed over as before in front of a text that breaks a word and whose first word is
another one than `by`. -/
theorem before_word (h : Leads [] p piece ts) (hm : Breaks more)
    (hword : Text.equalAsciiCase more.firstWord "by".toList = false) : Leads more p piece ts := by
  refine h.before fun _ after _ _ _ _ _ _ hafter => ?_
  rw [List.append_nil] at hafter ⊢
  have hbreaks := hafter.append hm
  refine ⟨hbreaks, fun hnone => ?_⟩
  rw [Lexeme.byLength?_eq_none_iff hbreaks, Text.firstWord_append hm]
  split
  · exact hword
  · exact (Lexeme.byLength?_eq_none_iff hafter).1 hnone

/-- A piece without tokens is blank. -/
theorem isBlankText (h : Leads rest p piece []) : piece.isBlankText = true := by
  generalize hts : ([] : List Token) = ts at h
  induction h with
  | done => rfl
  | blank hb _ ih =>
    rw [Text.isBlankText, List.all_cons, hb]
    exact ih hts
  | lexeme _ _ _ _ _ => cases hts

/-- The first word of a piece is that of its first token. -/
theorem firstWord_eq (h : Leads rest p piece ts) {first : Token} (hfirst : first ∈ ts.head?) :
    Text.firstWord (piece ++ rest) = first.lexeme.takeWhile Text.isWordChar := by
  induction h with
  | done => cases hfirst
  | blank hb _ ih =>
    rw [List.cons_append, Text.firstWord, List.dropWhile_cons_of_pos hb]
    exact ih hfirst
  | @lexeme p c text lexeme ts hb hr hle _ _ =>
    obtain rfl := Option.some.inj hfirst
    rw [List.cons_append, Text.firstWord, List.dropWhile_cons_of_neg (by simp [hb])]
    have hword := hr.length_word_le
    have hlen := Lexeme.length_token (p := p) hle
    have hsplit : c :: (text ++ rest) =
        (c :: text).take lexeme.length ++ ((c :: text).drop lexeme.length ++ rest) := by
      rw [← List.append_assoc, List.take_append_drop, List.cons_append]
    rw [hsplit] at hword ⊢
    exact takeWhile_append_of_length_le (hword.trans_eq hlen.symm)

/-- If `by` does not follow in front of a piece, it does not follow in front of a text whose first
token is written the same. -/
theorem byLength?_eq_none (h : Leads rest p piece ts) {q : Nat} {other : Text} {us : List Token}
    (ho : Leads [] q other us)
    (hfirst : us.head?.map Token.lexeme = ts.head?.map Token.lexeme)
    (hbreaks : Breaks (piece ++ rest)) (hother : Breaks other)
    (hnone : Lexeme.byLength? (piece ++ rest) = none) : Lexeme.byLength? other = none := by
  rw [Lexeme.byLength?_eq_none_iff hother]
  cases us with
  | nil =>
    have hblank := List.all_eq_true.1 ho.isBlankText
    rw [Text.firstWord, List.dropWhile_eq_nil_iff.2 hblank]
    rfl
  | cons u us =>
    cases ts with
    | nil => cases hfirst
    | cons t ts =>
      have hword := ho.firstWord_eq rfl
      rw [List.append_nil, Option.some.inj hfirst, ← h.firstWord_eq rfl] at hword
      rw [hword]
      exact (Lexeme.byLength?_eq_none_iff hbreaks).1 hnone

/-- **A text cut where a piece ends is passed over as before.** -/
theorem cut (h : Leads rest p piece ts) : Leads [] p piece ts := by
  refine h.before fun _ after _ _ _ _ hlong hshort hbreaks => ?_
  rw [List.append_nil]
  exact ⟨hbreaks.of_append, hlong.byLength?_eq_none hshort rfl hbreaks hbreaks.of_append⟩

theorem blanks {gap : Text} (hgap : gap.isBlankText = true)
    (h : Leads rest (p + gap.length) piece ts) : Leads rest p (gap ++ piece) ts := by
  induction gap generalizing p with
  | nil => exact h
  | cons c gap ih =>
    obtain ⟨hc, hgap⟩ := Bool.and_eq_true_iff.1 (List.all_cons.symm.trans hgap)
    refine .blank hc (ih hgap ?_)
    rwa [List.length_cons, Nat.add_comm gap.length, ← Nat.add_assoc] at h

theorem yields (h : Leads [] p piece ts) :
    Yields p piece (ts ++ [⟨.eof, [], p + piece.length, none⟩]) := by
  have hsplits := h.splits
  unfold Splits at hsplits
  rw [List.append_nil, Cursor.tokens_nil] at hsplits
  exact .of_tokens hsplits

end Leads

namespace Yields

variable {p : Nat} {text rest : Text} {all : List Token}

theorem leads (h : Yields p text all) :
    ∃ ts, all = ts ++ [⟨.eof, [], p + text.length, none⟩] ∧ Leads [] p text ts := by
  induction h with
  | done => exact ⟨[], rfl, .done⟩
  | @blank p c text all hb _ ih =>
    obtain ⟨ts, rfl, hl⟩ := ih
    refine ⟨ts, ?_, .blank hb hl⟩
    rw [List.length_cons, Nat.add_assoc, Nat.add_comm 1]
  | @lexeme p c text lexeme all hb hr _ ih =>
    obtain ⟨ts, rfl, hl⟩ := ih
    have hle := hr.length_le
    rw [← List.append_nil text] at hr
    exact ⟨_ :: ts, by rw [Lexeme.add_length_drop p hle]; rfl, .lexeme hb hr hle hl⟩

/-- The tokens before the last one are those that are not the end. -/
theorem filter_kind {ts : List Token} {last : Token} (h : Yields p text (ts ++ [last]))
    (hlast : last.kind = .eof) : (ts ++ [last]).filter (·.kind ≠ .eof) = ts := by
  have hkinds := Cursor.kind_ne_eof_of_tokens h.tokens_eq
  rw [List.filter_append, List.filter_eq_self.2 (by simpa using hkinds),
    List.filter_cons_of_neg (by simpa using hlast), List.filter_nil, List.append_nil]

/-- A text that is split by itself is split the same in front of a text that closes it. -/
theorem splits (h : Yields p text all) (hr : Closes rest) :
    ∃ ts, all = ts ++ [⟨.eof, [], p + text.length, none⟩] ∧ Splits p text rest ts := by
  obtain ⟨ts, rfl, hl⟩ := h.leads
  refine ⟨ts, rfl, (hl.before fun _ after _ _ _ _ _ _ hafter => ?_).splits⟩
  rw [List.append_nil] at hafter ⊢
  rw [Lexeme.byLength?_append hr]
  exact ⟨hafter.append hr.breaks, id⟩

end Yields
end Triage
