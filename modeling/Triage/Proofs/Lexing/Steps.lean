import Triage.Proofs.Lexing.Places

/-! Steps in a row over one query.

A step ends where it began, behind a lexeme that is not empty, or at the end of the query
(`Cursor.Moves`), and steps may go on after an error. Their places only move forward and stay
within the query, and a step that meets the end or a sign without digits is repeated ever after
(`Cursor.Advances`). A token uses up at least one character, so `tokenize` takes at most one step
more than the query has characters (`Cursor.gather_steps`). -/
namespace Triage

/-- A lexeme ends within the text that it begins, and is not the end. -/
theorem Lexeme.length_le_of_read {c : Char} {rest : Text} {lexeme : Lexeme}
    (h : read c rest = .ok lexeme) : lexeme.length ≤ (c :: rest).length ∧ lexeme.kind ≠ .eof := by
  by_cases hk : lexeme.kind = .error
  · cases fails_of_kind_error (p := 0) h hk with
    | stray hstray =>
      obtain rfl := Except.ok.inj (hstray.symm.trans h)
      exact ⟨Nat.succ_le_succ (Nat.zero_le _), Token.Kind.noConfusion⟩
  · have hreads := reads_of_read h hk
    exact ⟨hreads.length_le, hreads.kind_ne.1⟩

namespace Cursor

/-! ### One step -/

/-- What a step does from a place where no blank stands. -/
inductive Moves (here : Cursor) : Except LexError Token × Cursor → Prop where
  | finish : here.rest = [] → Moves here (.ok ⟨.eof, [], here.position, none⟩, here)
  | lexeme {kind : Token.Kind} {length : Nat} {literal : Option Token.Literal} :
      0 < length → length ≤ here.rest.length → kind ≠ .eof →
      Moves here (.ok ⟨kind, here.rest.take length, here.position, literal⟩, here.advance length)
  | opened (fault : Fault) : fault ≠ .danglingSign →
      Moves here (.error (fault.error here.position), here.atEnd)
  | sign : here.rest.head? = some '-' → Moves here (.error (.danglingSign here.position), here)

/-- A step passes over blanks and then does one of these things. -/
theorem moves (cursor : Cursor) : Moves cursor.skipBlanks cursor.next := by
  rw [next]
  split
  · next hrest => exact .finish hrest
  · next c rest hrest =>
    split
    · next lexeme hr =>
      have hlength := Lexeme.length_le_of_read hr
      rw [← hrest] at hlength
      exact .lexeme (Lexeme.length_pos_of_read hr) hlength.1 hlength.2
    · exact .opened .openString Fault.noConfusion
    · exact .opened .openBrace Fault.noConfusion
    · next hr =>
      cases Lexeme.fails_of_read_error (p := 0) hr with
      | sign hd => exact .sign (by rw [hrest]; rfl)

/-- A step from behind the blanks is the step from before them. -/
theorem next_skipBlanks (cursor : Cursor) : cursor.skipBlanks.next = cursor.next := by
  obtain ⟨p, text⟩ := cursor
  induction text generalizing p with
  | nil => rfl
  | cons c rest ih =>
    cases hb : Text.isBlank c with
    | true => rw [skipBlanks_blank p rest hb, ih, next_blank p rest hb]
    | false => rw [skipBlanks_of_not_isBlank p rest hb]

/-! ### Places in a query -/

/-- The place of a cursor over a query. -/
structure StandsIn (query : Text) (cursor : Cursor) : Prop where
  position_le : cursor.position ≤ query.length
  rest_eq : cursor.rest = query.drop cursor.position

namespace StandsIn

variable {query : Text} {cursor : Cursor}

theorem length_rest (h : StandsIn query cursor) :
    cursor.position + cursor.rest.length = query.length := by
  rw [h.rest_eq, List.length_drop]
  exact Nat.add_sub_cancel' h.position_le

theorem advance (h : StandsIn query cursor) {n : Nat} (hn : n ≤ cursor.rest.length) :
    StandsIn query (cursor.advance n) := by
  refine ⟨?_, ?_⟩
  · rw [← h.length_rest]
    exact Nat.add_le_add_left hn cursor.position
  · show cursor.rest.drop n = query.drop (cursor.position + n)
    rw [h.rest_eq, List.drop_drop]

theorem skipBlanks (h : StandsIn query cursor) : StandsIn query cursor.skipBlanks :=
  h.advance (List.takeWhile_sublist _).length_le

theorem atEnd (h : StandsIn query cursor) :
    StandsIn query cursor.atEnd ∧ cursor.atEnd.position = query.length :=
  ⟨h.advance (Nat.le_refl _), h.length_rest⟩

end StandsIn

theorem standsIn_start (query : Text) : StandsIn query (start query) :=
  ⟨Nat.zero_le _, rfl⟩

/-! ### Steps in a row -/

/-- The place that a number of steps in a row leave. -/
def after (cursor : Cursor) : Nat → Cursor
  | 0 => cursor
  | n + 1 => cursor.next.2.after n

theorem after_succ (cursor : Cursor) (n : Nat) :
    cursor.after (n + 1) = (cursor.after n).next.2 := by
  induction n generalizing cursor with
  | zero => rfl
  | succ n ih => exact ih cursor.next.2

/-- A step that leaves the cursor where it stands is repeated ever after. -/
theorem next_after {cursor : Cursor} {result : Except LexError Token}
    (h : cursor.next = (result, cursor)) (n : Nat) : (cursor.after n).next = (result, cursor) := by
  induction n with
  | zero => exact h
  | succ n ih =>
    rw [after_succ, ih]
    exact h

theorem steps_eq_map (cursor : Cursor) (n : Nat) :
    cursor.steps n = (List.range n).map fun i => (cursor.after i).next.1 := by
  induction n generalizing cursor with
  | zero => rfl
  | succ n ih =>
    rw [steps, ih, List.range_succ_eq_map, List.map_cons, List.map_map]
    rfl

/-- What a step over a query does to the place of the cursor, and to the steps that follow. -/
structure Advances (query : Text) (before : Cursor) (result : Except LexError Token)
    (after : Cursor) : Prop where
  forward : before.position ≤ after.position
  inside : after.position ≤ query.length
  token : ∀ token, result = .ok token → token.kind ≠ .eof → before.position < after.position
  openString : ∀ p, result = .error (.unterminatedString p) → after.position = query.length
  openBrace : ∀ p, result = .error (.unterminatedBrace p) → after.position = query.length
  sign : ∀ p, result = .error (.danglingSign p) →
    after.position = p ∧ Text.StandsAt ['-'] p query ∧ ∀ m, (after.after m).next = (result, after)
  eof : ∀ token, result = .ok token → token.kind = .eof →
    ∀ m, (after.after m).next = (result, after)

/-- What a step does behind the blanks it does from before them. -/
theorem Advances.of_le {query : Text} {before here after : Cursor}
    {result : Except LexError Token} (h : Advances query here result after)
    (hle : before.position ≤ here.position) : Advances query before result after where
  forward := Nat.le_trans hle h.forward
  inside := h.inside
  token := fun token hr hk => Nat.lt_of_le_of_lt hle (h.token token hr hk)
  openString := h.openString
  openBrace := h.openBrace
  sign := h.sign
  eof := h.eof

/-- The step from a place where no blank stands leaves a place in the query. -/
theorem Moves.advances {query : Text} {here : Cursor} {outcome : Except LexError Token × Cursor}
    (hm : Moves here outcome) (hn : here.next = outcome) (h : StandsIn query here) :
    StandsIn query outcome.2 ∧ Advances query here outcome.1 outcome.2 := by
  cases hm with
  | finish hrest =>
    refine ⟨h, Nat.le_refl _, h.position_le, ?_, nofun, nofun, nofun, ?_⟩
    · rintro token ⟨⟩ hk
      exact absurd rfl hk
    · exact fun _ _ _ => next_after hn
  | lexeme hpos hle hk =>
    have hstands := h.advance hle
    refine ⟨hstands, Nat.le_add_right _ _, hstands.position_le, ?_, nofun, nofun, nofun, ?_⟩
    · exact fun _ _ _ => Nat.lt_add_of_pos_right hpos
    · rintro token ⟨⟩ heof
      exact absurd heof hk
  | opened fault hf =>
    obtain ⟨hstands, hend⟩ := h.atEnd
    refine ⟨hstands, Nat.le_add_right _ _, hstands.position_le, nofun, fun _ _ => hend,
      fun _ _ => hend, ?_, nofun⟩
    cases fault with
    | openString => nofun
    | openBrace => nofun
    | danglingSign => exact absurd rfl hf
  | sign hd =>
    refine ⟨h, Nat.le_refl _, h.position_le, nofun, nofun, nofun, ?_, nofun⟩
    rintro p ⟨⟩
    refine ⟨rfl, ?_, next_after hn⟩
    show ['-'] <+: query.drop here.position
    obtain ⟨tail, htail⟩ := List.head?_eq_some_iff.1 hd
    rw [← h.rest_eq, htail]
    exact List.prefix_append ['-'] tail

theorem StandsIn.next {query : Text} {cursor : Cursor} (h : StandsIn query cursor) :
    StandsIn query cursor.next.2 ∧ Advances query cursor cursor.next.1 cursor.next.2 := by
  have hstep := cursor.moves.advances cursor.next_skipBlanks h.skipBlanks
  exact ⟨hstep.1, hstep.2.of_le (Nat.le_add_right _ _)⟩

theorem StandsIn.after {query : Text} {cursor : Cursor} (h : StandsIn query cursor) (n : Nat) :
    StandsIn query (cursor.after n) := by
  induction n with
  | zero => exact h
  | succ n ih =>
    rw [after_succ]
    exact ih.next.1

/-! ### The steps of `tokenize` -/

/-- What `tokenize` makes of the results of steps in a row: the tokens up to the end, or the first
fault. There is nothing if the results stop short of both. -/
def gather : List (Except LexError Token) → Option (Except LexError (List Token))
  | [] => none
  | .error e :: _ => some (.error e)
  | .ok token :: rest =>
    if token.kind = .eof then some (.ok [token])
    else if token.kind = .error then
      some (.error (.unexpectedCharacter (token.lexeme.headD '\x00') token.position))
    else (gather rest).map fun more => more.map (token :: ·)

/-- One step more than there are characters left is enough, as each token but the end uses up at
least one of them. -/
theorem gather_steps (cursor : Cursor) {n : Nat} (h : cursor.rest.length < n) :
    gather (cursor.steps n) = some cursor.tokens := by
  induction n generalizing cursor with
  | zero => exact absurd h (Nat.not_lt_zero _)
  | succ n ih =>
    rw [tokens_eq, steps]
    rcases hnext : cursor.next with ⟨e | token, after⟩
    · rfl
    · simp only [gather]
      split
      · rfl
      · next hk =>
        have hlt := length_next_lt hnext hk
        rw [ih after (Nat.lt_of_lt_of_le hlt (Nat.le_of_lt_succ h))]
        split <;> rfl

/-- **Steps over a query stay in the query and only move forward**, also behind an error, and the
first ones, one more than the query has characters, are all that `tokenize` needs. -/
theorem advances_start (query : Text) :
    (∀ n, Advances query ((start query).after n) ((start query).after n).next.1
      ((start query).after (n + 1))) ∧
    gather ((List.range (query.length + 1)).map fun n => ((start query).after n).next.1) =
      some (tokenize query) := by
  refine ⟨fun n => ?_, ?_⟩
  · rw [after_succ]
    exact ((standsIn_start query).after n).next.2
  · rw [← steps_eq_map]
    exact gather_steps (start query) (Nat.lt_succ_self _)

end Cursor
end Triage
