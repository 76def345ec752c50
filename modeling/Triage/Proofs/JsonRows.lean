import Mathlib.Data.List.Forall2
import Triage.Proofs.JsonText

/-! JSON values next to each other.

A text that is read by itself makes the same tokens with more behind it, as long as what
is behind does not go on with a number (`Json.makes_of_tokens?`). Its tokens are read as
the same value inside arrays and objects that are open around them, because no step looks
at those before the value is there (`Json.State.next?_inside`). So texts that are read one
by one are read together, with commas between them and brackets around, as the array of
their values (`Json.read?_array`). -/
namespace Triage.Json

/-! ### Tokens with more behind them -/

section More

variable {text rest : Text} {token : Token} {n : Nat}

/-- The digits at the front of a text stay with more behind it that ends a number. -/
theorem takeWhile_isDigit_append (hr : EndsNumber rest) (text : Text) :
    (text ++ rest).takeWhile Char.isDigit = text.takeWhile Char.isDigit :=
  takeWhile_append_of_head (fun c hc => (hr c hc).1) text

theorem takeWhile_isDigit_drop_append (hr : EndsNumber rest) (h : n ≤ text.length) :
    ((text ++ rest).drop n).takeWhile Char.isDigit = (text.drop n).takeWhile Char.isDigit := by
  rw [List.drop_append_of_le_length h, takeWhile_isDigit_append hr]

theorem fractionLength?_append (hr : EndsNumber rest) (h : fractionLength? text = some n) :
    fractionLength? (text ++ rest) = some n ∧ n ≤ text.length := by
  unfold fractionLength? at h
  split at h
  · next text =>
    have hlength := (List.takeWhile_sublist Char.isDigit (l := text)).length_le
    rw [List.cons_append, fractionLength?, takeWhile_isDigit_append hr]
    refine ⟨h, ?_⟩
    simp only [Option.ite_none_left_eq_some, Option.some.injEq] at h
    rw [List.length_cons]
    omega
  · next hpoint =>
    obtain rfl := Option.some.inj h
    refine ⟨?_, Nat.zero_le _⟩
    cases text with
    | nil => exact fractionLength?_ends hr
    | cons c text =>
      rw [List.cons_append, fractionLength?]
      rintro more heq
      exact hpoint _ (congrArg (· :: text) (List.cons.inj heq).1)

/-- What comes behind the letter of an exponent: a sign or none, and digits. -/
theorem exponentLength?_cons {c : Char} (hc : c = 'e' ∨ c = 'E') (text : Text) :
    exponentLength? (c :: text) =
      let sign := if text.head? = some '+' ∨ text.head? = some '-' then 1 else 0
      let n := ((text.drop sign).takeWhile Char.isDigit).length
      if n = 0 then none else some (n + sign + 1) := by
  obtain rfl | rfl := hc <;> rfl

theorem exponentLength?_of_ne {c : Char} (hc : ¬ (c = 'e' ∨ c = 'E')) (text : Text) :
    exponentLength? (c :: text) = some 0 := by
  unfold exponentLength?
  split
  · next heq => exact absurd (.inl (List.cons.inj heq).1) hc
  · next heq => exact absurd (.inr (List.cons.inj heq).1) hc
  · rfl

theorem exponentLength?_append (hr : EndsNumber rest) (h : exponentLength? text = some n) :
    exponentLength? (text ++ rest) = some n ∧ n ≤ text.length := by
  cases text with
  | nil =>
    obtain rfl := Option.some.inj h
    exact ⟨exponentLength?_ends hr, Nat.le_refl _⟩
  | cons c text =>
    by_cases hc : c = 'e' ∨ c = 'E'
    · rw [exponentLength?_cons hc] at h
      rw [List.cons_append, exponentLength?_cons hc]
      cases text with
      | nil => exact absurd h (by simp)
      | cons d text =>
        have hsign : (if (d :: text).head? = some '+' ∨ (d :: text).head? = some '-' then 1 else 0) ≤
            (d :: text).length := by
          split <;> simp
        have hlength := (List.takeWhile_sublist Char.isDigit (l := (d :: text).drop
          (if (d :: text).head? = some '+' ∨ (d :: text).head? = some '-' then 1 else 0))).length_le
        rw [List.length_drop] at hlength
        have hhead : (d :: text ++ rest).head? = (d :: text).head? := rfl
        simp only [hhead, takeWhile_isDigit_drop_append hr hsign]
        refine ⟨h, ?_⟩
        simp only [Option.ite_none_left_eq_some, Option.some.injEq] at h
        rw [List.length_cons]
        omega
    · rw [exponentLength?_of_ne hc] at h
      obtain rfl := Option.some.inj h
      exact ⟨exponentLength?_of_ne hc _, Nat.zero_le _⟩

/-- The digits that count, one zero or all, are some of the digits. -/
theorem wholeLength_le (digits : Text) :
    (if digits.head? = some '0' then 1 else digits.length) ≤ digits.length := by
  cases digits with
  | nil => simp
  | cons c digits => split <;> simp

/-- A number is read to its end with more behind it. -/
theorem number?_append (hr : EndsNumber rest) (h : number? text = some (token, n)) :
    number? (text ++ rest) = some (token, n) ∧ n ≤ text.length := by
  cases text with
  | nil => exact absurd h (by simp [number?])
  | cons c text =>
    have hhead : (c :: text ++ rest).head? = (c :: text).head? := rfl
    have hsign : (if (c :: text).head? = some '-' then 1 else 0) ≤ (c :: text).length := by
      split <;> simp
    unfold number? at h ⊢
    simp only [hhead, takeWhile_isDigit_drop_append hr hsign] at h ⊢
    generalize (if (c :: text).head? = some '-' then 1 else 0) = sign at *
    have hdigits := (List.takeWhile_sublist Char.isDigit (l := (c :: text).drop sign)).length_le
    rw [List.length_drop] at hdigits
    generalize ((c :: text).drop sign).takeWhile Char.isDigit = digits at *
    have hwhole := wholeLength_le digits
    generalize (if digits.head? = some '0' then 1 else digits.length) = whole at *
    split at h
    · exact absurd h (by simp)
    · next hne =>
      simp only [if_neg hne, Option.bind_eq_bind, Option.bind_eq_some_iff] at h ⊢
      obtain ⟨fraction, hfraction, exponent, hexponent, h⟩ := h
      obtain ⟨hfraction', hle⟩ := fractionLength?_append hr hfraction
      obtain ⟨hexponent', hle'⟩ := exponentLength?_append hr hexponent
      rw [List.length_drop] at hle hle'
      have hlength : sign + whole + fraction + exponent ≤ (c :: text).length := by omega
      refine ⟨⟨fraction, ?_, exponent, ?_, ?_⟩, ?_⟩
      · rwa [List.drop_append_of_le_length (by omega)]
      · rwa [List.drop_append_of_le_length (by omega)]
      · rwa [List.take_append_of_le_length hlength]
      · split at h
        all_goals
          obtain rfl := (Prod.mk.inj (Option.some.inj h)).2
          exact hlength

/-- A string is read to its closing quote, whatever is behind it. -/
theorem symbols?_append {symbols : List Symbol} (h : symbols? text = some (symbols, n))
    (rest : Text) : symbols? (text ++ rest) = some (symbols, n) ∧ n ≤ text.length := by
  fun_induction symbols? text generalizing symbols n with
  | case1 => exact absurd h (by simp)
  | case2 text =>
    obtain ⟨rfl, rfl⟩ := Prod.mk.inj (Option.some.inj h)
    exact ⟨by rw [List.cons_append, symbols?], by simp⟩
  | case3 a b c d text ih =>
    simp only [Option.bind_eq_bind, Option.bind_eq_some_iff, Option.pure_def, Option.some.injEq,
      Prod.mk.injEq] at h
    obtain ⟨unit, hunit, ⟨more, m⟩, hmore, rfl, rfl⟩ := h
    obtain ⟨hmore', hle⟩ := ih hmore
    simp only [List.cons_append, symbols?, hunit, hmore']
    exact ⟨rfl, by simp only [List.length_cons]; omega⟩
  | case4 c text hu ih =>
    simp only [Option.bind_eq_bind, Option.bind_eq_some_iff, Option.pure_def, Option.some.injEq,
      Prod.mk.injEq] at h
    obtain ⟨e, he, ⟨more, m⟩, hmore, rfl, rfl⟩ := h
    obtain ⟨hmore', hle⟩ := ih hmore
    rw [List.cons_append, List.cons_append, symbols?_escape he, hmore']
    exact ⟨rfl, by simp only [List.length_cons]; omega⟩
  | case5 c text hq hu hb hc => exact absurd h (by simp)
  | case6 c text hq hu hb hc ih =>
    simp only [Option.bind_eq_bind, Option.bind_eq_some_iff, Option.pure_def, Option.some.injEq,
      Prod.mk.injEq] at h
    obtain ⟨⟨more, m⟩, hmore, rfl, rfl⟩ := h
    obtain ⟨hmore', hle⟩ := ih hmore
    obtain ⟨hc, hb⟩ := not_or.1 hc
    rw [List.cons_append, symbols?_plain hq hb hc, hmore']
    exact ⟨rfl, by simp only [List.length_cons]; omega⟩

/-- A token is read to its end with more behind it. -/
theorem token?_append {c : Char} (hr : EndsNumber rest) (h : token? c text = some (token, n)) :
    token? c (text ++ rest) = some (token, n) ∧ n ≤ text.length := by
  have hword : ∀ {word : Text} {t : Token},
      (if word.isPrefixOf text then some (t, word.length) else none) = some (token, n) →
      (if word.isPrefixOf (text ++ rest) then some (t, word.length) else none) = some (token, n) ∧
        n ≤ text.length := by
    intro word t hw
    split at hw
    · next hprefix =>
      obtain ⟨more, rfl⟩ := List.isPrefixOf_iff_prefix.1 hprefix
      obtain ⟨rfl, rfl⟩ := Prod.mk.inj (Option.some.inj hw)
      rw [List.append_assoc, if_pos (List.isPrefixOf_iff_prefix.2 (List.prefix_append _ _))]
      exact ⟨rfl, by simp⟩
    · exact absurd hw (by simp)
  unfold token? at h ⊢
  split at h
  case h_7 =>
    obtain ⟨⟨symbols, m⟩, hsymbols, heq⟩ := Option.map_eq_some_iff.1 h
    obtain ⟨hsymbols', hle⟩ := symbols?_append hsymbols rest
    obtain ⟨rfl, rfl⟩ := Prod.mk.inj heq
    exact ⟨by simp only [hsymbols', Option.map_some], hle⟩
  case h_8 => exact hword h
  case h_9 => exact hword h
  case h_10 => exact hword h
  case h_11 =>
    split at h
    · next hc =>
      obtain ⟨⟨t, m⟩, hnumber, heq⟩ := Option.map_eq_some_iff.1 h
      obtain ⟨hnumber', hle⟩ := number?_append hr hnumber
      rw [List.length_cons] at hle
      obtain ⟨rfl, rfl⟩ := Prod.mk.inj heq
      rw [if_pos hc, ← List.cons_append, hnumber']
      exact ⟨rfl, by omega⟩
    · exact absurd h (by simp)
  all_goals
    obtain ⟨rfl, rfl⟩ := Prod.mk.inj (Option.some.inj h)
    exact ⟨rfl, Nat.zero_le _⟩

/-- **A text that is read by itself makes its tokens in front of other text.** -/
theorem makes_of_tokens? {ts : List Token} (hr : EndsNumber rest) (h : tokens? text = some ts) :
    Makes text rest ts := by
  fun_induction tokens? text generalizing ts with
  | case1 =>
    obtain rfl := Option.some.inj h
    exact makes_nil rest
  | case2 c text hs ih =>
    have hspace : Makes [c] (text ++ rest) [] := makes_spaces (by simpa using hs) (text ++ rest)
    exact hspace.append (ih h)
  | case3 c text hs ih =>
    simp only [Option.bind_eq_bind, Option.bind_eq_some_iff, Option.pure_def, Option.some.injEq] at h
    obtain ⟨⟨token, n⟩, htoken, more, hmore, rfl⟩ := h
    -- The token takes some characters from the front, and the rest is shorter.
    obtain ⟨htoken', hle⟩ := token?_append hr htoken
    have hpiece : Makes (c :: text.take n) (text.drop n ++ rest) [token] := by
      refine makes_token (by simpa using hs) ?_
      rw [← List.append_assoc, List.take_append_drop, htoken', List.length_take,
        Nat.min_eq_left hle]
    have hboth := hpiece.append (ih n hmore)
    rwa [List.cons_append, List.take_append_drop] at hboth

end More

/-! ### Values inside others -/

namespace State

/-- A state with more arrays and objects open around it. -/
def inside (outer : List Frame) : State → State
  | value opened => value (opened ++ outer)
  | firstItem opened => firstItem (opened ++ outer)
  | afterItem items opened => afterItem items (opened ++ outer)
  | firstKey opened => firstKey (opened ++ outer)
  | key members opened => key members (opened ++ outer)
  | afterKey members symbols opened => afterKey members symbols (opened ++ outer)
  | afterMember members opened => afterMember members (opened ++ outer)
  | finished v => give v outer

variable {s t : State} {token : Token}

theorem inside_give (v : Json) (opened outer : List Frame) :
    (give v opened).inside outer = give v (opened ++ outer) := by
  cases opened with
  | nil => rfl
  | cons frame opened => cases frame <;> rfl

theorem begin?_append (opened outer : List Frame) (token : Token) :
    begin? (opened ++ outer) token = (begin? opened token).map (inside outer) := by
  cases token <;> first | rfl | exact congrArg some (inside_give _ opened outer).symm

/-- A step does what it does whatever is open around. -/
theorem next?_inside (h : s.next? token = some t) (outer : List Frame) :
    (s.inside outer).next? token = some (t.inside outer) := by
  have hbegin : ∀ opened, begin? opened token = some t →
      begin? (opened ++ outer) token = some (t.inside outer) := by
    intro opened h
    rw [begin?_append, h]
    rfl
  have hgive : ∀ v opened, some (give v opened) = some t →
      some (give v (opened ++ outer)) = some (t.inside outer) := by
    intro v opened h
    rw [← Option.some.inj h, inside_give]
  have hnone : ∀ {P : Prop}, none = some t → P := fun h =>
    absurd h.symm (Option.some_ne_none t)
  cases s with
  | value opened => exact hbegin opened h
  | firstItem opened =>
    cases token with
    | closeBracket => exact hgive (.array []) opened h
    | _ => exact hbegin (.array [] :: opened) h
  | afterItem items opened =>
    cases token with
    | closeBracket => exact hgive (.array items.reverse) opened h
    | comma =>
      obtain rfl := Option.some.inj h
      rfl
    | _ => exact hnone h
  | firstKey opened =>
    cases token with
    | closeBrace => exact hgive (.object []) opened h
    | string symbols =>
      obtain rfl := Option.some.inj h
      rfl
    | _ => exact hnone h
  | key members opened | afterKey members symbols opened =>
    cases token <;> first
      | exact hnone h
      | (obtain rfl := Option.some.inj h; rfl)
  | afterMember members opened =>
    cases token with
    | closeBrace => exact hgive (.object members.reverse) opened h
    | comma =>
      obtain rfl := Option.some.inj h
      rfl
    | _ => exact hnone h
  | finished v => exact hnone h

theorem run_inside {tokens : List Token} (h : s.run tokens = some t) (outer : List Frame) :
    (s.inside outer).run tokens = some (t.inside outer) := by
  induction tokens generalizing s with
  | nil =>
    obtain rfl := Option.some.inj h
    rfl
  | cons token tokens ih =>
    rw [run, List.foldlM_cons, Option.bind_eq_bind, Option.bind_eq_some_iff] at h
    obtain ⟨u, hu, h⟩ := h
    rw [run_cons (next?_inside hu outer)]
    exact ih h

end State

/-- Tokens that are read as a value are read as it whatever is open around it. -/
theorem run_of_ofTokens? {ts : List Token} {v : Json} (h : ofTokens? ts = some v)
    (outer : List Frame) : (State.value outer).run ts = some (.give v outer) := by
  unfold ofTokens? at h
  split at h
  · next w hrun =>
    obtain rfl := Option.some.inj h
    exact State.run_inside (s := .value []) hrun outer
  · exact absurd h (by simp)

/-- Tokens that are read as a value do not begin with the end of an array. -/
theorem exists_cons_of_ofTokens? {ts : List Token} {v : Json} (h : ofTokens? ts = some v) :
    ∃ token more, ts = token :: more ∧ token ≠ .closeBracket := by
  cases ts with
  | nil => exact absurd h (by simp [ofTokens?])
  | cons token more =>
    refine ⟨token, more, rfl, ?_⟩
    rintro rfl
    exact absurd h (by simp [ofTokens?, State.next?, State.begin?])

/-! ### Rows -/

/-- Texts that are read one by one, with commas between them, make tokens that are read as items
of an array behind those that are read already. -/
theorem exists_makes_join {texts : List Text} {values : List Json}
    (h : List.Forall₂ (fun text v => read? text = some v) texts values) (hne : texts ≠ []) :
    ∃ ts, (∀ rest, Makes (Text.join [','] texts) (']' :: rest) ts) ∧
      (∃ token more, ts = token :: more ∧ token ≠ .closeBracket) ∧
      ∀ done outer, (State.value (.array done :: outer)).run (ts ++ [.closeBracket]) =
        some (.give (.array (done.reverse ++ values)) outer) := by
  induction h with
  | nil => exact absurd rfl hne
  | @cons text v texts values hread hmore ih =>
    obtain ⟨ts, htokens, hts⟩ := Option.bind_eq_some_iff.1 hread
    obtain ⟨token, more, hcons, hopen⟩ := exists_cons_of_ofTokens? hts
    cases hmore with
    | nil =>
      refine ⟨ts, fun rest => ?_, ⟨token, more, hcons, hopen⟩, fun done outer => ?_⟩
      · rw [Text.join, List.intercalate_singleton]
        exact makes_of_tokens? (endsNumber_cons (by decide) rest) htokens
      · rw [State.run_append (run_of_ofTokens? hts (.array done :: outer)), ← List.reverse_cons]
        rfl
    | @cons next w texts values hnext hmore =>
      obtain ⟨us, hmakes, -, hrun⟩ := ih (List.cons_ne_nil next texts)
      refine ⟨ts ++ .comma :: us, fun rest => ?_, ⟨token, more ++ .comma :: us, ?_, hopen⟩,
        fun done outer => ?_⟩
      · rw [Text.join, List.intercalate_cons_cons, List.append_assoc]
        exact (makes_of_tokens? (endsNumber_cons (by decide) _) htokens).append
          ((makes_comma _).append (hmakes rest))
      · rw [hcons, List.cons_append]
      · have hitems := hrun (v :: done) outer
        rw [List.reverse_cons, List.append_assoc] at hitems
        rw [List.append_assoc, State.run_append (run_of_ofTokens? hts (.array done :: outer)),
          List.cons_append]
        exact hitems

/-- **Texts that are read one by one are read together as an array.** -/
theorem read?_array {texts : List Text} {values : List Json}
    (h : List.Forall₂ (fun text v => read? text = some v) texts values) :
    read? ('[' :: Text.join [','] texts ++ [']']) = some (.array values) := by
  cases h with
  | nil =>
    have htokens : Makes ['[', ']'] [] [.openBracket, .closeBracket] :=
      (makes_openBracket [']']).append (makes_closeBracket [])
    show read? ['[', ']'] = some (.array [])
    rw [read?, htokens.tokens?_eq]
    rfl
  | @cons text v texts values hread hmore =>
    obtain ⟨ts, hmakes, ⟨token, more, rfl, hopen⟩, hrun⟩ :=
      exists_makes_join (.cons hread hmore) (List.cons_ne_nil text texts)
    have htokens : Makes ('[' :: (Text.join [','] (text :: texts) ++ [']'])) []
        (.openBracket :: (token :: more ++ [.closeBracket])) :=
      (makes_openBracket _).append ((hmakes []).append (makes_closeBracket []))
    have hvalue : (State.value []).run (.openBracket :: (token :: more ++ [.closeBracket])) =
        some (.finished (.array (v :: values))) := by
      rw [State.run_cons (t := .firstItem []) rfl, List.cons_append, State.run_firstItem [] hopen]
      exact hrun [] []
    unfold State.run at hvalue
    rw [read?, List.cons_append, htokens.tokens?_eq, Option.bind_some, ofTokens?, hvalue]

end Triage.Json
