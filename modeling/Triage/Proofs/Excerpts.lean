import Triage.Proofs.Sameness
import Triage.Selection

/-! Which pieces of a text are found in it in lower case.

Search that does not count case looks for one text in lower case inside another. A
piece of a text in lower case is what the whole text in lower case has in its place
(`Text.lowerWithin`), but for a capital sigma, whose form depends on the letters around
it. A sigma is settled when its own piece holds the letters that decide on its form.
Pieces whose sigmas are settled are found in every text that they stand in, and any
other piece stands in a text in which it is not found
(`Filter.exact_subset_iff_settled`). -/
namespace Triage

namespace Text

/-! ### Pieces in lower case -/

/-- A piece of a text in lower case where it stands, between the characters `before`, nearest
first, and the text `after`. -/
def lowerWithin (before after : Text) : Text → Text
  | [] => []
  | c :: rest => lowerBetween before c (rest ++ after) ++ lowerWithin (c :: before) after rest

theorem lowerAfter_append (before piece after : Text) :
    lowerAfter before (piece ++ after) =
      lowerWithin before after piece ++ lowerAfter (piece.reverse ++ before) after := by
  induction piece generalizing before with
  | nil => rfl
  | cons c rest ih =>
    rw [List.cons_append, lowerAfter, ih, lowerWithin, List.append_assoc, List.reverse_cons,
      List.append_assoc, List.singleton_append]

theorem lowerWithin_append (before after piece more : Text) :
    lowerWithin before after (piece ++ more) =
      lowerWithin before (more ++ after) piece ++
        lowerWithin (piece.reverse ++ before) after more := by
  induction piece generalizing before with
  | nil => rfl
  | cons c rest ih =>
    rw [List.cons_append, lowerWithin, ih, lowerWithin, List.append_assoc, List.append_assoc,
      List.reverse_cons, List.append_assoc, List.singleton_append]

theorem lowerWithin_nil (before t : Text) : lowerWithin before [] t = lowerAfter before t := by
  have h := lowerAfter_append before t []
  rwa [List.append_nil, lowerAfter, List.append_nil, eq_comm] at h

/-- A text in lower case is its pieces in lower case where they stand. -/
theorem lower_around (front piece after : Text) :
    lower (front ++ piece ++ after) =
      lowerWithin [] (piece ++ after) front ++ lowerWithin front.reverse after piece ++
        lowerWithin (piece.reverse ++ front.reverse) [] after := by
  rw [lower, List.append_assoc, lowerAfter_append, lowerAfter_append, List.append_nil,
    lowerWithin_nil, List.append_assoc]

/-! ### Settled sigmas -/

theorem meetsCased_append (s t : Text) :
    meetsCased (s ++ t) = if s.all isCaseIgnorable then meetsCased t else meetsCased s := by
  induction s with
  | nil => rfl
  | cons c s ih =>
    rw [List.cons_append, meetsCased_cons, meetsCased_cons, ih]
    cases hc : isCaseIgnorable c <;> simp [hc]

/-- Whether these characters before a capital sigma, nearest first, and these behind it decide on
its form, whatever stands farther away: a letter behind it makes it no final sigma, no letter
before it neither, and only if both sides are told can it be known as a final one. -/
def settledBetween (before after : Text) : Bool :=
  meetsCased after ||
    !before.all isCaseIgnorable && (!meetsCased before || !after.all isCaseIgnorable)

/-- Whether the capital sigmas in the rest of a text, after the characters `before`, are settled. -/
def settledAfter (before : Text) : Text → Bool
  | [] => true
  | c :: rest => (c ≠ 'Σ' || settledBetween before rest) && settledAfter (c :: before) rest

/-- Whether the capital sigmas of a text have the same form in every text it stands in. -/
def Settled (t : Text) : Prop := settledAfter [] t = true

instance (t : Text) : Decidable t.Settled := inferInstanceAs (Decidable (_ = true))

theorem not_all_of_meetsCased {t : Text} (h : meetsCased t = true) :
    t.all isCaseIgnorable = false := by
  apply Bool.eq_false_iff.2
  intro hall
  have happend := meetsCased_append t []
  rw [List.append_nil, h, if_pos hall] at happend
  exact Bool.noConfusion happend

/-- A settled sigma has the form that its own piece gives it. -/
theorem lowerBetween_of_settled {before after : Text} (h : settledBetween before after = true)
    (outer behind : Text) :
    lowerBetween (before ++ outer) 'Σ' (after ++ behind) = lowerBetween before 'Σ' after := by
  have hfinal : (meetsCased (before ++ outer) && !meetsCased (after ++ behind)) =
      (meetsCased before && !meetsCased after) := by
    rw [meetsCased_append, meetsCased_append]
    unfold settledBetween at h
    cases hafter : meetsCased after with
    | true => simp [not_all_of_meetsCased hafter]
    | false =>
      rw [hafter, Bool.false_or, Bool.and_eq_true, Bool.or_eq_true, Bool.not_eq_true',
        Bool.not_eq_true', Bool.not_eq_true'] at h
      obtain ⟨hbefore, hcased | hall⟩ := h
      · simp [hbefore, hcased]
      · simp [hbefore, hall]
  rw [lowerBetween, lowerBetween, if_pos rfl, if_pos rfl, hfinal]

/-- A piece whose sigmas are settled is the same in lower case wherever it stands. -/
theorem lowerWithin_of_settled {before t : Text} (h : settledAfter before t = true)
    (outer behind : Text) : lowerWithin (before ++ outer) behind t = lowerAfter before t := by
  induction t generalizing before with
  | nil => rfl
  | cons c rest ih =>
    obtain ⟨hchar, hrest⟩ := Bool.and_eq_true_iff.1 h
    have hbetween : lowerBetween (before ++ outer) c (rest ++ behind) =
        lowerBetween before c rest := by
      by_cases hc : c = 'Σ'
      · subst hc
        exact lowerBetween_of_settled (by simpa using hchar) outer behind
      · rw [lowerBetween, lowerBetween, if_neg hc, if_neg hc]
    rw [lowerWithin, hbetween, lowerAfter, ← ih hrest, List.cons_append]

/-- A settled piece is found in every text that it stands in. -/
theorem Settled.lower_infix {piece : Text} (h : piece.Settled) {t : Text} (ht : piece <:+: t) :
    piece.lower <:+: t.lower := by
  obtain ⟨front, after, rfl⟩ := ht
  have hpiece : lowerWithin front.reverse after piece = piece.lower :=
    lowerWithin_of_settled h front.reverse after
  rw [lower_around, hpiece]
  exact List.infix_append _ _ _

/-! ### Pieces that are not settled -/

/-- The small sigmas, final or not. -/
def isSigma (c : Char) : Bool := c = 'σ' || c = 'ς'

/-- Casing puts a small sigma in the same places, whatever stands around. -/
theorem map_isSigma_lowerWithin (before after t : Text) :
    (lowerWithin before after t).map isSigma = t.fold.map isSigma := by
  induction t generalizing before with
  | nil => rfl
  | cons c rest ih =>
    have hchar : (lowerBetween before c (rest ++ after)).map isSigma =
        (lowerChar c).map isSigma := by
      unfold lowerBetween
      split
      · next hc =>
        subst hc
        rw [lowerChar_sigma.1]
        split <;> rfl
      · rfl
    rw [lowerWithin, List.map_append, hchar, ih, fold, fold, List.flatMap_cons, List.map_append]

theorem length_eq_of_sigmas {s t : Text} (h : s.map isSigma = t.map isSigma) :
    s.length = t.length := by
  simpa using congrArg List.length h

theorem countP_eq_of_sigmas {s t : Text} (h : s.map isSigma = t.map isSigma) :
    s.countP isSigma = t.countP isSigma := by
  have hcount := congrArg (List.countP id) h
  rwa [List.countP_map, List.countP_map] at hcount

theorem findIdx_eq_of_sigmas {s t : Text} (h : s.map isSigma = t.map isSigma) :
    s.findIdx isSigma = t.findIdx isSigma := by
  have hfirst := congrArg (List.findIdx id) h
  rwa [List.findIdx_map, List.findIdx_map] at hfirst

/-- The first sigma behind a text without one. -/
theorem findIdx_append_of_countP {front t : Text} (h : front.countP isSigma = 0) :
    (front ++ t).findIdx isSigma = t.findIdx isSigma + front.length := by
  have hnone : ¬ front.findIdx isSigma < front.length := by
    rw [List.findIdx_lt_length]
    rintro ⟨c, hc, hsigma⟩
    exact List.countP_eq_zero.1 h c hc hsigma
  rw [List.findIdx_append, if_neg hnone]

theorem findIdx_append_of_countP_ne {t : Text} (h : t.countP isSigma ≠ 0) (after : Text) :
    (t ++ after).findIdx isSigma = t.findIdx isSigma := by
  rw [List.findIdx_append,
    if_pos (List.findIdx_lt_length.2 (List.countP_pos_iff.1 (Nat.pos_of_ne_zero h)))]

/-- A text that stands around a piece without sigmas of its own, and has sigmas in the places of
the piece, only holds the piece there: its first sigma has to be the first one of the piece. -/
theorem eq_of_infix_of_sigmas {s t left right : Text} (h : s <:+: left ++ t ++ right)
    (hsame : s.map isSigma = t.map isSigma) (hsigma : s.countP isSigma ≠ 0)
    (hleft : left.countP isSigma = 0) (hright : right.countP isSigma = 0) : s = t := by
  obtain ⟨front, after, heq⟩ := h
  have hcounts := congrArg (List.countP isSigma) heq
  simp only [List.countP_append, hleft, hright, countP_eq_of_sigmas hsame] at hcounts
  have hfront : front.countP isSigma = 0 := by omega
  have ht : t.countP isSigma ≠ 0 := countP_eq_of_sigmas hsame ▸ hsigma
  have hfirsts := congrArg (List.findIdx isSigma) heq
  rw [List.append_assoc, List.append_assoc, findIdx_append_of_countP hfront,
    findIdx_append_of_countP hleft, findIdx_append_of_countP_ne hsigma,
    findIdx_append_of_countP_ne ht, findIdx_eq_of_sigmas hsame] at hfirsts
  rw [List.append_assoc, List.append_assoc] at heq
  have hrest := (List.append_inj heq (by omega)).2
  exact (List.append_inj hrest (length_eq_of_sigmas hsame)).1

/-- Where a sigma of a text is not settled, the text is two around it. -/
theorem exists_unsettled {before t : Text} (h : settledAfter before t = false) :
    ∃ front after, t = front ++ 'Σ' :: after ∧
      settledBetween (front.reverse ++ before) after = false := by
  induction t generalizing before with
  | nil => exact Bool.noConfusion h
  | cons c rest ih =>
    by_cases hc : (c ≠ 'Σ' || settledBetween before rest) = true
    · rw [settledAfter, hc, Bool.true_and] at h
      obtain ⟨front, after, rfl, hbetween⟩ := ih h
      refine ⟨c :: front, after, rfl, ?_⟩
      rwa [List.reverse_cons, List.append_assoc, List.singleton_append]
    · obtain ⟨rfl, hbetween⟩ : c = 'Σ' ∧ settledBetween before rest = false := by simpa using hc
      exact ⟨[], rest, rfl, hbetween⟩

/-- A letter before or behind a piece changes the form of a sigma that is not settled in it. -/
theorem lowerBetween_ne_of_unsettled {before after : Text}
    (h : settledBetween before after = false) :
    lowerBetween (before ++ ['a']) 'Σ' after ≠ lowerBetween before 'Σ' after ∨
      lowerBetween before 'Σ' (after ++ ['a']) ≠ lowerBetween before 'Σ' after := by
  have hletter : meetsCased ['a'] = true := by decide +kernel
  obtain ⟨hafter, hbefore⟩ := Bool.or_eq_false_iff.1 h
  cases hopen : before.all isCaseIgnorable with
  | true =>
    -- Nothing before the sigma makes it final, and the letter does.
    have hcased : meetsCased before = false := by
      have := meetsCased_append before []
      rwa [List.append_nil, if_pos hopen] at this
    left
    simp [lowerBetween, meetsCased_append, hopen, hletter, hafter, hcased]
  | false =>
    -- The sigma is final for nothing stands behind it, and the letter comes to stand there.
    obtain ⟨hcased, hall⟩ : meetsCased before = true ∧ after.all isCaseIgnorable = true := by
      simpa [hopen] using hbefore
    right
    simp [lowerBetween, meetsCased_append, hall, hletter, hafter, hcased]

/-- Where a piece is the same in lower case in two places, each of its sigmas is. -/
theorem lowerBetween_eq_of_lowerWithin {before after outer behind front rest : Text}
    (h : lowerWithin before after (front ++ 'Σ' :: rest) =
      lowerWithin outer behind (front ++ 'Σ' :: rest)) :
    lowerBetween (front.reverse ++ before) 'Σ' (rest ++ after) =
      lowerBetween (front.reverse ++ outer) 'Σ' (rest ++ behind) := by
  rw [lowerWithin_append, lowerWithin_append, lowerWithin, lowerWithin] at h
  have hlength : ∀ before after before' after' t,
      (lowerWithin before after t).length = (lowerWithin before' after' t).length := by
    intro before after before' after' t
    apply length_eq_of_sigmas
    rw [map_isSigma_lowerWithin, map_isSigma_lowerWithin]
  have hrest := (List.append_inj h (hlength _ _ _ _ front)).2
  exact (List.append_inj hrest rfl).1

/-- A piece that is found in a text around it is in lower case what stands in its place there, if
nothing else in the text is a sigma. -/
theorem lower_eq_of_infix {piece front after : Text} (hsigma : piece.fold.countP isSigma ≠ 0)
    (hfront : front.fold.countP isSigma = 0) (hafter : after.fold.countP isSigma = 0)
    (h : piece.lower <:+: lower (front ++ piece ++ after)) :
    lowerWithin [] [] piece = lowerWithin front.reverse after piece := by
  have hcount : ∀ before behind t, (lowerWithin before behind t).countP isSigma =
      t.fold.countP isSigma := by
    intro before behind t
    exact countP_eq_of_sigmas (map_isSigma_lowerWithin before behind t)
  rw [lower_around, lower, ← lowerWithin_nil] at h
  refine eq_of_infix_of_sigmas h ?_ ?_ ?_ ?_
  · rw [map_isSigma_lowerWithin, map_isSigma_lowerWithin]
  · rwa [hcount]
  · rwa [hcount]
  · rwa [hcount]

/-- A piece with a sigma that is not settled stands in a text in which it is not found. -/
theorem exists_not_lower_infix {piece : Text} (h : ¬ piece.Settled) :
    ∃ t : Text, piece <:+: t ∧ ¬ piece.lower <:+: t.lower := by
  obtain ⟨front, rest, hpiece, hbetween⟩ := exists_unsettled (Bool.eq_false_iff.2 h)
  have hletter : fold ['a'] = ['a'] := by decide +kernel
  have hsigma : piece.fold.countP isSigma ≠ 0 := by
    rw [hpiece, fold_around, lowerChar_sigma.1]
    simp [isSigma]
  -- In a text that holds the piece in lower case the sigma would have the same form there.
  have hform : ∀ outer behind : Text, outer.fold.countP isSigma = 0 →
      behind.fold.countP isSigma = 0 →
      piece.lower <:+: lower (outer ++ piece ++ behind) →
      lowerBetween (front.reverse ++ []) 'Σ' (rest ++ []) =
        lowerBetween (front.reverse ++ outer.reverse) 'Σ' (rest ++ behind) := by
    intro outer behind houter hbehind hfound
    have hsame := lower_eq_of_infix hsigma houter hbehind hfound
    rw [hpiece] at hsame
    exact lowerBetween_eq_of_lowerWithin hsame
  rw [List.append_nil] at hbetween
  simp only [List.append_nil] at hform
  rcases lowerBetween_ne_of_unsettled hbetween with hne | hne
  · refine ⟨['a'] ++ piece ++ [], List.infix_append _ _ _, fun hfound => hne ?_⟩
    have := hform ['a'] [] (by rw [hletter]; rfl) rfl hfound
    rwa [List.append_nil, List.reverse_singleton, eq_comm] at this
  · refine ⟨[] ++ piece ++ ['a'], List.infix_append _ _ _, fun hfound => hne ?_⟩
    have := hform [] ['a'] rfl (by rw [hletter]; rfl) hfound
    rwa [List.reverse_nil, List.append_nil, eq_comm] at this

end Text

/-! ### Search -/

theorem Content.anyText_mono {test weaker : Text → Bool}
    (h : ∀ t, test t = true → weaker t = true) {content : Content}
    (hc : content.anyText test = true) : content.anyText weaker = true := by
  cases content with
  | absent | instant i => exact Bool.noConfusion hc
  | text t => exact h t hc
  | integer n => exact h _ hc
  | list items =>
    obtain ⟨t, ht, htest⟩ := List.any_eq_true.1 hc
    exact List.any_eq_true.2 ⟨t, ht, h t htest⟩

namespace Filter

variable {part t : Text}

theorem finds_exact_iff : finds part true t = true ↔ part <:+: t := Text.holds_iff_infix part t

theorem finds_lower_iff : finds part false t = true ↔ part.lower <:+: t.lower :=
  Text.holds_iff_infix part.lower t.lower

/-- A settled text is found wherever exact search finds it. -/
theorem accepts_contains_of_settled (h : part.Settled) {now : Moment} {issue : Issue}
    {scope : Option Field} (hexact : (contains scope part true).accepts now issue = true) :
    (contains scope part false).accepts now issue = true := by
  obtain ⟨field, hfield, hfound⟩ := List.any_eq_true.1 hexact
  refine List.any_eq_true.2 ⟨field, hfield, Content.anyText_mono (fun t ht => ?_) hfound⟩
  exact finds_lower_iff.2 (h.lower_infix (finds_exact_iff.1 ht))

/-- Exact search finds a text in every field that it is copied from. -/
theorem accepts_contains_of_copied {now : Moment} {issue : Issue} {scope : Option Field}
    {field : Field} {front after : Text} (hfield : field ∈ searchedIn scope)
    (hget : issue.get field = .text (front ++ part ++ after)) :
    (contains scope part true).accepts now issue = true := by
  refine List.any_eq_true.2 ⟨field, hfield, ?_⟩
  rw [hget]
  exact finds_exact_iff.2 (List.infix_append _ _ _)

/-- A text that is found in every title that it is copied from is settled. -/
theorem settled_of_accepts (now : Moment)
    (h : ∀ (issue : Issue) (front after : Text), issue.get .title = .text (front ++ part ++ after) →
      (contains (some .title) part false).accepts now issue = true) : part.Settled := by
  apply Decidable.byContradiction
  intro hopen
  obtain ⟨_, ⟨front, after, rfl⟩, hlower⟩ := Text.exists_not_lower_infix hopen
  have hfound := h (Issue.new [] (front ++ part ++ after)) front after rfl
  obtain ⟨field, hfield, hfinds⟩ := List.any_eq_true.1 hfound
  obtain rfl := List.mem_singleton.1 hfield
  exact hlower (finds_lower_iff.1 hfinds)

/-- **Search finds without counting case what it finds exactly, for settled texts and no others.**
For a text whose capital sigmas are settled every issue that exact search accepts is accepted, and
so is every issue that it is copied from; any other text has an issue that tells the two apart. -/
theorem exact_subset_iff_settled (part : Text) :
    ((∀ now issue scope, (contains scope part true).accepts now issue = true →
      (contains scope part false).accepts now issue = true) ↔ part.Settled) ∧
    ((∀ now issue scope field front after, field ∈ searchedIn scope →
      issue.get field = .text (front ++ part ++ after) →
      (contains scope part false).accepts now issue = true) ↔ part.Settled) := by
  refine ⟨⟨fun hall => ?_, fun h now issue scope => accepts_contains_of_settled h⟩,
    ⟨fun hall => ?_, fun h now issue scope field front after hfield hget =>
      accepts_contains_of_settled h (accepts_contains_of_copied hfield hget)⟩⟩
  · refine settled_of_accepts (.universal .epoch) fun issue front after hget => ?_
    exact hall _ issue _ (accepts_contains_of_copied (List.mem_singleton_self _) hget)
  · refine settled_of_accepts (.universal .epoch) fun issue front after hget => ?_
    exact hall _ issue _ .title front after (List.mem_singleton_self _) hget

/-- A name is found by an inner part of it, whose sigmas have letters behind them. -/
theorem exact_subset_iff_settled_inner :
    Text.Settled "ΔΥΣΣΕ".toList ∧
      (contains none "ΔΥΣΣΕ".toList true).accepts (.universal .epoch)
        (Issue.new [] "ΟΔΥΣΣΕΑΣ".toList) = true ∧
      (contains none "ΔΥΣΣΕ".toList false).accepts (.universal .epoch)
        (Issue.new [] "ΟΔΥΣΣΕΑΣ".toList) = true := by
  have hsettled : Text.Settled "ΔΥΣΣΕ".toList := by decide +kernel
  have hexact : (contains none "ΔΥΣΣΕ".toList true).accepts (.universal .epoch)
      (Issue.new [] "ΟΔΥΣΣΕΑΣ".toList) = true := by decide +kernel
  exact ⟨hsettled, hexact, (exact_subset_iff_settled _).1.2 hsettled _ _ _ hexact⟩

/-- The first letters of a name do not find it: their last sigma is a final one. -/
theorem not_exact_subset_of_final_sigma :
    ¬ ∀ (now : Moment) (issue : Issue) (scope : Option Field) (part : Text),
      (contains scope part true).accepts now issue = true →
        (contains scope part false).accepts now issue = true := by
  intro h
  have hname := h (.universal .epoch) (Issue.new [] "ΟΔΥΣΣΕΑΣ".toList) (some .title) "ΟΔΥΣ".toList
  revert hname
  decide +kernel

end Filter
end Triage
