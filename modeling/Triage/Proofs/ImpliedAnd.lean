import Triage.Proofs.Grammar.Completeness
import Triage.Proofs.Grammar.Kinds

/-! The word `AND` may be left out.

The grammar joins conditions by `AND` or by nothing, to the same effect, and uses the
word nowhere else: no value, list or range takes it, and no sort key. So a derivation
stays one whichever of these words are left out (`Derives.omitsAnd`), and as the parser
accepts exactly what is derived, it reads the shorter row as the same query
(`Query.ofTokens_of_omitsAnd`). -/
namespace Triage

/-- A row of tokens, and the row without some of its `AND` tokens. -/
inductive OmitsAnd : List Token → List Token → Prop where
  | nil : OmitsAnd [] []
  | keep {token : Token} {ts us : List Token} :
      OmitsAnd ts us → OmitsAnd (token :: ts) (token :: us)
  | drop {and : Token} {ts us : List Token} :
      and.kind = .and → OmitsAnd ts us → OmitsAnd (and :: ts) us

namespace OmitsAnd

variable {ts us vs : List Token} {token : Token}

/-- What stands in a row in the order of the row, every token but an `AND` among it, is the row
without some of its `AND` tokens. -/
theorem of_sublist (h : us.Sublist ts)
    (hrest : us.filter (·.kind ≠ .and) = ts.filter (·.kind ≠ .and)) : OmitsAnd ts us := by
  induction h with
  | slnil => exact .nil
  | @cons us ts token h ih =>
    by_cases hk : token.kind = .and
    · rw [List.filter_cons_of_neg (by simpa using hk)] at hrest
      exact .drop hk (ih hrest)
    · -- A token that is no `AND` would be missing.
      rw [List.filter_cons_of_pos (by simpa using hk)] at hrest
      have hlength := (h.filter (·.kind ≠ .and)).length_le
      rw [hrest] at hlength
      exact absurd hlength (Nat.not_succ_le_self _)
  | @cons_cons us ts token h ih =>
    refine .keep (ih ?_)
    by_cases hk : token.kind = .and
    · rwa [List.filter_cons_of_neg (by simpa using hk),
        List.filter_cons_of_neg (by simpa using hk)] at hrest
    · rw [List.filter_cons_of_pos (by simpa using hk),
        List.filter_cons_of_pos (by simpa using hk)] at hrest
      exact (List.cons.inj hrest).2

theorem cons_inv (h : OmitsAnd (token :: ts) vs) (hk : token.kind ≠ .and) :
    ∃ us, vs = token :: us ∧ OmitsAnd ts us := by
  cases h with
  | keep h => exact ⟨_, rfl, h⟩
  | drop ha _ => exact absurd ha hk

/-- In two rows put together the words are left out of each. -/
theorem append_inv (h : OmitsAnd (ts ++ us) vs) :
    ∃ ts' us', vs = ts' ++ us' ∧ OmitsAnd ts ts' ∧ OmitsAnd us us' := by
  induction ts generalizing vs with
  | nil => exact ⟨[], vs, rfl, .nil, h⟩
  | cons token ts ih =>
    cases h with
    | keep h =>
      obtain ⟨ts', us', rfl, ht, hu⟩ := ih h
      exact ⟨token :: ts', us', rfl, .keep ht, hu⟩
    | drop hk h =>
      obtain ⟨ts', us', rfl, ht, hu⟩ := ih h
      exact ⟨ts', us', rfl, .drop hk ht, hu⟩

/-- Where no `AND` stands nothing is left out. -/
theorem eq_of_forall (h : OmitsAnd ts us) (hk : ∀ token ∈ ts, token.kind ≠ .and) : us = ts := by
  induction h with
  | nil => rfl
  | keep _ ih => rw [ih (List.forall_mem_cons.1 hk).2]
  | drop ha _ _ => exact absurd ha (List.forall_mem_cons.1 hk).1

theorem eq_of_isOperand (h : OmitsAnd ts us) (hk : ∀ token ∈ ts, token.kind.isOperand = true) :
    us = ts := by
  refine h.eq_of_forall fun token ht ha => ?_
  have hoperand := hk token ht
  rw [ha] at hoperand
  exact Bool.noConfusion hoperand

/-- Up to the end of a query the words are left out as well. -/
theorem takeWhile (h : OmitsAnd ts us) :
    OmitsAnd (ts.takeWhile (·.kind ≠ .eof)) (us.takeWhile (·.kind ≠ .eof)) := by
  induction h with
  | nil => exact .nil
  | @keep token ts us _ ih =>
    by_cases hk : token.kind = .eof
    · rw [List.takeWhile_cons_of_neg (by simpa using hk),
        List.takeWhile_cons_of_neg (by simpa using hk)]
      exact .nil
    · rw [List.takeWhile_cons_of_pos (by simpa using hk),
        List.takeWhile_cons_of_pos (by simpa using hk)]
      exact .keep ih
  | drop ha _ ih =>
    rw [List.takeWhile_cons_of_pos (by simp [ha])]
    exact .drop ha ih

end OmitsAnd

/-! ### Derivations -/

namespace Grammar

/-- A phrase means the same without some of its `AND` tokens. -/
theorem Phrase.omitsAnd {level : Level} {ts us : List Token} {f : Filter} (h : Phrase level ts f)
    (ho : OmitsAnd ts us) : Phrase level us f := by
  induction h generalizing us with
  | conjunction _ ih => exact .conjunction (ih ho)
  | negation _ ih => exact .negation (ih ho)
  | primary _ ih => exact .primary (ih ho)
  | or _ hor _ ihf ihg =>
    obtain ⟨ts, _, rfl, hleft, hrest⟩ := ho.append_inv
    obtain ⟨us, rfl, hright⟩ := hrest.cons_inv (Token.kind_ne hor (by decide))
    exact .or (ihf hleft) hor (ihg hright)
  | and _ hand _ ihf ihg =>
    obtain ⟨ts, _, rfl, hleft, hrest⟩ := ho.append_inv
    -- Without the word the two sides stand next to each other.
    cases hrest with
    | keep hright => exact .and (ihf hleft) hand (ihg hright)
    | drop _ hright => exact .implied (ihf hleft) (ihg hright)
  | implied _ _ ihf ihg =>
    obtain ⟨ts, us, rfl, hleft, hright⟩ := ho.append_inv
    exact .implied (ihf hleft) (ihg hright)
  | not hn _ ih =>
    obtain ⟨us, rfl, hchild⟩ := ho.cons_inv (Token.kind_ne hn (by decide))
    exact .not hn (ih hchild)
  | group hfirst _ hlast ih =>
    obtain ⟨_, rfl, hrest⟩ := ho.cons_inv (Token.kind_ne hfirst (by decide))
    obtain ⟨us, _, rfl, hinner, hclose⟩ := hrest.append_inv
    rw [hclose.eq_of_forall (List.forall_mem_singleton.2 (Token.kind_ne hlast (by decide)))]
    exact .group hfirst (ih hinner) hlast
  | field hn hc hfield hv =>
    obtain ⟨_, rfl, hrest⟩ := ho.cons_inv (Token.kind_ne hn (by decide))
    obtain ⟨us, rfl, hvalues⟩ := hrest.cons_inv (Token.kind_ne hc (by decide))
    rw [hvalues.eq_of_isOperand hv.isOperand]
    exact .field hn hc hfield hv
  | term hv =>
    rw [ho.eq_of_isOperand (List.forall_mem_singleton.2 (isOperand_of_isValue hv))]
    exact .term hv

theorem SortPart.omitsAnd {ts us : List Token} {keys : List SortKey} (h : SortPart ts keys)
    (ho : OmitsAnd ts us) : SortPart us keys := by
  cases h with
  | none =>
    cases ho
    exact .none
  | some hs hc hkeys =>
    obtain ⟨_, rfl, hrest⟩ := ho.cons_inv (Token.kind_ne hs (by decide))
    obtain ⟨us, rfl, hmore⟩ := hrest.cons_inv (Token.kind_ne hc (by decide))
    rw [hmore.eq_of_isOperand hkeys.isOperand]
    exact .some hs hc hkeys

/-- A row of tokens derives the same query without some of its `AND` tokens. -/
theorem Derives.omitsAnd {ts us : List Token} {query : Query} (h : Derives ts query)
    (ho : OmitsAnd ts us) : Derives us query := by
  cases h with
  | intro hfilter hsort =>
    obtain ⟨ts, us, rfl, hfirst, hrest⟩ := ho.append_inv
    have hsort := hsort.omitsAnd hrest
    cases hfilter with
    | none =>
      cases hfirst
      exact .intro .none hsort
    | some hp => exact .intro (.some (hp.omitsAnd hfirst)) hsort

end Grammar

/-! ### Queries -/

namespace Query

/-- **The word `AND` may be left out.** If a row of tokens of any kinds reads as a query, it reads
as the same query without any of its `AND` tokens: what is left has all other tokens, in their
order. -/
theorem ofTokens_of_omitsAnd {ts us : List Token} {query : Query} (h : ofTokens ts = .ok query)
    (hsub : us.Sublist ts) (hrest : us.filter (·.kind ≠ .and) = ts.filter (·.kind ≠ .and)) :
    ofTokens us = .ok query := by
  have homits : OmitsAnd (Stream.ofTokens ts).tokens (Stream.ofTokens us).tokens :=
    (OmitsAnd.of_sublist hsub hrest).takeWhile
  exact Grammar.query_complete rfl ((Grammar.query_sound h).omitsAnd homits)

/-- The tokens of `a AND (p:1,2 AND NOT b) AND c sort by: id`. -/
def joinedTokens : List Token :=
  [⟨.identifier, ['a'], 0, none⟩, ⟨.and, "AND".toList, 2, none⟩, ⟨.leftParen, ['('], 6, none⟩,
   ⟨.identifier, ['p'], 7, none⟩, ⟨.colon, [':'], 8, none⟩, ⟨.number, ['1'], 9, some (.integer 1)⟩,
   ⟨.comma, [','], 10, none⟩, ⟨.number, ['2'], 11, some (.integer 2)⟩,
   ⟨.and, "AND".toList, 13, none⟩, ⟨.not, "NOT".toList, 17, none⟩,
   ⟨.identifier, ['b'], 21, none⟩, ⟨.rightParen, [')'], 22, none⟩,
   ⟨.and, "AND".toList, 24, none⟩, ⟨.identifier, ['c'], 28, none⟩,
   ⟨.sortBy, "sort by".toList, 30, none⟩, ⟨.colon, [':'], 37, none⟩,
   ⟨.identifier, "id".toList, 39, none⟩]

/-- Without the first two of three words, one behind a search term and one behind a list. -/
theorem ofTokens_of_omitsAnd_joined :
    ∃ query, ofTokens joinedTokens = .ok query ∧
      ((joinedTokens.eraseIdx 8).eraseIdx 1).Sublist joinedTokens ∧
      ((joinedTokens.eraseIdx 8).eraseIdx 1).filter (·.kind ≠ .and) =
        joinedTokens.filter (·.kind ≠ .and) ∧
      ofTokens ((joinedTokens.eraseIdx 8).eraseIdx 1) = .ok query := by
  have h : ofTokens joinedTokens = .ok
      ⟨some (.and
        (.and (.contains none ['a'] false)
          (.and (.oneOf .priority [.integer 1, .integer 2]) (.not (.contains none ['b'] false))))
        (.contains none ['c'] false)), [⟨.id, .asc⟩]⟩ := by
    apply eq_ok_of_toOption
    decide +kernel
  have hsub : ((joinedTokens.eraseIdx 8).eraseIdx 1).Sublist joinedTokens :=
    (List.eraseIdx_sublist _ 1).trans (List.eraseIdx_sublist _ 8)
  have hrest : ((joinedTokens.eraseIdx 8).eraseIdx 1).filter (·.kind ≠ .and) =
      joinedTokens.filter (·.kind ≠ .and) := by
    decide +kernel
  exact ⟨_, h, hsub, hrest, ofTokens_of_omitsAnd h hsub hrest⟩

end Query
end Triage
