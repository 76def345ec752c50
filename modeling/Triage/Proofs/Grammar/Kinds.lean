import Triage.Proofs.Grammar

/-! Which kinds of tokens the grammar uses where.

Behind a colon stand values with commas or dots between them (`Values.isOperand`,
`Keys.isOperand`), and the words `sort by` stand in no phrase
(`Phrase.kind_ne_sortBy`), so a query holds them once at most. -/
namespace Triage

/-- Whether a token of this kind stands behind the colon of a field or of a sort clause. -/
def Token.Kind.isOperand (kind : Token.Kind) : Bool :=
  kind.isValue || kind = .comma || kind = .dotDot

/-- A token of one kind is of no other. -/
theorem Token.kind_ne {token : Token} {kind other : Token.Kind} (h : token.kind = kind)
    (hk : kind ≠ other) : token.kind ≠ other :=
  h ▸ hk

namespace Grammar

theorem isOperand_of_isValue {kind : Token.Kind} (h : kind.isValue = true) :
    kind.isOperand = true := by
  rw [Token.Kind.isOperand, h]
  rfl

theorem isOperand_of_eq {token : Token} {kind : Token.Kind} (h : token.kind = kind)
    (hk : kind.isOperand = true) : token.kind.isOperand = true :=
  h ▸ hk

/-! ### Values and sort keys -/

theorem Further.isOperand {field : Field} {ts : List Token} {vs : List Value}
    (h : Further field ts vs) : ∀ token ∈ ts, token.kind.isOperand = true := by
  induction h with
  | nil => exact fun token ht => absurd ht List.not_mem_nil
  | cons hc hs _ ih =>
    exact List.forall_mem_cons.2 ⟨isOperand_of_eq hc rfl,
      List.forall_mem_cons.2 ⟨isOperand_of_isValue hs.1, ih⟩⟩

theorem Values.isOperand {field : Field} {ts : List Token} {f : Filter} (h : Values field ts f) :
    ∀ token ∈ ts, token.kind.isOperand = true := by
  cases h with
  | item _ hs => exact List.forall_mem_singleton.2 (isOperand_of_isValue hs.1)
  | search _ hs => exact List.forall_mem_singleton.2 (isOperand_of_isValue hs.1)
  | equal _ _ hs => exact List.forall_mem_singleton.2 (isOperand_of_isValue hs.1)
  | range _ hmin hd hmax =>
    exact List.forall_mem_cons.2 ⟨isOperand_of_isValue hmin.1,
      List.forall_mem_cons.2 ⟨isOperand_of_eq hd rfl,
        List.forall_mem_singleton.2 (isOperand_of_isValue hmax.1)⟩⟩
  | list hs hf _ => exact List.forall_mem_cons.2 ⟨isOperand_of_isValue hs.1, hf.isOperand⟩

theorem Key.isOperand {ts : List Token} {key : SortKey} (h : Key ts key) :
    ∀ token ∈ ts, token.kind.isOperand = true := by
  cases h with
  | plain hn _ => exact List.forall_mem_singleton.2 (isOperand_of_eq hn rfl)
  | asc hn _ hd =>
    exact List.forall_mem_cons.2 ⟨isOperand_of_eq hn rfl,
      List.forall_mem_singleton.2 (isOperand_of_eq hd rfl)⟩
  | desc hn _ hd =>
    exact List.forall_mem_cons.2 ⟨isOperand_of_eq hn rfl,
      List.forall_mem_singleton.2 (isOperand_of_eq hd rfl)⟩

theorem Keys.isOperand {ts : List Token} {keys : List SortKey} (h : Keys ts keys) :
    ∀ token ∈ ts, token.kind.isOperand = true := by
  induction h with
  | one hkey => exact hkey.isOperand
  | more hkey hc _ ih =>
    exact List.forall_mem_append.2 ⟨hkey.isOperand,
      List.forall_mem_cons.2 ⟨isOperand_of_eq hc rfl, ih⟩⟩

/-! ### Phrases -/

/-- No sort clause begins in a phrase. -/
theorem Phrase.kind_ne_sortBy {level : Level} {ts : List Token} {f : Filter}
    (h : Phrase level ts f) : ∀ token ∈ ts, token.kind ≠ .sortBy := by
  induction h with
  | conjunction _ ih => exact ih
  | negation _ ih => exact ih
  | primary _ ih => exact ih
  | or _ ho _ ihf ihg =>
    exact List.forall_mem_append.2 ⟨ihf, List.forall_mem_cons.2 ⟨Token.kind_ne ho (by decide), ihg⟩⟩
  | and _ ha _ ihf ihg =>
    exact List.forall_mem_append.2 ⟨ihf, List.forall_mem_cons.2 ⟨Token.kind_ne ha (by decide), ihg⟩⟩
  | implied _ _ ihf ihg => exact List.forall_mem_append.2 ⟨ihf, ihg⟩
  | not hn _ ih => exact List.forall_mem_cons.2 ⟨Token.kind_ne hn (by decide), ih⟩
  | group hfirst _ hlast ih =>
    exact List.forall_mem_cons.2 ⟨Token.kind_ne hfirst (by decide), List.forall_mem_append.2
      ⟨ih, List.forall_mem_singleton.2 (Token.kind_ne hlast (by decide))⟩⟩
  | field hn hc _ hv =>
    refine List.forall_mem_cons.2 ⟨Token.kind_ne hn (by decide), List.forall_mem_cons.2
      ⟨Token.kind_ne hc (by decide), fun token ht hk => ?_⟩⟩
    have hoperand := hv.isOperand token ht
    rw [hk] at hoperand
    exact Bool.noConfusion hoperand
  | term hv =>
    refine List.forall_mem_singleton.2 fun hk => ?_
    rw [hk] at hv
    exact Bool.noConfusion hv

end Grammar
end Triage
