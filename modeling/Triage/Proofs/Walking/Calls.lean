import Triage.Proofs.Walking.Agreement

/-! Calls in a row on any tokens.

Whatever the tokens are, with an end behind them there is a first one (`Walk.exists_ended`). No call
looks behind it: calls in a row have results, each leaves an index from which the next one can go
on, and what stands behind the first end makes no difference (`Walk.calls_closed`). The depth that
is enough for the first call is enough for the later ones, which begin nearer to the end. -/
namespace Triage

namespace Ended

variable {ended : Ended} {i : Nat}

/-- The tokens before the first end, and where it stands. -/
def stream (ended : Ended) : Stream := ⟨ended.front, ended.last.position⟩

/-- The same tokens with other ones behind the first end. -/
def replace (ended : Ended) (other : List Token) : Ended := { ended with behind := other }

/-- The index that a walk leaves is known from what the reader leaves. -/
theorem Agrees.eq {walk : Walk α} {outcome : Outcome α} (h : ended.Agrees walk i outcome) :
    walk ended.tokens i = some (outcome.1, ended.front.length - outcome.2.length) := by
  obtain ⟨j, hw, -, hj, hrest⟩ := h
  have hlength : ended.front.length - outcome.2.length = j := by
    rw [hrest, rest, List.length_drop]
    omega
  rw [hw, hlength]

theorem findIdx_tokens (ended : Ended) :
    ended.tokens.findIdx (·.kind = .eof) = ended.front.length := by
  have hfront : ended.front.findIdx (·.kind = .eof) = ended.front.length :=
    List.findIdx_eq_length.2 fun token hmem => decide_eq_false (ended.kind_front token hmem)
  rw [tokens, List.findIdx_append, hfront, if_neg (Nat.lt_irrefl _), List.findIdx_cons,
    decide_eq_true ended.kind_last]
  exact Nat.zero_add _

theorem length_front_lt (ended : Ended) : ended.front.length < ended.tokens.length := by
  rw [tokens, List.length_append, List.length_cons]
  omega

end Ended

namespace Stream

variable {front : List Token} (hf : ∀ token ∈ front, token.kind ≠ .eof)

include hf

theorem find?_eof_eq_none : front.find? (·.kind = .eof) = none := by
  rw [List.find?_eq_none]
  exact fun token hmem hk => hf token hmem (of_decide_eq_true hk)

theorem ofTokens_append {last : Token} (hl : last.kind = .eof) (behind : List Token) :
    ofTokens (front ++ last :: behind) = ⟨front, last.position⟩ := by
  have htokens : (ofTokens (front ++ last :: behind)).tokens = front :=
    tokens_ofTokens_append hf hl
  have hfinish : (ofTokens (front ++ last :: behind)).finish = last.position := by
    simp only [ofTokens, List.find?_append, find?_eof_eq_none hf, Option.none_or, List.find?_cons,
      hl, decide_true]
  exact congr (congrArg Stream.mk htokens) hfinish

theorem ofTokens_of_ne : ofTokens front = ⟨front, finishOf front⟩ := by
  have hfinish : (ofTokens front).finish = finishOf front := by
    simp only [ofTokens, find?_eof_eq_none hf]
  exact congr (congrArg Stream.mk (tokens_ofTokens hf)) hfinish

end Stream

namespace Walk

/-- An end is put behind tokens at most. -/
theorem exists_closed_eq (tokens : List Token) : ∃ more, closed tokens = tokens ++ more := by
  rw [closed]
  split
  · exact ⟨[], (List.append_nil tokens).symm⟩
  · exact ⟨_, rfl⟩

/-- Behind the first end of some tokens, only the tokens behind it depend on what is there. -/
theorem exists_ended_append {front : List Token} {last : Token}
    (hf : ∀ token ∈ front, token.kind ≠ .eof) (hl : last.kind = .eof) (behind : List Token) :
    ∃ more, (Ended.mk front last more hf hl).tokens = closed (front ++ last :: behind) := by
  obtain ⟨more, hmore⟩ := exists_closed_eq (front ++ last :: behind)
  refine ⟨behind ++ more, ?_⟩
  rw [hmore, List.append_assoc]
  rfl

/-- There is a first end in the tokens that are walked over. -/
theorem exists_ended (tokens : List Token) :
    ∃ ended : Ended, ended.tokens = closed tokens ∧ ended.stream = Stream.ofTokens tokens := by
  cases hfind : tokens.find? (·.kind = .eof) with
  | some last =>
    obtain ⟨hl, front, behind, rfl, hfront⟩ := List.find?_eq_some_iff_append.1 hfind
    have hl : last.kind = .eof := of_decide_eq_true hl
    have hf : ∀ token ∈ front, token.kind ≠ .eof := by
      intro token hmem
      simpa using hfront token hmem
    obtain ⟨more, hmore⟩ := exists_ended_append hf hl behind
    exact ⟨_, hmore, (Stream.ofTokens_append hf hl behind).symm⟩
  | none =>
    have hf : ∀ token ∈ tokens, token.kind ≠ .eof := by
      intro token hmem
      simpa using List.find?_eq_none.1 hfind token hmem
    refine ⟨⟨tokens, ⟨.eof, [], Stream.finishOf tokens, none⟩, [], hf, rfl⟩, ?_,
      (Stream.ofTokens_of_ne hf).symm⟩
    have hlast : ¬ tokens.getLast?.any (·.kind = .eof) = true := by
      intro h
      obtain ⟨last, hmem, hk⟩ := (Option.any_eq_true _ _).1 h
      exact hf last (List.mem_of_getLast? hmem) (of_decide_eq_true hk)
    rw [closed, if_neg hlast]
    rfl

/-! ### Calls -/

/-- Calls from the index `i` on leave indices that never come back and do not pass `limit`, and a
call that finds an expression moves on. -/
inductive Forward (limit : Nat) : Nat → List (Except ParseError Filter × Nat) → Prop where
  | done {i : Nat} : i ≤ limit → Forward limit i []
  | call {i j : Nat} {result : Except ParseError Filter}
      {more : List (Except ParseError Filter × Nat)} :
      i ≤ j → (∀ filter, result = .ok filter → i < j) → Forward limit j more →
      Forward limit i ((result, j) :: more)

end Walk

namespace Ended

variable {ended : Ended} {i : Nat}

section Depth

variable {depth : Nat} (hd : 5 * ended.front.length + 4 < depth) (h : i ≤ ended.front.length)

include hd h

theorem agrees_call : ended.Agrees (Walk.disjunction depth) i
    (Parse.disjunction ended.last.position (ended.rest i)).outcome :=
  (follows ended depth).disjunction h (by omega)

/-- One call: it has the result of the stream, and moves on if that is an expression. -/
theorem call_apply :
    ∃ j, Walk.disjunction depth ended.tokens i =
        some ((Stream.expression ⟨ended.rest i, ended.last.position⟩).1, j) ∧
      (Stream.expression ⟨ended.rest i, ended.last.position⟩).2 =
        ⟨ended.rest j, ended.last.position⟩ ∧
      i ≤ j ∧ j ≤ ended.front.length ∧
      ∀ filter, (Stream.expression ⟨ended.rest i, ended.last.position⟩).1 = .ok filter → i < j := by
  obtain ⟨j, hw, hij, hj, hrest⟩ := agrees_call hd h
  refine ⟨j, hw, congrArg (Stream.mk · _) hrest, hij, hj, ?_⟩
  exact fun filter hfound => lt_of_outcome (Prod.ext hfound hrest)

theorem calls_apply (n : Nat) :
    ∃ steps, Walk.calls depth ended.tokens i n = some steps ∧
      Walk.Forward ended.front.length i steps ∧
      steps.map Prod.fst = Stream.expressions ⟨ended.rest i, ended.last.position⟩ n := by
  induction n generalizing i with
  | zero => exact ⟨[], rfl, .done h, rfl⟩
  | succ n ih =>
    obtain ⟨j, hw, hafter, hij, hj, hlt⟩ := call_apply hd h
    obtain ⟨steps, hcalls, hforward, hresults⟩ := ih hj
    refine ⟨_ :: steps, ?_, .call hij hlt hforward, ?_⟩
    · rw [Walk.calls, hw]
      simp only [Option.bind_eq_bind, Option.bind_some, hcalls]
      rfl
    · rw [Stream.expressions, hafter, List.map_cons, hresults]

end Depth

section Independence

variable (ended : Ended) {depth deep : Nat} (hd : 5 * ended.front.length + 4 < depth)
  (hdeep : 5 * ended.front.length + 4 < deep)

include hd hdeep

/-- Neither what is behind the first end nor more depth makes a difference to calls in a row. -/
theorem calls_replace (h : i ≤ ended.front.length) (other : List Token) (n : Nat) :
    Walk.calls deep (ended.replace other).tokens i n = Walk.calls depth ended.tokens i n := by
  induction n generalizing i with
  | zero => rfl
  | succ n ih =>
    have hagrees : (ended.replace other).Agrees (Walk.disjunction deep) i
        (Parse.disjunction ended.last.position (ended.rest i)).outcome := agrees_call hdeep h
    have hother : Walk.disjunction deep (ended.replace other).tokens i =
        Walk.disjunction depth ended.tokens i := by
      rw [hagrees.eq, (agrees_call hd h).eq]
      rfl
    obtain ⟨j, hw, -, hj, -⟩ := agrees_call hd h
    rw [Walk.calls, Walk.calls, hother, hw]
    simp only [Option.bind_eq_bind, Option.bind_some, ih hj]

theorem query_replace (other : List Token) :
    Walk.query deep (ended.replace other).tokens 0 = Walk.query depth ended.tokens 0 := by
  have hagrees : (ended.replace other).Agrees (Walk.query deep) 0
      (Parse.whole ended.last.position (ended.rest 0)) := agrees_query (Nat.zero_le _) hdeep
  rw [hagrees.eq, (agrees_query (Nat.zero_le _) hd).eq]
  rfl

end Independence

end Ended

namespace Walk

/-- **No call looks behind the first end.** Calls in a row on any tokens have results, those of the
stream, whatever depth above five for each token in front of the first end and four more they are
given. The index that a call leaves is between the one that it found and the index of the first end,
and greater than the one that it found if there is an expression. Neither the calls nor the query
change with the tokens behind the first end. -/
theorem calls_closed (tokens : List Token) (n : Nat) :
    (closed tokens).findIdx (·.kind = .eof) < (closed tokens).length ∧
    (∃ steps, Forward ((closed tokens).findIdx (·.kind = .eof)) 0 steps ∧
      steps.map Prod.fst = (Stream.ofTokens tokens).expressions n ∧
      ∀ depth, 5 * (closed tokens).findIdx (·.kind = .eof) + 4 < depth →
        calls depth (closed tokens) 0 n = some steps) ∧
    (∃ j, ∀ depth, 5 * (closed tokens).findIdx (·.kind = .eof) + 4 < depth →
      query depth (closed tokens) 0 = some (Query.ofTokens tokens, j)) ∧
    ∀ front last behind, tokens = front ++ last :: behind →
      (∀ token ∈ front, token.kind ≠ .eof) → last.kind = .eof →
      ∀ other depth, 5 * (closed tokens).findIdx (·.kind = .eof) + 4 < depth →
        calls depth (closed (front ++ last :: other)) 0 n = calls depth (closed tokens) 0 n ∧
          query depth (closed (front ++ last :: other)) 0 = query depth (closed tokens) 0 := by
  obtain ⟨ended, htokens, hstream⟩ := exists_ended tokens
  have hzero : 0 ≤ ended.front.length := Nat.zero_le _
  rw [← htokens, ended.findIdx_tokens]
  refine ⟨ended.length_front_lt, ?_, ?_, ?_⟩
  · obtain ⟨steps, hcalls, hforward, hresults⟩ := Ended.calls_apply (Nat.lt_succ_self _) hzero n
    refine ⟨steps, hforward, hstream ▸ hresults, fun depth hd => ?_⟩
    rw [← hcalls]
    exact ended.calls_replace (Nat.lt_succ_self _) hd hzero ended.behind n
  · rw [Query.ofTokens, ← hstream, ← Parse.fst_whole ended.kind_front]
    exact ⟨_, fun depth hd => (Ended.agrees_query hzero hd).eq⟩
  · intro front last behind hfront hf hl other depth hd
    obtain ⟨more, hmore⟩ := exists_ended_append hf hl behind
    obtain ⟨others, hothers⟩ := exists_ended_append hf hl other
    rw [← hfront, ← htokens] at hmore
    have hd : 5 * front.length + 4 < depth := by
      rwa [← ended.findIdx_tokens, ← hmore, Ended.findIdx_tokens] at hd
    rw [← hothers, ← hmore]
    exact ⟨Ended.calls_replace ⟨front, last, more, hf, hl⟩ hd hd (Nat.zero_le _) others n,
      Ended.query_replace ⟨front, last, more, hf, hl⟩ hd hd others⟩

/-- A word, an end, and a parenthesis that is opened behind the end. -/
def openedBehind : List Token :=
  [⟨.identifier, "a".toList, 0, none⟩, ⟨.eof, [], 1, none⟩, ⟨.leftParen, "(".toList, 1, none⟩]

/-- The word is found and then the end, as often as there are calls, with the parenthesis and
without it. -/
theorem calls_closed_openedBehind :
    ∃ steps, calls 10 (closed openedBehind) 0 3 = some steps ∧
      calls 10 (closed (openedBehind.take 2)) 0 3 = some steps ∧ Forward 1 0 steps ∧
      steps.map (fun step => step.1.toOption) =
        [some (.contains none "a".toList false), none, none] := by
  have hlimit : (closed openedBehind).findIdx (·.kind = .eof) = 1 := by decide
  have hd : 5 * (closed openedBehind).findIdx (·.kind = .eof) + 4 < 10 := by decide
  obtain ⟨-, ⟨steps, hforward, hresults, hcalls⟩, -, hbehind⟩ := calls_closed openedBehind 3
  have hremoved := (hbehind [⟨.identifier, "a".toList, 0, none⟩] ⟨.eof, [], 1, none⟩
    [⟨.leftParen, "(".toList, 1, none⟩] rfl (by decide) rfl [] 10 hd).1
  rw [hlimit] at hforward
  refine ⟨steps, hcalls 10 hd, hremoved.trans (hcalls 10 hd), hforward, ?_⟩
  have hfound : ((Stream.ofTokens openedBehind).expressions 3).map Except.toOption =
      [some (.contains none "a".toList false), none, none] := by decide +kernel
  rw [← hfound, ← hresults, List.map_map]
  rfl

end Walk
end Triage
