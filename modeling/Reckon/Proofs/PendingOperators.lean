import Mathlib
import Reckon.Proofs.Reordering

set_option autoImplicit false

/-!
# The operators the postfix pass holds pending

Before every token the pass reads, its stack of pending operators rises in precedence from bottom
to top (`Postfix.rising_pendingAfter`), so it is at most a sum or difference below a product or
quotient (`Postfix.Rising.shape`). The pending operators are those read so far that no later
operator binds as loosely or more loosely (`Postfix.waiting`). Because the stack rises, the loop
that pops before a push pops every operator binding at least as tightly
(`Postfix.takeWhile_eq_filter_of_rising`).
-/

namespace Reckon

namespace Token

/-- Whether reading a token leaves pending an operator of precedence `p`: a number does, and so
does an operator that binds more tightly. -/
def keeps (p : Nat) : Token → Bool
  | number _ _ => true
  | operator q => p < q.precedence

end Token

theorem Op.precedence_cases (o : Op) : o.precedence = 1 ∨ o.precedence = 2 := by
  cases o <;> simp [Op.precedence]

namespace Postfix

/-- The stack once the pass has read one more token: a number leaves it alone, an operator lets
go of the operators that yield to it and waits on top of the rest. -/
def arrive (stack : List Op) : Token → List Op
  | .number _ _ => stack
  | .operator o => o :: stack.dropWhile (yieldsTo o)

def pendingAfter (stack : List Op) (ts : List Token) : List Op := ts.foldl arrive stack

/-- The operators of a token list that no operator after them binds as loosely or more loosely,
the last one first. -/
def waiting : List Token → List Op
  | [] => []
  | .number _ _ :: ts => waiting ts
  | .operator o :: ts =>
    if ts.all (Token.keeps o.precedence) then waiting ts ++ [o] else waiting ts

theorem pendingAfter_append_singleton (stack : List Op) (ts : List Token) (t : Token) :
    pendingAfter stack (ts ++ [t]) = arrive (pendingAfter stack ts) t := by
  simp [pendingAfter]

/-- Once the pass has read a first part of its input, it goes on over the rest from the operators
then pending. -/
theorem shunt_append_pendingAfter (stack : List Op) (pre post : List Token) :
    ∃ out, shunt stack (pre ++ post) = out ++ shunt (pendingAfter stack pre) post := by
  induction pre generalizing stack with
  | nil => exact ⟨[], rfl⟩
  | cons t pre ih =>
    obtain ⟨out, hout⟩ := ih (arrive stack t)
    cases t with
    | number w v => exact ⟨.number w v :: out, by simpa [shunt, arrive, pendingAfter] using hout⟩
    | operator o =>
      refine ⟨(stack.takeWhile (yieldsTo o)).map Token.operator ++ out, ?_⟩
      simpa [shunt, arrive, pendingAfter] using hout

/-! ## The stack rises -/

theorem rising_arrive {stack : List Op} (h : Rising stack) (t : Token) :
    Rising (arrive stack t) := by
  cases t with
  | number w v => exact h
  | operator o => exact rising_push h o

theorem rising_pendingAfter {stack : List Op} (h : Rising stack) (ts : List Token) :
    Rising (pendingAfter stack ts) := by
  induction ts using List.reverseRecOn with
  | nil => exact h
  | append_singleton ts t ih =>
    rw [pendingAfter_append_singleton]
    exact rising_arrive ih t

theorem Rising.shape {stack : List Op} (h : Rising stack) :
    ∃ m a : Option Op, stack = m.toList ++ a.toList ∧
      (∀ o ∈ m, o.precedence = 2) ∧ ∀ o ∈ a, o.precedence = 1 := by
  match stack, h with
  | [], _ => exact ⟨none, none, rfl, by simp, by simp⟩
  | [o], _ =>
    rcases Op.precedence_cases o with ho | ho
    · exact ⟨none, some o, rfl, by simp, by simpa using ho⟩
    · exact ⟨some o, none, rfl, by simpa using ho, by simp⟩
  | [o, q], h =>
    -- the lower one binds strictly less tightly, so they are one of each level
    have hqo : q.precedence < o.precedence := (List.pairwise_cons.1 h).1 q (by simp)
    have ho := Op.precedence_cases o
    have hq := Op.precedence_cases q
    exact ⟨some o, some q, rfl, by simp; omega, by simp; omega⟩
  | o :: q :: r :: rest, h =>
    -- three levels of precedence would be needed
    have hqo : q.precedence < o.precedence := (List.pairwise_cons.1 h).1 q (by simp)
    have hrq : r.precedence < q.precedence :=
      (List.pairwise_cons.1 (List.pairwise_cons.1 h).2).1 r (by simp)
    have ho := Op.precedence_cases o
    have hr := Op.precedence_cases r
    omega

/-- Below an operator that does not yield to `o`, everything binds less tightly still, so nothing
yields to `o` either. -/
theorem yieldsTo_eq_false_of_below {r : Op} {rs : List Op} (h : Rising (r :: rs)) {o : Op}
    (hr : yieldsTo o r = false) : ∀ q ∈ rs, yieldsTo o q = false := by
  intro q hq
  have hqr : q.precedence < r.precedence := (List.pairwise_cons.1 h).1 q hq
  simp only [yieldsTo, decide_eq_false_iff_not, not_le] at hr ⊢
  omega

/-- On a rising stack the operators that yield to an arriving one come first, so the loop that
stops at the first operator not yielding lets go of all that yield. -/
theorem takeWhile_eq_filter_of_rising {stack : List Op} (h : Rising stack) (o : Op) :
    stack.takeWhile (yieldsTo o) = stack.filter (yieldsTo o) := by
  induction stack with
  | nil => rfl
  | cons r rs ih =>
    cases hr : yieldsTo o r with
    | true => rw [List.takeWhile_cons_of_pos hr, List.filter_cons_of_pos hr, ih h.of_cons]
    | false =>
      have hbelow := yieldsTo_eq_false_of_below h hr
      rw [List.takeWhile_cons_of_neg (by simp [hr]), List.filter_cons_of_neg (by simp [hr])]
      exact (List.filter_eq_nil_iff.2 fun q hq => by simp [hbelow q hq]).symm

theorem dropWhile_eq_filter_of_rising {stack : List Op} (h : Rising stack) (o : Op) :
    stack.dropWhile (yieldsTo o) = stack.filter (fun q => !yieldsTo o q) := by
  induction stack with
  | nil => rfl
  | cons r rs ih =>
    cases hr : yieldsTo o r with
    | true =>
      rw [List.dropWhile_cons_of_pos hr, ih h.of_cons, List.filter_cons_of_neg (by simp [hr])]
    | false =>
      have hbelow := yieldsTo_eq_false_of_below h hr
      rw [List.dropWhile_cons_of_neg (by simp [hr]), List.filter_cons_of_pos (by simp [hr])]
      exact congrArg (r :: ·) (List.filter_eq_self.2 fun q hq => by simp [hbelow q hq]).symm

/-! ## Which operators are pending -/

theorem waiting_append_number (ts : List Token) (w : String) (v : Numeral) :
    waiting (ts ++ [.number w v]) = waiting ts := by
  induction ts with
  | nil => rfl
  | cons t ts ih =>
    cases t with
    | number w' v' => simpa [waiting] using ih
    | operator q => simp [waiting, ih, Token.keeps]

theorem waiting_append_operator (ts : List Token) (o : Op) :
    waiting (ts ++ [.operator o]) = o :: (waiting ts).filter (fun q => !yieldsTo o q) := by
  induction ts with
  | nil => simp [waiting]
  | cons t ts ih =>
    cases t with
    | number w v => simpa [waiting] using ih
    | operator q =>
      simp only [List.cons_append, waiting, List.all_append, List.all_cons, List.all_nil,
        Bool.and_true, Token.keeps, ih]
      by_cases hts : ts.all (Token.keeps q.precedence) = true
      · by_cases hqo : q.precedence < o.precedence
        · simp [hts, hqo, yieldsTo, List.filter_append]
        · simp [hts, hqo, yieldsTo, List.filter_append, Nat.le_of_not_lt hqo]
      · simp [hts]

/-- The pending operators, before the pass reads any token, are those read so far that no later
operator binds as loosely or more loosely. -/
theorem pendingAfter_eq_waiting (ts : List Token) : pendingAfter [] ts = waiting ts := by
  induction ts using List.reverseRecOn with
  | nil => rfl
  | append_singleton ts t ih =>
    rw [pendingAfter_append_singleton]
    cases t with
    | number w v => rw [waiting_append_number, ← ih]; rfl
    | operator o =>
      have hrise : Rising (pendingAfter [] ts) := rising_pendingAfter List.Pairwise.nil ts
      rw [waiting_append_operator, arrive, dropWhile_eq_filter_of_rising hrise, ih]

/-- Before the pass reads each token of any input `pre ++ post`, here the first token of `post`,
it holds pending exactly the operators of `pre` that no later operator of `pre` binds as loosely
or more loosely. They rise in precedence from bottom to top, so they are at most a sum or
difference below at most a product or quotient, and an operator arriving next sends out all of
them that bind at least as tightly as it. Every token, so every operator pushed, comes out of the
pass exactly once. -/
theorem pending_operators_rise (pre post : List Token) :
    (∃ out, ofInfix (pre ++ post) = out ++ shunt (pendingAfter [] pre) post) ∧
      pendingAfter [] pre = waiting pre ∧
      Rising (pendingAfter [] pre) ∧
      (∃ m a : Option Op, pendingAfter [] pre = m.toList ++ a.toList ∧
        (∀ o ∈ m, o.precedence = 2) ∧ ∀ o ∈ a, o.precedence = 1) ∧
      (∀ o, (pendingAfter [] pre).takeWhile (yieldsTo o) =
        (pendingAfter [] pre).filter (yieldsTo o)) ∧
      (ofInfix (pre ++ post)).Perm (pre ++ post) := by
  have hrise : Rising (pendingAfter [] pre) := rising_pendingAfter List.Pairwise.nil pre
  refine ⟨shunt_append_pendingAfter [] pre post, pendingAfter_eq_waiting pre, hrise, hrise.shape,
    takeWhile_eq_filter_of_rising hrise, ?_⟩
  simpa [ofInfix] using perm_shunt [] (pre ++ post)

example : pendingAfter [] [.operator .plus, .operator .times, .operator .divide, .operator .minus,
    .operator .times] = [.times, .minus] := by
  decide

end Postfix

end Reckon
