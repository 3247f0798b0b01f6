import Mathlib
import Reckon.Proofs.Acceptance

set_option autoImplicit false

/-!
# What the postfix pass does to any token list

The postfix pass checks no order of numbers and operators, so what it does is stated for every
token list. Its output is a permutation of its input (`Postfix.perm_shunt`); numbers keep their
order, and so do operators of one precedence (`Postfix.filter_bindsAt_shunt`); what it gives out
while reading a first part of the input comes first and holds that part's numbers
(`Postfix.shunt_append`). On a well-formed expression the output is the postorder spelling of the
reference tree (`Infix.postfix_builds_tree`).
-/

namespace Reckon

namespace Token

def bindsAt (p : Nat) : Token → Bool
  | number _ _ => false
  | operator o => o.precedence == p

@[simp] theorem filter_isNumber_map_operator (os : List Op) :
    (os.map operator).filter isNumber = [] := by
  simp [List.filter_map, Function.comp_def, isNumber]

end Token

namespace Postfix

/-- The pending operators, top first, bind strictly more tightly the nearer they are to the
top. -/
def Rising (stack : List Op) : Prop :=
  stack.Pairwise fun above below => below.precedence < above.precedence

/-- The operators left on the stack when `o` arrives bind less tightly than `o`: the first of them
does not yield to it, and those below it bind less tightly still. -/
theorem precedence_lt_of_mem_dropWhile {stack : List Op} (h : Rising stack) {o q : Op}
    (hq : q ∈ stack.dropWhile (yieldsTo o)) : q.precedence < o.precedence := by
  induction stack with
  | nil => cases hq
  | cons r rs ih =>
    rw [Rising, List.pairwise_cons] at h
    by_cases hr : yieldsTo o r = true
    · rw [List.dropWhile_cons_of_pos hr] at hq
      exact ih h.2 hq
    · rw [List.dropWhile_cons_of_neg hr] at hq
      have hro : r.precedence < o.precedence := by
        simp only [yieldsTo, decide_eq_true_eq] at hr
        omega
      rcases List.mem_cons.1 hq with rfl | hq
      · exact hro
      · exact lt_trans (h.1 q hq) hro

theorem rising_push {stack : List Op} (h : Rising stack) (o : Op) :
    Rising (o :: stack.dropWhile (yieldsTo o)) :=
  List.pairwise_cons.2 ⟨fun _ hq => precedence_lt_of_mem_dropWhile h hq,
    List.Pairwise.sublist (List.dropWhile_suffix _).sublist h⟩

theorem perm_shunt (stack : List Op) (ts : List Token) :
    (shunt stack ts).Perm (stack.map Token.operator ++ ts) := by
  induction ts generalizing stack with
  | nil => simp [shunt]
  | cons t ts ih =>
    cases t with
    | number w v => exact ((ih stack).cons _).trans List.perm_middle.symm
    | operator o =>
      -- `o` goes out with the operators it leaves pending; in the input it stands after them
      have hmove : ((o :: stack.dropWhile (yieldsTo o)).map Token.operator ++ ts).Perm
          ((stack.dropWhile (yieldsTo o)).map Token.operator ++ Token.operator o :: ts) :=
        List.perm_middle.symm
      have hsplit := List.takeWhile_append_dropWhile (p := yieldsTo o) (l := stack)
      calc (shunt stack (.operator o :: ts)).Perm
            ((stack.takeWhile (yieldsTo o)).map Token.operator ++
              ((stack.dropWhile (yieldsTo o)).map Token.operator ++ Token.operator o :: ts)) :=
            ((ih _).trans hmove).append_left _
        _ = stack.map Token.operator ++ Token.operator o :: ts := by
            rw [← List.append_assoc, ← List.map_append, hsplit]

theorem filter_isNumber_shunt (stack : List Op) (ts : List Token) :
    (shunt stack ts).filter Token.isNumber = ts.filter Token.isNumber := by
  induction ts generalizing stack with
  | nil => simp [shunt]
  | cons t ts ih =>
    cases t with
    | number w v => simp [shunt, List.filter_cons, Token.isNumber, ih]
    | operator o => simp [shunt, Token.isNumber, ih]

theorem filter_bindsAt_shunt {stack : List Op} (h : Rising stack) (p : Nat) (ts : List Token) :
    (shunt stack ts).filter (Token.bindsAt p) =
      (stack.map Token.operator ++ ts).filter (Token.bindsAt p) := by
  induction ts generalizing stack with
  | nil => simp [shunt]
  | cons t ts ih =>
    cases t with
    | number w v => simp [shunt, ih h, Token.bindsAt]
    | operator o =>
      have hsplit := List.takeWhile_append_dropWhile (p := yieldsTo o) (l := stack)
      -- of the operators `o` leaves pending, none is of `o`'s precedence
      have hbelow : ((stack.dropWhile (yieldsTo o)).map Token.operator).filter (Token.bindsAt p) =
          [] ∨ o.precedence ≠ p := by
        by_cases ho : o.precedence = p
        · refine .inl (List.filter_eq_nil_iff.2 fun t ht => ?_)
          obtain ⟨q, hq, rfl⟩ := List.mem_map.1 ht
          have := precedence_lt_of_mem_dropWhile h hq
          simp only [Token.bindsAt, beq_iff_eq]
          omega
        · exact .inr ho
      have hstack : stack.map Token.operator = (stack.takeWhile (yieldsTo o)).map Token.operator ++
          (stack.dropWhile (yieldsTo o)).map Token.operator := by
        rw [← List.map_append, hsplit]
      rw [shunt, List.filter_append, ih (rising_push h o), hstack]
      simp only [List.map_cons, List.cons_append, List.filter_append, List.filter_cons,
        List.append_assoc, Token.bindsAt, beq_iff_eq]
      rcases hbelow with hnil | ho
      · rw [hnil]
        split <;> rfl
      · simp [ho]

/-- Cutting the input cuts the output: what the pass gives out while it reads the first part
holds that part's numbers, in order, and the pass then goes on over the second part from the
operators still pending. -/
theorem shunt_append (stack : List Op) (pre post : List Token) :
    ∃ out rest, shunt stack (pre ++ post) = out ++ shunt rest post ∧
      out.filter Token.isNumber = pre.filter Token.isNumber := by
  induction pre generalizing stack with
  | nil => exact ⟨[], stack, rfl, rfl⟩
  | cons t pre ih =>
    cases t with
    | number w v =>
      obtain ⟨out, rest, heq, hnum⟩ := ih stack
      refine ⟨.number w v :: out, rest, ?_, ?_⟩
      · rw [List.cons_append, shunt, heq, List.cons_append]
      · simp [List.filter_cons, Token.isNumber, hnum]
    | operator o =>
      obtain ⟨out, rest, heq, hnum⟩ := ih (o :: stack.dropWhile (yieldsTo o))
      refine ⟨(stack.takeWhile (yieldsTo o)).map Token.operator ++ out, rest, ?_, ?_⟩
      · rw [List.cons_append, shunt, heq, List.append_assoc]
      · simp [Token.isNumber, hnum]

/-- The postfix pass on any token list is a permutation of it that keeps the order of the numbers,
of the sums and differences, and of the products and quotients. Cutting the input anywhere, the
output splits into a part that holds exactly the numbers before the cut, in order, and a part that
holds every operator after the cut: so an operator comes after each number that precedes it. -/
theorem ofInfix_rearranges (ts : List Token) :
    (ofInfix ts).Perm ts ∧
      (ofInfix ts).filter Token.isNumber = ts.filter Token.isNumber ∧
      (∀ p, (ofInfix ts).filter (Token.bindsAt p) = ts.filter (Token.bindsAt p)) ∧
      ∀ pre post, ts = pre ++ post → ∃ out₁ out₂, ofInfix ts = out₁ ++ out₂ ∧
        out₁.filter Token.isNumber = pre.filter Token.isNumber ∧
        (post.filter fun t => !t.isNumber).Subperm out₂ := by
  refine ⟨?_, filter_isNumber_shunt [] ts, fun p => ?_, ?_⟩
  · simpa [ofInfix] using perm_shunt [] ts
  · simpa [ofInfix] using filter_bindsAt_shunt List.Pairwise.nil p ts
  · rintro pre post rfl
    obtain ⟨out, rest, heq, hnum⟩ := shunt_append [] pre post
    -- the operators after the cut are among what the pass gives out from there on
    have hops : (post.filter fun t => !t.isNumber).Subperm (rest.map Token.operator ++ post) :=
      ((List.filter_sublist).trans (List.sublist_append_right _ _)).subperm
    exact ⟨out, shunt rest post, heq, hnum, hops.trans (perm_shunt rest post).symm.subperm⟩

end Postfix

namespace Infix

/-- A well-formed expression's postfix word is its reference tree spelt in postorder, and the
tree's leaves are the expression's numbers, unchanged and in order. Read left to right, the word
builds that one tree: no operator finds fewer than two operands and exactly one tree is left.
Evaluated under any meaning of the operators, it leaves the tree's value alone on the stack, or
stops where the tree's own evaluation fails. -/
theorem postfix_builds_tree (e : Infix) :
    Postfix.ofInfix e.tokens = e.tree.postorder ∧
      e.tree.postorder.filter Token.isNumber = e.tokens.filter Token.isNumber ∧
      Postfix.forest [] (Postfix.ofInfix e.tokens) = ([e.tree], false) ∧
      ∀ {α : Type} (s : Semantics α),
        Postfix.run s [] (Postfix.ofInfix e.tokens) = (e.tree.eval s).map fun v => [v] := by
  have hspell := ofInfix_tokens e
  refine ⟨hspell, ?_, ?_, fun s => ?_⟩
  · rw [← hspell]
    exact Postfix.filter_isNumber_shunt [] e.tokens
  · exact forest_ofInfix_tokens e
  · rw [hspell]
    exact Tree.run_postorder s e.tree

end Infix

end Reckon
