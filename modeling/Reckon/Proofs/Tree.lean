import Reckon.Expr.Evaluate

set_option autoImplicit false

/-!
# Expression trees and postfix runs

An expression tree has a number at each leaf and an operator at each node. Running the postfix
spelling of a tree (`Tree.postorder`) pushes the tree's value (`run_postorder_append`), whatever
the operators mean. Otherwise a run fails only for want of operands or by an operator's own failure
(`Postfix.run_eq_error`); in binary64 arithmetic that is a zero divisor, and a tree fails exactly
when some quotient in it has operands that both have values and a divisor equal to zero
(`eval_float_eq_error`).
-/

namespace Reckon

/-- An expression tree. -/
inductive Tree where
  | leaf (word : String) (value : Numeral)
  | node (op : Op) (left right : Tree)
deriving DecidableEq, Repr

namespace Tree

def postorder : Tree → List Token
  | leaf w v => [Token.number w v]
  | node o l r => l.postorder ++ r.postorder ++ [Token.operator o]

def rootOp? : Tree → Option Op
  | leaf _ _ => none
  | node o _ _ => some o

def body : Tree → List Token
  | leaf w v => [Token.number w v]
  | node _ l r => l.postorder ++ r.postorder

def eval {α : Type} (s : Semantics α) : Tree → Except EvalError α
  | leaf _ v => .ok (s.leaf v)
  | node o l r => do
    let a ← l.eval s
    let b ← r.eval s
    s.apply o a b

theorem eval_node_of_ok {α : Type} {s : Semantics α} {o : Op} {l r : Tree} {a b : α}
    (hl : l.eval s = .ok a) (hr : r.eval s = .ok b) : (node o l r).eval s = s.apply o a b := by
  simp only [eval, hl, hr, bind, Except.bind]

theorem body_append_rootOp (t : Tree) :
    t.body ++ t.rootOp?.toList.map Token.operator = t.postorder := by
  cases t with
  | leaf w v => rfl
  | node o l r => simp [body, rootOp?, postorder]

/-- The spelling of a tree, followed by any word, runs as the tree's value pushed on the stack
and then that word. -/
theorem run_postorder_append {α : Type} (s : Semantics α) (t : Tree) (st : List α)
    (rest : List Token) :
    Postfix.run s st (t.postorder ++ rest) =
      t.eval s >>= fun v => Postfix.run s (v :: st) rest := by
  induction t generalizing st rest with
  | leaf w v => rfl
  | node o l r ihl ihr =>
    rw [postorder, List.append_assoc, List.append_assoc, ihl]
    cases hl : l.eval s with
    | error e => simp [eval, hl, bind, Except.bind]
    | ok a =>
      simp only [bind, Except.bind, eval, hl]
      rw [ihr]
      cases hr : r.eval s with
      | error e => rfl
      | ok b =>
        -- the operator meets its right operand on top of its left one
        cases hc : s.apply o a b <;> simp [Postfix.run, hc, bind, Except.bind]

theorem run_postorder {α : Type} (s : Semantics α) (t : Tree) :
    Postfix.run s [] t.postorder = (t.eval s).map fun v => [v] := by
  have h := run_postorder_append s t [] []
  rw [List.append_nil] at h
  rw [h]
  cases t.eval s <;> rfl

end Tree

namespace Postfix

theorem run_eq_error {α : Type} {s : Semantics α} {st : List α} {ts : List Token}
    {e : EvalError} (h : run s st ts = .error e) :
    e = .missingOperand ∨ ∃ o a b, s.apply o a b = .error e := by
  induction ts generalizing st with
  | nil => cases h
  | cons t ts ih =>
    cases t with
    | number w v => exact ih h
    | operator o =>
      match st, h with
      | b :: a :: st, h =>
        simp only [run] at h
        split at h
        · exact ih h
        · rename_i e' he
          cases h
          exact .inr ⟨o, a, b, he⟩
      | [], h => cases h; exact .inl rfl
      | [_], h => cases h; exact .inl rfl

end Postfix

namespace Semantics

theorem float_apply_eq_error {o : Op} {a b : Float} {err : EvalError} :
    float.apply o a b = .error err ↔
      err = .divisionByZero ∧ o = .divide ∧ (b == 0) = true := by
  cases o with
  | divide =>
    show (if b == 0 then Except.error EvalError.divisionByZero else Except.ok (a / b)) = _ ↔ _
    by_cases hb : (b == 0) = true
    · simp [hb, eq_comm]
    · simp [hb]
  | plus | minus | times => exact ⟨(nomatch ·), fun ⟨_, h, _⟩ => nomatch h⟩

theorem run_float_eq_error {st : List Float} {ts : List Token} {e : EvalError}
    (h : Postfix.run float st ts = .error e) : e = .missingOperand ∨ e = .divisionByZero := by
  rcases Postfix.run_eq_error h with h | ⟨o, a, b, h⟩
  · exact .inl h
  · exact .inr (float_apply_eq_error.1 h).1

end Semantics

namespace Tree

/-- Some quotient in the tree has operands that both have values under binary64 arithmetic, the
divisor being zero. -/
def DividesByZero : Tree → Prop
  | leaf _ _ => False
  | node o l r => l.DividesByZero ∨ r.DividesByZero ∨
      (o = .divide ∧ ∃ a b,
        l.eval Semantics.float = .ok a ∧ r.eval Semantics.float = .ok b ∧ (b == 0) = true)

theorem dividesByZero_node_of_apply {o : Op} {l r : Tree} {a b : Float} {e : EvalError}
    (hl : l.eval Semantics.float = .ok a) (hr : r.eval Semantics.float = .ok b)
    (happ : Semantics.float.apply o a b = .error e) : (node o l r).DividesByZero := by
  obtain ⟨-, rfl, hz⟩ := Semantics.float_apply_eq_error.1 happ
  exact .inr (.inr ⟨rfl, a, b, hl, hr, hz⟩)

theorem not_dividesByZero_of_eval {t : Tree} {a : Float}
    (ht : t.eval Semantics.float = .ok a)
    (h : ∀ err,
      t.eval Semantics.float = .error err ↔ err = .divisionByZero ∧ t.DividesByZero) :
    ¬ t.DividesByZero := by
  intro hd
  have herr := (h .divisionByZero).2 ⟨rfl, hd⟩
  rw [ht] at herr
  cases herr

/-- Under binary64 arithmetic a tree fails exactly when it divides by zero, and then with that
error. -/
theorem eval_float_eq_error (t : Tree) (err : EvalError) :
    t.eval Semantics.float = .error err ↔ err = .divisionByZero ∧ t.DividesByZero := by
  induction t generalizing err with
  | leaf w v => simp [eval, DividesByZero]
  | node o l r ihl ihr =>
    cases hl : l.eval Semantics.float with
    | error e =>
      obtain ⟨rfl, hd⟩ := (ihl e).1 hl
      simp only [eval, hl, bind, Except.bind, Except.error.injEq, DividesByZero]
      constructor
      · rintro rfl
        exact ⟨rfl, .inl hd⟩
      · rintro ⟨rfl, -⟩
        rfl
    | ok a =>
      have hl' := not_dividesByZero_of_eval hl ihl
      cases hr : r.eval Semantics.float with
      | error e =>
        obtain ⟨rfl, hd⟩ := (ihr e).1 hr
        simp only [eval, hl, hr, bind, Except.bind, Except.error.injEq, DividesByZero, hl',
          false_or]
        constructor
        · rintro rfl
          exact ⟨rfl, .inl hd⟩
        · rintro ⟨rfl, -⟩
          rfl
      | ok b =>
        have hr' := not_dividesByZero_of_eval hr ihr
        simp only [eval, hl, hr, bind, Except.bind, DividesByZero, hl', hr', false_or,
          Semantics.float_apply_eq_error]
        constructor
        · rintro ⟨rfl, rfl, hb⟩
          exact ⟨rfl, rfl, a, b, rfl, rfl, hb⟩
        · rintro ⟨rfl, rfl, a', b', ha, hb, hz⟩
          cases ha
          cases hb
          exact ⟨rfl, rfl, hz⟩

end Tree

end Reckon
