import Reckon.Expr.Postfix
import Reckon.Expr.Error
import Reckon.Text.Words

set_option autoImplicit false

/-!
# Evaluating an expression

An expression is a text whose words are numbers and operators. `Semantics.evaluate` checks that
there are words, that neither the first nor the last is an operator symbol and that every word is a
token; it then reorders the tokens into postfix order and runs them on a stack. A number pushes its
value; an operator takes the top value as its right operand and the one below as its left, and
pushes what it gives. Exactly one value must be left.

The run is the same for every meaning of the numbers and the four operators (`Semantics`), so that
its order of operations can be studied apart from the arithmetic; `evaluate` fixes the meaning to
binary64 arithmetic, where a division by zero of either sign is an error.
-/

namespace Reckon

/-- What numbers and operators mean: a value for each numeral, and each operator as a function of
its left and right operand that may fail. -/
structure Semantics (α : Type) where
  leaf : Numeral → α
  apply : Op → α → α → Except EvalError α

namespace Postfix

/-- Runs a postfix word on a stack of values whose head is its top. -/
def run {α : Type} (s : Semantics α) : List α → List Token → Except EvalError (List α)
  | st, [] => .ok st
  | st, Token.number _ v :: rest => run s (s.leaf v :: st) rest
  | b :: a :: st, Token.operator o :: rest =>
    match s.apply o a b with
    | .ok c => run s (c :: st) rest
    | .error e => .error e
  | _, Token.operator _ :: _ => .error .missingOperand

end Postfix

namespace Semantics

/-- The value of an expression under a meaning of numbers and operators. -/
def evaluate {α : Type} (s : Semantics α) (expr : String) : Except EvalError α :=
  let ws := Text.words expr
  if ws.isEmpty then .error .empty
  else if ws.head?.any Op.isSymbol || ws.getLast?.any Op.isSymbol then .error .operatorAtEdge
  else
    match Token.ofWords ws with
    | .error w => .error (.unknownWord w)
    | .ok ts =>
      match Postfix.run s [] (Postfix.ofInfix ts) with
      | .error e => .error e
      | .ok [v] => .ok v
      | .ok _ => .error .extraOperand

/-- Binary64 arithmetic, rounding to nearest; a divisor equal to zero, of either sign, is an error
whatever the dividend. -/
def float : Semantics Float where
  leaf := Numeral.toFloat
  apply
    | .plus, a, b => .ok (a + b)
    | .minus, a, b => .ok (a - b)
    | .times, a, b => .ok (a * b)
    | .divide, a, b => if b == 0 then .error .divisionByZero else .ok (a / b)

end Semantics

/-- The binary64 value of an expression. -/
def evaluate (expr : String) : Except EvalError Float := Semantics.float.evaluate expr

end Reckon
