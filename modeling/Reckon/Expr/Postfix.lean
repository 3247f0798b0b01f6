import Reckon.Expr.Token

set_option autoImplicit false

/-!
# Postfix words

`Postfix.ofInfix` reorders an infix token list into postfix order by a single pass with a stack of
pending operators. A number goes straight to the output. An operator first sends to the output
every pending operator, from the top, that binds at least as tightly as itself, and then waits on
the stack. At the end the pending operators follow, top first. The pass checks no order of numbers
and operators: it reorders whatever it is given.

The stack is a list whose head is its top.
-/

namespace Reckon

namespace Postfix

def yieldsTo (o p : Op) : Bool := o.precedence ≤ p.precedence

/-- The pass from a stack of pending operators. -/
def shunt (stack : List Op) : List Token → List Token
  | [] => stack.map Token.operator
  | Token.number w v :: rest => Token.number w v :: shunt stack rest
  | Token.operator o :: rest =>
    (stack.takeWhile (yieldsTo o)).map Token.operator ++
      shunt (o :: stack.dropWhile (yieldsTo o)) rest

/-- An infix token list reordered into postfix order. -/
def ofInfix (ts : List Token) : List Token := shunt [] ts

end Postfix

end Reckon
