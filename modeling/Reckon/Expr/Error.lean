import Reckon.Text.Quoted

set_option autoImplicit false

/-!
# Why an expression has no value

The checks run in a fixed order: no words at all, then an operator symbol as first or last word,
then a word that is neither a number nor an operator, then the postfix run, which may lack operands,
divide by zero or keep more than one value.
-/

namespace Reckon

inductive EvalError where
  | empty
  | operatorAtEdge
  | unknownWord (word : String)
  | missingOperand
  | extraOperand
  | divisionByZero
deriving DecidableEq, Repr

/-- The text that reports an error of the expression `expr`. An unknown word is reported by its
quoted form alone. -/
def EvalError.message (expr : String) : EvalError → String
  | .empty => "Empty expression"
  | .operatorAtEdge => "Expression cannot start or end with an operator: " ++ expr
  | .unknownWord w => Text.quote w
  | .missingOperand => "Invalid expression (not enough operands): " ++ expr
  | .extraOperand => "Invalid expression (remaining operands): " ++ expr
  | .divisionByZero => "float division by zero"

end Reckon
