set_option autoImplicit false

/-!
# The four operators

An expression combines numbers with `+`, `-`, `*` and `/`. Products and quotients bind tighter
than sums and differences; operators of equal strength group to the left.
-/

namespace Reckon

/-- An arithmetic operator. -/
inductive Op where
  | plus
  | minus
  | times
  | divide
deriving DecidableEq, Repr

namespace Op

def symbol : Op → String
  | plus => "+"
  | minus => "-"
  | times => "*"
  | divide => "/"

def ofSymbol? (w : String) : Option Op :=
  if w = "+" then some plus
  else if w = "-" then some minus
  else if w = "*" then some times
  else if w = "/" then some divide
  else none

def precedence : Op → Nat
  | plus | minus => 1
  | times | divide => 2

def isSymbol (w : String) : Bool := (ofSymbol? w).isSome

@[simp] theorem ofSymbol?_symbol (o : Op) : ofSymbol? o.symbol = some o := by
  cases o <;> decide

theorem symbol_injective {o p : Op} (h : o.symbol = p.symbol) : o = p := by
  have := ofSymbol?_symbol o
  rw [h, ofSymbol?_symbol] at this
  exact (Option.some.inj this).symm

end Op

end Reckon
