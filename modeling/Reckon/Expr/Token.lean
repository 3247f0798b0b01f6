import Reckon.Decimal.Numeral
import Reckon.Expr.Operator

set_option autoImplicit false

/-!
# Tokens

A word of an expression is a number when it holds a numeral, else an operator when it is one of the
four symbols, and else it is no token. A number keeps its word, so that a token list is written
back word for word.
-/

namespace Reckon

/-- A classified word of an expression. -/
inductive Token where
  | number (word : String) (value : Numeral)
  | operator (op : Op)
deriving DecidableEq, Repr

namespace Token

def word : Token → String
  | number w _ => w
  | operator o => o.symbol

def isNumber : Token → Bool
  | number _ _ => true
  | operator _ => false

def ofWord? (w : String) : Option Token :=
  match Numeral.read? w with
  | some v => some (number w v)
  | none => (Op.ofSymbol? w).map operator

def ofWords : List String → Except String (List Token)
  | [] => .ok []
  | w :: ws =>
    match ofWord? w with
    | some t => (ofWords ws).map (t :: ·)
    | none => .error w

theorem word_of_ofWord? {w : String} {t : Token} (h : ofWord? w = some t) : t.word = w := by
  unfold ofWord? at h
  split at h
  · cases h; rfl
  · obtain ⟨o, ho, rfl⟩ := Option.map_eq_some_iff.1 h
    unfold Op.ofSymbol? at ho
    split at ho
    · cases ho; simp [word, Op.symbol, *]
    · split at ho
      · cases ho; simp [word, Op.symbol, *]
      · split at ho
        · cases ho; simp [word, Op.symbol, *]
        · split at ho
          · cases ho; simp [word, Op.symbol, *]
          · cases ho

theorem map_word_of_ofWords : ∀ {ws : List String} {ts : List Token},
    ofWords ws = .ok ts → ts.map word = ws
  | [], ts, h => by cases h; rfl
  | w :: ws, ts, h => by
    unfold ofWords at h
    split at h
    · rename_i t ht
      cases hr : ofWords ws with
      | error e => rw [hr] at h; cases h
      | ok us =>
        rw [hr] at h
        cases h
        simp [word_of_ofWord? ht, map_word_of_ofWords hr]
    · cases h

end Token

end Reckon
