import Mathlib.Data.List.TakeWhile
import Reckon.Proofs.Tokens

set_option autoImplicit false

/-!
# Well-formed expressions and the order of their operations

A well-formed expression is a number followed by any number of operator–number pairs. Its
reference tree is the one in which products and quotients bind tighter than sums and
differences, and operators of equal strength group to the left: a left fold of `+` and `-` over
terms, each term a left fold of `*` and `/` over the numbers (`Infix.tree`).

The postfix pass spells exactly that tree (`Infix.ofInfix_tokens`). The proof reads the pass as
a simulation: after each operator–number pair, the operators the pass holds back are the current
term's last product or quotient above the waiting sum or difference, and what it has given out is
the tree read so far without them (`Infix.Reading`). With `Tree.run_postorder`, evaluating such
an expression gives the reference tree's value, under any meaning of the four operators.
-/

namespace Reckon

namespace Op

def isFactor (o : Op) : Bool := o.precedence == 2

theorem yieldsTo_of_isFactor {o : Op} (h : o.isFactor = true) (q : Op) :
    Postfix.yieldsTo o q = q.isFactor := by
  cases o <;> cases q <;> simp_all [isFactor, precedence, Postfix.yieldsTo]

theorem yieldsTo_of_not_isFactor {o : Op} (h : o.isFactor = false) (q : Op) :
    Postfix.yieldsTo o q = true := by
  cases o <;> cases q <;> simp_all [isFactor, precedence, Postfix.yieldsTo]

end Op

structure Operand where
  word : String
  value : Numeral
  reads : Numeral.read? word = some value

namespace Operand

def token (n : Operand) : Token := .number n.word n.value

def tree (n : Operand) : Tree := .leaf n.word n.value

theorem isSymbol_word (n : Operand) : Op.isSymbol n.word = false := by
  cases h : Op.isSymbol n.word with
  | false => rfl
  | true =>
    have hnone := Op.read?_of_isSymbol h
    rw [n.reads] at hnone
    cases hnone

theorem ofWord?_word (n : Operand) : Token.ofWord? n.word = some n.token := by
  simp [Token.ofWord?, n.reads, token]

end Operand

/-- Operators applied in turn to a first operand, each taking the result so far as its left
operand. -/
def Tree.chain (t : Tree) (ps : List (Op × Tree)) : Tree :=
  ps.foldl (fun acc p => .node p.1 acc p.2) t

/-- A well-formed expression: a number, then operators each followed by a number. -/
structure Infix where
  first : Operand
  rest : List (Op × Operand)

namespace Infix

def pairWords (ps : List (Op × Operand)) : List String :=
  ps.flatMap fun p => [p.1.symbol, p.2.word]

def pairTokens (ps : List (Op × Operand)) : List Token :=
  ps.flatMap fun p => [.operator p.1, p.2.token]

def words (e : Infix) : List String := e.first.word :: pairWords e.rest

def tokens (e : Infix) : List Token := e.first.token :: pairTokens e.rest

/-- The operator–number pairs after a number, cut into those that continue its term (products
and quotients) and the terms after it, each with the sum or difference that leads it. -/
def terms :
    List (Op × Operand) → List (Op × Operand) × List (Op × Operand × List (Op × Operand))
  | [] => ([], [])
  | p :: ps =>
    if p.1.isFactor then (p :: (terms ps).1, (terms ps).2)
    else ([], (p.1, p.2, (terms ps).1) :: (terms ps).2)

def term (n : Operand) (fs : List (Op × Operand)) : Tree :=
  n.tree.chain (fs.map fun p => (p.1, p.2.tree))

def tree (e : Infix) : Tree :=
  (term e.first (terms e.rest).1).chain ((terms e.rest).2.map fun t => (t.1, term t.2.1 t.2.2))

theorem terms_cons_of_isFactor {p : Op × Operand} (hp : p.1.isFactor = true)
    (ps : List (Op × Operand)) : terms (p :: ps) = (p :: (terms ps).1, (terms ps).2) := by
  simp [terms, hp]

theorem terms_cons_of_not_isFactor {p : Op × Operand} (hp : p.1.isFactor = false)
    (ps : List (Op × Operand)) :
    terms (p :: ps) = ([], (p.1, p.2, (terms ps).1) :: (terms ps).2) := by
  simp [terms, hp]

/-- A well-formed expression read up to some pair: the sum of the terms before the current one,
with the sum or difference that waits for it, and the current term. -/
structure Reading where
  sum : Option (Tree × Op)
  term : Tree

namespace Reading

def tree : Reading → Tree
  | ⟨none, t⟩ => t
  | ⟨some (s, o), t⟩ => .node o s t

def push (r : Reading) (p : Op × Operand) : Reading :=
  if p.1.isFactor then ⟨r.sum, .node p.1 r.term p.2.tree⟩
  else ⟨some (r.tree, p.1), p.2.tree⟩

def pending (r : Reading) : List Op := r.term.rootOp?.toList ++ (r.sum.map Prod.snd).toList

def emitted (r : Reading) : List Token :=
  (r.sum.map fun s => s.1.postorder).getD [] ++ r.term.body

/-- The current term ends in a product or quotient, if in an operator at all, and the operator
waiting for it is a sum or difference. -/
def Shaped (r : Reading) : Prop :=
  (∀ o ∈ r.term.rootOp?, o.isFactor = true) ∧ ∀ s ∈ r.sum, s.2.isFactor = false

theorem emitted_append_pending (r : Reading) :
    r.emitted ++ r.pending.map Token.operator = r.tree.postorder := by
  rcases r with ⟨_ | ⟨s, o⟩, t⟩
  · simp [emitted, pending, tree, ← Tree.body_append_rootOp t]
  · simp [emitted, pending, tree, Tree.postorder, ← Tree.body_append_rootOp t]

theorem takeWhile_pending_of_isFactor {r : Reading} (hr : r.Shaped) {o : Op}
    (ho : o.isFactor = true) :
    r.pending.takeWhile (Postfix.yieldsTo o) = r.term.rootOp?.toList := by
  have hterm : ∀ q ∈ r.term.rootOp?.toList, Postfix.yieldsTo o q = true := by
    intro q hq
    rw [Op.yieldsTo_of_isFactor ho]
    exact hr.1 q (Option.mem_toList.1 hq)
  rw [pending, List.takeWhile_append_of_pos hterm]
  cases hs : r.sum with
  | none => simp
  | some s =>
    have hs' : s.2.isFactor = false := hr.2 s hs
    simp [Op.yieldsTo_of_isFactor ho, hs']

theorem dropWhile_pending_of_isFactor {r : Reading} (hr : r.Shaped) {o : Op}
    (ho : o.isFactor = true) :
    r.pending.dropWhile (Postfix.yieldsTo o) = (r.sum.map Prod.snd).toList := by
  have hterm : ∀ q ∈ r.term.rootOp?.toList, Postfix.yieldsTo o q = true := by
    intro q hq
    rw [Op.yieldsTo_of_isFactor ho]
    exact hr.1 q (Option.mem_toList.1 hq)
  rw [pending, List.dropWhile_append_of_pos hterm]
  cases hs : r.sum with
  | none => rfl
  | some s =>
    have hs' : s.2.isFactor = false := hr.2 s hs
    simp [Op.yieldsTo_of_isFactor ho, hs']

theorem takeWhile_pending_of_not_isFactor (r : Reading) {o : Op} (ho : o.isFactor = false) :
    r.pending.takeWhile (Postfix.yieldsTo o) = r.pending :=
  List.takeWhile_eq_self_iff.2 fun q _ => Op.yieldsTo_of_not_isFactor ho q

theorem dropWhile_pending_of_not_isFactor (r : Reading) {o : Op} (ho : o.isFactor = false) :
    r.pending.dropWhile (Postfix.yieldsTo o) = [] :=
  List.dropWhile_eq_nil_iff.2 fun q _ => Op.yieldsTo_of_not_isFactor ho q

theorem shaped_push {r : Reading} (hr : r.Shaped) (p : Op × Operand) : (r.push p).Shaped := by
  by_cases hp : p.1.isFactor
  · simp only [push, hp, if_true]
    exact ⟨by simpa [Tree.rootOp?] using hp, hr.2⟩
  · simp only [push, hp, Bool.false_eq_true, if_false]
    refine ⟨by simp [Operand.tree, Tree.rootOp?], ?_⟩
    simpa using hp

theorem pending_push {r : Reading} (hr : r.Shaped) (p : Op × Operand) :
    (r.push p).pending = p.1 :: r.pending.dropWhile (Postfix.yieldsTo p.1) := by
  by_cases hp : p.1.isFactor
  · rw [dropWhile_pending_of_isFactor hr hp]
    simp [push, hp, pending, Tree.rootOp?]
  · rw [Bool.not_eq_true] at hp
    rw [dropWhile_pending_of_not_isFactor r hp]
    simp [push, hp, pending, Operand.tree, Tree.rootOp?]

theorem emitted_push {r : Reading} (hr : r.Shaped) (p : Op × Operand) :
    r.emitted ++ (r.pending.takeWhile (Postfix.yieldsTo p.1)).map Token.operator ++ [p.2.token] =
      (r.push p).emitted := by
  by_cases hp : p.1.isFactor
  · rw [takeWhile_pending_of_isFactor hr hp]
    have hbody := Tree.body_append_rootOp r.term
    simp only [emitted, push, hp, if_true, Tree.body, Operand.token, Operand.tree, Tree.postorder,
      List.append_assoc, ← hbody]
  · rw [Bool.not_eq_true] at hp
    rw [takeWhile_pending_of_not_isFactor r hp, emitted_append_pending]
    simp [emitted, push, hp, Tree.body, Operand.token, Operand.tree]

/-- The postfix pass over the rest of a well-formed expression continues the spelling of what
has been read. -/
theorem emitted_append_shunt (ps : List (Op × Operand)) {r : Reading} (hr : r.Shaped) :
    r.emitted ++ Postfix.shunt r.pending (pairTokens ps) = (ps.foldl push r).tree.postorder := by
  induction ps generalizing r with
  | nil => simpa [pairTokens, Postfix.shunt] using emitted_append_pending r
  | cons p ps ih =>
    have hstep : pairTokens (p :: ps) = .operator p.1 :: p.2.token :: pairTokens ps := by
      simp [pairTokens]
    rw [hstep, List.foldl_cons, ← ih (shaped_push hr p), ← emitted_push hr p, pending_push hr p]
    simp [Postfix.shunt, Operand.token]

theorem tree_foldl_push (ps : List (Op × Operand)) (r : Reading) :
    (ps.foldl push r).tree =
      (Reading.mk r.sum (r.term.chain ((terms ps).1.map fun p => (p.1, p.2.tree)))).tree.chain
        ((terms ps).2.map fun t => (t.1, Infix.term t.2.1 t.2.2)) := by
  induction ps generalizing r with
  | nil => rcases r with ⟨_ | ⟨s, o⟩, t⟩ <;> rfl
  | cons p ps ih =>
    rw [List.foldl_cons, ih]
    by_cases hp : p.1.isFactor
    · simp [push, terms_cons_of_isFactor hp, hp, Tree.chain]
    · rw [Bool.not_eq_true] at hp
      simp [push, terms_cons_of_not_isFactor hp, hp, Tree.chain, Infix.term, Reading.tree]

end Reading

theorem ofInfix_tokens (e : Infix) : Postfix.ofInfix e.tokens = e.tree.postorder := by
  let r₀ : Reading := ⟨none, e.first.tree⟩
  have hr₀ : r₀.Shaped := ⟨by simp [r₀, Operand.tree, Tree.rootOp?], by simp [r₀]⟩
  have h := Reading.emitted_append_shunt e.rest hr₀
  rw [Reading.tree_foldl_push] at h
  simpa [Postfix.ofInfix, tokens, Postfix.shunt, Operand.token, Reading.emitted,
    Reading.pending, Operand.tree, Tree.body, Tree.rootOp?, tree, Reading.tree, term, r₀] using h

theorem ofWords_pairWords (ps : List (Op × Operand)) :
    Token.ofWords (pairWords ps) = .ok (pairTokens ps) := by
  induction ps with
  | nil => rfl
  | cons p ps ih =>
    simp only [pairWords, pairTokens, List.flatMap_cons, List.cons_append, List.nil_append]
      at ih ⊢
    simp [Token.ofWords, Token.ofWord?_symbol, Operand.ofWord?_word, ih, Except.map]

theorem ofWords_words (e : Infix) : Token.ofWords e.words = .ok e.tokens := by
  simp [words, tokens, Token.ofWords, Operand.ofWord?_word, ofWords_pairWords, Except.map]

theorem getLast?_cons_pairWords (a : String) (ps : List (Op × Operand)) :
    (a :: pairWords ps).getLast? = (a :: ps.map fun p => p.2.word).getLast? := by
  induction ps generalizing a with
  | nil => rfl
  | cons p ps ih =>
    have h : a :: pairWords (p :: ps) = a :: p.1.symbol :: (p.2.word :: pairWords ps) := by
      simp [pairWords]
    rw [h, List.getLast?_cons_cons, List.getLast?_cons_cons, ih, List.map_cons,
      List.getLast?_cons_cons]

theorem edges_words (e : Infix) :
    e.words.head?.any Op.isSymbol = false ∧ e.words.getLast?.any Op.isSymbol = false := by
  refine ⟨by simp [words, Operand.isSymbol_word], ?_⟩
  rw [words, getLast?_cons_pairWords]
  cases hl : (e.first.word :: e.rest.map fun p => p.2.word).getLast? with
  | none => rfl
  | some w =>
    have hw := List.mem_of_getLast? hl
    simp only [List.mem_cons, List.mem_map] at hw
    rcases hw with rfl | ⟨p, _, rfl⟩ <;> simp [Operand.isSymbol_word]

theorem evaluate_eq_eval {α : Type} (s : Semantics α) (e : Infix) {expr : String}
    (h : Text.words expr = e.words) : s.evaluate expr = e.tree.eval s := by
  have hne : e.words.isEmpty = false := by simp [words]
  obtain ⟨hhead, hlast⟩ := e.edges_words
  simp only [Semantics.evaluate, h, hne, hhead, hlast, Bool.false_or, Bool.false_eq_true,
    if_false, ofWords_words, ofInfix_tokens, Tree.run_postorder]
  cases e.tree.eval s <;> rfl

/-- Evaluating a well-formed expression computes its reference tree, whatever the four operators
mean; in binary64 arithmetic it fails only by a division by zero, and exactly when some quotient
of the tree has a zero divisor. -/
theorem evaluate_eq_tree (e : Infix) {expr : String} (h : Text.words expr = e.words) :
    (∀ {α : Type} (s : Semantics α), s.evaluate expr = e.tree.eval s) ∧
      ∀ err, evaluate expr = .error err ↔ err = .divisionByZero ∧ e.tree.DividesByZero := by
  refine ⟨fun s => evaluate_eq_eval s e h, fun err => ?_⟩
  rw [evaluate, evaluate_eq_eval Semantics.float e h]
  exact Tree.eval_float_eq_error e.tree err

def sample : Infix :=
  ⟨⟨"7", .finite false 7 0, by decide +kernel⟩,
    [(.plus, ⟨"3", .finite false 3 0, by decide +kernel⟩),
      (.times, ⟨"2", .finite false 2 0, by decide +kernel⟩),
      (.minus, ⟨"4", .finite false 4 0, by decide +kernel⟩),
      (.divide, ⟨"2", .finite false 2 0, by decide +kernel⟩)]⟩

theorem evaluate_eq_tree_sample :
    Text.words "7 + 3 * 2 - 4 / 2" = sample.words ∧
      ((∀ {α : Type} (s : Semantics α), s.evaluate "7 + 3 * 2 - 4 / 2" = sample.tree.eval s) ∧
        ∀ err, evaluate "7 + 3 * 2 - 4 / 2" = .error err ↔
          err = .divisionByZero ∧ sample.tree.DividesByZero) :=
  ⟨by decide +kernel, evaluate_eq_tree sample (by decide +kernel)⟩

example : sample.tree.postorder.map Token.word = ["7", "3", "2", "*", "+", "4", "2", "/", "-"] := by
  decide +kernel

end Infix

end Reckon
