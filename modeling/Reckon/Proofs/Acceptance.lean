import Mathlib.Data.List.Forall2
import Reckon.Proofs.Infix
import Reckon.Proofs.Outcome

set_option autoImplicit false

/-!
# What evaluation lets through

The checks before the postfix run look only at the ends of the word list and at each word alone;
the order of numbers and operators in between is judged by the run. A postfix word builds a stack
of trees (`Postfix.forest`), and in binary64 arithmetic the run divides by zero exactly when one of
them does. So an evaluation gives a value or a division by zero exactly when the postfix word
builds one tree, or trees one of which divides by zero (`evaluate_admits_iff`). Lists that do not
alternate can pass: `1 + * 2 3` is reordered to `1 2 3 * +` and evaluates to `7`.
-/

namespace Reckon

namespace Postfix

/-- The trees a postfix word builds on a stack of trees, head on top, and whether it stopped at
an operator that found fewer than two. -/
def forest : List Tree → List Token → List Tree × Bool
  | st, [] => (st, false)
  | st, .number w v :: rest => forest (.leaf w v :: st) rest
  | r :: l :: st, .operator o :: rest => forest (.node o l r :: st) rest
  | st, .operator _ :: _ => (st, true)

theorem forest_postorder_append (t : Tree) (st : List Tree) (rest : List Token) :
    forest st (t.postorder ++ rest) = forest (t :: st) rest := by
  induction t generalizing st rest with
  | leaf w v => rfl
  | node o l r ihl ihr =>
    rw [Tree.postorder, List.append_assoc, List.append_assoc, ihl, ihr]
    rfl

def Valued (ts : List Tree) (vs : List Float) : Prop :=
  List.Forall₂ (fun t v => t.eval Semantics.float = .ok v) ts vs

theorem not_dividesByZero_of_valued {ts : List Tree} {vs : List Float} (h : Valued ts vs) :
    ∀ t ∈ ts, ¬ t.DividesByZero := by
  induction h with
  | nil => simp
  | cons ht _ ih =>
    intro t hmem
    rcases List.mem_cons.1 hmem with rfl | hmem
    · intro hd
      have herr := (Tree.eval_float_eq_error _ .divisionByZero).2 ⟨rfl, hd⟩
      rw [ht] at herr
      cases herr
    · exact ih t hmem

theorem valued_unique {ts : List Tree} {vs ws : List Float} (hv : Valued ts vs)
    (hw : Valued ts ws) : vs = ws := by
  induction hv generalizing ws with
  | nil => cases hw; rfl
  | cons ht _ ih =>
    cases hw with
    | cons ht' hw =>
      rw [ht] at ht'
      cases ht'
      rw [ih hw]

/-- A tree that divides by zero stays in what the word builds, alone or inside a larger tree,
which then divides by zero too. -/
theorem dividesByZero_of_forest {st : List Tree} {ts : List Token} {u : Tree}
    (hu : u ∈ st) (hd : u.DividesByZero) : ∃ t ∈ (forest st ts).1, t.DividesByZero := by
  induction ts generalizing st u with
  | nil => exact ⟨u, hu, hd⟩
  | cons x ts ih =>
    cases x with
    | number w v => exact ih (List.mem_cons_of_mem _ hu) hd
    | operator o =>
      rcases st with _ | ⟨r, _ | ⟨l, st⟩⟩
      · exact ⟨u, hu, hd⟩
      · exact ⟨u, hu, hd⟩
      · rcases List.mem_cons.1 hu with rfl | hu
        · exact @ih (.node o l u :: st) (.node o l u) List.mem_cons_self (.inr (.inl hd))
        · rcases List.mem_cons.1 hu with rfl | hu
          · exact @ih (.node o u r :: st) (.node o u r) List.mem_cons_self (.inl hd)
          · exact ih (List.mem_cons_of_mem _ hu) hd

theorem run_float_eq_error_iff {st : List Tree} {vs : List Float} (h : Valued st vs)
    (ts : List Token) :
    run Semantics.float vs ts = .error .divisionByZero ↔
      ∃ t ∈ (forest st ts).1, t.DividesByZero := by
  induction ts generalizing st vs with
  | nil =>
    simp only [run, forest, reduceCtorEq, false_iff, not_exists, not_and]
    exact not_dividesByZero_of_valued h
  | cons x ts ih =>
    cases x with
    | number w v => exact ih (List.Forall₂.cons rfl h)
    | operator o =>
      cases h with
      | nil =>
        simp only [run, forest, Except.error.injEq, reduceCtorEq, false_iff, not_exists, not_and]
        exact not_dividesByZero_of_valued List.Forall₂.nil
      | cons hr h =>
        rename_i r b st vs
        cases h with
        | nil =>
          simp only [run, forest, Except.error.injEq, reduceCtorEq, false_iff, not_exists, not_and]
          exact not_dividesByZero_of_valued (List.Forall₂.cons hr List.Forall₂.nil)
        | cons hl h =>
          rename_i l a st vs
          simp only [run, forest]
          cases happ : Semantics.float.apply o a b with
          | ok c => exact ih (List.Forall₂.cons ((Tree.eval_node_of_ok hl hr).trans happ) h)
          | error e =>
            have hd := Tree.dividesByZero_node_of_apply hl hr happ
            obtain ⟨rfl, -⟩ := Semantics.float_apply_eq_error.1 happ
            simp only [true_iff]
            exact dividesByZero_of_forest List.mem_cons_self hd

/-- A run from values of trees ends with values exactly when the word does not stop short, and
the values are those of the trees it builds. -/
theorem run_float_eq_ok_iff {st : List Tree} {vs : List Float} (h : Valued st vs)
    (ts : List Token) (vs' : List Float) :
    run Semantics.float vs ts = .ok vs' ↔
      (forest st ts).2 = false ∧ Valued (forest st ts).1 vs' := by
  induction ts generalizing st vs with
  | nil =>
    simp only [run, forest, Except.ok.injEq, true_and]
    constructor
    · rintro rfl
      exact h
    · intro h'
      exact valued_unique h h'
  | cons x ts ih =>
    cases x with
    | number w v => exact ih (List.Forall₂.cons rfl h)
    | operator o =>
      cases h with
      | nil => simp [run, forest]
      | cons hr h =>
        rename_i r b st vs
        cases h with
        | nil => simp [run, forest]
        | cons hl h =>
          rename_i l a st vs
          simp only [run, forest]
          cases happ : Semantics.float.apply o a b with
          | ok c => exact ih (List.Forall₂.cons ((Tree.eval_node_of_ok hl hr).trans happ) h)
          | error e =>
            have hd := Tree.dividesByZero_node_of_apply hl hr happ
            simp only [reduceCtorEq, false_iff, not_and]
            intro _ hv
            obtain ⟨t, ht, ht'⟩ := @dividesByZero_of_forest _ ts _ List.mem_cons_self hd
            exact not_dividesByZero_of_valued hv t ht ht'

theorem valued_singleton_iff {st : List Tree} {x : Float} :
    Valued st [x] ↔ ∃ t, st = [t] ∧ t.eval Semantics.float = .ok x := by
  constructor
  · intro h
    obtain ⟨t, st', ht, hrest, rfl⟩ := List.forall₂_cons_right_iff.1 h
    rw [List.forall₂_nil_right_iff.1 hrest]
    exact ⟨t, rfl, ht⟩
  · rintro ⟨t, rfl, ht⟩
    exact List.Forall₂.cons ht List.Forall₂.nil

/-- A postfix word gives one binary64 value or a division by zero exactly when it builds a single
tree or a tree that divides by zero. -/
theorem run_float_admits_iff (ts : List Token) :
    ((∃ x, run Semantics.float [] ts = .ok [x]) ∨
        run Semantics.float [] ts = .error .divisionByZero) ↔
      (∃ t, forest [] ts = ([t], false)) ∨ ∃ t ∈ (forest [] ts).1, t.DividesByZero := by
  have hnil : Valued [] [] := List.Forall₂.nil
  have hok : ∀ x, run Semantics.float [] ts = .ok [x] ↔
      ∃ t, forest [] ts = ([t], false) ∧ t.eval Semantics.float = .ok x := by
    intro x
    rw [run_float_eq_ok_iff hnil, valued_singleton_iff]
    constructor
    · rintro ⟨hshort, t, htrees, ht⟩
      exact ⟨t, Prod.ext htrees hshort, ht⟩
    · rintro ⟨t, hf, ht⟩
      rw [hf]
      exact ⟨rfl, t, rfl, ht⟩
  rw [run_float_eq_error_iff hnil]
  constructor
  · rintro (⟨x, hx⟩ | hd)
    · obtain ⟨t, hf, -⟩ := (hok x).1 hx
      exact .inl ⟨t, hf⟩
    · exact .inr hd
  · rintro (⟨t, hf⟩ | hd)
    · cases ht : t.eval Semantics.float with
      | ok x => exact .inl ⟨x, (hok x).2 ⟨t, hf, ht⟩⟩
      | error e =>
        obtain ⟨-, hd⟩ := (Tree.eval_float_eq_error t e).1 ht
        exact .inr ⟨t, by simp [hf], hd⟩
    · exact .inr hd

end Postfix

/-- An evaluation gives a value or divides by zero exactly when the words are tokens with a
number at each end and their postfix word builds a single tree, or a tree that divides by zero;
whether the numbers and operators alternate is never checked. -/
theorem evaluate_admits_iff (expr : String) :
    ((∃ x, evaluate expr = .ok x) ∨ evaluate expr = .error .divisionByZero) ↔
      Text.words expr ≠ [] ∧ ¬ EdgeOperator (Text.words expr) ∧
        ∃ ts, Token.ofWords (Text.words expr) = .ok ts ∧
          ((∃ t, Postfix.forest [] (Postfix.ofInfix ts) = ([t], false)) ∨
            ∃ t ∈ (Postfix.forest [] (Postfix.ofInfix ts)).1, t.DividesByZero) := by
  by_cases hne : Text.words expr = []
  · simp [Semantics.evaluate_of_nil hne, hne]
  by_cases hedge : EdgeOperator (Text.words expr)
  · simp [Semantics.evaluate_of_edgeOperator hne hedge, hedge]
  obtain ⟨t₀, hts⟩ | ⟨ts, hts⟩ : (∃ t, Token.ofWords (Text.words expr) = .error t) ∨
      ∃ ts, Token.ofWords (Text.words expr) = .ok ts := by
    cases Token.ofWords (Text.words expr) with
    | error t => exact .inl ⟨t, rfl⟩
    | ok ts => exact .inr ⟨ts, rfl⟩
  · simp [Semantics.evaluate_of_ofWords_error hne hedge hts, hts]
  · have hleft : ((∃ x, evaluate expr = .ok x) ∨ evaluate expr = .error .divisionByZero) ↔
        ((∃ x, Postfix.run Semantics.float [] (Postfix.ofInfix ts) = .ok [x]) ∨
          Postfix.run Semantics.float [] (Postfix.ofInfix ts) = .error .divisionByZero) := by
      simp only [Semantics.evaluate_eq_ok_iff_run hne hedge hts,
        Semantics.evaluate_eq_divisionByZero_iff_run hne hedge hts]
    rw [hleft, Postfix.run_float_admits_iff]
    simp [hne, hedge, hts]

theorem forest_ofInfix_tokens (e : Infix) :
    Postfix.forest [] (Postfix.ofInfix e.tokens) = ([e.tree], false) := by
  rw [Infix.ofInfix_tokens, ← List.append_nil e.tree.postorder, Postfix.forest_postorder_append]
  rfl

/-- `1 + * 2 3` does not alternate numbers and operators, yet it is evaluated, as `1 + 2 * 3`. -/
theorem evaluate_nonalternating :
    evaluate "1 + * 2 3" = .ok 7 ∧ ¬ ∃ e : Infix, Text.words "1 + * 2 3" = e.words := by
  refine ⟨rfl, ?_⟩
  rintro ⟨⟨n, ps⟩, h⟩
  have hw : Text.words "1 + * 2 3" = ["1", "+", "*", "2", "3"] := by decide +kernel
  rw [hw] at h
  cases ps with
  | nil => simp [Infix.words, Infix.pairWords] at h
  | cons p ps =>
    simp only [Infix.words, Infix.pairWords, List.flatMap_cons, List.cons_append,
      List.nil_append, List.cons.injEq] at h
    have hread := p.2.reads
    have hstar : Numeral.read? "*" = none := Op.read?_symbol .times
    rw [← h.2.2.1, hstar] at hread
    cases hread

end Reckon
