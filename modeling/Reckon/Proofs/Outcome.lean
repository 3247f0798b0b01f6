import Reckon.Proofs.Tokens

set_option autoImplicit false

/-!
# The outcome of an evaluation

An evaluation ends in one of six errors or a value, and which one is decided by the checks in
their order: no words at all, then an operator symbol at either end, then the leftmost word that
is no token, and only then the postfix run, which can lack operands, divide by zero or leave more
than one value. Each outcome holds exactly when the conditions before it fail and its own holds
(`evaluate_outcome`), so no two can both apply.

The run meets only tokens that read back from their own words as themselves, so the number and
operator tests it makes agree with the ones the postfix pass made.
-/

namespace Reckon

def EdgeOperator (ws : List String) : Prop :=
  ∃ o : Op, ws.head? = some o.symbol ∨ ws.getLast? = some o.symbol

def FirstUnknown (ws : List String) (t : String) : Prop :=
  ∃ pre post, ws = pre ++ t :: post ∧
    (∀ w ∈ pre, isNumeral w = true ∨ ∃ o : Op, w = o.symbol) ∧
    isNumeral t = false ∧ ∀ o : Op, t ≠ o.symbol

theorem edgeOperator_iff (ws : List String) :
    (ws.head?.any Op.isSymbol || ws.getLast?.any Op.isSymbol) = true ↔ EdgeOperator ws := by
  have side :
      ∀ x : Option String, x.any Op.isSymbol = true ↔ ∃ o : Op, x = some o.symbol := by
    intro x
    cases x with
    | none => simp
    | some w => simp only [Option.any_some, Op.isSymbol_iff, Option.some.injEq]
  rw [Bool.or_eq_true, side, side, EdgeOperator, exists_or]

theorem ofWords_eq_error_iff_firstUnknown {ws : List String} {t : String} :
    Token.ofWords ws = .error t ↔ FirstUnknown ws t := by
  rw [Token.ofWords_eq_error_iff, FirstUnknown]
  simp only [Token.ofWord?_isSome_iff, Token.ofWord?_eq_none_iff]

namespace Semantics

theorem evaluate_of_nil {expr : String} (h : Text.words expr = []) :
    Reckon.evaluate expr = .error .empty := by
  simp [Reckon.evaluate, evaluate, h]

theorem evaluate_of_edgeOperator {expr : String} (hne : Text.words expr ≠ [])
    (hedge : EdgeOperator (Text.words expr)) :
    Reckon.evaluate expr = .error .operatorAtEdge := by
  have hempty : (Text.words expr).isEmpty = false := List.isEmpty_eq_false_iff.2 hne
  rw [← edgeOperator_iff] at hedge
  simp only [Reckon.evaluate, evaluate, hempty, hedge, Bool.false_eq_true, if_false, if_true]

theorem evaluate_of_ofWords_error {expr t : String} (hne : Text.words expr ≠ [])
    (hedge : ¬ EdgeOperator (Text.words expr)) (ht : Token.ofWords (Text.words expr) = .error t) :
    Reckon.evaluate expr = .error (.unknownWord t) := by
  have hempty : (Text.words expr).isEmpty = false := List.isEmpty_eq_false_iff.2 hne
  rw [← edgeOperator_iff, Bool.not_eq_true] at hedge
  simp only [Reckon.evaluate, evaluate, hempty, hedge, ht, Bool.false_eq_true, if_false]

/-- After the checks on the words, the run gives a value, or lacks operands, keeps more than one
value or divides by zero. -/
theorem evaluate_after_checks {expr : String} {ts : List Token} (hne : Text.words expr ≠ [])
    (hedge : ¬ EdgeOperator (Text.words expr)) (hts : Token.ofWords (Text.words expr) = .ok ts) :
    (∃ x, Reckon.evaluate expr = .ok x) ∨ Reckon.evaluate expr = .error .missingOperand ∨
      Reckon.evaluate expr = .error .extraOperand ∨
        Reckon.evaluate expr = .error .divisionByZero := by
  have hempty : (Text.words expr).isEmpty = false := List.isEmpty_eq_false_iff.2 hne
  rw [← edgeOperator_iff, Bool.not_eq_true] at hedge
  simp only [Reckon.evaluate, evaluate, hempty, hedge, hts, Bool.false_eq_true, if_false]
  split
  · rename_i e hrun
    rcases run_float_eq_error hrun with rfl | rfl
    · exact .inr (.inl rfl)
    · exact .inr (.inr (.inr rfl))
  · rename_i v _
    exact .inl ⟨v, rfl⟩
  · exact .inr (.inr (.inl rfl))

theorem evaluate_eq_ok_iff_run {expr : String} {ts : List Token} (hne : Text.words expr ≠ [])
    (hedge : ¬ EdgeOperator (Text.words expr)) (hts : Token.ofWords (Text.words expr) = .ok ts)
    (x : Float) :
    Reckon.evaluate expr = .ok x ↔ Postfix.run float [] (Postfix.ofInfix ts) = .ok [x] := by
  have hempty : (Text.words expr).isEmpty = false := List.isEmpty_eq_false_iff.2 hne
  rw [← edgeOperator_iff, Bool.not_eq_true] at hedge
  simp only [Reckon.evaluate, evaluate, hempty, hedge, hts, Bool.false_eq_true, if_false]
  split
  · rename_i e hrun
    simp [hrun]
  · rename_i v hrun
    simp [hrun]
  · rename_i st hst hrun
    simp only [hrun, reduceCtorEq, Except.ok.injEq, false_iff]
    exact hst x

theorem evaluate_eq_divisionByZero_iff_run {expr : String} {ts : List Token}
    (hne : Text.words expr ≠ []) (hedge : ¬ EdgeOperator (Text.words expr))
    (hts : Token.ofWords (Text.words expr) = .ok ts) :
    Reckon.evaluate expr = .error .divisionByZero ↔
      Postfix.run float [] (Postfix.ofInfix ts) = .error .divisionByZero := by
  have hempty : (Text.words expr).isEmpty = false := List.isEmpty_eq_false_iff.2 hne
  rw [← edgeOperator_iff, Bool.not_eq_true] at hedge
  simp only [Reckon.evaluate, evaluate, hempty, hedge, hts, Bool.false_eq_true, if_false]
  split <;> rename_i hrun <;> simp [hrun]

end Semantics

/-- Evaluation has exactly one outcome, decided in order: no words, an operator symbol at either
end, the leftmost word that is no token, and otherwise what the postfix run gives. The run reads
only tokens that read back from their own words as themselves. -/
theorem evaluate_outcome (expr : String) :
    (evaluate expr = .error .empty ↔ Text.words expr = []) ∧
    (evaluate expr = .error .operatorAtEdge ↔
      Text.words expr ≠ [] ∧ EdgeOperator (Text.words expr)) ∧
    (∀ t, evaluate expr = .error (.unknownWord t) ↔
      Text.words expr ≠ [] ∧ ¬ EdgeOperator (Text.words expr) ∧
        FirstUnknown (Text.words expr) t) ∧
    ((Text.words expr ≠ [] ∧ ¬ EdgeOperator (Text.words expr) ∧
        ∀ w ∈ Text.words expr, isNumeral w = true ∨ ∃ o : Op, w = o.symbol) ↔
      (∃ x, evaluate expr = .ok x) ∨ evaluate expr = .error .missingOperand ∨
        evaluate expr = .error .extraOperand ∨ evaluate expr = .error .divisionByZero) ∧
    ∀ ts, Token.ofWords (Text.words expr) = .ok ts →
      ∀ t ∈ Postfix.ofInfix ts, Token.ofWord? t.word = some t := by
  have reads : ∀ ts, Token.ofWords (Text.words expr) = .ok ts →
      ∀ t ∈ Postfix.ofInfix ts, Token.ofWord? t.word = some t :=
    fun ts hts => Postfix.ofWord?_word_of_mem_ofInfix hts
  by_cases hne : Text.words expr = []
  · have hval := Semantics.evaluate_of_nil hne
    refine ⟨?_, ?_, ?_, ?_, reads⟩ <;> simp [hval, hne]
  by_cases hedge : EdgeOperator (Text.words expr)
  · have hval := Semantics.evaluate_of_edgeOperator hne hedge
    refine ⟨?_, ?_, ?_, ?_, reads⟩ <;> simp [hval, hne, hedge]
  obtain ⟨t₀, hts⟩ | ⟨ts, hts⟩ : (∃ t, Token.ofWords (Text.words expr) = .error t) ∨
      ∃ ts, Token.ofWords (Text.words expr) = .ok ts := by
    cases Token.ofWords (Text.words expr) with
    | error t => exact .inl ⟨t, rfl⟩
    | ok ts => exact .inr ⟨ts, rfl⟩
  · have hval := Semantics.evaluate_of_ofWords_error hne hedge hts
    have hfirst : ∀ t, FirstUnknown (Text.words expr) t ↔ t₀ = t := by
      intro t
      rw [← ofWords_eq_error_iff_firstUnknown, hts, Except.error.injEq]
    have hsome : ¬ ∀ w ∈ Text.words expr, isNumeral w = true ∨ ∃ o : Op, w = o.symbol := by
      intro hall
      obtain ⟨pre, post, hsplit, -, hnum, hsym⟩ := (hfirst t₀).2 rfl
      have hmem : t₀ ∈ Text.words expr := by simp [hsplit]
      rcases hall t₀ hmem with h | ⟨o, ho⟩
      · rw [hnum] at h
        cases h
      · exact hsym o ho
    refine ⟨?_, ?_, ?_, ?_, reads⟩ <;> simp [hval, hne, hedge, hfirst, hsome]
  · have hall : ∀ w ∈ Text.words expr, isNumeral w = true ∨ ∃ o : Op, w = o.symbol :=
      fun w hw => Token.ofWord?_isSome_iff.1 (Token.ofWord?_isSome_of_ofWords hts w hw)
    have hnone : ∀ t, ¬ FirstUnknown (Text.words expr) t := by
      intro t ht
      rw [← ofWords_eq_error_iff_firstUnknown, hts] at ht
      cases ht
    rcases Semantics.evaluate_after_checks hne hedge hts with ⟨x, hval⟩ | hval | hval | hval <;>
      refine ⟨?_, ?_, ?_, ?_, reads⟩ <;> simp [hval, hne, hedge, hnone] <;> exact hall

end Reckon
