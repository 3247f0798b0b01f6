import Reckon.Proofs.Tree

set_option autoImplicit false

/-!
# Words and the tokens read from them

A word is a number when it holds a numeral and an operator when it is exactly one of the four
symbols; no symbol holds a numeral (`Op.read?_symbol`), so the two never overlap and the order
in which a word is tried does not matter. Reading a list of words stops at the leftmost word that
is neither (`Token.ofWords_eq_error_iff`).

The postfix pass only moves tokens (`Postfix.mem_shunt`), so every token of a postfix word reads
back from its own word as the same token (`Postfix.ofWord?_word_of_mem_ofInfix`): a number's
word is a numeral with the number's value, an operator's word is its symbol.
-/

namespace Reckon

namespace Op

theorem ofSymbol?_eq_some {w : String} {o : Op} : ofSymbol? w = some o ↔ w = o.symbol := by
  constructor
  · intro h
    unfold ofSymbol? at h
    repeat' split at h
    all_goals cases h
    all_goals (subst_vars; rfl)
  · rintro rfl
    exact ofSymbol?_symbol o

theorem isSymbol_iff {w : String} : isSymbol w = true ↔ ∃ o : Op, w = o.symbol := by
  simp [isSymbol, Option.isSome_iff_exists, ofSymbol?_eq_some]

theorem read?_symbol (o : Op) : Numeral.read? o.symbol = none := by
  cases o <;> decide

theorem read?_of_isSymbol {w : String} (h : isSymbol w = true) : Numeral.read? w = none := by
  obtain ⟨o, rfl⟩ := isSymbol_iff.1 h
  exact read?_symbol o

end Op

namespace Token

theorem ofWord?_symbol (o : Op) : ofWord? o.symbol = some (.operator o) := by
  simp [ofWord?, Op.read?_symbol]

theorem ofWord?_isSome_iff {w : String} :
    (ofWord? w).isSome ↔ isNumeral w = true ∨ ∃ o : Op, w = o.symbol := by
  unfold ofWord? isNumeral
  cases h : Numeral.read? w with
  | some v => simp
  | none =>
    simp only [Option.isSome_map, Option.isSome_none, Bool.false_eq_true, false_or]
    exact Op.isSymbol_iff

theorem ofWord?_eq_none_iff {w : String} :
    ofWord? w = none ↔ isNumeral w = false ∧ ∀ o : Op, w ≠ o.symbol := by
  rw [← Option.not_isSome_iff_eq_none, ofWord?_isSome_iff]
  simp

theorem ofWords_eq_error_iff {ws : List String} {t : String} :
    ofWords ws = .error t ↔
      ∃ pre post, ws = pre ++ t :: post ∧ (∀ w ∈ pre, (ofWord? w).isSome) ∧
        ofWord? t = none := by
  induction ws with
  | nil =>
    simp only [ofWords, reduceCtorEq, false_iff, not_exists, not_and]
    intro pre post h
    cases pre <;> cases h
  | cons w ws ih =>
    cases hw : ofWord? w with
    | none =>
      simp only [ofWords, hw, Except.error.injEq]
      constructor
      · rintro rfl
        exact ⟨[], ws, rfl, by simp, hw⟩
      · rintro ⟨pre, post, heq, hpre, ht⟩
        cases pre with
        | nil => cases heq; rfl
        | cons x pre =>
          obtain ⟨rfl, -⟩ := List.cons.inj heq
          simp [hw] at hpre
    | some u =>
      simp only [ofWords, hw]
      -- a word that is a token cannot be the one reported: the report comes from the rest
      have later : ∀ pre post, w :: ws = pre ++ t :: post →
          (∀ v ∈ pre, (ofWord? v).isSome) → ofWord? t = none →
            ∃ pre', ws = pre' ++ t :: post ∧ ∀ v ∈ pre', (ofWord? v).isSome := by
        intro pre post heq hpre ht
        cases pre with
        | nil =>
          cases heq
          rw [hw] at ht
          cases ht
        | cons x pre =>
          obtain ⟨rfl, hrest⟩ := List.cons.inj heq
          exact ⟨pre, hrest, fun v hv => hpre v (List.mem_cons_of_mem _ hv)⟩
      cases hr : ofWords ws with
      | ok us =>
        simp only [Except.map, reduceCtorEq, false_iff, not_exists, not_and]
        intro pre post heq hpre ht
        obtain ⟨pre', hrest, hpre'⟩ := later pre post heq hpre ht
        have := ih.2 ⟨pre', post, hrest, hpre', ht⟩
        rw [hr] at this
        cases this
      | error e =>
        simp only [Except.map, Except.error.injEq]
        rw [hr] at ih
        constructor
        · rintro rfl
          obtain ⟨pre, post, heq, hpre, ht⟩ := ih.1 rfl
          refine ⟨w :: pre, post, by simp [heq], ?_, ht⟩
          intro v hv
          rcases List.mem_cons.1 hv with rfl | hv
          · simp [hw]
          · exact hpre v hv
        · rintro ⟨pre, post, heq, hpre, ht⟩
          obtain ⟨pre', hrest, hpre'⟩ := later pre post heq hpre ht
          have := ih.2 ⟨pre', post, hrest, hpre', ht⟩
          cases this
          rfl

theorem ofWord?_word_of_mem {ws : List String} {ts : List Token} (h : ofWords ws = .ok ts) :
    ∀ t ∈ ts, ofWord? t.word = some t := by
  induction ws generalizing ts with
  | nil =>
    cases h
    simp
  | cons w ws ih =>
    unfold ofWords at h
    split at h
    · rename_i u hu
      cases hr : ofWords ws with
      | error e =>
        rw [hr] at h
        cases h
      | ok us =>
        rw [hr] at h
        cases h
        intro t ht
        rcases List.mem_cons.1 ht with rfl | ht
        · rw [word_of_ofWord? hu]
          exact hu
        · exact ih hr t ht
    · cases h

theorem ofWord?_isSome_of_ofWords {ws : List String} {ts : List Token}
    (h : ofWords ws = .ok ts) : ∀ w ∈ ws, (ofWord? w).isSome := by
  intro w hw
  rw [← map_word_of_ofWords h] at hw
  obtain ⟨t, ht, rfl⟩ := List.mem_map.1 hw
  rw [ofWord?_word_of_mem h t ht]
  rfl

end Token

namespace Postfix

theorem mem_shunt {stack : List Op} {ts : List Token} {t : Token} (h : t ∈ shunt stack ts) :
    t ∈ ts ∨ ∃ o ∈ stack, t = .operator o := by
  induction ts generalizing stack with
  | nil =>
    simp only [shunt, List.mem_map] at h
    obtain ⟨o, ho, rfl⟩ := h
    exact .inr ⟨o, ho, rfl⟩
  | cons u ts ih =>
    cases u with
    | number w v =>
      simp only [shunt, List.mem_cons] at h
      rcases h with rfl | h
      · exact .inl List.mem_cons_self
      · rcases ih h with h | h
        · exact .inl (List.mem_cons_of_mem _ h)
        · exact .inr h
    | operator o =>
      simp only [shunt, List.mem_append, List.mem_map] at h
      rcases h with ⟨p, hp, rfl⟩ | h
      · exact .inr ⟨p, List.takeWhile_subset _ hp, rfl⟩
      · rcases ih h with h | ⟨p, hp, rfl⟩
        · exact .inl (List.mem_cons_of_mem _ h)
        · rcases List.mem_cons.1 hp with rfl | hp
          · exact .inl List.mem_cons_self
          · exact .inr ⟨p, List.dropWhile_subset _ hp, rfl⟩

theorem mem_ofInfix {ts : List Token} {t : Token} (h : t ∈ ofInfix ts) : t ∈ ts := by
  rcases mem_shunt h with h | ⟨_, h, _⟩
  · exact h
  · cases h

theorem ofWord?_word_of_mem_ofInfix {ws : List String} {ts : List Token}
    (h : Token.ofWords ws = .ok ts) : ∀ t ∈ ofInfix ts, Token.ofWord? t.word = some t :=
  fun t ht => Token.ofWord?_word_of_mem h t (mem_ofInfix ht)

end Postfix

end Reckon
