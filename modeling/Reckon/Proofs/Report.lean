import Mathlib
import Reckon.Session
import Reckon.Proofs.Utf8

set_option autoImplicit false

/-!
# Serving a batch

The server reads the bytes it receives as UTF-8, refusing any that are not, and reports every
expression of the text on a line of its own. Cutting the report into lines gives the report lines
of the expressions back, one each and in order (`Batch.lines_report`): an expression is a trimmed
line, so it holds no line break, a number is written with digits, a sign, a point and letters, and
an error text quotes an unknown word with its line breaks escaped. The main statement is
`serve_reports_each_expression`.
-/

namespace Reckon

namespace Text

def OneLine (cs : List Char) : Prop := ∀ c ∈ cs, isLineBreak c = false

instance (cs : List Char) : Decidable (OneLine cs) :=
  decidable_of_iff (cs.all fun c => !isLineBreak c) (by simp [OneLine])

theorem oneLine_append {a b : List Char} : OneLine (a ++ b) ↔ OneLine a ∧ OneLine b :=
  List.forall_mem_append

theorem OneLine.mono {a b : List Char} (h : OneLine b) (hab : a ⊆ b) : OneLine a :=
  fun c hc => h c (hab hc)

theorem isLineBreak_of_toNat {c : Char} (h1 : 0x20 ≤ c.toNat) (h2 : c.toNat < 0x7F) :
    isLineBreak c = false := by
  simp only [isLineBreak, Bool.or_eq_false_iff, Bool.and_eq_false_imp, decide_eq_true_eq,
    decide_eq_false_iff_not, beq_eq_false_iff_ne]
  omega

theorem isLineBreak_ofNat {m : Nat} (h1 : 0x20 ≤ m) (h2 : m < 0x7F) :
    isLineBreak (Char.ofNat m) = false := by
  have hm : (Char.ofNat m).toNat = m :=
    toNat_ofNat_of_isValidChar (by unfold Nat.isValidChar; omega)
  exact isLineBreak_of_toNat (by omega) (by omega)

theorem oneLine_toDigits (n : Nat) : OneLine (Nat.toDigits 10 n) := by
  intro c hc
  have hd := Char.isDigit_iff_toNat.1 (Nat.isDigit_of_mem_toDigits (by decide) (by decide) hc)
  exact isLineBreak_of_toNat (by simp at hd; omega) (by simp at hd; omega)

/-! ## Lines and trimming -/

theorem linesOf_append_newline {l : List Char} (hl : OneLine l) (rest : List Char) :
    linesOf (l ++ '\n' :: rest) = l :: linesOf rest := by
  induction l with
  | nil => rfl
  | cons c l ih =>
    have hc : isLineBreak c = false := hl c List.mem_cons_self
    have hcr : c ≠ '\r' := by
      rintro rfl
      cases hc
    rw [List.cons_append, linesOf, if_neg (by simp [hc]), ih (hl.mono (List.subset_cons_self c l))]
    exact fun _ h => absurd h hcr

theorem oneLine_of_mem_linesOf {cs l : List Char} (h : l ∈ linesOf cs) : OneLine l := by
  fun_induction linesOf cs generalizing l with
  | case1 => cases h
  | case2 cs ih =>
    rcases List.mem_cons.1 h with rfl | h
    · exact fun _ hc => nomatch hc
    · exact ih h
  | case3 c cs _ hc ih =>
    rcases List.mem_cons.1 h with rfl | h
    · exact fun _ hc => nomatch hc
    · exact ih h
  | case4 c cs _ hc hnil ih =>
    rw [List.mem_singleton.1 h]
    simpa [OneLine] using hc
  | case5 c cs _ hc p ps hps ih =>
    rcases List.mem_cons.1 h with rfl | h
    · intro d hd
      rcases List.mem_cons.1 hd with rfl | hd
      · simpa using hc
      · exact ih (hps ▸ List.mem_cons_self) d hd
    · exact ih (hps ▸ List.mem_cons_of_mem _ h)

theorem trimList_eq (cs : List Char) :
    trimList cs = (cs.dropWhile isBlank).rdropWhile isBlank := rfl

theorem trimList_subset (cs : List Char) : trimList cs ⊆ cs := by
  intro c hc
  rw [trimList_eq] at hc
  exact (List.dropWhile_suffix isBlank).subset
    (List.IsPrefix.subset (List.rdropWhile_prefix isBlank _) hc)

theorem dropWhile_eq_self_of_prefix {α : Type} {p : α → Bool} {l₁ l₂ : List α}
    (h : l₁ <+: l₂) (h₂ : l₂.dropWhile p = l₂) : l₁.dropWhile p = l₁ := by
  rw [List.dropWhile_eq_self_iff] at h₂ ⊢
  intro hl
  rw [h.getElem hl]
  exact h₂ (lt_of_lt_of_le hl h.length_le)

/-- Trimming a trimmed text changes nothing: what is left after the front is trimmed starts with
no blank, and so does every prefix of it. -/
theorem trimList_trimList (cs : List Char) : trimList (trimList cs) = trimList cs := by
  have hfront : ((cs.dropWhile isBlank).rdropWhile isBlank).dropWhile isBlank =
      (cs.dropWhile isBlank).rdropWhile isBlank :=
    dropWhile_eq_self_of_prefix (List.rdropWhile_prefix isBlank _) (List.dropWhile_idempotent _ _)
  rw [trimList_eq, trimList_eq, hfront, List.rdropWhile_idempotent]

theorem trim_trim (s : String) : trim (trim s) = trim s := by
  rw [trim, trim, String.toList_ofList, trimList_trimList]

/-! ## Texts on one line -/

theorem oneLine_hexDigits (width n : Nat) : OneLine (hexDigits width n) := by
  induction width generalizing n with
  | zero => exact fun _ hc => nomatch hc
  | succ w ih =>
    rw [hexDigits, oneLine_append]
    refine ⟨ih (n / 16), ?_⟩
    have hd : n % 16 < 16 := Nat.mod_lt n (by decide)
    intro c hc
    rw [List.mem_singleton.1 hc, hexDigit]
    split
    · exact isLineBreak_ofNat (by omega) (by omega)
    · exact isLineBreak_ofNat (by omega) (by omega)

/-- Of the line breaks, only U+0085, U+2028 and U+2029 lie at or above the space, and none of
them is printable. -/
theorem isLineBreak_eq_false_of_isPrintable {c : Char} (h0 : 0x20 ≤ c.toNat)
    (h : isPrintable c = true) : isLineBreak c = false := by
  cases hc : isLineBreak c with
  | false => rfl
  | true =>
    simp only [isLineBreak, Bool.or_eq_true, Bool.and_eq_true, decide_eq_true_eq,
      beq_iff_eq] at hc
    have hn : c.toNat = 0x85 ∨ c.toNat = 0x2028 ∨ c.toNat = 0x2029 := by omega
    rcases hn with hn | hn | hn
    all_goals
      rw [← Char.ofNat_toNat c, hn] at h
      revert h
      decide +kernel

theorem oneLine_escapeChar {q : Char} (hq : isLineBreak q = false) (c : Char) :
    OneLine (escapeChar q c) := by
  have hex : ∀ p : List Char, OneLine p → ∀ w n, OneLine (p ++ hexDigits w n) :=
    fun p hp w n => oneLine_append.2 ⟨hp, oneLine_hexDigits w n⟩
  unfold escapeChar
  dsimp only
  split
  · rename_i h
    simp only [Bool.or_eq_true, beq_iff_eq] at h
    intro d hd
    simp only [List.mem_cons, List.mem_nil_iff, or_false] at hd
    rcases hd with rfl | rfl
    · rfl
    · rcases h with rfl | rfl
      · exact hq
      · rfl
  split
  · decide
  split
  · decide
  split
  · decide
  split
  · exact hex ['\\', 'x'] (by decide) 2 _
  split
  · rename_i h1 h2 h3 h4 h5 h6
    simp only [Bool.or_eq_true, decide_eq_true_eq, beq_iff_eq, not_or] at h5 h6
    intro d hd
    rw [List.mem_singleton.1 hd]
    rcases h6 with h6 | h6
    · exact isLineBreak_of_toNat (by omega) h6
    · exact isLineBreak_eq_false_of_isPrintable (by omega) h6
  split
  · exact hex ['\\', 'x'] (by decide) 2 _
  split
  · exact hex ['\\', 'u'] (by decide) 4 _
  · exact hex ['\\', 'U'] (by decide) 8 _

theorem oneLine_quote (s : String) : OneLine (quote s).toList := by
  have hq : isLineBreak (quoteFor s.toList) = false := by
    unfold quoteFor
    split <;> decide
  rw [quote, String.toList_ofList, List.cons_append, ← List.singleton_append]
  refine oneLine_append.2 ⟨?_, oneLine_append.2 ⟨?_, ?_⟩⟩
  · exact fun c hc => (List.mem_singleton.1 hc) ▸ hq
  · intro c hc
    obtain ⟨d, -, hd⟩ := List.mem_flatMap.1 hc
    exact oneLine_escapeChar hq d c hd
  · exact fun c hc => (List.mem_singleton.1 hc) ▸ hq

end Text

open Text

theorem oneLine_zeros (n : Nat) : OneLine (Layout.zeros n) := by
  intro c hc
  unfold Layout.zeros at hc
  rw [List.eq_of_mem_replicate hc]
  rfl

theorem oneLine_render (l : Layout) (d : Decimal) : OneLine (l.render d).toList := by
  have hds := oneLine_toDigits d.digits
  unfold Layout.render
  dsimp only
  split
  · split
    · rw [String.toList_append, String.toList_ofList, oneLine_append, oneLine_append]
      exact ⟨⟨hds, oneLine_zeros _⟩, by decide⟩
    · split
      · rw [String.toList_ofList, oneLine_append]
        refine ⟨hds.mono (List.take_subset _ _), ?_⟩
        intro c hc
        rcases List.mem_cons.1 hc with rfl | hc
        · rfl
        · exact hds.mono (List.drop_subset _ _) c hc
      · simp only [String.toList_append, String.toList_ofList, oneLine_append]
        exact ⟨by decide, oneLine_zeros _, hds⟩
  · rw [String.toList_append, String.toList_append, String.toList_ofList, oneLine_append,
      oneLine_append, oneLine_append]
    refine ⟨⟨?_, by split <;> decide⟩, oneLine_zeros _, oneLine_toDigits _⟩
    split
    · decide
    · rename_i c h
      rw [h] at hds
      rw [String.toList_singleton]
      exact hds
    · rename_i c rest _ _ h
      rw [String.toList_ofList]
      rw [h] at hds
      intro x hx
      rcases List.mem_cons.1 hx with rfl | hx
      · exact hds x List.mem_cons_self
      rcases List.mem_cons.1 hx with rfl | hx
      · rfl
      · exact hds x (List.mem_cons_of_mem _ hx)

theorem oneLine_numberText (x : Float) : OneLine (numberText x).toList := by
  have hsign : ∀ b : Bool, OneLine (if b then "-" else "").toList := by
    intro b
    cases b <;> decide
  unfold numberText Layout.showFloat
  dsimp only
  split
  · decide
  split
  · rw [String.toList_append, oneLine_append]
    exact ⟨hsign _, by decide⟩
  split
  · rw [String.toList_append, oneLine_append]
    exact ⟨hsign _, by decide⟩
  · rw [String.toList_append, oneLine_append]
    exact ⟨hsign _, oneLine_render _ _⟩

theorem oneLine_message {expr : String} (h : OneLine expr.toList) (e : EvalError) :
    OneLine (e.message expr).toList := by
  have hlead : ∀ lead : String, OneLine lead.toList → OneLine (lead ++ expr).toList :=
    fun lead hl => by rw [String.toList_append, oneLine_append]; exact ⟨hl, h⟩
  cases e with
  | empty =>
    show OneLine "Empty expression".toList
    decide +kernel
  | operatorAtEdge => exact hlead _ (by decide +kernel)
  | unknownWord w => exact oneLine_quote w
  | missingOperand => exact hlead _ (by decide +kernel)
  | extraOperand => exact hlead _ (by decide +kernel)
  | divisionByZero =>
    show OneLine "float division by zero".toList
    decide +kernel

/-! ## Reports -/

namespace Outcome

theorem reportLine_eq_append (o : Outcome) (h : OneLine o.expression.toList) :
    ∃ body : String, OneLine body.toList ∧ o.reportLine = body ++ "\n" := by
  unfold reportLine
  cases o.result with
  | ok x =>
    refine ⟨o.expression ++ " = " ++ numberText x, ?_, rfl⟩
    simp only [String.toList_append, oneLine_append]
    exact ⟨⟨h, by decide⟩, oneLine_numberText x⟩
  | error e =>
    refine ⟨o.expression ++ " -> ERROR: " ++ e.message o.expression, ?_, rfl⟩
    simp only [String.toList_append, oneLine_append]
    exact ⟨⟨h, by decide⟩, oneLine_message h e⟩

end Outcome

/-- Joining lines that each end with their only line break, and cutting the result into lines,
gives the lines back. -/
theorem lines_join {ls : List String}
    (h : ∀ l ∈ ls, ∃ body : String, OneLine body.toList ∧ l = body ++ "\n") :
    (Text.lines (String.join ls)).map (· ++ "\n") = ls := by
  induction ls with
  | nil => rfl
  | cons l ls ih =>
    obtain ⟨body, hbody, rfl⟩ := h l List.mem_cons_self
    have hrest := ih fun l hl => h l (List.mem_cons_of_mem _ hl)
    have hsplit : Text.lines (String.join ((body ++ "\n") :: ls)) =
        body :: Text.lines (String.join ls) := by
      rw [String.join_cons, Text.lines, String.toList_append, String.toList_append,
        List.append_assoc, show "\n".toList = ['\n'] from rfl, List.singleton_append,
        linesOf_append_newline hbody, List.map_cons, String.ofList_toList]
      rfl
    rw [hsplit, List.map_cons, hrest]

namespace Batch

/-- An expression of a text is a trimmed line: it stands on one line, and trimming it again
changes nothing. -/
theorem mem_expressions {text e : String} (h : e ∈ expressions text) :
    OneLine e.toList ∧ Text.trim e = e ∧ e.isEmpty = false := by
  simp only [expressions, List.mem_filter, List.mem_map, Bool.not_eq_true'] at h
  obtain ⟨⟨l, hl, rfl⟩, hne⟩ := h
  obtain ⟨cs, hcs, rfl⟩ := List.mem_map.1 hl
  refine ⟨?_, trim_trim _, by simpa using hne⟩
  rw [trim, String.toList_ofList, String.toList_ofList]
  exact (oneLine_of_mem_linesOf hcs).mono (trimList_subset cs)

theorem getElem?_run (text : String) (i : Nat) :
    (run text)[i]? = ((expressions text)[i]?).map fun e => ⟨i + 1, e, evaluate e⟩ := by
  simp [run, jobs, Job.run, List.getElem?_zipIdx, Option.map_map, Function.comp_def]

theorem length_run (text : String) : (run text).length = (expressions text).length := by
  simp [run, jobs]

theorem expression_mem_of_mem_jobs {text : String} {j : Job} (h : j ∈ jobs text) :
    j.expression ∈ expressions text := by
  simp only [jobs, List.mem_map, Prod.exists] at h
  obtain ⟨e, i, hei, rfl⟩ := h
  obtain ⟨-, hi, he⟩ := List.mem_zipIdx hei
  rw [he]
  exact List.getElem_mem _

theorem one_le_line_of_mem_jobs {text : String} {j : Job} (h : j ∈ jobs text) : 1 ≤ j.line := by
  simp only [jobs, List.mem_map, Prod.exists] at h
  obtain ⟨e, i, -, rfl⟩ := h
  exact Nat.le_add_left 1 i

theorem check_of_mem_jobs {text : String} {j : Job} (h : j ∈ jobs text) : j.check = .ok j := by
  obtain ⟨-, htrim, hne⟩ := mem_expressions (expression_mem_of_mem_jobs h)
  have hline : ¬ j.line < 1 := Nat.not_lt.2 (one_le_line_of_mem_jobs h)
  simp [Job.check, htrim, hne, hline]

theorem lines_report (text : String) :
    (Text.lines (report (run text))).map (· ++ "\n") = (run text).map Outcome.reportLine := by
  apply lines_join
  intro l hl
  obtain ⟨o, ho, rfl⟩ := List.mem_map.1 hl
  obtain ⟨j, hj, rfl⟩ := List.mem_map.1 ho
  exact Outcome.reportLine_eq_append _ (mem_expressions (expression_mem_of_mem_jobs hj)).1

end Batch

namespace Session

theorem serve_eq_error_iff (bytes : ByteArray) :
    (∃ err, serve bytes = .error err) ↔ ¬ bytes.IsValidUTF8 := by
  rw [← decodeUtf8_eq_error_iff]
  unfold serve Batch.receive
  constructor
  · rintro ⟨err, h⟩
    cases hd : decodeUtf8 bytes with
    | error e => exact ⟨e, rfl⟩
    | ok s =>
      rw [hd] at h
      cases h
  · rintro ⟨err, h⟩
    exact ⟨err, by rw [h]; rfl⟩

theorem serve_toUTF8 (text : String) : serve text.toUTF8 = .ok (Batch.report (Batch.run text)) := by
  unfold serve Batch.receive
  rw [(decodeUtf8_eq_ok_iff _ _).2 rfl]
  rfl

end Session

/-- Serving a batch: bytes that are no UTF-8 are refused, and other bytes are read as the one text
they encode. Every expression of that text passes the check for blank expressions and, numbered
from one, is evaluated on its own; the report has one line per expression, in order, and cutting
it into lines gives exactly those lines back, since no expression, value or error text holds a
line break. -/
theorem serve_reports_each_expression :
    (∀ bytes : ByteArray,
      (∃ err, Session.serve bytes = .error err) ↔ ¬ bytes.IsValidUTF8) ∧
    (∀ (bytes : ByteArray) (text : String),
      Batch.receive bytes = .ok text ↔ text.toUTF8 = bytes) ∧
    ∀ text : String,
      Session.serve text.toUTF8 = .ok (Batch.report (Batch.run text)) ∧
      (∀ j ∈ Batch.jobs text, j.check = .ok j) ∧
      (∀ i : Nat, (Batch.run text)[i]? =
        ((Batch.expressions text)[i]?).map fun e => (⟨i + 1, e, evaluate e⟩ : Outcome)) ∧
      (Text.lines (Batch.report (Batch.run text))).map (· ++ "\n") =
        (Batch.run text).map Outcome.reportLine ∧
      (Text.lines (Batch.report (Batch.run text))).length = (Batch.expressions text).length := by
  refine ⟨Session.serve_eq_error_iff, decodeUtf8_eq_ok_iff, fun text => ?_⟩
  have hlines := Batch.lines_report text
  have hlength : (Text.lines (Batch.report (Batch.run text))).length =
      (Batch.expressions text).length := by
    rw [← List.length_map (f := (· ++ "\n")), hlines, List.length_map, Batch.length_run]
  exact ⟨Session.serve_toUTF8 text, fun j => Batch.check_of_mem_jobs, Batch.getElem?_run text,
    hlines, hlength⟩

end Reckon
