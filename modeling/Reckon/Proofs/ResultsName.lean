import Mathlib
import Reckon.Path.Results

set_option autoImplicit false

/-!
# The results file beside an input

The results of a path go to its own folder, under the stem of its name, its suffixes joined by
underscores with every dot made an underscore, and `_results.txt`; a path without a name is
itself the error. A results name is never its own name. Two names share one only through an
underscore (`a.b`, `a_b`) or through two leading dots (`..`, `...a`): the stem keeps leading dots
that the suffixes drop, and one leading dot is carried through unchanged.
-/

namespace Reckon

namespace FileName

/-! ## Lists cut at a separator -/

theorem exists_intercalate_append_singleton {α : Type} (sep : List α) (xs : List (List α))
    (y : List α) : ∃ r, sep.intercalate (xs ++ [y]) = r ++ y := by
  induction xs with
  | nil => exact ⟨[], by simp⟩
  | cons x xs ih =>
    cases xs with
    | nil => exact ⟨x ++ sep, by simp [List.intercalate_cons_cons]⟩
    | cons x' xs =>
      obtain ⟨r, hr⟩ := ih
      refine ⟨x ++ sep ++ r, ?_⟩
      rw [List.cons_append, List.cons_append, List.intercalate_cons_cons, ← List.cons_append, hr]
      simp

theorem eq_of_append_cons_eq {α : Type} [DecidableEq α] {c : α} {e e' b b' : List α}
    (h : e ++ c :: b = e' ++ c :: b') (hb : c ∉ b) (hb' : c ∉ b') : b = b' := by
  have hlast : ∀ {e b : List α}, c ∉ b → (e ++ c :: b).reverse.takeWhile (· ≠ c) = b.reverse := by
    intro e b hb
    rw [List.reverse_append, List.reverse_cons, List.append_assoc,
      List.takeWhile_append_of_pos
        (fun x hx => by simpa using ne_of_mem_of_not_mem (List.mem_reverse.1 hx) hb)]
    simp
  have hrev := congrArg (fun l => l.reverse.takeWhile (· ≠ c)) h
  simp only [hlast hb, hlast hb'] at hrev
  exact List.reverse_inj.1 hrev

/-! ## A name cut at its last dot -/

theorem splitDots_of_dot_not_mem {cs : List Char} (h : '.' ∉ cs) : splitDots cs = [cs] := by
  induction cs with
  | nil => rfl
  | cons c cs ih =>
    simp only [List.mem_cons, not_or] at h
    simp only [splitDots, if_neg (Ne.symm h.1), ih h.2]

theorem splitDots_ne_nil (cs : List Char) : splitDots cs ≠ [] := by
  cases cs with
  | nil => simp [splitDots]
  | cons c cs =>
    unfold splitDots
    split
    · simp
    · split <;> simp

theorem splitDots_append_dot (a b : List Char) :
    splitDots (a ++ '.' :: b) = splitDots a ++ splitDots b := by
  induction a with
  | nil => simp [splitDots]
  | cons c a ih =>
    by_cases hc : c = '.'
    · simp [splitDots, hc, ih]
    · obtain ⟨p, ps, hps⟩ := List.exists_cons_of_ne_nil (splitDots_ne_nil a)
      simp [splitDots, hc, ih, hps]

theorem filter_zipIdx_dot {b : List Char} (h : '.' ∉ b) (k : Nat) :
    (b.zipIdx k).filter (fun x => x.1 = '.') = [] :=
  List.filter_eq_nil_iff.2 fun _ hx hdot =>
    h (of_decide_eq_true hdot ▸ List.fst_mem_of_mem_zipIdx hx)

theorem lastDot?_of_dot_not_mem {cs : List Char} (h : '.' ∉ cs) : lastDot? cs = none := by
  simp [lastDot?, filter_zipIdx_dot h]

theorem lastDot?_append_dot (a : List Char) {b : List Char} (h : '.' ∉ b) :
    lastDot? (a ++ '.' :: b) = some a.length := by
  simp [lastDot?, List.zipIdx_append, List.filter_append, filter_zipIdx_dot h]

theorem exists_last_dot {cs : List Char} (h : '.' ∈ cs) : ∃ a b, cs = a ++ '.' :: b ∧ '.' ∉ b := by
  induction cs using List.reverseRecOn with
  | nil => cases h
  | append_singleton cs c ih =>
    by_cases hc : c = '.'
    · exact ⟨cs, [], by simp [hc], by simp⟩
    · have hcs : '.' ∈ cs := by
        rcases List.mem_append.1 h with h | h
        · exact h
        · exact absurd (List.mem_singleton.1 h).symm hc
      obtain ⟨a, b, rfl, hb⟩ := ih hcs
      exact ⟨a, b ++ [c], by simp, by simp [hb, Ne.symm hc]⟩

theorem stem_of_dot_not_mem {n : String} (h : '.' ∉ n.toList) : stem n = n := by
  simp [stem, lastDot?_of_dot_not_mem h]

/-- The stem of a name cut at its last dot is what comes before that dot, unless the dot is the
name's first or last character. -/
theorem stem_of_eq_append_dot {n : String} {a b : List Char} (h : n.toList = a ++ '.' :: b)
    (hb : '.' ∉ b) : stem n = if a ≠ [] ∧ b ≠ [] then String.ofList a else n := by
  have hcut : (0 < a.length ∧ a.length + 1 < (a ++ '.' :: b).length) ↔ (a ≠ [] ∧ b ≠ []) := by
    simp only [List.length_append, List.length_cons, ← List.length_pos_iff]
    omega
  simp only [stem, h, lastDot?_append_dot a hb, List.take_left]
  exact if_congr hcut rfl rfl

theorem stem_cases (n : String) :
    stem n = n ∨ ∃ a b, n.toList = a ++ '.' :: b ∧ stem n = String.ofList a := by
  by_cases hdot : '.' ∈ n.toList
  · obtain ⟨a, b, hab, hb⟩ := exists_last_dot hdot
    rw [stem_of_eq_append_dot hab hb]
    split
    · exact .inr ⟨a, b, hab, rfl⟩
    · exact .inl rfl
  · exact .inl (stem_of_dot_not_mem hdot)

theorem not_mem_stem {n : String} {c : Char} (h : c ∉ n.toList) : c ∉ (stem n).toList := by
  rcases stem_cases n with hstem | ⟨a, b, hab, hstem⟩
  · rwa [hstem]
  · rw [hstem, String.toList_ofList]
    exact fun ha => h (by rw [hab]; exact List.mem_append_left _ ha)

theorem mem_suffixes {n s : String} (h : s ∈ suffixes n) : ∃ p, s = String.ofList ('.' :: p) := by
  by_cases hl : n.toList.getLast? = some '.'
  · simp [suffixes, hl] at h
  · simp only [suffixes, hl, if_false, List.mem_map] at h
    obtain ⟨p, -, rfl⟩ := h
    exact ⟨p, rfl⟩

theorem suffixes_of_getLast?_eq_dot {n : String} (h : n.toList.getLast? = some '.') :
    suffixes n = [] := by
  simp [suffixes, h]

theorem suffixes_of_dot_not_mem {n : String} (h : '.' ∉ n.toList) : suffixes n = [] := by
  have hlast : n.toList.getLast? ≠ some '.' := fun hl => h (List.mem_of_getLast? hl)
  have hdrop : '.' ∉ n.toList.dropWhile (· = '.') := fun hd =>
    h ((List.dropWhile_suffix _).subset hd)
  simp [suffixes, hlast, splitDots_of_dot_not_mem hdrop]

/-- The suffixes of a name that starts with something other than a dot are the pieces after its
first, each with its dot back; the last is what follows the last dot. -/
theorem suffixes_of_eq_append_dot {n : String} {c : Char} {a b : List Char}
    (h : n.toList = c :: a ++ '.' :: b) (hc : c ≠ '.') (hb : '.' ∉ b) (hb' : b ≠ []) :
    suffixes n = ((splitDots (c :: a)).tail ++ [b]).map fun p => String.ofList ('.' :: p) := by
  -- the name ends with the last letter of `b`, which is no dot
  obtain ⟨x, hx⟩ := Option.ne_none_iff_exists'.1 (List.getLast?_eq_none_iff.not.2 hb')
  have hlast : (c :: (a ++ '.' :: b)).getLast? = some x := by
    rw [show c :: (a ++ '.' :: b) = (c :: a ++ ['.']) ++ b by simp, List.getLast?_append, hx]
    rfl
  have hx' : x ≠ '.' := fun hdot => hb (hdot ▸ List.mem_of_getLast? hx)
  obtain ⟨p, ps, hps⟩ := List.exists_cons_of_ne_nil (splitDots_ne_nil (c :: a))
  have hsplit := splitDots_append_dot (c :: a) b
  rw [List.cons_append] at hsplit
  simp [suffixes, h, hlast, hx', hc, hsplit, splitDots_of_dot_not_mem hb, hps]

/-! ## What a results name is made of -/

def underscored (n : String) : String := dotsToUnderscores ("_".intercalate (suffixes n))

theorem resultsName_eq (n : String) : resultsName n = stem n ++ underscored n ++ "_results.txt" :=
  rfl

theorem underscored_of_suffixes_nil {n : String} (h : suffixes n = []) : underscored n = "" := by
  simp [underscored, h, dotsToUnderscores]

theorem head?_underscored_append (n : String) :
    ((underscored n).toList ++ "_results.txt".toList).head? = some '_' := by
  cases hs : suffixes n with
  | nil => simp [underscored_of_suffixes_nil hs]
  | cons s ss =>
    obtain ⟨p, rfl⟩ := mem_suffixes (hs ▸ List.mem_cons_self)
    simp [underscored, hs, dotsToUnderscores, String.toList_map, String.toList_intercalate]

/-- A name cut at its last dot, with no dot in front: its underscored suffixes end with an
underscore and what follows the dot. -/
theorem underscored_of_eq_append_dot {n : String} {c : Char} {a b : List Char}
    (h : n.toList = c :: a ++ '.' :: b) (hc : c ≠ '.') (hb : '.' ∉ b) (hb' : b ≠ []) :
    ∃ e, (underscored n).toList = e ++ '_' :: b := by
  obtain ⟨r, hr⟩ := exists_intercalate_append_singleton ['_']
    (((splitDots (c :: a)).map ('.' :: ·)).tail) ('.' :: b)
  have hkeep : b.map (fun x => if x = '.' then '_' else x) = b :=
    (List.map_congr_left fun x hx => by simp [ne_of_mem_of_not_mem hx hb]).trans (List.map_id _)
  refine ⟨r.map fun x => if x = '.' then '_' else x, ?_⟩
  simp [underscored, dotsToUnderscores, String.toList_map, String.toList_intercalate,
    suffixes_of_eq_append_dot h hc hb hb', Function.comp_def, hr, hkeep]

/-- A name that does not start with a dot either has no suffix and is its own stem, or is cut at
its last dot into its stem and a last suffix, whose letters end its underscored suffixes. -/
theorem cut_cases {n : String} (hlead : n.toList.head? ≠ some '.') :
    (suffixes n = [] ∧ stem n = n) ∨
      ∃ a b e, n.toList = a ++ '.' :: b ∧ stem n = String.ofList a ∧
        (underscored n).toList = e ++ '_' :: b := by
  by_cases hdot : '.' ∈ n.toList
  · obtain ⟨a, b, hab, hb⟩ := exists_last_dot hdot
    cases a with
    | nil => exact absurd (by simp [hab]) hlead
    | cons c a =>
      have hc : c ≠ '.' := fun hc => hlead (by simp [hab, hc])
      by_cases hb' : b = []
      · -- the name ends with its dot: no suffix, and no cut
        subst hb'
        refine .inl ⟨suffixes_of_getLast?_eq_dot (by rw [hab]; exact List.getLast?_concat), ?_⟩
        rw [stem_of_eq_append_dot hab hb]
        simp
      · obtain ⟨e, he⟩ := underscored_of_eq_append_dot hab hc hb hb'
        refine .inr ⟨c :: a, b, e, hab, ?_, he⟩
        rw [stem_of_eq_append_dot hab hb]
        simp [hb']
  · exact .inl ⟨suffixes_of_dot_not_mem hdot, stem_of_dot_not_mem hdot⟩

/-! ## Names that start with one dot -/

theorem stem_dot_append {r : String} (hr : r.toList.head? ≠ some '.') :
    stem ("." ++ r) = "." ++ stem r := by
  by_cases hdot : '.' ∈ r.toList
  · obtain ⟨a, b, hab, hb⟩ := exists_last_dot hdot
    have ha : a ≠ [] := by rintro rfl; simp [hab] at hr
    have hdab : ("." ++ r).toList = ('.' :: a) ++ '.' :: b := by simp [hab]
    rw [stem_of_eq_append_dot hdab hb, stem_of_eq_append_dot hab hb]
    by_cases hb' : b = []
    · simp [hb']
    · simp only [ne_eq, reduceCtorEq, not_false_eq_true, hb', and_self, ha, if_true]
      rw [← String.toList_inj]
      simp
  · -- the leading dot is the only one, so the name is its own stem
    have hdr : ("." ++ r).toList = [] ++ '.' :: r.toList := by simp
    rw [stem_of_eq_append_dot hdr hdot, stem_of_dot_not_mem hdot]
    simp

theorem suffixes_dot_append {r : String} (hr : r.toList.head? ≠ some '.') :
    suffixes ("." ++ r) = suffixes r := by
  have hd : ("." ++ r).toList = '.' :: r.toList := by simp
  cases hcs : r.toList with
  | nil => simp [suffixes, hd, hcs, splitDots]
  | cons c cs =>
    have hc : c ≠ '.' := fun h => hr (by simp [hcs, h])
    simp [suffixes, hd, hcs, hc]

theorem resultsName_dot_append {r : String} (hr : r.toList.head? ≠ some '.') :
    resultsName ("." ++ r) = "." ++ resultsName r := by
  simp only [resultsName_eq, underscored, stem_dot_append hr, suffixes_dot_append hr,
    String.append_assoc]

theorem head?_stem_ne_dot {n : String} (hn : n.toList.head? ≠ some '.') :
    (stem n).toList.head? ≠ some '.' := by
  rcases stem_cases n with hstem | ⟨a, b, hab, hstem⟩
  · rwa [hstem]
  · rw [hstem, String.toList_ofList]
    intro ha
    apply hn
    rw [hab, List.head?_append, ha]
    rfl

theorem head?_resultsName_ne_dot {n : String} (hn : n.toList.head? ≠ some '.') :
    (resultsName n).toList.head? ≠ some '.' := by
  rw [resultsName_eq, String.toList_append, String.toList_append, List.append_assoc,
    List.head?_append, head?_underscored_append]
  cases h : (stem n).toList.head? with
  | none => simp
  | some x => simpa [h] using head?_stem_ne_dot hn

theorem dot_cases {n : String} (hn : ¬ ['.', '.'] <+: n.toList) :
    n.toList.head? ≠ some '.' ∨ ∃ r, n = "." ++ r ∧ r.toList.head? ≠ some '.' := by
  cases h : n.toList with
  | nil => simp
  | cons c cs =>
    by_cases hc : c = '.'
    · subst hc
      refine .inr ⟨String.ofList cs, ?_, ?_⟩
      · rw [← String.toList_inj, h]
        simp
      · intro hcs
        obtain ⟨cs', rfl⟩ := List.head?_eq_some_iff.1 (by simpa using hcs)
        exact hn (by rw [h]; exact ⟨cs', rfl⟩)
    · exact .inl (by simp [hc])

/-! ## Results names -/

theorem resultsName_ne_self (n : String) : resultsName n ≠ n := by
  intro h
  have hhead := head?_underscored_append n
  rcases stem_cases n with hstem | ⟨a, b, hab, hstem⟩
  · -- the stem is the whole name, so the results name is longer
    have hlen := congrArg String.length h
    rw [resultsName_eq, hstem, String.length_append, String.length_append] at hlen
    have htail : "_results.txt".length = 12 := by decide
    omega
  · -- after the stem the name has a dot where the results name has an underscore
    have hl := congrArg String.toList h
    rw [resultsName_eq, String.toList_append, String.toList_append, hstem, String.toList_ofList,
      hab, List.append_assoc] at hl
    rw [List.append_cancel_left hl] at hhead
    simp at hhead

theorem takeWhile_resultsName {n : String} (hn : '_' ∉ n.toList) :
    (resultsName n).toList.takeWhile (· ≠ '_') = (stem n).toList := by
  have hstem := not_mem_stem hn
  obtain ⟨r, hr⟩ := List.head?_eq_some_iff.1 (head?_underscored_append n)
  rw [resultsName_eq, String.toList_append, String.toList_append, List.append_assoc, hr,
    List.takeWhile_append_of_pos (fun x hx => by simpa using ne_of_mem_of_not_mem hx hstem)]
  simp

theorem resultsName_inj_of_head_ne_dot {n m : String} (hn : '_' ∉ n.toList)
    (hm : '_' ∉ m.toList) (hn' : n.toList.head? ≠ some '.') (hm' : m.toList.head? ≠ some '.')
    (h : resultsName n = resultsName m) : n = m := by
  have hstem : stem n = stem m := by
    have hpre := congrArg (fun s => s.toList.takeWhile (· ≠ '_')) h
    simp only [takeWhile_resultsName hn, takeWhile_resultsName hm] at hpre
    exact String.toList_inj.1 hpre
  have hund : (underscored n).toList = (underscored m).toList := by
    have hl := congrArg String.toList h
    simp only [resultsName_eq, String.toList_append, hstem, List.append_assoc] at hl
    exact List.append_cancel_right (List.append_cancel_left hl)
  rcases cut_cases hn' with ⟨hsn, hstn⟩ | ⟨a, b, e, hna, hstn, hun⟩ <;>
    rcases cut_cases hm' with ⟨hsm, hstm⟩ | ⟨a', b', e', hma, hstm, hum⟩
  · rw [← hstn, ← hstm, hstem]
  · simp [underscored_of_suffixes_nil hsn, hum] at hund
  · simp [underscored_of_suffixes_nil hsm, hun] at hund
  · -- both are cut at their last dot, before the same stem and the same last piece
    have hb : b = b' := by
      rw [hun, hum] at hund
      exact eq_of_append_cons_eq hund
        (fun hb => hn (by rw [hna]; simp [hb]))
        (fun hb => hm (by rw [hma]; simp [hb]))
    have ha : a = a' := by
      rw [hstn, hstm] at hstem
      simpa using congrArg String.toList hstem
    rw [← String.toList_inj, hna, hma, ha, hb]

theorem resultsName_injective {n m : String} (hn : '_' ∉ n.toList) (hm : '_' ∉ m.toList)
    (hn' : ¬ ['.', '.'] <+: n.toList) (hm' : ¬ ['.', '.'] <+: m.toList)
    (h : resultsName n = resultsName m) : n = m := by
  have hus : ∀ {r : String}, '_' ∉ ("." ++ r).toList → '_' ∉ r.toList :=
    fun hr hu => hr (by simp [hu])
  rcases dot_cases hn' with hn' | ⟨r, rfl, hr⟩ <;>
    rcases dot_cases hm' with hm' | ⟨r', rfl, hr'⟩
  · exact resultsName_inj_of_head_ne_dot hn hm hn' hm' h
  · -- only the results name of `m` starts with a dot
    exact absurd (by rw [h, resultsName_dot_append hr']; simp) (head?_resultsName_ne_dot hn')
  · exact absurd (by rw [← h, resultsName_dot_append hr]; simp) (head?_resultsName_ne_dot hm')
  · rw [resultsName_dot_append hr, resultsName_dot_append hr'] at h
    rw [resultsName_inj_of_head_ne_dot (hus hn) (hus hm) hr hr' ((String.append_right_inj ".").1 h)]

end FileName

namespace PosixPath

def parent (p : PosixPath) : PosixPath := ⟨p.root, p.parts.dropLast⟩

@[simp] theorem parent_withName (p : PosixPath) (n : String) :
    (p.withName n).parent = p.parent := by
  simp [withName, parent]

@[simp] theorem name_withName (p : PosixPath) (n : String) : (p.withName n).name = n := by
  simp [withName, name]

theorem resultsPath_of_name_ne {p : PosixPath} (h : p.name ≠ "") :
    p.resultsPath = .ok (p.withName (FileName.resultsName p.name)) := by
  simp [resultsPath, h]

/-- A path with a name has its results file in its own folder, under a name that ends in
`_results.txt` and is not its own; a path without a name is refused, and is itself the error. Two
paths whose names differ, neither holding an underscore or starting with two dots, never share a
results file, whatever their folders. -/
theorem resultsPath_beside_input (p q : PosixPath) :
    (p.resultsPath = .error p ↔ p.name = "") ∧
      (p.name ≠ "" → ∃ r, p.resultsPath = .ok r ∧ r.parent = p.parent ∧
        (∃ s, r.name = s ++ "_results.txt") ∧ r.name ≠ p.name) ∧
      (p.name ≠ q.name → '_' ∉ p.name.toList → '_' ∉ q.name.toList →
        ¬ ['.', '.'] <+: p.name.toList → ¬ ['.', '.'] <+: q.name.toList →
        p.resultsPath ≠ q.resultsPath) := by
  refine ⟨⟨fun h => ?_, fun h => by simp [resultsPath, h]⟩, fun h => ?_, ?_⟩
  · by_contra hne
    rw [resultsPath_of_name_ne hne] at h
    cases h
  · refine ⟨_, resultsPath_of_name_ne h, parent_withName _ _, ?_, ?_⟩
    · exact ⟨FileName.stem p.name ++ FileName.underscored p.name, by simp [FileName.resultsName_eq]⟩
    · simpa using FileName.resultsName_ne_self p.name
  · intro hne hp hq hp' hq' heq
    by_cases hpn : p.name = ""
    · -- only `p` is refused, and a refusal is no results path
      have hqn : q.name ≠ "" := fun hqn => hne (hpn.trans hqn.symm)
      simp [resultsPath, hpn, hqn] at heq
    · by_cases hqn : q.name = ""
      · simp [resultsPath, hpn, hqn] at heq
      · rw [resultsPath_of_name_ne hpn, resultsPath_of_name_ne hqn] at heq
        have hname := congrArg name (Except.ok.inj heq)
        simp only [name_withName] at hname
        exact hne (FileName.resultsName_injective hp hq hp' hq' hname)

theorem resultsPath_beside_input_runs :
    (PosixPath.parse "runs/.ops.tar").name ≠ "" ∧
      (∃ r, (PosixPath.parse "runs/.ops.tar").resultsPath = .ok r ∧
        r.parent = (PosixPath.parse "runs/.ops.tar").parent ∧
        (∃ s, r.name = s ++ "_results.txt") ∧
        r.name ≠ (PosixPath.parse "runs/.ops.tar").name) ∧
      (PosixPath.parse "runs/.ops.tar").name ≠ (PosixPath.parse "runs/.ops").name ∧
      (PosixPath.parse "runs/.ops.tar").resultsPath ≠
        (PosixPath.parse "runs/.ops").resultsPath := by
  have hname : (PosixPath.parse "runs/.ops.tar").name ≠ "" := by decide +kernel
  have hne : (PosixPath.parse "runs/.ops.tar").name ≠ (PosixPath.parse "runs/.ops").name := by
    decide +kernel
  have h := resultsPath_beside_input (PosixPath.parse "runs/.ops.tar") (PosixPath.parse "runs/.ops")
  exact ⟨hname, h.2.1 hname, hne,
    h.2.2 hne (by decide +kernel) (by decide +kernel) (by decide +kernel) (by decide +kernel)⟩

end PosixPath

/-- Two names in one folder can share a results file. A dot and an underscore both become an
underscore, so `a.b` and `a_b` give `a_b_results.txt`. The stem keeps leading dots that the
suffixes drop, so `..` and `...a` give `.._results.txt`. -/
theorem resultsPath_shared_by_two_names :
    (PosixPath.parse "a.b").resultsPath = .ok (PosixPath.parse "a_b_results.txt") ∧
      (PosixPath.parse "a_b").resultsPath = .ok (PosixPath.parse "a_b_results.txt") ∧
      (PosixPath.parse "..").resultsPath = .ok (PosixPath.parse ".._results.txt") ∧
      (PosixPath.parse "...a").resultsPath = .ok (PosixPath.parse ".._results.txt") := by
  decide +kernel

end Reckon
