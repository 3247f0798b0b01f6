import Mathlib
import Reckon.Archive.Extract

set_option autoImplicit false

/-!
# Writing a member into a fresh folder and reading it back

When every component of a member's path names an entry by itself (`RawPath.Plain`), the folder
after each step of extraction into an empty folder is a chain of directories ending in the member
(`Folder.chain`). Following the path goes down the chain one node per component
(`Folder.walk_append_of_descends`), so the file just written is read back (`Folder.readFile_chain`)
and the directories above it are made one by one (`Folder.makedirs_empty`). For components with no
slash, taking a path apart and putting it together are inverse (`RawPath.components_ofComponents`).
-/

namespace Reckon

namespace RawPath

/-- A component that names an entry of a directory by itself: not empty, without a slash,
neither `.` nor `..`, and no longer than the system takes. -/
structure Plain (c : RawPath) : Prop where
  ne_nil : c ≠ []
  slash_not_mem : slash ∉ c
  ne_dot : c ≠ dot
  ne_dotDot : c ≠ dotDot
  short : c.length ≤ Archive.nameLimit

theorem Plain.separated {c : RawPath} (h : c.Plain) : c ≠ [] ∧ slash ∉ c :=
  ⟨h.ne_nil, h.slash_not_mem⟩

theorem plain_append_singleton {ds : List RawPath} {c : RawPath} :
    (∀ x ∈ ds ++ [c], x.Plain) ↔ (∀ x ∈ ds, x.Plain) ∧ c.Plain := by
  simp [or_imp, forall_and]

/-! ## Components -/

theorem pieces_of_slash_not_mem {c : RawPath} (h : slash ∉ c) : pieces c = [c] := by
  induction c with
  | nil => rfl
  | cons b c ih =>
    simp only [List.mem_cons, not_or] at h
    simp only [pieces, if_neg (Ne.symm h.1), ih h.2]

theorem pieces_append_slash {c : RawPath} (h : slash ∉ c) (rest : RawPath) :
    pieces (c ++ slash :: rest) = c :: pieces rest := by
  induction c with
  | nil => simp [pieces]
  | cons b c ih =>
    simp only [List.mem_cons, not_or] at h
    simp only [List.cons_append, pieces, if_neg (Ne.symm h.1), ih h.2]

theorem pieces_ofComponents {cs : List RawPath} (hne : cs ≠ []) (h : ∀ c ∈ cs, slash ∉ c) :
    pieces (ofComponents cs) = cs := by
  induction cs with
  | nil => exact absurd rfl hne
  | cons c cs ih =>
    cases cs with
    | nil => simpa [ofComponents] using pieces_of_slash_not_mem (h c (by simp))
    | cons c' cs =>
      rw [ofComponents, List.intercalate_cons_cons, List.append_assoc, List.singleton_append,
        pieces_append_slash (h c (by simp))]
      exact congrArg (c :: ·) (ih (by simp) fun d hd => h d (List.mem_cons_of_mem c hd))

theorem components_ofComponents {cs : List RawPath} (h : ∀ c ∈ cs, c ≠ [] ∧ slash ∉ c) :
    components (ofComponents cs) = cs := by
  by_cases hne : cs = []
  · subst hne
    rfl
  · rw [components, pieces_ofComponents hne fun c hc => (h c hc).2]
    exact List.filter_eq_self.2 fun c hc => by simpa using (h c hc).1

theorem slash_not_mem_of_mem_pieces {p q : RawPath} (h : q ∈ pieces p) : slash ∉ q := by
  induction p generalizing q with
  | nil =>
    simp only [pieces, List.mem_singleton] at h
    subst h
    simp
  | cons b p ih =>
    unfold pieces at h
    split at h
    · rcases List.mem_cons.1 h with rfl | h
      · simp
      · exact ih h
    · rename_i hb
      split at h
      · rename_i hnil
        simp only [List.mem_singleton] at h
        subst h
        simpa using Ne.symm hb
      · rename_i r rs hrs
        rcases List.mem_cons.1 h with rfl | h
        · simpa [Ne.symm hb] using ih (hrs ▸ List.mem_cons_self)
        · exact ih (hrs ▸ List.mem_cons_of_mem r h)

theorem ne_nil_of_mem_components {p c : RawPath} (h : c ∈ components p) :
    c ≠ [] ∧ slash ∉ c := by
  obtain ⟨hc, hne⟩ := List.mem_filter.1 h
  exact ⟨by simpa using hne, slash_not_mem_of_mem_pieces hc⟩

theorem mem_pieces_sublist {p q : RawPath} (h : q ∈ pieces p) : q.Sublist p := by
  induction p generalizing q with
  | nil =>
    simp only [pieces, List.mem_singleton] at h
    subst h
    exact List.Sublist.refl _
  | cons b p ih =>
    unfold pieces at h
    split at h
    · rcases List.mem_cons.1 h with rfl | h
      · exact List.nil_sublist _
      · exact (ih h).cons b
    · split at h
      · simp only [List.mem_singleton] at h
        subst h
        simp
      · rename_i r rs hrs
        rcases List.mem_cons.1 h with rfl | h
        · exact (ih (hrs ▸ List.mem_cons_self)).cons_cons b
        · exact (ih (hrs ▸ List.mem_cons_of_mem r h)).cons b

theorem mem_of_mem_components {p c : RawPath} {b : UInt8} (hc : c ∈ components p) (hb : b ∈ c) :
    b ∈ p :=
  (mem_pieces_sublist (List.mem_filter.1 hc).1).subset hb

theorem ofComponents_append_singleton {ds : List RawPath} (hds : ds ≠ []) (c : RawPath) :
    ofComponents (ds ++ [c]) = ofComponents ds ++ slash :: c := by
  induction ds with
  | nil => exact absurd rfl hds
  | cons d ds ih =>
    cases ds with
    | nil => simp [ofComponents, List.intercalate_cons_cons]
    | cons d' ds =>
      have h := ih (List.cons_ne_nil d' ds)
      simp only [List.cons_append] at h ⊢
      have hcons : ∀ rest, ofComponents (d :: d' :: rest) =
          d ++ [slash] ++ ofComponents (d' :: rest) := fun _ => List.intercalate_cons_cons
      rw [hcons, h, hcons]
      simp

theorem mem_ofComponents {cs : List RawPath} {b : UInt8} (h : b ∈ ofComponents cs) :
    b = slash ∨ ∃ c ∈ cs, b ∈ c := by
  induction cs with
  | nil => cases h
  | cons c cs ih =>
    cases cs with
    | nil => exact .inr ⟨c, by simp, by simpa [ofComponents] using h⟩
    | cons c' cs =>
      rw [ofComponents, List.intercalate_cons_cons, ← ofComponents] at h
      simp only [List.mem_append, List.mem_singleton] at h
      rcases h with (h | h) | h
      · exact .inr ⟨c, by simp, h⟩
      · exact .inl h
      · rcases ih h with h | ⟨d, hd, hb⟩
        · exact .inl h
        · exact .inr ⟨d, List.mem_cons_of_mem c hd, hb⟩

theorem length_le_length_ofComponents {cs : List RawPath} (h : ∀ c ∈ cs, c ≠ []) :
    cs.length ≤ (ofComponents cs).length := by
  induction cs with
  | nil => simp
  | cons c cs ih =>
    have hc : 1 ≤ c.length := List.length_pos_iff.2 (h c (by simp))
    have hcs := ih fun d hd => h d (List.mem_cons_of_mem c hd)
    cases cs with
    | nil => simpa [ofComponents] using hc
    | cons c' cs =>
      rw [ofComponents, List.intercalate_cons_cons, ← ofComponents]
      simp only [List.length_append, List.length_cons] at hcs ⊢
      omega

theorem ofComponents_ne_nil {cs : List RawPath} (hne : cs ≠ []) (h : ∀ c ∈ cs, c ≠ []) :
    ofComponents cs ≠ [] :=
  List.ne_nil_of_length_pos
    (lt_of_lt_of_le (List.length_pos_iff.2 hne) (length_le_length_ofComponents h))

theorem length_ofComponents_lt_append {ds : List RawPath} (hds : ds ≠ []) (c : RawPath) :
    (ofComponents ds).length < (ofComponents (ds ++ [c])).length := by
  simp [ofComponents_append_singleton hds]

theorem getLast?_ofComponents_ne_slash {cs : List RawPath} (hne : cs ≠ [])
    (h : ∀ c ∈ cs, c ≠ [] ∧ slash ∉ c) : (ofComponents cs).getLast? ≠ some slash := by
  obtain ⟨ds, c, rfl⟩ : ∃ ds c, cs = ds ++ [c] :=
    ⟨cs.dropLast, cs.getLast hne, (List.dropLast_append_getLast hne).symm⟩
  obtain ⟨hcne, hc⟩ := h c (by simp)
  -- the path ends with its last component
  have hlast : (ofComponents (ds ++ [c])).getLast? = c.getLast? := by
    by_cases hds : ds = []
    · subst hds
      simp [ofComponents]
    · rw [ofComponents_append_singleton hds, ← List.singleton_append, ← List.append_assoc,
        List.getLast?_append_of_ne_nil _ hcne]
  rw [hlast]
  intro hb
  exact hc (List.mem_of_getLast? hb)

theorem takeWhile_reverse_append_slash {p c : RawPath} (hc : slash ∉ c) :
    ((p ++ slash :: c).reverse.takeWhile (· ≠ slash)).reverse = c := by
  have hall : ∀ b ∈ c.reverse, decide (b ≠ slash) = true := fun b hb => by
    simpa using fun h : b = slash => hc (h ▸ List.mem_reverse.1 hb)
  rw [List.reverse_append, List.reverse_cons, List.append_assoc,
    List.takeWhile_append_of_pos hall]
  simp

/-- Cutting a path at its last slash: the directory part is what stands before the slash, when it
is not empty and does not end with a slash, and the last part is what follows. -/
theorem split_append_slash {p c : RawPath} (hc : slash ∉ c) (hp : p ≠ [])
    (hend : p.getLast? ≠ some slash) : split (p ++ slash :: c) = (p, c) := by
  obtain ⟨b, hb⟩ : ∃ b, p.getLast? = some b := Option.isSome_iff_exists.1
    (by simpa [List.getLast?_isSome] using hp)
  have hbs : b ≠ slash := fun h => hend (h ▸ hb)
  have hhead : (p ++ slash :: c).take ((p ++ slash :: c).length - c.length) = p ++ [slash] := by
    have hlen : (p ++ slash :: c).length - c.length = p.length + 1 := by
      simp only [List.length_append, List.length_cons]
      omega
    rw [hlen, List.take_append]
    simp
  have hall : (p ++ [slash]).all (fun x => decide (x = slash)) = false := by
    rw [List.all_eq_false]
    exact ⟨b, List.mem_append_left _ (List.mem_of_getLast? hb), by simpa using hbs⟩
  have hdrop : dropTrailingSlashes (p ++ [slash]) = p := by
    have hrev : p.reverse = b :: (p.reverse.tail) := by
      rw [← List.head?_reverse] at hb
      cases hr : p.reverse with
      | nil => rw [hr] at hb; cases hb
      | cons x xs => rw [hr] at hb; cases hb; rfl
    rw [dropTrailingSlashes, List.reverse_append, List.reverse_singleton, List.singleton_append,
      List.dropWhile_cons_of_pos (by simp), hrev, List.dropWhile_cons_of_neg (by simpa using hbs),
      ← hrev, List.reverse_reverse]
  dsimp only [split]
  rw [takeWhile_reverse_append_slash hc, hhead, hall]
  simp only [Bool.false_eq_true, if_false, hdrop]

theorem split_of_slash_not_mem {c : RawPath} (hc : slash ∉ c) : split c = ([], c) := by
  have htail : (c.reverse.takeWhile (· ≠ slash)).reverse = c := by
    rw [List.takeWhile_eq_self_iff.2 fun b hb => by
      simpa using fun h : b = slash => hc (h ▸ List.mem_reverse.1 hb)]
    simp
  dsimp only [split]
  rw [htail, Nat.sub_self, List.take_zero]
  rfl

theorem split_ofComponents_append {ds : List RawPath} {c : RawPath}
    (hds : ∀ d ∈ ds, d ≠ [] ∧ slash ∉ d) (hc : slash ∉ c) :
    split (ofComponents (ds ++ [c])) = (ofComponents ds, c) := by
  by_cases hne : ds = []
  · subst hne
    simpa [ofComponents] using split_of_slash_not_mem hc
  · rw [ofComponents_append_singleton hne]
    exact split_append_slash hc (ofComponents_ne_nil hne fun d hd => (hds d hd).1)
      (getLast?_ofComponents_ne_slash hne hds)

theorem dirname_ofComponents_append {ds : List RawPath} {c : RawPath}
    (hds : ∀ d ∈ ds, d ≠ [] ∧ slash ∉ d) (hc : slash ∉ c) :
    dirname (ofComponents (ds ++ [c])) = ofComponents ds := by
  rw [dirname, split_ofComponents_append hds hc]

end RawPath

namespace Archive

namespace Folder

/-! ## Chains of directories -/

/-- The nodes of a chain from node `i` on: each directory holds the next, named by the next
component, and the node after the last component is `last`. -/
def chainNodes : Nat → List RawPath → Node → List Node
  | _, [], last => [last]
  | i, d :: ds, last => .dir [(d, i + 1)] :: chainNodes (i + 1) ds last

/-- The folder that holds the directories `ds`, each inside the one before, and `last` inside the
innermost: the component `ds[j]` names node `j + 1`. -/
def chain (r : Nat) (ds : List RawPath) (last : Node) : Folder :=
  ⟨r, (chainNodes 0 ds last).toArray⟩

theorem length_chainNodes (i : Nat) (ds : List RawPath) (last : Node) :
    (chainNodes i ds last).length = ds.length + 1 := by
  induction ds generalizing i with
  | nil => rfl
  | cons d ds ih => simp [chainNodes, ih]

theorem getElem?_chainNodes (i : Nat) (ds : List RawPath) (last : Node) {j : Nat}
    (hj : j < ds.length) : (chainNodes i ds last)[j]? = some (.dir [(ds[j], i + j + 1)]) := by
  induction ds generalizing i j with
  | nil => cases hj
  | cons d ds ih =>
    cases j with
    | zero => rfl
    | succ j =>
      rw [chainNodes, List.getElem?_cons_succ, ih (i + 1) (by simpa using hj)]
      simp only [List.getElem_cons_succ]
      congr 4
      omega

theorem getElem?_chainNodes_length (i : Nat) (ds : List RawPath) (last : Node) :
    (chainNodes i ds last)[ds.length]? = some last := by
  induction ds generalizing i with
  | nil => rfl
  | cons d ds ih => simpa [chainNodes] using ih (i + 1)

theorem set_chainNodes (i : Nat) (ds : List RawPath) (last n : Node) :
    (chainNodes i ds last).set ds.length n = chainNodes i ds n := by
  induction ds generalizing i with
  | nil => rfl
  | cons d ds ih => simp [chainNodes, ih]

theorem chainNodes_append (i : Nat) (ds : List RawPath) (c : RawPath) (last : Node) :
    chainNodes i (ds ++ [c]) last = chainNodes i ds (.dir [(c, i + ds.length + 1)]) ++ [last] := by
  induction ds generalizing i with
  | nil => rfl
  | cons d ds ih =>
    have hindex : i + 1 + ds.length = i + (ds.length + 1) := by omega
    simp only [List.cons_append, chainNodes, ih (i + 1), List.length_cons, hindex]

variable {r : Nat} {ds : List RawPath} {last : Node}

theorem node?_chain_of_lt {j : Nat} (hj : j < ds.length) :
    (chain r ds last).node? j = some (.dir [(ds[j], j + 1)]) := by
  simp [node?, chain, getElem?_chainNodes 0 ds last hj]

theorem node?_chain_length : (chain r ds last).node? ds.length = some last := by
  simp [node?, chain, getElem?_chainNodes_length]

theorem child?_chain {j : Nat} (hj : j < ds.length) :
    (chain r ds last).child? j ds[j] = some (j + 1) := by
  simp [child?, node?_chain_of_lt hj, List.lookup]

theorem empty_eq_chain (r : Nat) : empty r = chain r [] (.dir []) := rfl

@[simp] theorem rootLength_chain : (chain r ds last).rootLength = r := rfl

theorem make_chain (c : RawPath) (n : Node) :
    (chain r ds (.dir [])).make ds.length c n = chain r (ds ++ [c]) n := by
  have hnode : (⟨r, (chainNodes 0 ds (.dir []) ++ [n]).toArray⟩ : Folder).node? ds.length =
      some (.dir []) := by
    simp [node?, List.getElem?_append_left (by simp [length_chainNodes] : ds.length <
      (chainNodes 0 ds (.dir [])).length), getElem?_chainNodes_length]
  simp only [make, enter, chain, List.push_toArray, List.size_toArray, length_chainNodes, hnode,
    setNode, List.setIfInBounds_toArray, chainNodes_append, List.filter_nil, Nat.zero_add]
  rw [List.set_append_left _ _ (by simp [length_chainNodes]), set_chainNodes]

theorem setNode_chain (n : Node) : (chain r ds last).setNode ds.length n = chain r ds n := by
  simp [setNode, chain, List.setIfInBounds_toArray, set_chainNodes]

/-! ## Following a path down a chain -/

/-- The components `ds` lead down from node `i`: each names, in the directory reached so far, the
next node, and that node is a directory. -/
def Descends (f : Folder) (i : Nat) (ds : List RawPath) : Prop :=
  ∀ j (hj : j < ds.length), f.child? (i + j) ds[j] = some (i + j + 1) ∧
    ∃ es, f.node? (i + j + 1) = some (.dir es)

theorem Descends.tail {f : Folder} {i : Nat} {d : RawPath} {ds : List RawPath}
    (h : f.Descends i (d :: ds)) : f.Descends (i + 1) ds := by
  intro j hj
  obtain ⟨hc, es, hn⟩ := h (j + 1) (by simpa using hj)
  have hindex : i + (j + 1) = i + 1 + j := by omega
  rw [hindex] at hc hn
  exact ⟨by simpa using hc, es, hn⟩

theorem walk_cons_of_dir {f : Folder} {n i m : Nat} {A : List Nat} {c : RawPath}
    {cs : List RawPath} {es : List (RawPath × Nat)} (hc : c.Plain) (hchild : f.child? i c = some m)
    (hnode : f.node? m = some (.dir es)) :
    f.walk n (.inside i A) (c :: cs) = f.walk n (.inside m (i :: A)) cs := by
  rw [walk.eq_2]
  simp [hc.ne_dot, hc.ne_nil, hc.ne_dotDot, not_lt.2 hc.short, hchild, hnode]

theorem walk_singleton_of_file {f : Folder} {n i m : Nat} {A : List Nat} {c : RawPath}
    {d : ByteArray} (hc : c.Plain) (hchild : f.child? i c = some m)
    (hnode : f.node? m = some (.file d)) :
    f.walk n (.inside i A) [c] = .ok (.inside m (i :: A)) := by
  rw [walk.eq_2]
  simp [hc.ne_dot, hc.ne_nil, hc.ne_dotDot, not_lt.2 hc.short, hchild, hnode]

/-- Components that lead down from a node take the walk to the node they end at, whatever
follows them. -/
theorem walk_append_of_descends {f : Folder} {n : Nat} :
    ∀ {i : Nat} {A : List Nat} {ds : List RawPath}, (∀ d ∈ ds, d.Plain) → f.Descends i ds →
      ∀ rest, ∃ A', f.walk n (.inside i A) (ds ++ rest) = f.walk n (.inside (i + ds.length) A') rest
  | i, A, [], _, _, rest => ⟨A, by simp⟩
  | i, A, d :: ds, hplain, h, rest => by
    obtain ⟨hc, es, hn⟩ := h 0 (by simp)
    simp only [Nat.add_zero, List.getElem_cons_zero] at hc hn
    rw [List.cons_append, walk_cons_of_dir (hplain d List.mem_cons_self) hc hn]
    obtain ⟨A', hA'⟩ := walk_append_of_descends (i := i + 1) (A := i :: A)
      (fun d hd => hplain d (List.mem_cons_of_mem _ hd)) h.tail rest
    refine ⟨A', ?_⟩
    rw [hA', List.length_cons, Nat.add_assoc, Nat.add_comm 1]

/-- A chain's components lead down from the folder through directories, the last one included
when the chain goes on below it or ends in a directory. -/
theorem descends_chain {more : List RawPath} (h : more ≠ [] ∨ ∃ es, last = .dir es) :
    (chain r (ds ++ more) last).Descends 0 ds := by
  intro j hj
  have hj' : j < (ds ++ more).length := by simp; omega
  have hget : ds[j] = (ds ++ more)[j] := (List.getElem_append_left hj).symm
  refine ⟨by simpa [hget] using @child?_chain r (ds ++ more) last j hj', ?_⟩
  by_cases hnext : j + 1 < (ds ++ more).length
  · exact ⟨_, by simpa using @node?_chain_of_lt r (ds ++ more) last (j + 1) hnext⟩
  · -- the next node is the chain's last, which only happens when nothing follows `ds`
    have hmore : more = [] := by
      rw [← List.length_eq_zero_iff]
      simp only [List.length_append, not_lt] at hnext
      omega
    subst hmore
    obtain ⟨es, rfl⟩ := h.resolve_left (fun h => h rfl)
    have hlen : 0 + j + 1 = (ds ++ []).length := by
      simp only [List.append_nil] at hnext ⊢
      omega
    exact ⟨es, by rw [hlen]; exact node?_chain_length⟩

/-- In a folder whose components `ds` lead down to a directory, the last component of
`ds ++ [c]` is looked up in that directory. -/
theorem parentFrom_of_descends {f : Folder} {c : RawPath} {es : List (RawPath × Nat)}
    (hplain : ∀ d ∈ ds, d.Plain) (hc : c.Plain) (h : f.Descends 0 ds)
    (hnode : f.node? ds.length = some (.dir es)) :
    ∃ A, f.parentFrom top (ds ++ [c]) = .ok (.inside ds.length A, some c) := by
  obtain ⟨A, hA⟩ := walk_append_of_descends (n := maxLinks) (A := []) hplain h []
  refine ⟨A, ?_⟩
  rw [List.append_nil, Nat.zero_add] at hA
  simp [parentFrom, top, hA, walk.eq_1, nodeAt, hnode, hc.ne_dot, hc.ne_dotDot,
    not_lt.2 hc.short]

theorem components_chain_path {ds : List RawPath} (hplain : ∀ d ∈ ds, d.Plain) :
    (RawPath.ofComponents ds).components = ds :=
  RawPath.components_ofComponents fun d hd => (hplain d hd).separated

theorem readFile_chain {c : RawPath} {d : ByteArray} (hplain : ∀ x ∈ ds ++ [c], x.Plain)
    (hfits : ¬ pathLimit ≤ r + 1 + (RawPath.ofComponents (ds ++ [c])).length) :
    (chain r (ds ++ [c]) (.file d)).readFile (RawPath.ofComponents (ds ++ [c])) = .ok d := by
  obtain ⟨hds, hc⟩ := RawPath.plain_append_singleton.1 hplain
  obtain ⟨A, hA⟩ := walk_append_of_descends (f := chain r (ds ++ [c]) (.file d)) (n := maxLinks)
    (A := []) hds (descends_chain (.inl (List.cons_ne_nil c []))) [c]
  have hk : ds.length < (ds ++ [c]).length := by simp
  have hchild : (chain r (ds ++ [c]) (.file d)).child? ds.length c = some (ds.length + 1) := by
    simpa using @child?_chain r (ds ++ [c]) (.file d) ds.length hk
  have hfile : (chain r (ds ++ [c]) (.file d)).node? (ds.length + 1) = some (.file d) := by
    simpa using @node?_chain_length r (ds ++ [c]) (.file d)
  rw [Nat.zero_add, walk_singleton_of_file hc hchild hfile] at hA
  simp [readFile, tooLong, hfits, resolve, components_chain_path hplain, top, hA, nodeAt, hfile]

/-! ## Making directories and writing the file -/

theorem descends_chain_self (h : ∃ es, last = .dir es) : (chain r ds last).Descends 0 ds := by
  simpa using @descends_chain r ds last [] (.inr h)

theorem child?_chain_length_empty (c : RawPath) :
    (chain r ds (.dir [])).child? ds.length c = none := by
  simp [child?, node?_chain_length, List.lookup]

/-- Below a chain of directories, the last component of a path is looked up in the innermost
one. -/
theorem parentFrom_chain {c : RawPath} (hplain : ∀ x ∈ ds ++ [c], x.Plain) :
    ∃ A, (chain r ds (.dir [])).parentFrom top (ds ++ [c]) = .ok (.inside ds.length A, some c) :=
  parentFrom_of_descends (RawPath.plain_append_singleton.1 hplain).1
    (RawPath.plain_append_singleton.1 hplain).2 (descends_chain_self ⟨[], rfl⟩) node?_chain_length

theorem mkdir_chain {c : RawPath} (hplain : ∀ x ∈ ds ++ [c], x.Plain)
    (hfits : ¬ pathLimit ≤ r + 1 + (RawPath.ofComponents (ds ++ [c])).length) :
    (chain r ds (.dir [])).mkdir (RawPath.ofComponents (ds ++ [c])) =
      .ok (chain r (ds ++ [c]) (.dir [])) := by
  obtain ⟨A, hA⟩ := parentFrom_chain (r := r) hplain
  simp [mkdir, parentOf, tooLong, hfits, components_chain_path hplain, hA,
    child?_chain_length_empty, make_chain]

theorem writeFile_chain_new {c : RawPath} (data : ByteArray) (hplain : ∀ x ∈ ds ++ [c], x.Plain)
    (hfits : ¬ pathLimit ≤ r + 1 + (RawPath.ofComponents (ds ++ [c])).length) :
    (chain r ds (.dir [])).writeFile (RawPath.ofComponents (ds ++ [c])) data =
      .ok (chain r (ds ++ [c]) (.file data)) := by
  obtain ⟨A, hA⟩ := parentFrom_chain (r := r) hplain
  simp [writeFile, tooLong, hfits, components_chain_path hplain, writeFile.go.eq_1, hA,
    child?_chain_length_empty, make_chain]

theorem writeFile_chain_file {c : RawPath} (old data : ByteArray)
    (hplain : ∀ x ∈ ds ++ [c], x.Plain)
    (hfits : ¬ pathLimit ≤ r + 1 + (RawPath.ofComponents (ds ++ [c])).length) :
    (chain r (ds ++ [c]) (.file old)).writeFile (RawPath.ofComponents (ds ++ [c])) data =
      .ok (chain r (ds ++ [c]) (.file data)) := by
  have hk : ds.length < (ds ++ [c]).length := by simp
  have hdir : (chain r (ds ++ [c]) (.file old)).node? ds.length =
      some (.dir [(c, ds.length + 1)]) := by
    simpa using @node?_chain_of_lt r (ds ++ [c]) (.file old) ds.length hk
  obtain ⟨hds, hc⟩ := RawPath.plain_append_singleton.1 hplain
  obtain ⟨A, hA⟩ :=
    parentFrom_of_descends hds hc (descends_chain (.inl (List.cons_ne_nil c []))) hdir
  have hchild : (chain r (ds ++ [c]) (.file old)).child? ds.length c = some (ds.length + 1) := by
    simpa using @child?_chain r (ds ++ [c]) (.file old) ds.length hk
  have hfile : (chain r (ds ++ [c]) (.file old)).node? (ds.length + 1) = some (.file old) := by
    simpa using @node?_chain_length r (ds ++ [c]) (.file old)
  have hset := @setNode_chain r (ds ++ [c]) (.file old) (.file data)
  rw [List.length_append, List.length_singleton] at hset
  simp [writeFile, tooLong, hfits, components_chain_path hplain, writeFile.go.eq_1, hA, hchild,
    hfile, hset]

theorem existsAt_empty {ds : List RawPath} (hne : ds ≠ []) (hplain : ∀ x ∈ ds, x.Plain) :
    (empty r).existsAt (RawPath.ofComponents ds) = false := by
  obtain ⟨d, rest, rfl⟩ := List.exists_cons_of_ne_nil hne
  have hd := hplain d List.mem_cons_self
  have hnone : (empty r).child? 0 d = none := by simp [child?, node?, empty, List.lookup]
  have hwalk : (empty r).walk maxLinks top (d :: rest) = .error .noEntry := by
    rw [top, walk.eq_2]
    simp [hd.ne_dot, hd.ne_nil, hd.ne_dotDot, not_lt.2 hd.short, hnone]
  simp [existsAt, resolve, components_chain_path hplain, hwalk]

/-- Making the directories of a path of plain components in an empty folder makes their chain,
one directory after another from the top. -/
theorem makedirs_empty {ds : List RawPath} (hne : ds ≠ []) (hplain : ∀ x ∈ ds, x.Plain)
    {fuel : Nat} (hfuel : ds.length ≤ fuel)
    (hfits : ¬ pathLimit ≤ r + 1 + (RawPath.ofComponents ds).length) :
    (empty r).makedirs fuel (RawPath.ofComponents ds) = (chain r ds (.dir []), none) := by
  induction ds using List.reverseRecOn generalizing fuel with
  | nil => exact absurd rfl hne
  | append_singleton ds c ih =>
    obtain ⟨fuel, rfl⟩ : ∃ k, fuel = k + 1 := ⟨fuel - 1, by simp at hfuel; omega⟩
    obtain ⟨hds, hc⟩ := RawPath.plain_append_singleton.1 hplain
    have hsplit := RawPath.split_ofComponents_append (fun x hx => (hds x hx).separated)
      hc.slash_not_mem
    have hmk : (chain r ds (.dir [])).mkdirAt (RawPath.ofComponents (ds ++ [c])) =
        (chain r (ds ++ [c]) (.dir []), none) := by
      simp [mkdirAt, mkdir_chain hplain hfits]
    rw [makedirs.eq_2, hsplit]
    by_cases hds0 : ds = []
    · -- the top directory is made at once
      subst hds0
      simpa [RawPath.ofComponents, hc.ne_nil, empty_eq_chain] using hmk
    · -- the directories above are made first, then this one
      have hshort := RawPath.length_ofComponents_lt_append hds0 c
      have hhead : (RawPath.ofComponents ds).isEmpty = false :=
        List.isEmpty_eq_false_iff.2 (RawPath.ofComponents_ne_nil hds0 fun x hx => (hds x hx).ne_nil)
      have hrec := ih hds0 hds (by simp at hfuel; omega) (by omega)
      simp [hc.ne_nil, hhead, existsAt_empty hds0 hds, hrec, hc.ne_dot, hmk]

/-! ## How deep a chain goes -/

theorem levelsBelow_chain (hlast : last = .dir [] ∨ ∃ d, last = .file d) :
    ∀ fuel i, i ≤ ds.length → ds.length - i < fuel →
      (chain r ds last).levelsBelow fuel i = ds.length - i
  | 0, i, _, hfuel => absurd hfuel (Nat.not_lt_zero _)
  | fuel + 1, i, hi, hfuel => by
    rcases Nat.lt_or_eq_of_le hi with hi | rfl
    · -- one directory, holding the rest of the chain
      have hrest := levelsBelow_chain hlast fuel (i + 1) hi (by omega)
      rw [levelsBelow, node?_chain_of_lt hi]
      simp only [List.foldl_cons, List.foldl_nil, hrest]
      omega
    · rw [levelsBelow, node?_chain_length]
      rcases hlast with rfl | ⟨d, rfl⟩ <;> simp

theorem depth_chain (hlast : last = .dir [] ∨ ∃ d, last = .file d) :
    (chain r ds last).depth = ds.length := by
  have hsize : (chain r ds last).nodes.size = ds.length + 1 := by
    simp [chain, length_chainNodes]
  rw [depth, hsize, levelsBelow_chain hlast _ 0 (Nat.zero_le _) (by omega)]
  rfl

end Folder

end Archive

end Reckon
