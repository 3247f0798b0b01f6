import Mathlib
import Reckon.Input
import Reckon.Proofs.FreshFolder
import Reckon.Proofs.Utf8
import Reckon.Main

set_option autoImplicit false

/-!
# Which member the text of a zip archive comes from

The text of a zip archive is that of the first name in its directory with the suffix `.txt`. The
member is extracted by that name and read back by it, and the two read the name differently:
extraction writes the *last* entry of the name at its components less `.` and `..`, while reading
back follows the name as it is. When the name stays inside the folder (`Scratch.InsideName`), the
text is the data of the last entry of the name (`Scratch.extractZipMember_fresh`); an absolute
name is read on the host, which by default holds nothing (`Scratch.extractZipMember_fails`). The
proofs follow extraction step by step (`run_bind_ok`) through a folder that is always a chain of
directories (`Folder.chain`).
-/

namespace Reckon

namespace RawPath

def kept (p : RawPath) : List RawPath := p.components.filter (· ≠ dot)

theorem ofText_of_endsWith_txt {n : String} (h : n.endsWith ".txt" = true) :
    ∃ p, ofText n = p ++ [0x2E, 0x74, 0x78, 0x74] := by
  have hsuf : ".txt".toList <:+ n.toList := by
    simpa [String.copy_toSlice] using String.Slice.endsWith_string_iff.1 h
  obtain ⟨t, ht⟩ := hsuf
  refine ⟨t.flatMap String.utf8EncodeChar, ?_⟩
  rw [ofText, Text.toList_eq_data, Text.toUTF8_data_toList, ← ht, List.flatMap_append]
  rfl

theorem pieces_append_of_slash_not_mem (p : RawPath) {q : RawPath} (hq : slash ∉ q) :
    ∃ ps last, pieces (p ++ q) = ps ++ [last ++ q] := by
  induction p with
  | nil => exact ⟨[], [], by simpa using pieces_of_slash_not_mem hq⟩
  | cons b p ih =>
    obtain ⟨ps, last, hp⟩ := ih
    by_cases hb : b = slash
    · exact ⟨[] :: ps, last, by simp [pieces, hb, hp]⟩
    · cases ps with
      | nil => exact ⟨[], b :: last, by simp [pieces, hb, hp]⟩
      | cons x xs => exact ⟨(b :: x) :: xs, last, by simp [pieces, hb, hp]⟩

theorem kept_ne_nil_of_endsWith_txt {n : String} (h : n.endsWith ".txt" = true) :
    (ofText n).kept ≠ [] := by
  obtain ⟨p, hp⟩ := ofText_of_endsWith_txt h
  obtain ⟨ps, last, hpieces⟩ := pieces_append_of_slash_not_mem p
    (q := [0x2E, 0x74, 0x78, 0x74]) (by decide)
  have hlast : last ++ [0x2E, 0x74, 0x78, 0x74] ∈ (ofText n).kept := by
    have hlen : dot.length < (last ++ [0x2E, 0x74, 0x78, 0x74]).length := by
      simp [dot]
    refine List.mem_filter.2 ⟨List.mem_filter.2 ⟨?_, by simp⟩, ?_⟩
    · rw [hp, hpieces]
      simp
    · simpa using fun h' => absurd (h' ▸ hlen) (lt_irrefl _)
  exact List.ne_nil_of_mem hlast

end RawPath

namespace Archive

/-! ## Running extraction from a folder -/

variable {α β : Type}

theorem run_bind_ok {x : Making Id α} {g : α → Making Id β} {f f' : Folder} {a : α}
    (h : x.run.run f = (.ok a, f')) : (x >>= g).run.run f = (g a).run.run f' := by
  rw [ExceptT.run_bind, StateT.run_bind, h]
  rfl

theorem run_bind_error {x : Making Id α} {g : α → Making Id β} {f f' : Folder} {e : ExtractFault}
    (h : x.run.run f = (.error e, f')) : (x >>= g).run.run f = (.error e, f') := by
  rw [ExceptT.run_bind, StateT.run_bind, h]
  rfl

theorem get_run (f : Folder) : (get : Making Id Folder).run.run f = (.ok f, f) := rfl

theorem liftExcept_run_ok {x : Except ExtractFault α} {a : α} (h : x = .ok a) (f : Folder) :
    (liftExcept x : Making Id α).run.run f = (.ok a, f) := by
  subst h
  rfl

theorem liftExcept_run_error {x : Except ExtractFault α} {e : ExtractFault} (h : x = .error e)
    (f : Folder) : (liftExcept x : Making Id α).run.run f = (.error e, f) := by
  subst h
  rfl

namespace ZipArchive

theorem find?_bind_getElem? (z : ZipArchive) (n : String) :
    z.find? n >>= (z.entries[·]?) = (z.entries.filter (·.name = n)).getLast? := by
  rw [find?]
  generalize z.entries = l
  induction l using List.reverseRecOn with
  | nil => rfl
  | append_singleton l a ih =>
    -- the earlier positions look at the same entries as before
    have hfront : ((List.range l.length).filter fun i => (l ++ [a])[i]?.map (·.name) = some n) =
        (List.range l.length).filter fun i => l[i]?.map (·.name) = some n := by
      refine List.filter_congr fun i hi => ?_
      rw [List.getElem?_append_left (List.mem_range.1 hi)]
    have hlook : ∀ i ∈ ((List.range l.length).filter fun i => l[i]?.map (·.name) = some n).getLast?,
        (l ++ [a])[i]? = l[i]? := by
      intro i hi
      have hmem := List.mem_filter.1 (List.mem_of_getLast? hi)
      exact List.getElem?_append_left (List.mem_range.1 hmem.1)
    rw [List.length_append, List.length_singleton, List.range_succ, List.filter_append, hfront,
      List.filter_append]
    by_cases ha : a.name = n
    · simp [ha]
    · simp only [List.getElem?_concat_length, Option.map_some, ha, List.filter_cons,
        List.filter_nil, List.append_nil, decide_false, Bool.false_eq_true, if_false,
        Option.some.injEq]
      rw [← ih]
      exact Option.bind_congr fun i hi => hlook i hi

end ZipArchive

def Fails (x : Making Id α) : Prop := ∀ f, ∃ e f', x.run.run f = (.error e, f')

theorem fails_throw (e : ExtractFault) : Fails (throw e : Making Id α) := fun f => ⟨e, f, rfl⟩

theorem Fails.bind_left {x : Making Id α} {g : α → Making Id β} (h : Fails x) :
    Fails (x >>= g) := by
  intro f
  obtain ⟨e, f', hx⟩ := h f
  exact ⟨e, f', run_bind_error hx⟩

theorem Fails.bind_right {x : Making Id α} {g : α → Making Id β} (h : ∀ a, Fails (g a)) :
    Fails (x >>= g) := by
  intro f
  rcases hx : x.run.run f with ⟨_ | a, f'⟩
  · exact ⟨_, f', run_bind_error hx⟩
  · rw [run_bind_ok hx]
    exact h a f'

/-- A host with nothing outside the folder gives no file. -/
theorem Host.bare_error (path : RawPath) : ∃ e, Host.bare path = .error e := by
  unfold Host.bare
  split <;> exact ⟨_, rfl⟩

namespace Scratch

theorem rootOf_of_not_isAbsolute {p : RawPath} (h : p.isAbsolute = false) : rootOf p = [] := by
  cases p with
  | nil => rfl
  | cons b p =>
    have hb : b ≠ RawPath.slash := by simpa [RawPath.isAbsolute] using h
    simp [rootOf, hb]

theorem rootOf_ne_nil_of_isAbsolute {p : RawPath} (h : p.isAbsolute = true) : rootOf p ≠ [] := by
  obtain ⟨rest, rfl⟩ : ∃ rest, p = RawPath.slash :: rest := by
    cases p with
    | nil => simp [RawPath.isAbsolute] at h
    | cons b p => exact ⟨p, by simpa [RawPath.isAbsolute] using h⟩
  unfold rootOf
  split <;> simp_all

theorem change_run_ok (s : Scratch) {op : Folder → Except OsFault Folder} {p : RawPath}
    {f f' : Folder} (h : op f = .ok f') :
    (s.change op p : Making Id Unit).run.run f = (.ok (), f') := by
  rw [change, run_bind_ok (get_run f), h]
  rfl

theorem readBack_relative (s : Scratch) (host : Host) {name : RawPath} {f : Folder}
    {d : ByteArray} (hroot : rootOf name = [])
    (hread : f.readFile (RawPath.ofComponents (name.components.filter (· ≠ RawPath.dot))) = .ok d) :
    (s.readBack host name : Making Id ByteArray).run.run f = (.ok d, f) := by
  rw [readBack, run_bind_ok (get_run f)]
  simp only [hroot, List.isEmpty_nil, Bool.not_true, Bool.false_eq_true, if_false, hread]
  rfl

/-- An absolute name is read on the host, at the root it starts with and its kept components,
whatever the folder holds. -/
theorem readBack_absolute (s : Scratch) (host : Host) {name : RawPath} (f : Folder)
    (h : rootOf name ≠ [])
    (hfits : (rootOf name ++ RawPath.ofComponents name.kept).length < pathLimit) :
    (s.readBack host name : Making Id ByteArray).run.run f =
      ((host (rootOf name ++ RawPath.ofComponents name.kept)).mapError
        (fun e => .os ⟨e, rootOf name ++ RawPath.ofComponents name.kept⟩), f) := by
  have hroot : (rootOf name).isEmpty = false := List.isEmpty_eq_false_iff.2 h
  rw [RawPath.kept] at hfits ⊢
  rw [readBack, run_bind_ok (get_run f)]
  simp only [hroot, Bool.not_false, if_true, if_neg (not_le.2 hfits)]
  cases host (rootOf name ++ RawPath.ofComponents (name.components.filter (· ≠ RawPath.dot))) <;>
    rfl

theorem fails_readBack_bare (s : Scratch) {name : RawPath} (h : rootOf name ≠ []) :
    Fails (s.readBack Host.bare name : Making Id ByteArray) := by
  intro f
  have hroot : (rootOf name).isEmpty = false := List.isEmpty_eq_false_iff.2 h
  rw [readBack, run_bind_ok (get_run f)]
  simp only [hroot, Bool.not_false, if_true]
  split
  · exact Fails.bind_left (fails_throw _) f
  · obtain ⟨e, he⟩ := Host.bare_error (rootOf name ++ RawPath.ofComponents name.kept)
    rw [RawPath.kept] at he
    rw [he]
    exact fails_throw _ f

/-- Making the directories above a path of plain components in an empty folder leaves their
chain. -/
theorem makeAbove_fresh (s : Scratch) {r : Nat} {ds : List RawPath} {c : RawPath}
    (hplain : ∀ x ∈ ds ++ [c], x.Plain)
    (hfits : ¬ pathLimit ≤ r + 1 + (RawPath.ofComponents (ds ++ [c])).length) :
    (s.makeAbove (RawPath.ofComponents (ds ++ [c])) : Making Id Unit).run.run (Folder.empty r) =
      (.ok (), Folder.chain r ds (.dir [])) := by
  obtain ⟨hds, hc⟩ := RawPath.plain_append_singleton.1 hplain
  have hup := RawPath.dirname_ofComponents_append (fun x hx => (hds x hx).separated)
    hc.slash_not_mem
  rw [makeAbove, run_bind_ok (get_run _)]
  simp only [hup]
  by_cases h0 : ds = []
  · -- the target lies in the folder itself
    subst h0
    rfl
  · have hne := RawPath.ofComponents_ne_nil h0 fun x hx => (hds x hx).ne_nil
    have hfuel : ds.length ≤ (RawPath.ofComponents ds).length + 1 := by
      have := RawPath.length_le_length_ofComponents fun x hx => (hds x hx).ne_nil
      omega
    have hshort : ¬ pathLimit ≤ r + 1 + (RawPath.ofComponents ds).length := by
      have := RawPath.length_ofComponents_lt_append h0 c
      omega
    rw [Folder.existsAt_empty h0 hds, Folder.makedirs_empty h0 hds hfuel hshort]
    simp only [List.isEmpty_eq_false_iff.2 hne, Bool.or_false]
    rfl

/-- A member name that extraction writes inside the folder and reading back finds there: it is
relative, has no `..` component and no NUL byte, and stays within what the system takes: each
component, the whole path below the folder, and the depth the removal reaches. -/
structure InsideName (s : Scratch) (n : String) : Prop where
  relative : (RawPath.ofText n).isAbsolute = false
  no_dotDot : RawPath.dotDot ∉ (RawPath.ofText n).components
  no_nul : 0 ∉ RawPath.ofText n
  short : ∀ c ∈ (RawPath.ofText n).kept, c.length ≤ nameLimit
  fits : s.folderLength + 1 + (RawPath.ofComponents (RawPath.ofText n).kept).length < pathLimit
  shallow : (RawPath.ofText n).kept.length < s.levelLimit

namespace InsideName

variable {s : Scratch} {n : String}

theorem plain (h : s.InsideName n) : ∀ c ∈ (RawPath.ofText n).kept, c.Plain := by
  intro c hc
  obtain ⟨hcomp, hdot⟩ := List.mem_filter.1 hc
  obtain ⟨hne, hslash⟩ := RawPath.ne_nil_of_mem_components hcomp
  exact ⟨hne, hslash, by simpa using hdot, fun h' => h.no_dotDot (h' ▸ hcomp), h.short c hc⟩

theorem parts_eq_kept (h : s.InsideName n) :
    (RawPath.ofText n).components.filter (fun c => c ≠ RawPath.dot && c ≠ RawPath.dotDot) =
      (RawPath.ofText n).kept := by
  refine List.filter_congr fun c hc => ?_
  have : c ≠ RawPath.dotDot := fun h' => h.no_dotDot (h' ▸ hc)
  simp [this]

theorem not_mem_nul (h : s.InsideName n) {cs : List RawPath}
    (hcs : ∀ c ∈ cs, c ∈ (RawPath.ofText n).components) :
    (RawPath.ofComponents cs).contains 0 = false := by
  rw [Bool.eq_false_iff]
  intro hmem
  rcases RawPath.mem_ofComponents (List.contains_iff_mem.1 hmem) with h0 | ⟨c, hc, hb⟩
  · exact absurd h0 (by decide)
  · exact h.no_nul (RawPath.mem_of_mem_components (hcs c hc) hb)

/-- The components an inside name keeps, split before the last one: all plain, their path fits
below the folder, and the file at their end lies shallow enough to remove. -/
theorem exists_split (h : s.InsideName n) (hkept : (RawPath.ofText n).kept ≠ []) :
    ∃ ds c, (RawPath.ofText n).kept = ds ++ [c] ∧ (∀ x ∈ ds ++ [c], x.Plain) ∧
      ¬ pathLimit ≤ s.folderLength + 1 + (RawPath.ofComponents (ds ++ [c])).length ∧
      ds.length + 1 < s.levelLimit := by
  obtain ⟨ds, c, hsplit⟩ : ∃ ds c, (RawPath.ofText n).kept = ds ++ [c] :=
    ⟨_, _, (List.dropLast_append_getLast hkept).symm⟩
  have hfits := h.fits
  have hshallow := h.shallow
  rw [hsplit] at hfits hshallow
  rw [List.length_append, List.length_singleton] at hshallow
  exact ⟨ds, c, hsplit, hsplit ▸ h.plain, by omega, hshallow⟩

end InsideName

/-- Extracting a member whose name stays inside a fresh folder gives the data of the entry that
the name's position picks, and leaves the folder shallow enough to remove. -/
theorem extractZipMember_fresh (s : Scratch) (host : Host) (z : ZipArchive) {n : String}
    {e : ZipEntry}
    (he : z.find? n >>= (z.entries[·]?) = some e) (hname : e.name = n)
    (hkept : (RawPath.ofText n).kept ≠ []) (h : s.InsideName n) :
    ∃ f, (extractZipMember s host z n).run.run (Folder.empty s.folderLength) =
      ((z.data e).mapError ExtractFault.zip, f) ∧ f.depth < s.levelLimit := by
  obtain ⟨ds, c, hsplit, hplain, hfits, hshallow⟩ := h.exists_split hkept
  -- the folder is left with the directories above the file, or with the file as well
  have hdepth_dirs : (Folder.chain s.folderLength ds (.dir [])).depth < s.levelLimit := by
    rw [Folder.depth_chain (.inl rfl)]
    omega
  have hdepth_file :
      ∀ d, (Folder.chain s.folderLength (ds ++ [c]) (.file d)).depth < s.levelLimit := by
    intro d
    rw [Folder.depth_chain (.inr ⟨d, rfl⟩), List.length_append, List.length_singleton]
    exact hshallow
  have hsub : ∀ x ∈ ds ++ [c], x ∈ (RawPath.ofText n).components := by
    intro x hx
    rw [← hsplit] at hx
    exact (List.mem_filter.1 hx).1
  have hnul_dir : (RawPath.dirname (RawPath.ofComponents (ds ++ [c]))).contains 0 = false := by
    obtain ⟨hds, hc⟩ := RawPath.plain_append_singleton.1 hplain
    rw [RawPath.dirname_ofComponents_append (fun x hx => (hds x hx).separated) hc.slash_not_mem]
    exact h.not_mem_nul fun x hx => hsub x (List.mem_append_left _ hx)
  have hparts := h.parts_eq_kept
  rw [hsplit] at hparts
  rw [extractZipMember, he]
  have hnonempty : (ds ++ [c]).isEmpty = false := List.isEmpty_eq_false_iff.2 (by simp)
  simp only [hname, hparts, hnonempty, Bool.false_eq_true, if_false, hnul_dir, h.not_mem_nul hsub]
  rw [run_bind_ok (makeAbove_fresh s hplain hfits)]
  cases hp : z.payload e with
  | error err =>
    -- the entry cannot be opened: only the directories above it were made
    have hdata : z.data e = .error err := by
      rw [ZipArchive.data, hp]
      rfl
    rw [hdata]
    exact ⟨_, run_bind_error (liftExcept_run_error rfl _), hdepth_dirs⟩
  | ok packed =>
    have hdata : z.data e = ZipArchive.unpackEntry e packed := by
      rw [ZipArchive.data, hp]
      rfl
    rw [run_bind_ok (liftExcept_run_ok (x := (Except.ok packed).mapError ExtractFault.zip) rfl _),
      run_bind_ok (change_run_ok s (Folder.writeFile_chain_new ByteArray.empty hplain hfits)),
      hdata]
    cases hu : ZipArchive.unpackEntry e packed with
    | error err =>
      -- the data is refused: the file was created, empty
      exact ⟨_, run_bind_error (liftExcept_run_error rfl _), hdepth_file _⟩
    | ok d =>
      have hread : (Folder.chain s.folderLength (ds ++ [c]) (.file d)).readFile
          (RawPath.ofComponents ((RawPath.ofText n).components.filter (· ≠ RawPath.dot))) =
            .ok d := by
        rw [show (RawPath.ofText n).components.filter (· ≠ RawPath.dot) = ds ++ [c] from hsplit]
        exact Folder.readFile_chain hplain hfits
      refine ⟨_, ?_, hdepth_file d⟩
      rw [run_bind_ok (liftExcept_run_ok (x := (Except.ok d).mapError ExtractFault.zip) rfl _),
        run_bind_ok (change_run_ok s (Folder.writeFile_chain_file _ d hplain hfits)),
        readBack_relative s host (rootOf_of_not_isAbsolute h.relative) hread]
      rfl

/-- With nothing outside the folder, extracting a member by an absolute name fails, whatever
the entries hold: the name is read back from outside the folder. -/
theorem extractZipMember_fails (s : Scratch) (z : ZipArchive) {n : String}
    (habs : (RawPath.ofText n).isAbsolute = true) : Fails (extractZipMember s Host.bare z n) := by
  have hback := fails_readBack_bare s (rootOf_ne_nil_of_isAbsolute habs)
  rw [extractZipMember]
  dsimp only
  split
  · exact hback
  · split
    · exact hback
    · split
      · exact Fails.bind_left (fails_throw _)
      · refine Fails.bind_right fun _ => Fails.bind_right fun packed => ?_
        split
        · exact Fails.bind_left (fails_throw _)
        · exact Fails.bind_right fun _ => Fails.bind_right fun d => Fails.bind_right fun _ => hback

end Scratch

end Archive

namespace Input

open Archive

theorem zipText_inside (s : Scratch) (host : Host) {bytes : ByteArray} {z : ZipArchive}
    {n : String}
    {e : ZipEntry} (hread : ZipArchive.read bytes = .ok z)
    (hfirst : z.names.find? (·.endsWith ".txt") = some n)
    (he : (z.entries.filter (·.name = n)).getLast? = some e) (h : s.InsideName n) :
    zipText s host bytes = ((z.data e).mapError (InputFault.extract ∘ .zip)) >>= readText := by
  have hname : e.name = n := by
    simpa using (List.mem_filter.1 (List.mem_of_getLast? he)).2
  obtain ⟨f, hrun, hdepth⟩ := Scratch.extractZipMember_fresh s host z
    ((ZipArchive.find?_bind_getElem? z n).trans he) hname
    (RawPath.kept_ne_nil_of_endsWith_txt (by simpa using List.find?_some hfirst)) h
  have hremove : s.remove f = .ok () := if_neg (not_le.2 hdepth)
  rw [zipText, hread]
  simp only [Except.mapError, bind, Except.bind, hfirst, hrun, hremove]
  cases z.data e <;> rfl

theorem zipText_absolute (s : Scratch) {bytes : ByteArray} {z : ZipArchive} {n : String}
    (hread : ZipArchive.read bytes = .ok z) (hfirst : z.names.find? (·.endsWith ".txt") = some n)
    (habs : (RawPath.ofText n).isAbsolute = true) :
    ∃ err, zipText s Host.bare bytes = .error err := by
  obtain ⟨err, f, hrun⟩ := Scratch.extractZipMember_fails s z habs (Folder.empty s.folderLength)
  rw [zipText, hread]
  simp only [Except.mapError, bind, Except.bind, hfirst, hrun]
  cases s.remove f <;> exact ⟨_, rfl⟩

theorem archiveText_of_zip (s : Scratch) {name : String} (bytes : ByteArray) (host : Host)
    (lib : SevenZip) (hzip : FileName.suffix (PosixPath.parse name).name = ".zip") :
    archiveText s name bytes host lib = zipText s host bytes :=
  if_pos hzip


/-- The text of a zip archive is that of the first name in its directory with the suffix `.txt`.
When that name stays inside the extraction folder, the text is the data of the last entry of that
name, decoded; an absolute name is read back from outside the folder, and gives no text. -/
theorem archiveText_zip_member (s : Scratch) (name : String) {bytes : ByteArray} {z : ZipArchive}
    {n : String} (hzip : FileName.suffix (PosixPath.parse name).name = ".zip")
    (hread : ZipArchive.read bytes = .ok z) (hfirst : z.names.find? (·.endsWith ".txt") = some n) :
    (s.InsideName n → ∃ e, (z.entries.filter (·.name = n)).getLast? = some e ∧
      archiveText s name bytes = (z.data e).mapError (InputFault.extract ∘ .zip) >>= readText) ∧
    ((RawPath.ofText n).isAbsolute = true → ∃ err, archiveText s name bytes = .error err) := by
  rw [archiveText_of_zip s bytes _ _ hzip]
  refine ⟨fun h => ?_, zipText_absolute s hread hfirst⟩
  -- the name is listed, so some entry bears it
  obtain ⟨e, he⟩ : ∃ e, (z.entries.filter (·.name = n)).getLast? = some e := by
    obtain ⟨e, hmem, hname⟩ := List.mem_map.1 (List.mem_of_find?_eq_some hfirst)
    exact Option.isSome_iff_exists.1 (List.getLast?_isSome.2
      (List.ne_nil_of_mem (List.mem_filter.2 ⟨hmem, by simp [hname]⟩)))
  exact ⟨e, he, zipText_inside s _ hread hfirst he h⟩

def repeatedNameZip : ByteArray :=
  ⟨#[80, 75, 3, 4, 20, 0, 0, 0, 0, 0, 0, 0, 33, 0, 83, 252, 81, 103, 2, 0, 0, 0, 2, 0, 0, 0, 5, 0,
    0, 0, 97, 46, 116, 120, 116, 49, 10, 80, 75, 3, 4, 20, 0, 0, 0, 0, 0, 0, 0, 33, 0, 144, 175,
    124, 76, 2, 0, 0, 0, 2, 0, 0, 0, 5, 0, 0, 0, 97, 46, 116, 120, 116, 50, 10, 80, 75, 1, 2, 20, 3,
    20, 0, 0, 0, 0, 0, 0, 0, 33, 0, 83, 252, 81, 103, 2, 0, 0, 0, 2, 0, 0, 0, 5, 0, 0, 0, 0, 0, 0,
    0, 0, 0, 0, 0, 164, 1, 0, 0, 0, 0, 97, 46, 116, 120, 116, 80, 75, 1, 2, 20, 3, 20, 0, 0, 0, 0,
    0, 0, 0, 33, 0, 144, 175, 124, 76, 2, 0, 0, 0, 2, 0, 0, 0, 5, 0, 0, 0, 0, 0, 0, 0, 0, 0, 0, 0,
    164, 1, 37, 0, 0, 0, 97, 46, 116, 120, 116, 80, 75, 5, 6, 0, 0, 0, 0, 2, 0, 2, 0, 102, 0, 0, 0,
    74, 0, 0, 0, 0, 0]⟩

def absoluteNameZip : ByteArray :=
  ⟨#[80, 75, 3, 4, 20, 0, 0, 0, 0, 0, 0, 0, 33, 0, 83, 252, 81, 103, 2, 0, 0, 0, 2, 0, 0, 0, 6, 0,
    0, 0, 47, 97, 46, 116, 120, 116, 49, 10, 80, 75, 1, 2, 20, 3, 20, 0, 0, 0, 0, 0, 0, 0, 33, 0,
    83, 252, 81, 103, 2, 0, 0, 0, 2, 0, 0, 0, 6, 0, 0, 0, 0, 0, 0, 0, 0, 0, 0, 0, 164, 1, 0, 0, 0,
    0, 47, 97, 46, 116, 120, 116, 80, 75, 5, 6, 0, 0, 0, 0, 1, 0, 1, 0, 52, 0, 0, 0, 38, 0, 0, 0, 0,
    0]⟩

theorem exists_read_of_map {b : ByteArray} {γ : Type} {F : ZipArchive → γ} {v : γ}
    (h : (ZipArchive.read b).toOption.map F = some v) :
    ∃ z, ZipArchive.read b = .ok z ∧ F z = v := by
  cases hr : ZipArchive.read b with
  | error err => simp [hr, Except.toOption] at h
  | ok z => exact ⟨z, rfl, by simpa [hr, Except.toOption] using h⟩

theorem eq_ok_of_toOption {γ : Type} {x : Except ZipFault γ} {v : γ} (h : x.toOption = some v) :
    x = .ok v := by
  cases x <;> simp_all [Except.toOption]

/-- The directory of `repeatedNameZip` lists `a.txt` first; the first entry of that name holds
`1\n` and the last `2\n`. -/
theorem read_repeatedNameZip : ∃ z e₁ e₂, ZipArchive.read repeatedNameZip = .ok z ∧
    z.names.find? (·.endsWith ".txt") = some "a.txt" ∧
    z.entries.find? (·.name = "a.txt") = some e₁ ∧ z.data e₁ = .ok "1\n".toUTF8 ∧
    (z.entries.filter (·.name = "a.txt")).getLast? = some e₂ ∧ z.data e₂ = .ok "2\n".toUTF8 := by
  obtain ⟨z, hz, hF⟩ := exists_read_of_map (b := repeatedNameZip)
    (F := fun z => (z.names.find? (·.endsWith ".txt"),
      (z.entries.find? (·.name = "a.txt")).map fun e => (z.data e).toOption,
      (z.entries.filter (·.name = "a.txt")).getLast?.map fun e => (z.data e).toOption))
    (v := (some "a.txt", some (some "1\n".toUTF8), some (some "2\n".toUTF8))) (by decide +kernel)
  simp only [Prod.mk.injEq] at hF
  obtain ⟨hfirst, hhead, hlast⟩ := hF
  obtain ⟨e₁, he₁, hd₁⟩ := Option.map_eq_some_iff.1 hhead
  obtain ⟨e₂, he₂, hd₂⟩ := Option.map_eq_some_iff.1 hlast
  exact ⟨z, e₁, e₂, hz, hfirst, he₁, eq_ok_of_toOption hd₁, he₂, eq_ok_of_toOption hd₂⟩

theorem read_absoluteNameZip : ∃ z e, ZipArchive.read absoluteNameZip = .ok z ∧
    z.names.find? (·.endsWith ".txt") = some "/a.txt" ∧
    z.entries.find? (·.name = "/a.txt") = some e ∧ z.data e = .ok "1\n".toUTF8 := by
  obtain ⟨z, hz, hF⟩ := exists_read_of_map (b := absoluteNameZip)
    (F := fun z => (z.names.find? (·.endsWith ".txt"),
      (z.entries.find? (·.name = "/a.txt")).map fun e => (z.data e).toOption))
    (v := (some "/a.txt", some (some "1\n".toUTF8))) (by decide +kernel)
  simp only [Prod.mk.injEq] at hF
  obtain ⟨hfirst, hhead⟩ := hF
  obtain ⟨e, he, hd⟩ := Option.map_eq_some_iff.1 hhead
  exact ⟨z, e, hz, hfirst, he, eq_ok_of_toOption hd⟩

theorem extractionFolder_inside_a_txt : extractionFolder.InsideName "a.txt" :=
  ⟨by decide +kernel, by decide +kernel, by decide +kernel, by decide +kernel, by decide +kernel,
    by decide +kernel⟩

theorem isAbsolute_slash_a_txt : (RawPath.ofText "/a.txt").isAbsolute = true := by
  decide +kernel

/-- Both samples at once: the repeated name stays inside the folder, and the absolute one does
not. -/
theorem archiveText_zip_member_samples :
    (∃ z, ZipArchive.read repeatedNameZip = .ok z ∧
      z.names.find? (·.endsWith ".txt") = some "a.txt" ∧ extractionFolder.InsideName "a.txt" ∧
      ∃ e, (z.entries.filter (·.name = "a.txt")).getLast? = some e ∧
        archiveText extractionFolder "ops.zip" repeatedNameZip =
          (z.data e).mapError (InputFault.extract ∘ .zip) >>= readText) ∧
    ∃ z, ZipArchive.read absoluteNameZip = .ok z ∧
      z.names.find? (·.endsWith ".txt") = some "/a.txt" ∧
      (RawPath.ofText "/a.txt").isAbsolute = true ∧
      ∃ err, archiveText extractionFolder "a.zip" absoluteNameZip = .error err := by
  obtain ⟨z, -, -, hz, hfirst, -⟩ := read_repeatedNameZip
  obtain ⟨z', -, hz', hfirst', -⟩ := read_absoluteNameZip
  exact ⟨⟨z, hz, hfirst, extractionFolder_inside_a_txt,
      (archiveText_zip_member extractionFolder "ops.zip" (by decide) hz hfirst).1
        extractionFolder_inside_a_txt⟩,
    ⟨z', hz', hfirst', isAbsolute_slash_a_txt,
      (archiveText_zip_member extractionFolder "a.zip" (by decide) hz' hfirst').2
        isAbsolute_slash_a_txt⟩⟩

/-- The first entry named `a.txt` in `repeatedNameZip` holds `1\n`, yet the text of the archive is
`2\n`, the data of the later entry of that name. The first text member of `absoluteNameZip`, named
`/a.txt`, holds `1\n`, yet that archive gives no text. -/
theorem archiveText_not_first_member :
    (∃ z e, ZipArchive.read repeatedNameZip = .ok z ∧
      z.names.find? (·.endsWith ".txt") = some "a.txt" ∧
      z.entries.find? (·.name = "a.txt") = some e ∧ z.data e = .ok "1\n".toUTF8) ∧
    archiveText extractionFolder "ops.zip" repeatedNameZip = .ok "2\n" ∧
    (∃ z e, ZipArchive.read absoluteNameZip = .ok z ∧
      z.names.find? (·.endsWith ".txt") = some "/a.txt" ∧
      z.entries.find? (·.name = "/a.txt") = some e ∧ z.data e = .ok "1\n".toUTF8) ∧
    ∃ err, archiveText extractionFolder "a.zip" absoluteNameZip = .error err := by
  obtain ⟨z, e₁, e₂, hz, hfirst, he₁, hd₁, he₂, hd₂⟩ := read_repeatedNameZip
  obtain ⟨z', e', hz', hfirst', he', hd'⟩ := read_absoluteNameZip
  -- the later entry's data is what is read back and decoded
  have htext : archiveText extractionFolder "ops.zip" repeatedNameZip = .ok "2\n" := by
    rw [archiveText_of_zip _ _ _ _ (by decide),
      zipText_inside extractionFolder _ hz hfirst he₂ extractionFolder_inside_a_txt, hd₂]
    show readText "2\n".toUTF8 = _
    rw [readText, (Text.decodeUtf8_eq_ok_iff _ _).2 rfl]
    exact congrArg Except.ok (by decide +kernel)
  refine ⟨⟨z, e₁, hz, hfirst, he₁, hd₁⟩, htext, ⟨z', e', hz', hfirst', he', hd'⟩, ?_⟩
  rw [archiveText_of_zip _ _ _ _ (by decide)]
  exact zipText_absolute extractionFolder hz' hfirst' isAbsolute_slash_a_txt

end Input

end Reckon
