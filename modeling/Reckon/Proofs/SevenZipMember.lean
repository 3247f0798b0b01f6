import Mathlib
import Reckon.Proofs.ArchiveMember
import Reckon.Proofs.ResultsName

set_option autoImplicit false

/-!
# Which member the text of a 7z archive comes from

A name with the suffix `.7z` sends its bytes to the 7z library, which is a parameter: it lists
the members and extracts the first one named as a text file into a fresh folder. The client then
reads that member back by its name, as for the other formats. A relative name reads the file in
the folder. An absolute name reads a file of the host, outside the folder.
-/

namespace Reckon

namespace FileName

theorem head?_dropWhile_dot_ne (cs : List Char) : (cs.dropWhile (· = '.')).head? ≠ some '.' := by
  intro h
  obtain ⟨t, ht⟩ := List.head?_eq_some_iff.1 h
  have hnot := @List.head_dropWhile_not Char (fun c => decide (c = '.')) cs (by simp [ht])
  simp [ht] at hnot

/-- A name's last suffix is its suffix. When there are suffixes, the name's last dot is not one
of its leading dots, and the name does not end with it. -/
theorem suffix_of_getLast?_suffixes {n x : String} (h : (suffixes n).getLast? = some x) :
    suffix n = x := by
  by_cases hl : n.toList.getLast? = some '.'
  · simp [suffixes, hl] at h
  simp only [suffixes, hl, if_false] at h
  have hsplit : n.toList = n.toList.takeWhile (· = '.') ++ n.toList.dropWhile (· = '.') :=
    List.takeWhile_append_dropWhile.symm
  have hhead := head?_dropWhile_dot_ne n.toList
  generalize n.toList.takeWhile (· = '.') = pre at hsplit
  generalize n.toList.dropWhile (· = '.') = rest at h hsplit hhead
  -- with suffixes, what follows the leading dots holds a dot
  have hdot : '.' ∈ rest := by
    by_contra hno
    simp [splitDots_of_dot_not_mem hno] at h
  obtain ⟨a, b, rfl, hb⟩ := exists_last_dot hdot
  have ha : a ≠ [] := by
    rintro rfl
    simp at hhead
  have hb' : b ≠ [] := by
    rintro rfl
    exact hl (by rw [hsplit]; simp)
  have hpieces : (splitDots (a ++ '.' :: b)).drop 1 = (splitDots a).drop 1 ++ [b] := by
    rw [splitDots_append_dot, splitDots_of_dot_not_mem hb,
      List.drop_append_of_le_length (List.length_pos_iff.2 (splitDots_ne_nil a))]
  rw [hpieces] at h
  have hcut : n.toList = (pre ++ a) ++ '.' :: b := by rw [hsplit, List.append_assoc]
  have hpos :
      0 < (pre ++ a).length ∧ (pre ++ a).length + 1 < ((pre ++ a) ++ '.' :: b).length := by
    simp only [List.length_append, List.length_cons]
    have := List.length_pos_iff.2 ha
    have := List.length_pos_iff.2 hb'
    omega
  simp only [suffix, hcut, lastDot?_append_dot _ hb, hpos, and_self, if_true, List.drop_left]
  simpa using h

end FileName

namespace Input

open Archive

/-- A name with the suffix `.7z` picks the 7z library: its last suffix is no `.xz`, so it names no
tar archive. -/
theorem archiveText_of_sevenZip (s : Scratch) {name : String} (bytes : ByteArray) (host : Host)
    (lib : SevenZip) (h7z : FileName.suffix (PosixPath.parse name).name = ".7z") :
    archiveText s name bytes host lib = sevenZipText s host lib bytes := by
  have htar : ∀ sfx : List String, sfx.drop (sfx.length - 2) = [".tar", ".xz"] →
      sfx.getLast? = some ".xz" := by
    intro sfx h
    rw [← List.take_append_drop (sfx.length - 2) sfx, h]
    simp
  have hnot : ¬ (FileName.suffixes (PosixPath.parse name).name).drop
      ((FileName.suffixes (PosixPath.parse name).name).length - 2) = [".tar", ".xz"] := by
    intro h
    have hxz := FileName.suffix_of_getLast?_suffixes (htar _ h)
    rw [h7z] at hxz
    exact absurd hxz (by decide)
  simp only [archiveText, h7z, hnot, if_false, if_true]
  rfl

theorem sevenZipText_of_no_text (s : Scratch) (host : Host) {lib : SevenZip} {bytes : ByteArray}
    {names : List String} (hnames : lib.names bytes = .ok names)
    (hnone : ∀ n ∈ names, n.endsWith ".txt" = false) :
    sevenZipText s host lib bytes = .error (.noText "7z") := by
  have hfind : names.find? (·.endsWith ".txt") = none :=
    List.find?_eq_none.2 fun n hn => by simp [hnone n hn]
  simp [sevenZipText, hnames, hfind, bind, Except.bind, throw, throwThe, MonadExceptOf.throw]

/-- Once the library has extracted the member, reading it back is the client's own step: it
gives what the name reads, inside the folder or on the host. -/
theorem sevenZipText_of_extract (s : Scratch) (host : Host) {lib : SevenZip} {bytes : ByteArray}
    {names : List String} {n : String} {f : Folder} {d : ByteArray}
    (hnames : lib.names bytes = .ok names) (hfirst : names.find? (·.endsWith ".txt") = some n)
    (hextract : lib.extract bytes n (Folder.empty s.folderLength) = .ok f)
    (hread : (s.readBack host (RawPath.ofText n) : Making Id ByteArray).run.run f = (.ok d, f))
    (hdepth : f.depth < s.levelLimit) :
    sevenZipText s host lib bytes = readText d := by
  have hremove : s.remove f = .ok () := if_neg (not_le.2 hdepth)
  simp only [sevenZipText, hnames, hfirst, hextract, hread, hremove, bind, Except.bind,
    Except.mapError]

/-- An archive named with the suffix `.7z` is read by the 7z library `lib`, from the first member
it lists with the suffix `.txt`; with none, there is no text. Once the library has extracted that
member into the fresh folder, the client reads it back by its name: a relative name reads the file
left in the folder, an absolute one the host's file at that path, whatever the library extracted.
The text is that file's data, decoded, when the folder can then be removed. -/
theorem archiveText_sevenZip_member (s : Scratch) (name : String) (host : Host) (lib : SevenZip)
    {bytes : ByteArray} {names : List String}
    (h7z : FileName.suffix (PosixPath.parse name).name = ".7z")
    (hnames : lib.names bytes = .ok names) :
    ((∀ n ∈ names, n.endsWith ".txt" = false) →
      archiveText s name bytes host lib = .error (.noText "7z")) ∧
    (∀ n f d, names.find? (·.endsWith ".txt") = some n →
      lib.extract bytes n (Folder.empty s.folderLength) = .ok f → f.depth < s.levelLimit →
      Scratch.rootOf (RawPath.ofText n) = [] →
      f.readFile (RawPath.ofComponents (RawPath.ofText n).kept) = .ok d →
      archiveText s name bytes host lib = readText d) ∧
    (∀ n f d, names.find? (·.endsWith ".txt") = some n →
      lib.extract bytes n (Folder.empty s.folderLength) = .ok f → f.depth < s.levelLimit →
      Scratch.rootOf (RawPath.ofText n) ≠ [] →
      (Scratch.rootOf (RawPath.ofText n) ++ RawPath.ofComponents (RawPath.ofText n).kept).length <
        pathLimit →
      host (Scratch.rootOf (RawPath.ofText n) ++ RawPath.ofComponents (RawPath.ofText n).kept) =
        .ok d →
      archiveText s name bytes host lib = readText d) := by
  rw [archiveText_of_sevenZip s bytes host lib h7z]
  refine ⟨sevenZipText_of_no_text s host hnames, ?_, ?_⟩
  · intro n f d hfirst hextract hdepth hrel hread
    exact sevenZipText_of_extract s host hnames hfirst hextract
      (Scratch.readBack_relative s host hrel hread) hdepth
  · intro n f d hfirst hextract hdepth habs hfits hhost
    have hread : (s.readBack host (RawPath.ofText n) : Making Id ByteArray).run.run f =
        (.ok d, f) := by
      rw [Scratch.readBack_absolute s host f habs hfits, hhost]
      rfl
    exact sevenZipText_of_extract s host hnames hfirst hextract hread hdepth

end Input

end Reckon
