import Reckon.Text.Blank

set_option autoImplicit false

/-!
# Words, trimming and lines

`words` cuts a text at its blanks and keeps the non-empty pieces; `trim` removes blanks from both
ends; `lines` cuts a text at its line breaks, where a carriage return directly followed by a line
feed ends a single line, and a text that ends with a break has no empty last line.

All three work on the list of characters, so that lemmas about them are lemmas about lists.
-/

namespace Reckon.Text

def pieces : List Char → List (List Char)
  | [] => [[]]
  | c :: cs =>
    if isBlank c then [] :: pieces cs
    else
      match pieces cs with
      | [] => [[c]]
      | p :: ps => (c :: p) :: ps

def wordsOf (cs : List Char) : List (List Char) :=
  (pieces cs).filter (fun p => !p.isEmpty)

/-- The words of a string, in order. -/
def words (s : String) : List String :=
  (wordsOf s.toList).map String.ofList

def trimList (cs : List Char) : List Char :=
  ((cs.dropWhile isBlank).reverse.dropWhile isBlank).reverse

def trim (s : String) : String :=
  String.ofList (trimList s.toList)

def linesOf : List Char → List (List Char)
  | [] => []
  | '\r' :: '\n' :: cs => [] :: linesOf cs
  | c :: cs =>
    if isLineBreak c then [] :: linesOf cs
    else
      match linesOf cs with
      | [] => [[c]]
      | l :: ls => (c :: l) :: ls

/-- The lines of a string, without their line breaks. -/
def lines (s : String) : List String :=
  (linesOf s.toList).map String.ofList

def unifyNewlines : List Char → List Char
  | [] => []
  | '\r' :: '\n' :: cs => '\n' :: unifyNewlines cs
  | '\r' :: cs => '\n' :: unifyNewlines cs
  | c :: cs => c :: unifyNewlines cs

theorem not_isBlank_of_mem_pieces : ∀ {cs p : List Char}, p ∈ pieces cs → ∀ c ∈ p, isBlank c = false
  | [], p, hp => by simp [pieces] at hp; subst hp; simp
  | c :: cs, p, hp => by
    unfold pieces at hp
    split at hp
    · rcases List.mem_cons.1 hp with rfl | hp
      · simp
      · exact not_isBlank_of_mem_pieces hp
    · rename_i hc
      split at hp
      · simp only [List.mem_singleton] at hp; subst hp
        simpa using hc
      · rename_i q qs hq
        rcases List.mem_cons.1 hp with rfl | hp
        · intro d hd
          rcases List.mem_cons.1 hd with rfl | hd
          · simpa using hc
          · exact not_isBlank_of_mem_pieces (hq ▸ List.mem_cons_self) d hd
        · exact not_isBlank_of_mem_pieces (hq ▸ List.mem_cons_of_mem q hp)

theorem not_isBlank_of_mem_wordsOf {cs w : List Char} (h : w ∈ wordsOf cs) :
    ∀ c ∈ w, isBlank c = false :=
  not_isBlank_of_mem_pieces (List.mem_filter.1 h).1

example : words " x　y  z\x1f" = ["x", "y", "z"] := by decide

example : lines "a\r\nb\rc\n" = ["a", "b", "c"] ∧ lines "\n" = [""] := by decide

end Reckon.Text
