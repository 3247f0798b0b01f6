import Reckon.Text.Quoted

set_option autoImplicit false

/-!
# POSIX paths

A path is read as a root and a list of components. Exactly two leading slashes make the root `//`,
one or three and more make it `/`. Between slashes, empty components and `.` are dropped; `..` is
kept as a component. The last component is the path's name; a path without components has an
empty name.

A name's suffixes are its `.x` parts after the first character, none at all when it ends with a
dot; its stem is the name without its last suffix.
-/

namespace Reckon

/-- A POSIX path, normalised. -/
structure PosixPath where
  root : String
  parts : List String
deriving DecidableEq, Repr

namespace PosixPath

def splitSlash : List Char → List (List Char)
  | [] => [[]]
  | c :: cs =>
    if c = '/' then [] :: splitSlash cs
    else
      match splitSlash cs with
      | [] => [[c]]
      | p :: ps => (c :: p) :: ps

def rootOf (cs : List Char) : String :=
  match (cs.takeWhile (· = '/')).length with
  | 0 => ""
  | 2 => "//"
  | _ => "/"

def parse (s : String) : PosixPath :=
  ⟨rootOf s.toList,
    ((splitSlash s.toList).filter (fun p => !p.isEmpty && p != ['.'])).map String.ofList⟩

def toText (p : PosixPath) : String :=
  if p.root.isEmpty && p.parts.isEmpty then "."
  else p.root ++ "/".intercalate p.parts

def name (p : PosixPath) : String := p.parts.getLast?.getD ""

def withName (p : PosixPath) (n : String) : PosixPath := ⟨p.root, p.parts.dropLast ++ [n]⟩

end PosixPath

namespace FileName

def splitDots : List Char → List (List Char)
  | [] => [[]]
  | c :: cs =>
    if c = '.' then [] :: splitDots cs
    else
      match splitDots cs with
      | [] => [[c]]
      | p :: ps => (c :: p) :: ps

/-- The suffixes of a name, each with its dot: none when the name ends with a dot; otherwise the
dot-separated pieces after the first, once the leading dots are gone. -/
def suffixes (n : String) : List String :=
  let cs := n.toList
  if cs.getLast? = some '.' then []
  else ((splitDots (cs.dropWhile (· = '.'))).drop 1).map (fun p => String.ofList ('.' :: p))

def lastDot? (cs : List Char) : Option Nat :=
  (cs.zipIdx.filter (fun (c, _) => c = '.')).getLast?.map Prod.snd

/-- A name without its last suffix: cut at the last dot when that dot is neither the first nor the
last character. -/
def stem (n : String) : String :=
  let cs := n.toList
  match lastDot? cs with
  | some i => if 0 < i ∧ i + 1 < cs.length then String.ofList (cs.take i) else n
  | none => n

/-- A name's last suffix, with its dot: from the last dot when that dot is neither the first nor
the last character, else empty. Unlike the last of `suffixes`, it sees a suffix after leading
dots: `..a` has the suffix `.a` and no suffixes. -/
def suffix (n : String) : String :=
  let cs := n.toList
  match lastDot? cs with
  | some i => if 0 < i ∧ i + 1 < cs.length then String.ofList (cs.drop i) else ""
  | none => ""

end FileName

def PosixPath.emptyNameMessage (p : PosixPath) : String :=
  "PosixPath(" ++ Text.quote p.toText ++ ") has an empty name"

example : PosixPath.parse "x//y.txt/" = ⟨"", ["x", "y.txt"]⟩ ∧
    (PosixPath.parse "//a/./b").toText = "//a/b" ∧ (PosixPath.parse "").toText = "." := by
  decide +kernel

example : FileName.suffixes "a.tar.xz" = [".tar", ".xz"] ∧ FileName.suffixes "..a.b" = [".b"] ∧
    FileName.suffixes "a.b." = [] ∧ FileName.stem "a.tar.xz" = "a.tar" ∧ FileName.stem "..a" = "." ∧
    FileName.stem ".hidden" = ".hidden" ∧ FileName.suffix "..a" = ".a" ∧ FileName.suffix "a." = "" := by
  decide +kernel

end Reckon
