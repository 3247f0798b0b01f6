import Reckon.Text.Escaped

set_option autoImplicit false

/-!
# Paths as bytes, taken apart and put together by their letters

A path is kept as the bytes the system stores, components between slashes (0x2F); it is read as
text only to be shown. Every operation here looks at the slash and the dot alone, both ASCII, and
no byte of a multi-byte character or of a stray byte is either, so taking a path apart as bytes is
taking its text apart.

These operations look at no file system. `split` cuts at the last slash; the directory part keeps
its slashes only when it is nothing but slashes. `join` puts a slash between two parts unless the
first is empty or ends with one, and an absolute second part replaces the first. `normalize`
drops empty components and `.`, lets `..` remove the component before it, keeps a `..` that has
nothing to remove in a relative path, and drops it at the root; one or two leading slashes are
kept, three or more become one, and the empty result is `.`.
-/

namespace Reckon

abbrev RawPath := List UInt8

namespace RawPath

def slash : UInt8 := 0x2F

def ofText (s : String) : RawPath := s.toUTF8.toList

def dot : RawPath := [0x2E]

def dotDot : RawPath := [0x2E, 0x2E]

def quote (p : RawPath) : String := Text.quoteName p

def isAbsolute (p : RawPath) : Bool := p.head? == some slash

def endsWith (p : RawPath) (s : String) : Bool := (ofText s).isSuffixOf p

def pieces : RawPath → List RawPath
  | [] => [[]]
  | b :: bs =>
    if b = slash then [] :: pieces bs
    else
      match pieces bs with
      | [] => [[b]]
      | p :: ps => (b :: p) :: ps

def components (p : RawPath) : List RawPath := (pieces p).filter (· ≠ [])

def ofComponents (cs : List RawPath) : RawPath := List.intercalate [slash] cs

def dropTrailingSlashes (p : RawPath) : RawPath :=
  (p.reverse.dropWhile (· = slash)).reverse

def dropLeadingSlashes (p : RawPath) : RawPath := p.dropWhile (· = slash)

def split (p : RawPath) : RawPath × RawPath :=
  let tail := (p.reverse.takeWhile (· ≠ slash)).reverse
  let head := p.take (p.length - tail.length)
  let head := if head.all (· = slash) then head else dropTrailingSlashes head
  (head, tail)

def dirname (p : RawPath) : RawPath := (split p).1

def join (a b : RawPath) : RawPath :=
  if isAbsolute b then b
  else if a.isEmpty || a.getLast? = some slash then a ++ b
  else a ++ slash :: b

def collapse (absolute : Bool) : List RawPath → List RawPath → List RawPath
  | acc, [] => acc.reverse
  | acc, c :: cs =>
    if c = [] || c = dot then collapse absolute acc cs
    else if c ≠ dotDot || (!absolute && acc.isEmpty) || acc.head? = some dotDot then
      collapse absolute (c :: acc) cs
    else collapse absolute acc.tail cs

def normalize (p : RawPath) : RawPath :=
  if p.isEmpty then dot
  else
    let slashes := (p.takeWhile (· = slash)).length
    let lead : RawPath := if slashes = 2 then [slash, slash] else if slashes = 0 then [] else [slash]
    let s := lead ++ ofComponents (collapse (slashes ≠ 0) [] (pieces p))
    if s.isEmpty then dot else s

end RawPath

example : RawPath.split (RawPath.ofText "a//b/") = (RawPath.ofText "a//b", []) ∧
    RawPath.split (RawPath.ofText "//x") = (RawPath.ofText "//", RawPath.ofText "x") ∧
    RawPath.split (RawPath.ofText "x") = ([], RawPath.ofText "x") := by
  decide +kernel

example : RawPath.normalize (RawPath.ofText "a/../../b/./c//") = RawPath.ofText "../b/c" ∧
    RawPath.normalize (RawPath.ofText "/../x") = RawPath.ofText "/x" ∧
    RawPath.normalize (RawPath.ofText "//a/..") = RawPath.ofText "//" ∧
    RawPath.normalize (RawPath.ofText "a/..") = RawPath.dot := by
  decide +kernel

end Reckon
