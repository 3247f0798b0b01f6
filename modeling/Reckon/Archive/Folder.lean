import Reckon.Path.Lexical

set_option autoImplicit false

/-!
# The extraction folder

The folder holds files, directories and symbolic links as numbered nodes, node 0 the folder itself;
a directory names the nodes it holds, so hard links share one. Paths are bytes relative to the
folder, resolved component by component as on a POSIX system, forty links at most; beyond the
folder nothing can be named. A path that takes more than 4096 bytes with the folder's own path is
refused before any lookup, and a component of more than 255 bytes where it is looked up.
-/

namespace Reckon.Archive

/-- What a node of the folder holds: a file's bytes, a directory's entries (each a name and the
number of the node it names), or a symbolic link's target. -/
inductive Node where
  | file (data : ByteArray)
  | dir (entries : List (RawPath × Nat))
  | link (target : RawPath)

/-- Where a resolved path is: at a node in the folder, reached through the directories `above` it,
the nearest first and the folder itself last; at the folder's parent; or beyond it. -/
inductive Place where
  | inside (node : Nat) (above : List Nat)
  | parent
  | beyond
deriving DecidableEq, Repr

inductive OsFault where
  | noEntry
  | notDirectory
  | isDirectory
  | exists_
  | loop
  | notPermitted
  | nameTooLong
deriving DecidableEq, Repr

def OsFault.describe : OsFault → Nat × String
  | .noEntry => (2, "No such file or directory")
  | .notDirectory => (20, "Not a directory")
  | .isDirectory => (21, "Is a directory")
  | .exists_ => (17, "File exists")
  | .loop => (40, "Too many levels of symbolic links")
  | .notPermitted => (1, "Operation not permitted")
  | .nameTooLong => (36, "File name too long")

structure OsError where
  fault : OsFault
  path : RawPath

def OsFault.message (f : OsFault) : String :=
  let (n, words) := f.describe
  "[Errno " ++ toString n ++ "] " ++ words

def OsError.message (e : OsError) : String := e.fault.message ++ ": " ++ e.path.quote

def pathLimit : Nat := 4096

def nameLimit : Nat := 255

/-- The contents of the extraction folder: its nodes by number. -/
structure Folder where
  rootLength : Nat
  nodes : Array Node

namespace Folder

def empty (rootLength : Nat) : Folder := ⟨rootLength, #[.dir []]⟩

def tooLong (f : Folder) (p : RawPath) : Bool := pathLimit ≤ f.rootLength + 1 + p.length

def node? (f : Folder) (i : Nat) : Option Node := f.nodes[i]?

def child? (f : Folder) (d : Nat) (name : RawPath) : Option Nat :=
  match f.node? d with
  | some (.dir es) => es.lookup name
  | _ => none

def setNode (f : Folder) (i : Nat) (n : Node) : Folder := ⟨f.rootLength, f.nodes.setIfInBounds i n⟩

def enter (f : Folder) (d : Nat) (name : RawPath) (i : Nat) : Folder :=
  match f.node? d with
  | some (.dir es) => f.setNode d (.dir ((name, i) :: es.filter (·.1 ≠ name)))
  | _ => f

def make (f : Folder) (d : Nat) (name : RawPath) (n : Node) : Folder :=
  (⟨f.rootLength, f.nodes.push n⟩ : Folder).enter d name f.nodes.size

def top : Place := .inside 0 []

def up : Place → Place
  | .inside _ [] => .parent
  | .inside _ (d :: ds) => .inside d ds
  | .parent => .beyond
  | .beyond => .beyond

/-- Resolves components from a directory, following links, `links` of them at most. A component
too long is refused where it is looked up. -/
def walk (f : Folder) : Nat → Place → List RawPath → Except OsFault Place
  | _, p, [] => .ok p
  | n, p, c :: cs =>
    if c = RawPath.dot || c = [] then walk f n p cs
    else if c = RawPath.dotDot then walk f n (up p) cs
    else if nameLimit < c.length then .error .nameTooLong
    else
      match p with
      | .inside d above =>
        match f.child? d c with
        | none => .error .noEntry
        | some i =>
          match f.node? i with
          | some (.dir _) => walk f n (.inside i (d :: above)) cs
          | some (.file _) =>
            if cs.isEmpty then .ok (.inside i (d :: above)) else .error .notDirectory
          | some (.link t) =>
            match n with
            | 0 => .error .loop
            | n + 1 =>
              let start := if t.isAbsolute then Place.beyond else p
              walk f n start (t.components ++ cs)
          | none => .error .noEntry
      | _ => .error .noEntry
termination_by n _ cs => (n, cs.length)

def maxLinks : Nat := 40

/-- Where components lead, following every link. `fromRoot` tells whether they start at the
root. -/
def resolve (f : Folder) (fromRoot : Bool) (cs : List RawPath) : Except OsFault Place :=
  walk f maxLinks (if fromRoot then .beyond else top) cs

def nodeAt (f : Folder) : Place → Option Node
  | .inside i _ => f.node? i
  | _ => some (.dir [])

def readFile (f : Folder) (p : RawPath) : Except OsFault ByteArray :=
  if f.tooLong p then .error .nameTooLong
  else
    match f.resolve false p.components with
    | .error e => .error e
    | .ok place =>
      match f.nodeAt place with
      | some (.file d) => .ok d
      | some (.dir _) => .error .isDirectory
      | _ => .error .noEntry

/-- Whether a path below the folder leads somewhere, links followed; no when the system refuses
the path. -/
def existsAt (f : Folder) (p : RawPath) : Bool :=
  !f.tooLong p &&
    match f.resolve false p.components with
    | .ok place => (f.nodeAt place).isSome
    | .error _ => false

/-- The directory that holds the last of some components read from `start`, and that component:
`none` when the last component is `.` or `..`, or there are none. -/
def parentFrom (f : Folder) (start : Place) (cs : List RawPath) :
    Except OsFault (Place × Option RawPath) :=
  match cs.getLast? with
  | none => .ok (start, none)
  | some last =>
    match f.walk maxLinks start cs.dropLast with
    | .error e => .error e
    | .ok place =>
      match f.nodeAt place with
      | some (.dir _) =>
        if last = RawPath.dot || last = RawPath.dotDot then .ok (place, none)
        else if nameLimit < last.length then .error .nameTooLong
        else .ok (place, some last)
      | some _ => .error .notDirectory
      | none => .error .noEntry

/-- The directory that holds the last component of a path below the folder, and that component,
as `parentFrom` finds them from the folder once the system takes the path. -/
def parentOf (f : Folder) (p : RawPath) : Except OsFault (Place × Option RawPath) :=
  if f.tooLong p then .error .nameTooLong else f.parentFrom top p.components

def mkdir (f : Folder) (p : RawPath) : Except OsFault Folder :=
  match f.parentOf p with
  | .error e => .error e
  | .ok (_, none) => .error .exists_
  | .ok (.inside d _, some name) =>
    if (f.child? d name).isSome then .error .exists_ else .ok (f.make d name (.dir []))
  | .ok (_, some _) => .error .noEntry

/-- Makes one directory at `p`, giving the folder as it then is and the failure, if any, with
the path. -/
def mkdirAt (f : Folder) (p : RawPath) : Folder × Option (OsFault × RawPath) :=
  match f.mkdir p with
  | .ok f => (f, none)
  | .error e => (f, some (e, p))

/-- Makes a directory and the directories above it that are missing, the path given relative to
the folder; `fuel` bounds the depth. A directory above that exists already is no error, nor is a
last component `.` once the directories above exist; any other failure carries the path whose
directory could not be made. The directories made before a failure stay, so the folder as it
then is comes with the failure. -/
def makedirs (f : Folder) : Nat → RawPath → Folder × Option (OsFault × RawPath)
  | 0, name => (f, some (.noEntry, name))
  | fuel + 1, name =>
    let (head, tail) := RawPath.split name
    let (head, tail) := if tail.isEmpty then RawPath.split head else (head, tail)
    if !head.isEmpty && !tail.isEmpty && !f.existsAt head then
      match makedirs f fuel head with
      | (f, some (.exists_, _)) | (f, none) =>
        if tail = RawPath.dot then (f, none) else f.mkdirAt name
      | failed => failed
    else f.mkdirAt name

/-- Opens a path below the folder for writing and writes the data, following a link at the
end. -/
def writeFile (f : Folder) (p : RawPath) (data : ByteArray) : Except OsFault Folder :=
  if f.tooLong p then .error .nameTooLong else go maxLinks top p.components
where
  go : Nat → Place → List RawPath → Except OsFault Folder
    | n, start, cs =>
      match f.parentFrom start cs with
      | .error e => .error e
      | .ok (_, none) => .error .isDirectory
      | .ok (.inside d above, some name) =>
        match f.child? d name with
        | none => .ok (f.make d name (.file data))
        | some i =>
          match f.node? i with
          | some (.file _) => .ok (f.setNode i (.file data))
          | some (.dir _) => .error .isDirectory
          | some (.link t) =>
            match n with
            | 0 => .error .loop
            | n + 1 =>
              if t.isAbsolute then .error .noEntry else go n (.inside d above) t.components
          | none => .error .noEntry
      | .ok (_, some _) => .error .noEntry

/-- Makes a hard link at `p` to what `target` holds, both below the folder: a file or a symbolic
link, never a directory. The new name names the same node. -/
def hardLink (f : Folder) (target p : RawPath) : Except OsFault Folder :=
  match f.parentOf target with
  | .ok (.inside d _, some name) =>
    match f.child? d name with
    | none => .error .noEntry
    | some i =>
      match f.node? i with
      | some (.dir _) => .error .notPermitted
      | none => .error .noEntry
      | some _ =>
        match f.parentOf p with
        | .error e => .error e
        | .ok (.inside d _, some name) =>
          if (f.child? d name).isSome then .error .exists_ else .ok (f.enter d name i)
        | .ok (_, _) => .error .exists_
  | .ok (_, _) => .error .notPermitted
  | .error e => .error e

/-- Makes a symbolic link at a path below the folder, replacing whatever the path held; a link to
the empty path is refused as naming nothing, and a target too long for the system is refused. -/
def symlink (f : Folder) (p : RawPath) (target : RawPath) : Except OsFault Folder :=
  if target.isEmpty then .error .noEntry
  else if pathLimit ≤ target.length then .error .nameTooLong
  else
    match f.parentOf p with
    | .error e => .error e
    | .ok (_, none) => .error .exists_
    | .ok (.inside d _, some name) =>
      match f.child? d name >>= f.node? with
      | some (.dir _) => .error .isDirectory
      | _ => .ok (f.make d name (.link target))
    | .ok (_, some _) => .error .noEntry

/-- Makes a device at a path below the folder. Making devices is not permitted here, so this
always fails: a path that is taken, or whose directory cannot be reached, is refused for that
first. -/
def mknod (f : Folder) (p : RawPath) : Except OsFault Folder :=
  match f.parentOf p with
  | .error e => .error e
  | .ok (_, none) => .error .exists_
  | .ok (.inside d _, some name) =>
    .error (if (f.child? d name).isSome then .exists_ else .notPermitted)
  | .ok (_, some _) => .error .noEntry

/-- How many levels of entries lie below node `i`: none below a file or a link, and below a
directory one more than below the deepest of its entries; `fuel` levels are looked at, at
most. -/
def levelsBelow (f : Folder) : Nat → Nat → Nat
  | 0, _ => 0
  | fuel + 1, i =>
    match f.node? i with
    | some (.dir es) => es.foldl (fun m e => max m (f.levelsBelow fuel e.2 + 1)) 0
    | _ => 0

/-- How many levels deep the folder's entries go: an entry of the folder itself is one level
down. The directories form a tree, each below the one that names it, so there are no more levels
than nodes. -/
def depth (f : Folder) : Nat := f.levelsBelow f.nodes.size 0

end Folder

end Reckon.Archive
