import Reckon.Text.Quoted
import Reckon.Text.DecimalDigit

set_option autoImplicit false

/-!
# The command line

The command takes one input path and a help option, `-h` or `--help`. Each word of the command
line is read on its own: after a first `--` every word is plain; otherwise a word that starts with
a dash is the help option when it spells it, a unique prefix of `--help`, `-h=` with a value, or
`-h` glued to more letters; a dash alone, a negative number or a word with a space is plain; any
other dashed word is an unknown option.

The help option wins as soon as it is reached, unless a value is attached to it. The value of
`-h`, glued to it or after `=`, is read letter by letter: each `h` is the option again, and any
other letter is an error that names the value from that letter on. An empty value, or any value of
`--help`, is an error. Without the help option the first plain word, with a `--` before or after
it, is the path, and any word left over is an error; a missing path is reported first.
-/

namespace Reckon.Cli

inductive Word where
  | plain (s : String)
  | separator
  | help (long : Bool) (attached : Option String)
  | unknown (s : String)
deriving DecidableEq, Repr

inductive Request where
  | run (path : String)
  | help
  | usageError (message : String)
deriving DecidableEq, Repr

def prog : String := "arithmetic_client_server"

def usage : String := "usage: " ++ prog ++ " [-h] file_path\n"

def helpText : String :=
  usage ++ "\nArithmetic client/server command\n\npositional arguments:\n" ++
    "  file_path   Path to the file containing arithmetic operations\n\noptions:\n" ++
    "  -h, --help  show this help message and exit\n"

def errorText (message : String) : String :=
  usage ++ prog ++ ": error: " ++ message ++ "\n"

/-- Whether a word is a negative number: a dash, then digits, or digits around a point with at
least one after it; a final line feed is allowed. -/
def isNegativeNumber (cs : List Char) : Bool :=
  let isDigit (c : Char) : Bool := (Text.decimalValue? c).isSome
  let body := if cs.getLast? = some '\n' then cs.dropLast else cs
  match body with
  | '-' :: rest =>
    let whole := rest.takeWhile isDigit
    match rest.dropWhile isDigit with
    | [] => !whole.isEmpty
    | '.' :: frac => !frac.isEmpty && frac.all isDigit
    | _ => false
  | _ => false

def readWord (a : String) : Word :=
  let cs := a.toList
  match cs with
  | '-' :: tail =>
    if a = "-h" then .help false none
    else if a = "--help" then .help true none
    else if tail.isEmpty then .plain a
    else
      let pre := cs.takeWhile (· ≠ '=')
      let post := cs.dropWhile (· ≠ '=')
      let value := String.ofList (post.drop 1)
      if !post.isEmpty && pre = ['-', 'h'] then .help false (some value)
      else if !post.isEmpty && pre = "--help".toList then .help true (some value)
      else if tail.head? = some '-' && pre.isPrefixOf "--help".toList then
        .help true (if post.isEmpty then none else some value)
      else if tail.head? = some 'h' then .help false (some (String.ofList (cs.drop 2)))
      else if isNegativeNumber cs then .plain a
      else if cs.contains ' ' then .plain a
      else .unknown a
  | _ => .plain a

def readWords : List String → List Word
  | [] => []
  | a :: rest => if a = "--" then .separator :: rest.map .plain else readWord a :: readWords rest

def ignoredMessage (value : String) : String :=
  "argument -h/--help: ignored explicit argument " ++ Text.quote value

/-- What the help option asks for with the value attached to it, if any: a value of the short
option that is all `h` is the option repeated; otherwise the value from its first other letter
is ignored, which is an error. -/
def helpRequest (long : Bool) : Option String → Request
  | none => .help
  | some value =>
    let rest := value.toList.dropWhile (· = 'h')
    if long || value.isEmpty then .usageError (ignoredMessage value)
    else if rest.isEmpty then .help
    else .usageError (ignoredMessage (String.ofList rest))

def firstHelp? : List Word → Option Request
  | [] => none
  | .help long attached :: _ => some (helpRequest long attached)
  | _ :: rest => firstHelp? rest

/-- The text a word was read from. -/
def Word.text : Word → String
  | .plain s => s
  | .separator => "--"
  | .help long _ => if long then "--help" else "-h"
  | .unknown s => s

def Word.isOption : Word → Bool
  | .help _ _ | .unknown _ => true
  | .plain _ | .separator => false

def takePath : List Word → Option (String × List Word)
  | .separator :: .plain v :: rest => some (v, rest)
  | .plain v :: .separator :: rest => some (v, rest)
  | .plain v :: rest => some (v, rest)
  | _ => none

theorem length_lt_of_takePath {ws after : List Word} {v : String}
    (h : takePath ws = some (v, after)) : after.length < ws.length := by
  unfold takePath at h
  split at h <;> simp only [Option.some.injEq, Prod.mk.injEq, reduceCtorEq] at h <;>
    obtain ⟨rfl, rfl⟩ := h <;> simp only [List.length_cons] <;> omega

/-- Reads words without a help option: the path, if one is taken, and the words left over.
`pending` tells whether the path is still to be taken. -/
def scan (pending : Bool) (ws : List Word) : Option String × List String :=
  match ws with
  | [] => (none, [])
  | w :: rest =>
    if w.isOption then
      let (p, extra) := scan pending rest
      (p, w.text :: extra)
    else
      match pending, _h : takePath (w :: rest) with
      | true, some (v, after) => (some v, (scan false after).2)
      | _, _ =>
        let (p, extra) := scan pending (rest.dropWhile (!·.isOption))
        (p, (w :: rest.takeWhile (!·.isOption)).map Word.text ++ extra)
termination_by ws.length
decreasing_by
  · simp
  · exact length_lt_of_takePath _h
  · have h := congrArg List.length (List.takeWhile_append_dropWhile (p := (!·.isOption)) (l := rest))
    rw [List.length_append] at h
    simp only [List.length_cons]
    omega

def request (args : List String) : Request :=
  let ws := readWords args
  match firstHelp? ws with
  | some r => r
  | none =>
    match scan true ws with
    | (none, _) => .usageError "the following arguments are required: file_path"
    | (some p, []) => .run p
    | (some _, extra) => .usageError ("unrecognized arguments: " ++ " ".intercalate extra)

example : request ["a.txt"] = .run "a.txt" ∧ request ["--", "-x.txt"] = .run "-x.txt" ∧
    request ["a.txt", "-h"] = .help ∧ request ["--bogus"] =
      .usageError "the following arguments are required: file_path" ∧
    request ["a", "b"] = .usageError "unrecognized arguments: b" := by
  decide +kernel

example : request ["-hx"] = .usageError (ignoredMessage "x") ∧
    request ["-h=x"] = .usageError (ignoredMessage "x") ∧ request ["-h=hh"] = .help ∧
    request ["-hh="] = .usageError (ignoredMessage "=") ∧ request ["--he"] = .help ∧
    request ["-1"] = .run "-1" := by
  decide +kernel

end Reckon.Cli
