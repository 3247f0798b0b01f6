import Reckon.Batch
import Reckon.Input
import Reckon.Path.Results
import Reckon.Cli.Args

set_option autoImplicit false

/-!
# Sessions between a client and the server

In a session the client reads its input file and sends the text. The server reads the bytes as
UTF-8, evaluates each expression and writes the report to its file, then sends the report back.
The client reads the reply in pieces of 4096 bytes and decodes each piece on its own, so a
character that a piece boundary splits is a fault; what it decodes goes to its own file.

Workers finish in no fixed order, so the server writes the lines of its report in no fixed order
either: files are compared by their lines, sorted.

A command-line run names the input file; the results go to the file that `resultsName` names,
beside the input, which both ends of the session write with the same text.
-/

namespace Reckon
open Archive

/-- Why a session ends without results. -/
inductive SessionFault where
  | input (e : InputFault)
  | reply (e : Text.Utf8Error)

def SessionFault.message : SessionFault → String
  | .input e => e.message
  | .reply e => e.message

/-- The two files a session leaves: the client's copy of the reply, and the server's report. -/
structure Session where
  received : String
  report : String

namespace Session

def pieceSize : Nat := 4096

def pieces (n : Nat) (b : ByteArray) : List ByteArray :=
  (List.range ((b.size + n - 1) / n)).map fun k => b.extract (k * n) (k * n + n)

/-- The text of a reply that arrives in pieces, each piece decoded on its own: the first piece
that is not UTF-8 by itself is the fault. -/
def decodeEach : List ByteArray → Except Text.Utf8Error String
  | [] => .ok ""
  | p :: ps => do
    let s ← Text.decodeUtf8 p
    let rest ← decodeEach ps
    pure (s ++ rest)

/-- The text the client makes of the reply's bytes. -/
def receive (b : ByteArray) : Except Text.Utf8Error String := decodeEach (pieces pieceSize b)

/-- The server's report on bytes that a client sends, which must be UTF-8. -/
def serve (bytes : ByteArray) : Except Text.Utf8Error String :=
  (Batch.receive bytes).map fun text => Batch.report (Batch.run text)

/-- Runs a session for the input file `name`, extracting archives in `s`. -/
def run (s : Scratch) (name : String) (bytes : ByteArray) (host : Host := Host.bare)
    (lib : SevenZip := SevenZip.missing) : Except SessionFault Session := do
  let text ← (Input.text s name bytes host lib).mapError .input
  let report := Batch.report (Batch.run text)
  let received ← (receive report.toUTF8).mapError .reply
  pure ⟨received, report⟩

/-- The results file of a command-line run on the input file `name`: its name and its text. -/
def results (s : Scratch) (name : String) (bytes : ByteArray) (host : Host := Host.bare)
    (lib : SevenZip := SevenZip.missing) : Except SessionFault (String × String) :=
  (run s name bytes host lib).map fun session =>
    (FileName.resultsName (PosixPath.parse name).name, session.received)

end Session

def sortedLines (text : String) : List String :=
  (Text.lines text).mergeSort fun a b => decide (a ≤ b)

/-- How a command-line run ends: with its results file, or by leaving early with an exit code
and what it printed. -/
inductive RunOutcome where
  | results (name text : String)
  | exit (code : Nat) (stdout stderr : String)

def runCommand (s : Scratch) (args : List String) (name : String) (bytes : ByteArray) :
    Except SessionFault RunOutcome :=
  match Cli.request args with
  | .help => .ok (.exit 0 Cli.helpText "")
  | .usageError m => .ok (.exit 2 "" (Cli.errorText m))
  | .run _ => (Session.results s name bytes).map fun (n, t) => .results n t

end Reckon
