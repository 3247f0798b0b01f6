import Reckon.Session

set_option autoImplicit false

/-!
# The command line

`arithmetic_client_server FILE` evaluates the expressions of an input file, a text file or an
archive holding one, and writes the report beside it, to the file that `resultsName` names. `-h`
prints the help; arguments that do not fit print the usage and an error, with exit code 2. An input
that gives no text is reported with exit code 1.

This is the only module that does input and output.
-/

open Reckon

def extractionFolder : Archive.Scratch := ⟨"/tmp/reckon-extract", "/tmp", [], 19, 991⟩

def runOn (path : String) : IO UInt32 := do
  let bytes ← IO.FS.readBinFile path
  match Session.results extractionFolder path bytes, (PosixPath.parse path).resultsPath with
  | .ok (_, text), .ok out =>
    IO.FS.writeFile out.toText text
    pure 0
  | .error e, _ =>
    IO.eprintln e.message
    pure 1
  | _, .error p =>
    IO.eprintln p.emptyNameMessage
    pure 1

def main (args : List String) : IO UInt32 := do
  match Cli.request args with
  | .help =>
    IO.print Cli.helpText
    pure 0
  | .usageError m =>
    IO.eprint (Cli.errorText m)
    pure 2
  | .run path =>
    try runOn path
    catch e =>
      IO.eprint (Cli.errorText (toString e))
      pure 2
