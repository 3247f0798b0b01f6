import Reckon.Expr.Evaluate
import Reckon.Decimal.Notation
import Reckon.Text.Utf8

set_option autoImplicit false

/-!
# Batches of expressions

A batch is a text with one expression per line. Its expressions are its lines without their
surrounding blanks, empty ones left out, numbered from one. Each is evaluated on its own, and the
report has one line per expression, in order: the expression, then ` = ` and its value, or
` -> ERROR: ` and the error's text.

A batch arrives as bytes, which must be UTF-8.
-/

namespace Reckon

/-- One expression to evaluate, with its line number. -/
structure Job where
  line : Nat
  expression : String
deriving DecidableEq, Repr

/-- What an expression came to. -/
structure Outcome where
  line : Nat
  expression : String
  result : Except EvalError Float

namespace Job

def blankMessage : String := "Expression cannot be empty"

def lineMessage : String := "Input should be greater than or equal to 1"

/-- The job, unless its expression is blank or its line number is below one. The expression is
checked first, as its field comes first. -/
def check (j : Job) : Except String Job :=
  if (Text.trim j.expression).isEmpty then .error blankMessage
  else if j.line < 1 then .error lineMessage
  else .ok j

/-- Evaluates the job's expression. -/
def run (j : Job) : Outcome := ⟨j.line, j.expression, evaluate j.expression⟩

end Job

namespace Outcome

def errorText? (o : Outcome) : Option String :=
  match o.result with
  | .ok _ => none
  | .error e => some (e.message o.expression)

def reportLine (o : Outcome) : String :=
  match o.result with
  | .ok x => o.expression ++ " = " ++ numberText x ++ "\n"
  | .error e => o.expression ++ " -> ERROR: " ++ e.message o.expression ++ "\n"

end Outcome

namespace Batch

/-- The expressions of a text: its lines without surrounding blanks, empty ones left out. -/
def expressions (text : String) : List String :=
  (Text.lines text).map Text.trim |>.filter (fun l => !l.isEmpty)

/-- The jobs of a text, numbered from one. -/
def jobs (text : String) : List Job :=
  (expressions text).zipIdx.map (fun (e, i) => ⟨i + 1, e⟩)

/-- The outcomes of a text's expressions, in order. -/
def run (text : String) : List Outcome := (jobs text).map Job.run

/-- The report of a list of outcomes: their lines, in order. -/
def report (os : List Outcome) : String := String.join (os.map Outcome.reportLine)

/-- The text of a batch that arrives as bytes. -/
def receive (bytes : ByteArray) : Except Text.Utf8Error String := Text.decodeUtf8 bytes

end Batch

end Reckon
