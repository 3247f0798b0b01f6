import Reckon.Log.Calendar

set_option autoImplicit false

/-!
# Log lines

A log record becomes one header and its message, once its time is known:
`[time] [logger] LEVEL [file:line:Class:function] message`, where the class appears only for a
method and the file is the last part of the path after a slash. The five standard levels colour
the header with a terminal escape, which a reset closes before the message; any other level leaves
the header plain.
-/

namespace Reckon.Log

/-- A record to write. -/
structure Record where
  level : String
  logger : String
  pathname : String
  lineno : Int
  func : String
  owner : Option String
  msg : String
  created : Float
deriving Repr

def defaultLogger : String := "arithmetic_client_server"

/-- The escape that colours a level's header: cyan, green, yellow, red, and a red background for
the five standard levels. -/
def levelColor? : String → Option String
  | "DEBUG" => some "\x1b[36m"
  | "INFO" => some "\x1b[32m"
  | "WARNING" => some "\x1b[33m"
  | "ERROR" => some "\x1b[31m"
  | "CRITICAL" => some "\x1b[41m"
  | _ => none

def reset : String := "\x1b[0m"

def fileOf (path : String) : String :=
  String.ofList ((path.toList.reverse.takeWhile (· ≠ '/')).reverse)

namespace Record

def place (r : Record) : String :=
  let cls := match r.owner with
    | some c => if c.isEmpty then "" else c ++ ":"
    | none => ""
  fileOf r.pathname ++ ":" ++ toString r.lineno ++ ":" ++ cls ++ r.func

def line (r : Record) : Except TimeFault String := do
  let time ← (← Civil.ofMoment? r.created).text?
  let (before, after) := match levelColor? r.level with
    | some c => (c, reset)
    | none => ("", "")
  pure (before ++ "[" ++ time ++ "] [" ++ r.logger ++ "] " ++ r.level ++
    " [" ++ r.place ++ "]" ++ after ++ " " ++ r.msg)

end Record

example : fileOf "/srv/server/worker.src" = "worker.src" ∧ fileOf "C:\\x\\y.src" = "C:\\x\\y.src" ∧
    fileOf "" = "" := by
  decide

end Reckon.Log
