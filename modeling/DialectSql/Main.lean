import DialectSql.CommandLine

/-!
# The command

Reads the arguments, the environment and the files of a request, and writes its outcome.
-/

namespace DialectSql

/-- The text of a file, if it can be read. -/
def readText? (path : String) : IO (Option String) := do
  try
    return some (← IO.FS.readFile path)
  catch _ =>
    return none

/-- The whole standard input, if it is text. -/
def readInput? : IO (Option String) := do
  try
    return some (← (← IO.getStdin).readToEnd)
  catch _ =>
    return none

/-- The environment variable that names the dialect where the arguments do not. -/
def dialectVariable : String := "DIALECTSQL_DIALECT"

/-- The outcome of the arguments of a command. -/
def outcomeOf (arguments : List String) : IO Outcome := do
  match Request.ofArguments arguments (← IO.getEnv dialectVariable) with
  | none => return .misuse
  | some request =>
    let config ← match request.configPath with
      | some path => readText? path
      | none => pure none
    let statement ← match request.statementPath with
      | some path => readText? path
      | none => readInput?
    return request.execute config statement

end DialectSql

/-- Runs the command. -/
def main (arguments : List String) : IO UInt32 := do
  let outcome ← DialectSql.outcomeOf arguments
  (← IO.getStdout).putStr outcome.output
  (← IO.getStderr).putStr outcome.complaint
  return outcome.exitCode.toUInt32
