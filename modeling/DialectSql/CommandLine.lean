import DialectSql.Document.Printer
import DialectSql.Document.Reader
import DialectSql.Document.Statement
import DialectSql.Rendering

/-!
# Command line

The command renders one stored statement for one dialect. It takes the dialect from its arguments or
else from the environment, a configuration from a file if one is named, and the statement from a
file or else from its standard input.

## Main definitions

* `Arguments`, `Arguments.parse` — the arguments by name
* `Request`, `Request.ofArguments` — what is asked for
* `Outcome`, `Request.execute` — the exit code and the texts that the command writes
-/

namespace DialectSql

/-- The options that take a value. -/
inductive ValueOption
  | dialect | config
  deriving DecidableEq

/-- The options that take none. -/
inductive FlagOption
  | inline | json | verbose
  deriving DecidableEq

/-- An option. -/
inductive CommandOption
  | value (option : ValueOption)
  | flag (option : FlagOption)

/-- The option of a long name. -/
def CommandOption.ofLong? : String → Option CommandOption
  | "dialect" => some (.value .dialect)
  | "config" => some (.value .config)
  | "inline" => some (.flag .inline)
  | "json" => some (.flag .json)
  | "verbose" => some (.flag .verbose)
  | _ => none

/-- The option of a letter. -/
def CommandOption.ofLetter? : Char → Option CommandOption
  | 'd' => some (.value .dialect)
  | 'c' => some (.value .config)
  | 'v' => some (.flag .verbose)
  | _ => none

/-- The arguments by name, as far as they were read. -/
structure Arguments where
  /-- The values of options, last first. -/
  values : List (ValueOption × String)
  /-- The options without a value, last first. -/
  flags : List FlagOption
  /-- The statement file. -/
  input : Option String
  /-- The option whose value comes next. -/
  pending : Option ValueOption
  /-- Whether no more options come. -/
  optionsEnded : Bool

namespace Arguments

/-- No arguments. -/
def empty : Arguments := ⟨[], [], none, none, false⟩

/-- The value given for an option. -/
def value? (a : Arguments) (option : ValueOption) : Option String :=
  a.values.lookup option

/-- The arguments with a value for an option, which must be given once. -/
def setValue (a : Arguments) (option : ValueOption) (text : String) : Option Arguments :=
  if (a.value? option).isSome then none
  else some { a with values := (option, text) :: a.values, pending := none }

/-- The arguments with an option that must be given once. -/
def setFlag (a : Arguments) (option : FlagOption) : Option Arguments :=
  if option ∈ a.flags then none else some { a with flags := option :: a.flags }

/-- The arguments with the statement file, which must be given once and not be empty. -/
def setInput (a : Arguments) (text : String) : Option Arguments :=
  if a.input.isSome || text.isEmpty then none else some { a with input := some text }

/-- Options by their letters; what follows the letter of an option with a value is that value. -/
def readLetters (a : Arguments) : List Char → Option Arguments
  | [] => some a
  | letter :: rest => do
    match ← CommandOption.ofLetter? letter with
    | .flag option => readLetters (← a.setFlag option) rest
    | .value option =>
      match rest with
      -- Nothing is left of this argument, so the value is the next one.
      | [] => return { a with pending := some option }
      | '=' :: rest => a.setValue option (String.ofList rest)
      | rest => a.setValue option (String.ofList rest)

/-- An option by its name; what follows an equals sign is its value. -/
def readLong (a : Arguments) (chars : List Char) : Option Arguments := do
  let name := String.ofList (chars.takeWhile (· != '='))
  match ← CommandOption.ofLong? name, chars.dropWhile (· != '=') with
  | .flag option, [] => a.setFlag option
  | .flag _, _ => none
  | .value option, [] => return { a with pending := some option }
  | .value option, _ :: rest => a.setValue option (String.ofList rest)

/-- The next argument. -/
def step (a : Arguments) (argument : String) : Option Arguments :=
  match a.pending, a.optionsEnded, argument.toList with
  | some option, _, chars =>
    -- A value must not look like an option; a single dash does not.
    if chars.head? == some '-' && chars != ['-'] then none else a.setValue option argument
  | none, true, _ => a.setInput argument
  | none, false, ['-'] => a.setInput argument
  | none, false, ['-', '-'] => some { a with optionsEnded := true }
  | none, false, '-' :: '-' :: rest => a.readLong rest
  | none, false, '-' :: rest => a.readLetters rest
  | none, false, _ => a.setInput argument

/-- The arguments of a command, if they fit together. -/
def parse (arguments : List String) : Option Arguments := do
  let a ← arguments.foldlM step empty
  if a.pending.isSome then none else some a

end Arguments

/-- What is asked for. -/
structure Request where
  /-- The dialect. -/
  dialect : Dialect
  /-- The file of the configuration. -/
  configPath : Option String
  /-- The file of the statement; the standard input if there is none. -/
  statementPath : Option String
  /-- How constants reach the statement. -/
  mode : Mode
  /-- Whether a document is written instead of lines. -/
  asDocument : Bool

/-- The request of a list of arguments and the dialect that the environment names; nothing if they
are no proper request. -/
def Request.ofArguments (arguments : List String) (environment : Option String) :
    Option Request := do
  let a ← Arguments.parse arguments
  let dialect ← Dialect.ofText? (← (a.value? .dialect).or environment)
  let configPath := a.value? .config
  if configPath == some "" then none
  else
    return {
      dialect
      configPath
      statementPath := a.input
      mode := if .inline ∈ a.flags then .inline else .bound
      asDocument := decide (.json ∈ a.flags) }

/-- The exit code and the texts that a command writes. -/
structure Outcome where
  /-- The exit code. -/
  exitCode : UInt8
  /-- What goes to the standard output. -/
  output : String
  /-- What goes to the standard error. -/
  complaint : String

/-- The outcome of arguments that are no proper request. -/
def Outcome.misuse : Outcome :=
  ⟨2, "", "usage: --dialect <name> [--config <file>] [--inline] [--json] [--verbose] [<file>]\n"⟩

/-- The outcome of a request that failed. -/
def Outcome.failed (message : String) : Outcome :=
  ⟨1, "", "Error: " ++ message ++ "\n"⟩

/-- A rendered statement in lines: the text, then the parameters. -/
def reportLines (sql : String) (parameters : List Parameter) : String :=
  sql ++ "\n" ++ String.join (parameters.map fun p => p.name ++ " = " ++ p.value.report ++ "\n")

/-- A rendered statement as a document. -/
def reportDocument (d : Dialect) (sql : String) (parameters : List Parameter) : String :=
  (Json.record [.of "dialect" (.named d), .of "sql" (.string sql),
    .of "parameters" (.array (parameters.map Parameter.encode))]).indented ++ "\n"

/-- A statement and its parameters for a request; a statement with literals has none. -/
def Request.render (r : Request) (config : Config) (statement : Statement) :
    Except Error (String × List Parameter) :=
  match r.mode with
  | .inline => (renderInline statement r.dialect config).map (·, [])
  | .bound => (renderBound statement r.dialect config .blank ()).map fun r => (r.sql, r.parameters)

/-- The configuration of a document that can be used. -/
def Config.load? (text : String) : Option Config := do
  let config ← (Config.decode (← Json.ofText? text)).toOption
  if config.validate.toBool then some config else none

/-- The statement of a document. -/
def Statement.load? (text : String) : Option Statement := do
  (Statement.decode (← Json.ofText? text)).toOption

/-- The configuration of a request, from the text of its file if it could be read. -/
def Request.loadConfig (r : Request) (text : Option String) : Except String Config :=
  match r.configPath, text with
  | none, _ => .ok .standard
  | some path, none => .error ("Failed to read config " ++ path)
  | some path, some text =>
    match Config.load? text with
    | some config => .ok config
    | none => .error ("Invalid config " ++ path)

/-- The statement of a request, from its text if that could be read. -/
def Request.loadStatement (r : Request) (text : Option String) : Except String Statement :=
  match text with
  | none => .error ("Failed to read statement " ++ r.statementPath.getD "from stdin")
  | some text =>
    match Statement.load? text with
    | some statement => .ok statement
    | none => .error "Invalid statement document"

/-- What a request writes, from the texts of its files as far as they could be read. -/
def Request.answer (r : Request) (configText statementText : Option String) :
    Except String String := do
  let config ← r.loadConfig configText
  let statement ← r.loadStatement statementText
  match r.render config statement with
  | .error e => throw e.message
  | .ok (sql, parameters) =>
    return if r.asDocument then reportDocument r.dialect sql parameters
      else reportLines sql parameters

/-- The outcome of a request, from the texts of its files as far as they could be read. -/
def Request.execute (r : Request) (configText statementText : Option String) : Outcome :=
  match r.answer configText statementText with
  | .ok output => ⟨0, output, ""⟩
  | .error message => .failed message

end DialectSql
