import DialectSql.Rendering

/-!
# Contexts

A context writes a statement step by step: values, identifiers and whole nodes, at any depth of
subqueries. Parameters are numbered through all steps, those of a step that failed included.

## Main definitions

* `Context` — where writing stands
* `Context.value`, `Context.render` — steps
* `Context.enter`, `Context.leave`, `Context.nested` — steps inside one subquery more
-/

namespace DialectSql

/-- Where the writing of a statement stands. -/
structure Context where
  /-- The dialect, the configuration, the mode and the depth. -/
  setting : Setting
  /-- The parameters bound so far. -/
  parameters : List Parameter

namespace Context

/-- A context in which nothing was written. -/
def start (dialect : Dialect) (config : Config) (mode : Mode) : Context :=
  ⟨.outermost dialect config mode, []⟩

/-- Whether constants are bound to placeholders. -/
def isBound (c : Context) : Bool := c.setting.mode = .bound

/-- Whether a subquery is being written. -/
def isNested (c : Context) : Bool := 0 < c.setting.depth

/-- An identifier of an expression or a source. -/
def identifier (c : Context) (name : String) : String :=
  c.setting.dialect.quoteIdentifier name

/-- An identifier at the head of a change or of an assignment. -/
def changeIdentifier (c : Context) (name : String) : String :=
  c.setting.dialect.quoteChangeIdentifier name

/-- The text of a draft, and the context with the parameters of its constants. -/
def place (c : Context) (draft : Draft) : String × Context :=
  let d := c.setting.dialect
  let base := c.setting.config.parameterBase
  let index := c.parameters.length
  match c.setting.mode with
  | .inline => (draft.literalText d, c)
  | .bound =>
    (draft.placeholderText d base index,
      { c with parameters := c.parameters ++
          (parametersFrom .blank d base index draft.constants ()).1 })

/-- A constant. -/
def value (c : Context) (v : Value) : String × Context :=
  c.place (.constant v)

/-- The outcome of a step that writes a draft. -/
def write (c : Context) (draft : Draft) : Except Error String × Context :=
  let (text, c) := c.place draft
  match draft.failure with
  | some e => (.error e, c)
  | none => (.ok text, c)

/-- A node. -/
def render {α : Type} [Drafted α] (c : Context) (node : α) : Except Error String × Context :=
  c.write (Drafted.draft node c.setting)

/-- A context at the beginning of one subquery more. -/
def enter (c : Context) : Context := { c with setting := c.setting.nested }

/-- A context at the end of the innermost subquery. -/
def leave (c : Context) : Context := { c with setting := c.setting.enclosing }

/-- Steps inside one subquery more. It is left again however the steps came out. -/
def nested {α : Type} (c : Context) (steps : Context → α × Context) : α × Context :=
  let (a, inner) := steps c.enter
  (a, inner.leave)

/-- The column and the value of an assignment, for the two lists of an INSERT. -/
def columnAndValue (c : Context) (a : Assignment) :
    Except Error (String × String) × Context :=
  let (column, value) := a.pair c.setting
  let (columnText, c) := c.place column
  let (valueText, c) := c.write value
  (valueText.map (columnText, ·), c)

end Context

end DialectSql
