import SignalBridge.Text.Quoted
import SignalBridge.Toml.Grammar

/-!
Settings of a run. They are chosen on the command line and in a settings file, and the command line
wins. A database and a mapping have to be chosen; updates come from standard input and frames go to
standard output unless files are chosen for them.
-/

namespace SignalBridge

/-- What one place chooses. -/
structure Choices where
  database : Option String
  mapping : Option String
  updates : Option String
  interface : Option String
  output : Option String
deriving DecidableEq, Repr

/-- What a run needs to know. -/
structure Settings where
  database : String
  mapping : String
  updates : Option String
  interface : String
  output : Option String
deriving DecidableEq, Repr

/-- Why there are no settings. -/
inductive SettingsFault
  | unreadable (path : String)
  | malformed (path : String)
  | noDatabase
  | noMapping
deriving DecidableEq, Repr

namespace SettingsFault

def message : SettingsFault → String
  | unreadable path => "Failed to read config file: " ++ Text.quote path
  | malformed path => "Failed to parse config file: " ++ Text.quote path
  | noDatabase => "No DBC file given (use --dbc or input.dbc_file)"
  | noMapping => "No mapping file given (use --mapping or input.mapping_file)"

end SettingsFault

namespace Choices

def empty : Choices :=
  { database := none, mapping := none, updates := none, interface := none, output := none }

/-- The choices of two places, where the first wins. -/
def orElse (first second : Choices) : Choices :=
  { database := first.database <|> second.database
    mapping := first.mapping <|> second.mapping
    updates := first.updates <|> second.updates
    interface := first.interface <|> second.interface
    output := first.output <|> second.output }

/-- The interface that is named in the log unless another one is chosen. -/
def stockInterface : String := "vcan0"

/-- The settings that choices make. -/
def resolve (c : Choices) : Except SettingsFault Settings := do
  let some database := c.database | throw .noDatabase
  let some mapping := c.mapping | throw .noMapping
  return {
    database, mapping, updates := c.updates
    interface := c.interface.getD stockInterface, output := c.output }

/-! ### Settings files -/

/-- The text of a value. -/
def textOf? : Toml.Value → Option String
  | .string s => some s
  | _ => none

/-- The text of a member that may be missing, but must be text. -/
def member? (members : Toml.Table) (name : String) : Option (Option String) :=
  match members.lookup name with
  | none => some none
  | some v => (textOf? v).map some

/-- The choices of the section `input`. Instead of a table it may be an array with the three files in
order. A date makes no choice. -/
def addInput? (c : Choices) : Toml.Value → Option Choices
  | .table members => do
    return { c with
      database := ← member? members "dbc_file"
      mapping := ← member? members "mapping_file"
      updates := ← member? members "updates" }
  | .array (database :: mapping :: updates :: _) => do
    return { c with
      database := some (← textOf? database)
      mapping := some (← textOf? mapping)
      updates := some (← textOf? updates) }
  | .time => some c
  | _ => none

/-- The choices of the section `output`, which may be an array in the same way. -/
def addOutput? (c : Choices) : Toml.Value → Option Choices
  | .table members => do
    return { c with interface := ← member? members "interface", output := ← member? members "file" }
  | .array (interface :: output :: _) => do
    return { c with interface := some (← textOf? interface), output := some (← textOf? output) }
  | .time => some c
  | _ => none

/-- The choices of a settings file. Other sections and members may be anything. -/
def ofToml? (document : Toml.Table) : Option Choices := do
  let c ← match document.lookup "input" with
    | none => some empty
    | some v => addInput? empty v
  match document.lookup "output" with
    | none => some c
    | some v => addOutput? c v

/-- The choices of a settings file that has the given bytes if it is there. -/
def ofFile (path : String) (content : Option ByteArray) : Except SettingsFault Choices :=
  match content.bind String.fromUTF8? with
  | none => .error (.unreadable path)
  | some text =>
    match (Toml.parse? text.toList).bind ofToml? with
    | none => .error (.malformed path)
    | some c => .ok c

end Choices
end SignalBridge
