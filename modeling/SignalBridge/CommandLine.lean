import SignalBridge.Settings

/-!
The command line. An option is written `--name`, or `-n` with a letter; letters may share one dash. The
value of an option stands in the next argument, after an equals sign, or directly after the letter. Every
option is given at most once, except the one for more messages.
-/

namespace SignalBridge.CommandLine

/-- Options that take a value: the settings file, and the choices that win over it. -/
inductive Setting
  | config
  | database
  | mapping
  | updates
  | interface
  | output
deriving DecidableEq, Repr

/-- Options that take no value. -/
inductive Flag
  | verbose
  | quiet
  | help
  | version
deriving DecidableEq, Repr

inductive Switch
  | setting (s : Setting)
  | flag (f : Flag)
deriving DecidableEq, Repr

/-- The options with their names and letters. -/
def switches : List (String × Option Char × Switch) :=
  [ ("config", some 'c', .setting .config),
    ("dbc", none, .setting .database),
    ("mapping", some 'm', .setting .mapping),
    ("updates", some 'u', .setting .updates),
    ("interface", some 'i', .setting .interface),
    ("output", some 'o', .setting .output),
    ("verbose", some 'v', .flag .verbose),
    ("quiet", some 'q', .flag .quiet),
    ("help", some 'h', .flag .help),
    ("version", some 'V', .flag .version) ]

def ofName? (name : List Char) : Option Switch :=
  (switches.find? fun (n, _, _) => n.toList = name).map (·.2.2)

def ofLetter? (letter : Char) : Option Switch :=
  (switches.find? fun (_, l, _) => l = some letter).map (·.2.2)

/-! ### Words -/

/-- What arguments are made of: options with the value that is attached to them, other text, the end of
the options, and options that there are not. -/
inductive Word
  | option (s : Switch) (attached : Option String)
  | text (s : String)
  | endOfOptions
  | unknown
deriving DecidableEq, Repr

/-- The words of letters that share a dash. An option with a value takes all that follows its letter. -/
def letterWords : List Char → List Word
  | [] => []
  | c :: cs =>
    match ofLetter? c with
    | none => [.unknown]
    | some (.flag f) => .option (.flag f) none :: letterWords cs
    | some (.setting s) =>
      let attached :=
        match cs with
        | [] => none
        | '=' :: value => some (String.ofList value)
        | value => some (String.ofList value)
      [.option (.setting s) attached]

/-- The word of an option that is written with its name, after the dashes. -/
def nameWord (s : List Char) : Word :=
  match ofName? (s.takeWhile (· != '=')), s.dropWhile (· != '=') with
  | none, _ => .unknown
  | some switch, [] => .option switch none
  | some switch, _ :: value => .option switch (some (String.ofList value))

/-- The words of an argument. A dash alone is no option. -/
def words (argument : String) : List Word :=
  match argument.toList with
  | ['-', '-'] => [.endOfOptions]
  | '-' :: '-' :: s => [nameWord s]
  | '-' :: c :: s => letterWords (c :: s)
  | _ => [.text argument]

/-! ### Requests -/

/-- What has been asked for a run. -/
structure Arguments where
  config : Option String
  choices : Choices
  quiet : Bool
deriving DecidableEq, Repr

namespace Arguments

def empty : Arguments :=
  { config := none, choices := .empty, quiet := false }

/-- The value of an option. -/
def value? (a : Arguments) : Setting → Option String
  | .config => a.config
  | .database => a.choices.database
  | .mapping => a.choices.mapping
  | .updates => a.choices.updates
  | .interface => a.choices.interface
  | .output => a.choices.output

def withValue (a : Arguments) (value : String) : Setting → Arguments
  | .config => { a with config := some value }
  | .database => { a with choices := { a.choices with database := some value } }
  | .mapping => { a with choices := { a.choices with mapping := some value } }
  | .updates => { a with choices := { a.choices with updates := some value } }
  | .interface => { a with choices := { a.choices with interface := some value } }
  | .output => { a with choices := { a.choices with output := some value } }

/-- Gives an option its value, once. The name of a file must not be empty. -/
def set? (a : Arguments) (s : Setting) (value : String) : Option Arguments :=
  if (a.value? s).isSome then none
  else if value = "" ∧ s ≠ .interface then none
  else some (a.withValue value s)

end Arguments

/-- What a command line asks for. -/
inductive Request
  | run (a : Arguments)
  | help
  | version
deriving DecidableEq, Repr

/-- Reads words, after some arguments. Help and version are given as soon as they are met. There is no
place for text that is not the value of an option. -/
def request? (a : Arguments) : List Word → Option Request
  | [] | [.endOfOptions] => some (.run a)
  | .option (.setting s) (some value) :: ws => do request? (← a.set? s value) ws
  | .option (.setting s) none :: .text value :: ws => do request? (← a.set? s value) ws
  | .option (.flag .verbose) none :: ws => request? a ws
  | .option (.flag .quiet) none :: ws => if a.quiet then none else request? { a with quiet := true } ws
  | .option (.flag .help) none :: _ => some .help
  | .option (.flag .version) none :: _ => some .version
  | _ => none

/-- What a command line asks for, if it is well formed. -/
def parse? (arguments : List String) : Option Request :=
  request? .empty (arguments.flatMap words)

end SignalBridge.CommandLine
