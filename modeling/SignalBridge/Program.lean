import SignalBridge.CommandLine
import SignalBridge.Provider

/-!
The program. It reads its settings, its database and its mapping, opens the log and then the updates, and
sends the frames of each batch as it arrives. All it does to the machine goes through a host.
-/

namespace SignalBridge

/-- What the program needs of the machine that it runs on. -/
structure Host (m : Type → Type) where
  /-- The bytes of a file, if it can be read. -/
  read : String → m (Option ByteArray)
  /-- Opens the log, a file that is emptied or standard output. The result writes to it. -/
  openLog : Option String → m (Option (String → m Unit))
  /-- Hands out the lines of the updates, a file or standard input, until one is the last to be taken;
  nothing if the file cannot be opened. -/
  forLines : {σ : Type} → Option String → σ → (σ → List UInt8 → m (ForInStep σ)) → m (Option σ)
  now : m Moment
  /-- Writes to standard output. -/
  print : String → m Unit
  /-- Writes to standard error. -/
  report : String → m Unit

namespace Program

/-- Why a run fails. -/
inductive RunFault
  | settings (f : SettingsFault)
  | database (path : String) (f : Fault)
  | mapping (path : String) (f : Fault)
  | log (path : String)
  | updates (path : String)

namespace RunFault

def message : RunFault → String
  | settings f => f.message
  | database path f => "Failed to load DBC: " ++ Text.quote path ++ ": " ++ f.message
  | mapping path f => "Failed to load mapping: " ++ Text.quote path ++ ": " ++ f.message
  | log path => "Failed to create frame log: " ++ Text.quote path
  | updates path => Replay.openFault path

end RunFault

/-- The provider of two files that have the given bytes if they are there. -/
def provider (s : Settings) (database mapping : Option ByteArray) : Except RunFault Provider := do
  let database ← (Database.empty.loadFile s.database database).mapError (.database s.database)
  let table ← (Table.ofFile s.mapping mapping database.frameOf?).mapError (.mapping s.mapping)
  return { database, table, defaults := .builtin }

variable {m : Type → Type} [Monad m]

/-- What is chosen on the command line and in the settings file. -/
def settings (host : Host m) (a : CommandLine.Arguments) : ExceptT RunFault m Settings := do
  let choices ← match a.config with
    | none => pure .empty
    | some path => MonadExcept.ofExcept ((Choices.ofFile path (← host.read path)).mapError .settings)
  MonadExcept.ofExcept ((a.choices.orElse choices).resolve.mapError .settings)

/-- Takes one line of the updates and sends the frames that it leads to. A line that is not text is the
last to be taken. -/
def takeLine (host : Host m) (write : String → m Unit) (interface : String) (p : Provider)
    (line : List UInt8) : m (ForInStep Provider) :=
  match Replay.readLine line with
  | .blank | .invalid _ => return .yield p
  | .unreadable => return .done p
  | .batch b => do
    let (p, frames) := p.handle (Replay.subscribed p.table.paths b)
    for frame in frames do
      write (frame.logLine interface (← host.now))
    return .yield p

/-- Runs until the updates end. -/
def run (host : Host m) (a : CommandLine.Arguments) : ExceptT RunFault m Unit := do
  let settings ← settings host a
  let database ← host.read settings.database
  let mapping ← host.read settings.mapping
  let provider ← MonadExcept.ofExcept (provider settings database mapping)
  let some write ← (host.openLog settings.output : m _) | throw (.log (settings.output.getD ""))
  let some _ ← (host.forLines settings.updates provider (takeLine host write settings.interface) : m _)
    | throw (.updates (settings.updates.getD ""))

/-! ### Exit codes -/

/-- The name and version of the program. -/
def version : String := "vss-can-provider 0.1.0"

/-- How the program is called. -/
def usage : String :=
  "Usage: vss-can-provider [OPTIONS]\n\n" ++
  "  -c, --config <FILE>     settings file\n" ++
  "      --dbc <FILE>        database of the bus\n" ++
  "  -m, --mapping <FILE>    mapping from the signal tree to the bus\n" ++
  "  -u, --updates <FILE>    updates, one batch a line [standard input]\n" ++
  "  -i, --interface <NAME>  interface named in the log [" ++ Choices.stockInterface ++ "]\n" ++
  "  -o, --output <FILE>     log of the frames [standard output]\n" ++
  "  -v, --verbose           more messages; may be repeated\n" ++
  "  -q, --quiet             no messages but errors\n" ++
  "  -h, --help              this text\n" ++
  "  -V, --version           version\n"

/-- The code for a command line that is not understood. -/
def misused : UInt32 := 2

/-- The code for a run that failed. -/
def failed : UInt32 := 1

/-- Does what a command line asks for, and gives the exit code. -/
def exec (host : Host m) (arguments : List String) : m UInt32 :=
  match CommandLine.parse? arguments with
  | none => do host.report usage; return misused
  | some .help => do host.print usage; return 0
  | some .version => do host.print (version ++ "\n"); return 0
  | some (.run a) => do
    match ← (run host a).run with
    | .ok () => return 0
    | .error f => host.report ("Error: " ++ f.message ++ "\n"); return failed

end Program
end SignalBridge
