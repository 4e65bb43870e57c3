import SignalBridge.Program

/-!
A world for the program to run in: files, standard input and standard output. Time stands still in it,
and what goes to standard error is lost. Directories are those that files lie in, and those around the
working directory.
-/

namespace SignalBridge

/-- A file, by the names that lead to it from the working directory. -/
abbrev FilePath := List String

structure World where
  files : List (FilePath × ByteArray)
  input : ByteArray
  output : String

namespace World

def content? (w : World) (file : FilePath) : Option ByteArray :=
  w.files.lookup file

/-- Some file lies in the directory or further down, or it is around the working directory. -/
def isDirectory (w : World) (directory : FilePath) : Bool :=
  directory.all (· = "..") ||
    w.files.any fun (file, _) => directory.isPrefixOf file && directory.length < file.length

/-- A name that a file can have. -/
def isFileName (name : String) : Bool :=
  name.utf8ByteSize ≤ 255 && !name.toList.contains '\x00'

/-- What a path can lead to: a directory, a file that is there or could be made, or one of the streams
that have a path of their own. -/
inductive Place
  | directory
  | file (f : FilePath)
  | nothing
  | standardInput
  | standardOutput
  | standardError
deriving DecidableEq, Repr

/-- The directory that a directory lies in. -/
def parent (directory : FilePath) : FilePath :=
  if directory.all (· = "..") then ".." :: directory else directory.dropLast

/-- Where names lead, starting in a directory. -/
def walk? (w : World) (directory : FilePath) : List String → Option Place
  | [] => some .directory
  | "" :: names | "." :: names => walk? w directory names
  | ".." :: names => walk? w (parent directory) names
  | name :: names =>
    if w.isDirectory (directory ++ [name]) then walk? w (directory ++ [name]) names
    else if names.isEmpty && isFileName name then some (.file (directory ++ [name]))
    else none

/-- Where names lead from the root, of which only the streams are known. -/
def fromRoot? : List String → Option Place
  | [""] | ["dev"] => some .directory
  | ["dev", "null"] => some .nothing
  | ["dev", "stdin"] => some .standardInput
  | ["dev", "stdout"] => some .standardOutput
  | ["dev", "stderr"] => some .standardError
  | _ => none

/-- The names in a path, between its slashes. -/
def names (path : List Char) : List String :=
  (path.splitOn '/').map String.ofList

/-- The most bytes that a path can have. -/
def maxPathSize : Nat := 4095

/-- Where a path leads. -/
def place? (w : World) (path : String) : Option Place :=
  if maxPathSize < path.utf8ByteSize then none
  else match names path.toList with
    | [""] => none
    | "" :: names => fromRoot? names
    | names => w.walk? [] names

/-- The bytes at a path. -/
def read? (w : World) (path : String) : Option ByteArray :=
  match w.place? path with
  | some (.file f) => w.content? f
  | some .nothing => some .empty
  | some .standardInput => some w.input
  | _ => none

/-- The lines of the updates at a path, if it can be opened. A directory can, but has none. -/
def lines? (w : World) : Option String → Option (List (List UInt8))
  | none => some (Replay.lines w.input.toList)
  | some path =>
    match w.place? path with
    | some .directory => some []
    | _ => (w.read? path).map fun bytes => Replay.lines bytes.toList

/-- Gives a file new bytes, and makes it if it is not there. -/
def write (w : World) (file : FilePath) (bytes : ByteArray) : World :=
  { w with files := (file, bytes) :: w.files.filter (·.1 != file) }

/-- Writes at the end of a file. -/
def append (w : World) (file : FilePath) (text : String) : World :=
  w.write file ((w.content? file).getD .empty ++ text.toUTF8)

/-- Hands out lines until one is the last to be taken. -/
def forLines {m : Type → Type} [Monad m] {σ : Type} (take : σ → List UInt8 → m (ForInStep σ)) :
    List (List UInt8) → σ → m σ
  | [], s => return s
  | line :: lines, s => do
    match ← take s line with
    | .done s => return s
    | .yield s => forLines take lines s

/-- The moment at which time stands still. -/
def moment : Moment := ⟨0, 0⟩

/-- Writes to standard output. -/
def print (text : String) : StateM World Unit :=
  modify fun w => { w with output := w.output ++ text }

/-- The world as a host. -/
def host : Host (StateM World) where
  read path := return (← get).read? path
  openLog
    | none => return some print
    | some path => do
      let w ← get
      match w.place? path with
      | some (.file f) =>
        set (w.write f .empty)
        return some fun text => modify fun w => w.append f text
      | some .nothing | some .standardError => return some fun _ => return
      | some .standardOutput => return some print
      | _ => return none
  forLines path s take := do
    match (← get).lines? path with
    | none => return none
    | some lines => return some (← forLines take lines s)
  now := return moment
  print := print
  report _ := return

/-- The exit code of the program and the world after it. -/
def exec (w : World) (arguments : List String) : UInt32 × World :=
  (Program.exec host arguments).run w

end World
end SignalBridge
