import SignalBridge.Program
import Std.Time.DateTime.Timestamp

/-!
The program on a real machine.
-/

namespace SignalBridge.Machine

/-- What an action gives, unless it fails. -/
def attempt {α : Type} (action : IO α) : IO (Option α) := do
  match ← action.toBaseIO with
  | .ok a => return some a
  | .error _ => return none

/-- The time since the epoch. -/
def now : IO Moment := do
  let nanoseconds := (← Std.Time.Timestamp.now).toNanosecondsSinceUnixEpoch.val
  return { seconds := nanoseconds.fdiv 1000000000, nanoseconds := (nanoseconds.fmod 1000000000).toNat }

/-- Writes text at once. What cannot be written is lost. -/
def write (out : IO.FS.Stream) (text : String) : IO Unit :=
  discard (attempt do
    out.putStr text
    out.flush)

/-- The next line of a stream, given the bytes that have been read of it, last first. A stream that
cannot be read any further has no more lines. -/
partial def nextLine (input : IO.FS.Stream) (bytes : List UInt8) : IO (Option (List UInt8)) := do
  match (← attempt (input.read 1)).map ByteArray.toList with
  | none => return none
  | some [] => return if bytes.isEmpty then none else some bytes.reverse
  | some (10 :: _) => return some (Replay.endedLine bytes)
  | some (b :: _) => nextLine input (b :: bytes)

/-- Hands out the lines of a stream until one is the last to be taken. -/
partial def forLines {σ : Type} (input : IO.FS.Stream) (s : σ)
    (take : σ → List UInt8 → IO (ForInStep σ)) : IO σ := do
  match ← nextLine input [] with
  | none => return s
  | some line =>
    match ← take s line with
    | .done s => return s
    | .yield s => forLines input s take

def host : Host IO where
  read path := attempt (IO.FS.readBinFile path)
  openLog
    | none => return some (write (← IO.getStdout))
    | some path => do
      let handle? ← attempt (IO.FS.Handle.mk path .write)
      return handle?.map fun handle => write (.ofHandle handle)
  forLines
    | none, s, take => do return some (← forLines (← IO.getStdin) s take)
    | some path, s, take => do
      match ← attempt (IO.FS.Handle.mk path .read) with
      | none => return none
      | some handle => return some (← forLines (.ofHandle handle) s take)
  now := now
  print text := do write (← IO.getStdout) text
  report text := do write (← IO.getStderr) text

end SignalBridge.Machine

def main (arguments : List String) : IO UInt32 :=
  SignalBridge.Program.exec SignalBridge.Machine.host arguments
