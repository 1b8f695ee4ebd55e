import Blocklist.Cli.Run
import Std.Time.DateTime.Timestamp

/-!
# The program

The command line on the real machine: its files, its clock, its standard output.
-/

namespace Blocklist

/-- The error with a number that the operating system gave. Some numbers come negated. -/
def FileError.ofCode (code : UInt32) (description : String) : FileError :=
  let number := if code < 0x80000000 then code else 0 - code
  match number.toNat with
  | 2 => .notFound
  | 16 => .busy
  | 17 => .alreadyExists
  | 20 => .notDirectory
  | 21 => .isDirectory
  | 36 => .nameTooLong
  | _ => .other (description ++ " (os error " ++ toString number.toNat ++ ")")

def FileError.ofFailure (error : IO.Error) : FileError :=
  match error with
  | .alreadyExists _ code text | .noFileOrDirectory _ code text | .inappropriateType _ code text
  | .permissionDenied _ code text | .invalidArgument _ code text | .resourceExhausted _ code text
  | .noSuchThing _ code text | .interrupted _ code text | .otherError code text
  | .resourceBusy code text | .resourceVanished code text | .unsupportedOperation code text
  | .hardwareFault code text | .unsatisfiedConstraints code text | .illegalOperation code text
  | .protocolError code text | .timeExpired code text => .ofCode code text
  | error => .other (toString error)

/-- A file operation with its error as a value. -/
def attemptOnDisk (operation : IO α) : IO (Except FileError α) := do
  return (← operation.toBaseIO).mapError FileError.ofFailure

instance : Disk IO where
  readText path := do
    match ← attemptOnDisk (IO.FS.readBinFile path.toString) with
    | .ok content => return (String.fromUTF8? content).elim (.error .notText) .ok
    | .error error => return .error error
  writeText path text := attemptOnDisk (IO.FS.writeFile path.toString text)
  createDirectory path := attemptOnDisk (IO.FS.createDir path.toString)
  isDirectory path := do
    let read ← attemptOnDisk do
      let handle ← IO.FS.Handle.mk path.toString .read
      discard (handle.read 1)
    return match read with
      | .error .isDirectory => true
      | _ => false
  moveFile source target := attemptOnDisk (IO.FS.rename source.toString target.toString)

instance : Clock IO where
  unixMillis := do
    return Int64.ofInt (← Std.Time.Timestamp.now).toMillisecondsSinceUnixEpoch.val
  stopwatch := IO.monoNanosNow

end Blocklist

/-- Carries out the arguments and ends with the exit code. -/
def main (arguments : List String) : IO UInt32 := do
  let outcome ← Blocklist.Cli.run arguments
  IO.print outcome.output
  IO.eprint outcome.error
  return outcome.exitCode
