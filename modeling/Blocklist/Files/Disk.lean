import Blocklist.Files.Path

/-!
# Access to files

What the library needs of a file system, for any monad that offers it, and the making of a directory
with all those that hold it. `FileError.message` words errors as the operating system does.
-/

namespace Blocklist

inductive FileError where
  | notFound
  | notDirectory
  | isDirectory
  | alreadyExists
  | busy
  | nameTooLong
  | notText
  | nulInName
  | noRoot
  | other (description : String)
deriving DecidableEq, Repr

namespace FileError

def message : FileError → String
  | notFound => "No such file or directory (os error 2)"
  | notDirectory => "Not a directory (os error 20)"
  | isDirectory => "Is a directory (os error 21)"
  | alreadyExists => "File exists (os error 17)"
  | busy => "Device or resource busy (os error 16)"
  | nameTooLong => "File name too long (os error 36)"
  | notText => "stream did not contain valid UTF-8"
  | nulInName => "file name contained an unexpected NUL byte"
  | noRoot => "failed to create whole tree"
  | other description => description

/-- The text that reports a failed operation on a path. -/
def report (action : String) (path : Path) (error : FileError) : String :=
  "Failed to " ++ action ++ " '" ++ path.toString ++ "': " ++ error.message

end FileError

class Disk (m : Type → Type) where
  /-- The content of a file as text. -/
  readText : Path → m (Except FileError String)
  /-- Makes a file or replaces its content. -/
  writeText : Path → String → m (Except FileError Unit)
  /-- Makes a directory in one that exists. -/
  createDirectory : Path → m (Except FileError Unit)
  /-- Whether a path leads to a directory. -/
  isDirectory : Path → m Bool
  /-- Renames a file, over another one if need be. -/
  moveFile : (source target : Path) → m (Except FileError Unit)

namespace Disk

variable {m : Type → Type} [Monad m] [Disk m]

/-- Makes a directory unless it is there already. -/
def ensureDirectory (path : Path) : m (Except FileError Unit) := do
  match ← createDirectory path with
  | .ok () => return .ok ()
  | .error error => return if ← isDirectory path then .ok () else .error error

/-- Makes a directory and, where one is missing, the directories that hold it. Each round goes up by
one part of the path. -/
def createWithin : (rounds : Nat) → Path → m (Except FileError Unit)
  | 0, _ => return .error .noRoot
  | rounds + 1, path => do
    if path.isEmpty then return .ok ()
    match ← createDirectory path with
    | .ok () => return .ok ()
    | .error .notFound =>
      match path.parent? with
      | none => return .error .noRoot
      | some parent =>
        match ← createWithin rounds parent with
        | .ok () => ensureDirectory path
        | .error error => return .error error
    | .error error => return if ← isDirectory path then .ok () else .error error

/-- Makes a directory together with all those that hold it. -/
def createDirectories (path : Path) : m (Except FileError Unit) :=
  createWithin (path.tail.length + 2) path

end Disk

end Blocklist
