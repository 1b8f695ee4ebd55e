import Blocklist.EngineError
import Blocklist.Files.Disk
import Blocklist.Json.Printer
import Blocklist.Json.Reader
import Blocklist.Text.Blank

/-!
# Key-value stores

A store keeps one JSON value per key. The entries are kept in memory, or all together as one object
in a file. A file is replaced as a whole: the new document goes to a file beside it, which is then
renamed. A missing or blank file holds no entries; a file that holds anything but an object is an
error and is left alone.
-/

namespace Blocklist

/-- The key of the fetched filter list. -/
def filterCacheKey : String := "filter_list_cache_v1"

/-- The key of the user's mode. -/
def stateKey : String := "mode_state_v1"

/-- The key of the all-time statistics. -/
def statsKey : String := "stats_v1"

namespace StoreFile

variable {m : Type → Type} [Monad m] [Disk m]

/-- The error of a failed operation on a store's file. -/
def failure (action : String) (path : Path) (error : FileError) : EngineError :=
  .storage (error.report action path)

def entriesOf (path : Path) (text : String) : Except EngineError (List (String × Json)) :=
  if Text.isBlankText text.toList then .ok []
  else match Json.read text with
    | .ok (.obj entries) => .ok entries
    | .ok _ => .error (.storage ("'" ++ path.toString ++ "' does not hold a JSON object"))
    | .error error => .error (.storage error.message)

def entries (path : Path) : m (Except EngineError (List (String × Json))) := do
  match ← Disk.readText path with
  | .ok text => return entriesOf path text
  | .error .notFound => return .ok []
  | .error error => return .error (failure "read" path error)

def get (path : Path) (key : String) : m (Except EngineError (Option Json)) := do
  return (← entries path).map (·.lookup key)

/-- The file that a new document is written to first. -/
def draftPath (path : Path) : Path := path.withExtension "json.tmp"

/-- Makes the directories that hold a store's file. -/
def makeParents (path : Path) : ExceptT EngineError m Unit := do
  match path.parent? with
  | none => return
  | some parent =>
    if !parent.isEmpty then
      let made : Except FileError Unit ← Disk.createDirectories (m := m) parent
      match made with
      | .ok () => return
      | .error error => throw (failure "create" parent error)

def set (path : Path) (key : String) (value : Json) : m (Except EngineError Unit) := ExceptT.run do
  let old ← (ExceptT.mk (entries path) : ExceptT EngineError m _)
  let document := (Json.obj (Json.insertMember key value old)).pretty
  makeParents path
  let written : Except FileError Unit ← Disk.writeText (m := m) (draftPath path) document
  if let .error error := written then throw (failure "write" (draftPath path) error)
  let moved : Except FileError Unit ← Disk.moveFile (m := m) (draftPath path) path
  if let .error error := moved then throw (failure "replace" path error)

end StoreFile

end Blocklist
