import Blocklist.Engine.Program
import Blocklist.Files.Tree
import Blocklist.Source.ListFile
import Blocklist.Store

/-!
# A host in memory

Everything outside the engine as one value: the surface, the store, the file tree, and an
environment that says for each call, by its number, what the clock shows, which list is served and
whether the call is refused. `Host.answer` answers one call; a program is run against a host by
answering its calls in turn. Every call is recorded, the refused ones included.
-/

namespace Blocklist

/-- Where a host keeps its entries. -/
inductive Store where
  | memory (entries : List (String × Json))
  | file (path : Path)

/-- Where a host gets the filter list from. -/
inductive ListSource where
  | served
  | file (path : Path)

/-- What the world does at each call, by the call's number. -/
structure Environment where
  /-- The time in milliseconds. -/
  clock : Nat → Int64 := fun _ => 0
  /-- The list that is served. -/
  list : Nat → String := fun _ => ""
  /-- The detail of the error that refuses a call. Clocks and locks never refuse. -/
  refusal : Nat → Call → Option String := fun _ _ => none

structure Host where
  surface : Surface := {}
  store : Store := .memory []
  source : ListSource := .served
  files : FileTree := {}
  environment : Environment := {}
  /-- The calls made so far, the last first. -/
  calls : List Call := []
  /-- The number of calls made so far. -/
  callCount : Nat := 0

namespace Host

def onFiles (operation : StateM FileTree α) : StateM Host α := fun host =>
  let (result, files) := operation host.files
  (result, { host with files })

def readEntry (key : String) : StateM Host (Except EngineError (Option Json)) := do
  match (← get).store with
  | .memory entries => return .ok (entries.lookup key)
  | .file path => onFiles (StoreFile.get path key)

def writeEntry (key : String) (value : Json) : StateM Host (Except EngineError Unit) := do
  match (← get).store with
  | .memory entries =>
    modify fun host => { host with store := .memory (Json.insertMember key value entries) }
    return .ok ()
  | .file path => onFiles (StoreFile.set path key value)

def fetchList (list : String) : StateM Host (Except EngineError String) := do
  match (← get).source with
  | .served => return .ok list
  | .file path => onFiles (ListFile.fetch path)

def replaceRules (removed : List RuleId) (added : List Rule) :
    StateM Host (Except EngineError Unit) := fun host =>
  match host.surface.replace removed added with
  | .ok surface => (.ok (), { host with surface })
  | .error refusal => (.error (.enforcement refusal.message), host)

/-- Serves a call that is not refused. -/
def serve (number : Nat) : (call : Call) → StateM Host call.Reply
  | .fetchList => do fetchList ((← get).environment.list number)
  | .readEntry key => readEntry key
  | .writeEntry key value => writeEntry key value
  | .activeIds => do return .ok (← get).surface.activeIds
  | .replaceRules removed added => replaceRules removed added
  | .matchCount scope => do return .ok ((← get).surface.matchCount scope)
  | .notifyTab _ _ => return .ok ()
  | .notifyActiveTab _ => return .ok ()
  | .now => do return (← get).environment.clock number
  | .acquire _ => return ()
  | .release _ => return ()

/-- The reply to a call that is refused, for the calls that can be. -/
def refused (detail : String) : (call : Call) → Option call.Reply
  | .fetchList => some (.error (.fetch detail))
  | .readEntry _ => some (.error (.storage detail))
  | .writeEntry _ _ => some (.error (.storage detail))
  | .activeIds => some (.error (.enforcement detail))
  | .replaceRules _ _ => some (.error (.enforcement detail))
  | .matchCount _ => some (.error (.enforcement detail))
  | .notifyTab _ _ => some (.error detail)
  | .notifyActiveTab _ => some (.error detail)
  | .now => none
  | .acquire _ => none
  | .release _ => none

/-- Answers a call: records it, and serves it unless the environment refuses it. -/
def answer (call : Call) : StateM Host call.Reply := do
  let host ← get
  let number := host.callCount
  set { host with calls := call :: host.calls, callCount := number + 1 }
  match (host.environment.refusal number call).bind (refused · call) with
  | some reply => return reply
  | none => serve number call

def run (program : Program α) : StateM Host α := program.interpret answer

def perform (action : Action α) : StateM Host (Except EngineError α) := run action.run

end Host

end Blocklist
