import Blocklist.Clock
import Blocklist.Engine.Program
import Blocklist.Source.HttpList
import Blocklist.Source.ListFile
import Blocklist.Store

/-!
# A host on the local machine

A host for one task of the command line: entries live in a store's file, the list comes from a file
or from the network, and the rules stay in memory for as long as the task lasts. Nobody is there to
be notified, and nobody to wait for at a lock.
-/

namespace Blocklist.Cli

inductive ListOrigin where
  | file (path : Path)
  | network (list : HttpList)

namespace ListOrigin

/-- The file that is named, or else the configured list. -/
def choose (config : Config) : Option String → Except EngineError ListOrigin
  | some input => .ok (.file (.ofString input))
  | none => network <$> HttpList.ofConfig config

def fetch [Monad m] [Disk m] : ListOrigin → m (Except EngineError String)
  | file path => ListFile.fetch path
  | network list => pure list.fetch

end ListOrigin

/-- A host on the local machine, without its surface. -/
structure LocalHost where
  store : Path
  list : ListOrigin

namespace LocalHost

variable {m : Type → Type} [Monad m] [Disk m] [Clock m]

def replaceRules (removed : List RuleId) (added : List Rule) :
    StateT Surface m (Except EngineError Unit) := fun surface =>
  match surface.replace removed added with
  | .ok surface => pure (.ok (), surface)
  | .error refusal => pure (.error (.enforcement refusal.message), surface)

def answer (host : LocalHost) : (call : Call) → StateT Surface m call.Reply
  | .fetchList => (host.list.fetch : m _)
  | .readEntry key => (StoreFile.get host.store key : m _)
  | .writeEntry key value => (StoreFile.set host.store key value : m _)
  | .activeIds => do return .ok (← get).activeIds
  | .replaceRules removed added => replaceRules removed added
  | .matchCount scope => do return .ok ((← get).matchCount scope)
  | .notifyTab _ _ => return .ok ()
  | .notifyActiveTab _ => return .ok ()
  | .now => (Clock.unixMillis : m _)
  | .acquire _ => return ()
  | .release _ => return ()

/-- Runs a program to its end, on a surface without rules. -/
def run (host : LocalHost) (program : Program α) : m α :=
  (program.interpret host.answer).run' {}

end LocalHost

end Blocklist.Cli
