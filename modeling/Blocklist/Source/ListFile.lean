import Blocklist.EngineError
import Blocklist.Files.Disk

/-!
# Filter lists from files

A list that is read from a local file instead of the network.
-/

namespace Blocklist.ListFile

def fetch [Monad m] [Disk m] (path : Path) : m (Except EngineError String) := do
  match ← Disk.readText path with
  | .ok text => return .ok text
  | .error error => return .error (.fetch (error.report "read" path))

end Blocklist.ListFile
