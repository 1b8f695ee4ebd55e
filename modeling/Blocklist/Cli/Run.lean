import Blocklist.ByteAmount
import Blocklist.Cli.LocalHost
import Blocklist.Cli.Task
import Blocklist.Config.Json
import Blocklist.Engine.Controller

/-!
# Carrying out tasks

Every task prints what it did. The first error ends a task; what has been printed by then stays
printed, and so do the files that have been written.
-/

namespace Blocklist.Cli

/-- What a run leaves behind, its files apart. -/
structure Outcome where
  exitCode : UInt32
  output : String
  error : String
deriving DecidableEq, Repr

/-- A run: an error ends it, and its output is collected. -/
abbrev Run (m : Type → Type) := ExceptT String (StateT String m)

variable {m : Type → Type} [Monad m] [Disk m] [Clock m]

namespace Run

/-- An operation of the surroundings. -/
def lift (operation : m α) : Run m α := ExceptT.mk (.ok <$> (operation : StateT String m α))

def say (lines : List String) : Run m Unit :=
  ExceptT.mk do
    modify (· ++ String.join (lines.map (· ++ "\n")))
    return .ok ()

/-- The value of an engine's outcome. -/
def check : Except EngineError α → Run m α
  | .ok value => pure value
  | .error error => throw error.message

def readFile (name : String) : Run m String := do
  let path := Path.ofString name
  match ← lift (Disk.readText path) with
  | .ok text => return text
  | .error error => throw (error.report "read" path)

def writeFile (name content : String) : Run m Unit := do
  let path := Path.ofString name
  match ← lift (Disk.writeText path content) with
  | .ok () => return
  | .error error => throw (error.report "write" path)

/-- The line that shows how long something took, to a tenth of a millisecond. -/
def elapsedLine (start stop : Nat) : String :=
  "  Time:        " ++ showTenths (roundDiv (stop - start) 100000) ++ "ms"

/-- The configuration in a file, or the default one. -/
def loadConfig : Option String → Run m Config
  | none => return {}
  | some name => do
    let path := Path.ofString name
    match ← lift (Disk.readText path) with
    | .ok text => check (Config.ofText text)
    | .error error => check (.error (.storage (error.report "read" path)))

/-- Extracts a list's domains. -/
def parse (input : String) (output : Option String) : Run m Unit := do
  let content ← readFile input
  let start ← lift Clock.stopwatch
  let domains := FilterList.domains content
  let tally := FilterList.tally content
  let stop ← lift Clock.stopwatch
  say ["Parsed '" ++ input ++ "'",
    "  Lines:       " ++ toString tally.lines,
    "  Domains:     " ++ toString tally.domains,
    "  Skipped:     " ++ toString tally.blank ++ " blank, " ++ toString tally.comments ++
      " comments, " ++ toString tally.exceptions ++ " exceptions, " ++ toString tally.cosmetic ++
      " cosmetic",
    "  Dropped:     " ++ toString tally.dropped,
    elapsedLine start stop]
  if let some output := output then
    writeFile output (Json.arr (domains.map Domain.toJson)).pretty
    say ["Wrote " ++ toString domains.length ++ " domains to '" ++ output ++ "'"]

/-- Compiles a list into the rules of a mode. -/
def compile (config : Config) (input : String) (mode : Mode) (output : String) : Run m Unit := do
  let content ← readFile input
  let start ← lift Clock.stopwatch
  let domains := FilterList.domains content
  let compiler := config.compiler
  let rules := compiler.rulesFor mode domains
  let stop ← lift Clock.stopwatch
  let document := (Rule.listToJson rules).pretty
  writeFile output document
  let size := document.utf8ByteSize
  let cap := compiler.maxDomainRules.toNat
  say ["Compiled '" ++ input ++ "' for mode " ++ toString mode ++ " to '" ++ output ++ "'",
    "  Domains:     " ++ toString domains.length,
    "  Rules:       " ++ toString rules.length]
  if mode.usesFilterList && cap < domains.length then
    say ["  Truncated:   " ++ toString (domains.length - cap) ++ " domains over the cap of " ++
      toString cap]
  say ["  Size:        " ++ toString size ++ " bytes (" ++ showTenths (tenthsOf .kilo size) ++
      " KB)",
    elapsedLine start stop]

/-- Downloads the configured list. -/
def fetch (config : Config) (output : Option String) : Run m Unit := do
  let origin ← check (ListOrigin.choose config none)
  let text ← check (← lift origin.fetch)
  match output with
  | none => ExceptT.mk do
    modify (· ++ text)
    return .ok ()
  | some output =>
    writeFile output text
    say ["Fetched " ++ config.listUrl ++ " (" ++ toString (Text.lines text.toList).length ++
      " lines) to '" ++ output ++ "'"]

/-- The host for a task that works on a store. -/
def hostFor (config : Config) (store : String) (input : Option String) : Run m LocalHost := do
  let list ← check (ListOrigin.choose config input)
  return ⟨.ofString store, list⟩

def perform (host : LocalHost) (action : Action α) : Run m α := do
  check (← lift (host.run action.run))

/-- Fetches the list and stores it. -/
def refresh (config : Config) (store : String) (input : Option String) : Run m Unit := do
  let host ← hostFor config store input
  let cache ← perform host Engine.refreshCache
  say ["Refreshed filter cache in '" ++ store ++ "'",
    "  Domains:     " ++ toString cache.domains.length,
    "  Fetched at:  " ++ toString cache.fetchedAt.toInt]

/-- Shows what a store holds. -/
def status (config : Config) (store : String) : Run m Unit := do
  let host ← hostFor config store none
  let state ← perform host Engine.currentState
  let cache ← perform host Engine.readCache
  let allTime ← perform host Engine.allTimeStats
  let cacheLine ← match cache with
    | none => pure "empty"
    | some cache =>
      let fresh ← perform host (Engine.cacheIsFresh config cache)
      pure (toString cache.domains.length ++ " domains, fetched at " ++
        toString cache.fetchedAt.toInt ++ (if fresh then " (fresh)" else " (stale)"))
  say ["Store: " ++ store,
    "  Mode:        " ++ toString state.mode,
    "  Cache:       " ++ cacheLine,
    "  All time:    " ++ toString allTime.blockedRequests.toNat ++ " blocked, " ++
      formatBytes allTime.estimatedBytesSaved ++ " saved"]

/-- Sends one message to the engine and prints the reply. -/
def message (config : Config) (store : String) (input : Option String) (message : String) :
    Run m Unit := do
  match Json.read message with
  | .error error => throw ("Invalid message JSON: " ++ error.message)
  | .ok message =>
    let host ← hostFor config store input
    let reply ← lift (host.run (Engine.handleMessage config message))
    say [reply.pretty]

def task (config : Config) : Task → Run m Unit
  | .parse input output => parse input output
  | .compile input mode output => compile config input mode output
  | .fetch output => fetch config output
  | .refresh store input => refresh config store input
  | .status store => status config store
  | .message store input text => message config store input text

end Run

def usageText : String := "\n".intercalate [
  "Usage: [-c FILE] [-v] COMMAND",
  "  parse -i LIST [-o FILE]               extract the blockable domains of a filter list",
  "  compile -i LIST [-m MODE] [-o FILE]   compile a filter list into the rules of a mode",
  "  fetch [-o FILE]                       download the configured filter list",
  "  refresh -s STORE [-i LIST]            fetch the filter list into a store",
  "  status -s STORE                       show what a store holds",
  "  message -s STORE [-i LIST] MESSAGE    send one message to the engine",
  "MODE is off, low, medium, high or extreme.", ""]

def run (arguments : List String) : m Outcome := do
  match Invocation.ofArguments arguments with
  | .error .help => return ⟨0, usageText, ""⟩
  | .error .usage => return ⟨2, "", usageText⟩
  | .ok invocation =>
    let program : Run m Unit := do
      Run.task (← Run.loadConfig invocation.config) invocation.task
    match ← program.run "" with
    | (.ok (), output) => return ⟨0, output, ""⟩
    | (.error error, output) => return ⟨1, output, "Error: " ++ error ++ "\n"⟩

end Blocklist.Cli
