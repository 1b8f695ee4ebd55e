import Blocklist.Engine.Statistics
import Blocklist.Engine.Synchronizer

/-!
# The controller

The engine's operations as a host uses them: commands and messages from the presentation layer, and
the hooks that run when the extension is installed, when the browser starts and when the list is due
for a refresh. Whatever changes the mode or applies the stored one does so under the mode lock.
-/

namespace Blocklist.Engine

/-- Switches to a mode. The rules are applied before the mode is stored; when storing fails, the
rules of the previous mode are put back and the error of storing is returned. Choosing the stored
mode again touches nothing. -/
def setMode (config : Config) (mode : Mode) : Action State :=
  Action.holding .mode do
    let current ← currentState
    if current.mode = mode then return current
    discard (synchronize config mode)
    let next : State := ⟨mode⟩
    match ← Action.outcome (saveState next) with
    | .error error =>
      discard (Action.outcome (synchronize config current.mode))
      throw error
    | .ok () =>
      Action.notifyActiveTab next
      return next

def applyStored (config : Config) : Action SyncReport :=
  Action.holding .mode do
    let state ← currentState
    synchronize config state.mode

/-- Fetches the list and applies the stored mode: the scheduled maintenance. -/
def refresh (config : Config) : Action SyncReport := do
  discard refreshCache
  applyStored config

/-- What follows an installation: the first fetch and the first application. -/
def installed (config : Config) : Action SyncReport := do
  discard refreshCache
  applyStored config

/-- What follows a start of the browser: the last session is added to the all-time figures, and the
stored mode is applied again. -/
def startup (config : Config) : Action SyncReport := do
  discard (rollSession config)
  applyStored config

def handle (config : Config) : Command → Action Reply
  | .getState => .state <$> currentState
  | .setMode mode => .state <$> setMode config mode
  | .applyToTab tab => do
    Action.notifyTab tab (← currentState)
    return .applied
  | .getStats tab => .stats <$> statsReport config tab

/-- Answers a message. One that names no command, or whose fields do not decode, is answered without
a call to the host. -/
def handleMessage (config : Config) (message : Json) : Program Json := do
  match Command.tagOf? message with
  | none => return Reply.failure "Unknown message type"
  | some _ =>
    match Command.ofJson message with
    | .error cause => return Reply.failure ("Invalid message: " ++ cause.message)
    | .ok command =>
      match ← (handle config command).run with
      | .ok reply => return reply.toJson
      | .error error => return Reply.failure error.message

end Blocklist.Engine
