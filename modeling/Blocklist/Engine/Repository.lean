import Blocklist.Engine.Program
import Blocklist.Store

/-!
# Stored records

The user's state and the all-time statistics, each under its own key. A value that does not decode
is an error; a missing one is the default state, or no statistics.
-/

namespace Blocklist.Engine

def loadState : Action (Option State) := do
  match ← Action.readEntry stateKey with
  | none => return none
  | some value => some <$> Action.stored (State.ofJson value)

/-- The stored state, or the default one. -/
def currentState : Action State := do
  return (← loadState).getD default

def saveState (state : State) : Action Unit := Action.writeEntry stateKey state.toJson

def loadAllTime : Action (Option Stats) := do
  match ← Action.readEntry statsKey with
  | none => return none
  | some value => return some (← Action.stored (StoredStats.ofJson value)).allTime

def saveAllTime (stats : Stats) : Action Unit :=
  Action.writeEntry statsKey (StoredStats.mk stats).toJson

end Blocklist.Engine
