import Blocklist.Config
import Blocklist.Engine.Repository

/-!
# Statistics

Tab and session figures are read from the host's match counters; the all-time figures are stored and
grow only when the session's are added to them.
-/

namespace Blocklist.Engine

def scopeStats (config : Config) (scope : MatchScope) : Action Stats := do
  return .ofCount (← Action.matchCount scope) config.avgBytesPerRequest

def tabStats (config : Config) (tab : TabId) : Action Stats := scopeStats config (.tab tab)

def sessionStats (config : Config) : Action Stats := scopeStats config .session

/-- The stored all-time figures, or zero. -/
def allTimeStats : Action Stats := do
  return (← loadAllTime).getD .zero

/-- Adds the session's figures to the all-time ones. The counters keep their values, so this belongs
at the end of a session and nowhere else. -/
def rollSession (config : Config) : Action Stats := do
  let session ← sessionStats config
  let before ← allTimeStats
  let after := before.add session
  saveAllTime after
  return after

/-- The figures for every horizon; without a tab, and for tab zero, a tab's figures are zero. -/
def statsReport (config : Config) (tab : Option TabId) : Action StatsReport := do
  let currentTab ← match tab.filter (· != 0) with
    | some tab => tabStats config tab
    | none => pure .zero
  let session ← sessionStats config
  let allTime ← allTimeStats
  return ⟨currentTab, session, allTime⟩

end Blocklist.Engine
