import Blocklist.Engine.ListCache

/-!
# Synchronizing the active rules

Bringing a host's active rules in line with a mode: every active rule is removed and the mode's
rules are added, in one replacement. The ids are read and the rules replaced under one lock, so
that two synchronizations never come between each other's reading and replacing.
-/

namespace Blocklist

/-- What a synchronization did. -/
structure SyncReport where
  mode : Mode
  removed : Nat
  added : Nat
deriving DecidableEq, Repr

namespace Engine

/-- The rules of a mode, from the list's domains; off needs none. -/
def rulesFor (config : Config) (mode : Mode) : Action (List Rule) := do
  let domains ← if mode.usesFilterList then currentDomains config else pure []
  return config.compiler.rulesFor mode domains

/-- Replaces the active rules by those of a mode. -/
def synchronize (config : Config) (mode : Mode) : Action SyncReport :=
  Action.holding .synchronization do
    let active ← Action.activeIds
    let rules ← rulesFor config mode
    Action.replaceRules active rules
    return ⟨mode, active.length, rules.length⟩

end Engine

end Blocklist
