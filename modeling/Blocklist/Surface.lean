import Blocklist.EngineError
import Blocklist.Message

/-!
# The request filter of a host

A surface holds the active rules, sorted by id, and counts how often rules matched: for the session
and for each tab, requests outside any tab included. A replacement removes some ids and adds some
rules in one step; it is checked as a whole first and changes nothing when it is refused.
-/

namespace Blocklist

/-- What a match count is taken over. -/
inductive MatchScope where
  | tab (tab : TabId)
  | session
deriving DecidableEq, Repr

/-- The request filter of a host and its match counters. -/
structure Surface where
  rules : List Rule := []
  tabMatches : List (Option TabId × UInt64) := []
  sessionMatches : UInt64 := 0
  replaceCount : UInt64 := 0
  quota : Nat := 5000

namespace Surface

/-- The ids of the active rules, in order. -/
def activeIds (surface : Surface) : List RuleId := surface.rules.map (·.id)

/-- The active rules that stay when some ids are removed. -/
def kept (surface : Surface) (removed : List RuleId) : List Rule :=
  surface.rules.filter fun rule => !removed.contains rule.id

inductive Refusal where
  | emptyCondition (id : RuleId)
  | repeatedId (id : RuleId)
  | overQuota (rules quota : Nat)
deriving DecidableEq, Repr

namespace Refusal

def message : Refusal → String
  | emptyCondition id => "Rule with id " ++ toString id.toNat ++ " has an empty condition"
  | repeatedId id => "Rule with id " ++ toString id.toNat ++ " does not have a unique ID"
  | overQuota rules quota =>
    toString rules ++ " rules exceed the dynamic rule quota of " ++ toString quota

end Refusal

/-- Checks rules that are to be added beside the ids taken already, in order. The answer holds all
ids taken in the end. -/
def accept (taken : List RuleId) : List Rule → Except Refusal (List RuleId)
  | [] => .ok taken
  | rule :: rules =>
    if rule.condition.isEmpty then .error (.emptyCondition rule.id)
    else if taken.contains rule.id then .error (.repeatedId rule.id)
    else accept (rule.id :: taken) rules

/-- Removes some ids and adds some rules, all or nothing. -/
def replace (surface : Surface) (removed : List RuleId) (added : List Rule) :
    Except Refusal Surface := do
  let kept := surface.kept removed
  let taken ← accept (kept.map (·.id)) added
  if surface.quota < taken.length then throw (.overQuota taken.length surface.quota)
  return { surface with
    rules := (kept ++ added).mergeSort fun a b => a.id ≤ b.id
    replaceCount := surface.replaceCount + 1 }

def matchCount (surface : Surface) : MatchScope → UInt64
  | .session => surface.sessionMatches
  | .tab tab => (surface.tabMatches.lookup (some tab)).getD 0

/-- One more match in a counter of a row of counters. -/
def increment (tab : Option TabId) :
    List (Option TabId × UInt64) → List (Option TabId × UInt64)
  | [] => [(tab, 1)]
  | (other, count) :: rest =>
    if tab = other then (other, count + 1) :: rest else (other, count) :: increment tab rest

/-- Counts a match, in a tab or outside any. -/
def recordMatch (surface : Surface) (tab : Option TabId) : Surface :=
  { surface with
    tabMatches := increment tab surface.tabMatches
    sessionMatches := surface.sessionMatches + 1 }

/-- Forgets all matches, as a restart of the browser does. -/
def resetMatches (surface : Surface) : Surface :=
  { surface with tabMatches := [], sessionMatches := 0 }

end Surface

end Blocklist
