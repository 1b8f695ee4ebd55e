import Blocklist.Domain
import Blocklist.Mode
import Blocklist.Rule

/-!
# Compiling domains into rules

A compiler turns a list of domains into blocking rules with ids that count up from a base, in list
order, as far as its cap and the range of ids go. A mode decides what becomes of the compiled
rules: off drops them, and extreme adds a rule for each of three resource types, with the ids right
above the greatest one in use.
-/

namespace Blocklist

/-- The least number that is no longer an id. -/
def idBound : Nat := UInt32.size

def domainRuleTypes : List ResourceType :=
  [.script, .image, .xmlHttpRequest, .subFrame, .stylesheet, .font, .media, .ping, .other]

/-- The types of request that extreme mode blocks everywhere, in the order of their ids. -/
def extremeTypes : List ResourceType := [.image, .media, .font]

namespace Domain

/-- The filter that matches a domain and those below it. -/
def urlFilter (domain : Domain) : String := "||" ++ domain.text ++ "^"

def toRule (id : RuleId) (domain : Domain) : Rule :=
  .block id { urlFilter := some domain.urlFilter, resourceTypes := some domainRuleTypes }

end Domain

namespace ResourceType

def toRule (id : RuleId) (type : ResourceType) : Rule :=
  .block id { resourceTypes := some [type] }

end ResourceType

/-- How far above an id another one is, if it still is an id. -/
def idAbove? (id : RuleId) (distance : Nat) : Option RuleId :=
  if id.toNat + distance < idBound then some (.ofNat (id.toNat + distance)) else none

/-- The greatest id of a list of rules, and zero for no rules. -/
def greatestId (rules : List Rule) : RuleId :=
  rules.foldl (fun greatest rule => max greatest rule.id) 0

/-- The limits of a compilation. -/
structure Compiler where
  maxDomainRules : UInt64 := 4990
  baseId : RuleId := 100
deriving DecidableEq, Repr

namespace Compiler

/-- One rule per domain, with ids that count up from the base. Domains past the cap or past the last
id have no rule. -/
def domainRules (compiler : Compiler) (domains : List Domain) : List Rule :=
  let room := min compiler.maxDomainRules.toNat (idBound - compiler.baseId.toNat)
  (domains.take room).mapIdx fun index domain =>
    domain.toRule (.ofNat (compiler.baseId.toNat + index))

end Compiler

namespace Mode

/-- What a mode makes of compiled rules. -/
def apply (mode : Mode) (rules : List Rule) : List Rule :=
  match mode with
  | off => []
  | low | medium | high => rules
  | extreme =>
    rules ++ (extremeTypes.zipIdx 1).filterMap fun (type, distance) =>
      (idAbove? (greatestId rules) distance).map type.toRule

end Mode

namespace Compiler

def rulesFor (compiler : Compiler) (mode : Mode) (domains : List Domain) : List Rule :=
  if mode.usesFilterList then mode.apply (compiler.domainRules domains) else []

end Compiler

end Blocklist
