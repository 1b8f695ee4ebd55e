import Blocklist.Compiler
import Blocklist.EngineError

/-!
# Engine configuration

Every limit of the engine, each with a default, and the check that a configuration can be worked
with: the two periods are not zero, and the compiler never runs out of ids, not even for the three
rules that extreme mode adds.
-/

namespace Blocklist

/-- The limits that the engine works within. -/
structure Config where
  listUrl : String := "https://easylist.to/easylist/easylist.txt"
  cacheTtlMs : UInt64 := 604800000
  maxDomainRules : UInt64 := 4990
  domainRuleBaseId : UInt32 := 100
  avgBytesPerRequest : UInt64 := 30000
  refreshIntervalSecs : UInt64 := 604800
  fetchTimeoutSecs : UInt64 := 30
  userAgent : String := "LeanLoad/0.2.0"
deriving DecidableEq, Repr

namespace Config

inductive Invalid where
  | zeroRefreshInterval
  | zeroCacheTtl
  | idsOverflow (baseId : UInt32) (maxDomainRules : UInt64)
deriving DecidableEq, Repr

namespace Invalid

def message : Invalid → String
  | zeroRefreshInterval => "refresh_interval_secs must be greater than zero"
  | zeroCacheTtl => "cache_ttl_ms must be greater than zero"
  | idsOverflow baseId maxDomainRules =>
    "domain_rule_base_id " ++ toString baseId.toNat ++ " with max_domain_rules " ++
      toString maxDomainRules.toNat ++ " overflows the rule ID range"

end Invalid

/-- The error of a configuration that cannot be used, for the reason given. -/
def unusable (reason : String) : EngineError := .storage ("Invalid config: " ++ reason)

/-- Checks the periods first and the ids last. -/
def validate (config : Config) : Except Invalid Unit :=
  if config.refreshIntervalSecs = 0 then .error .zeroRefreshInterval
  else if config.cacheTtlMs = 0 then .error .zeroCacheTtl
  else if config.domainRuleBaseId.toNat + config.maxDomainRules.toNat + extremeTypes.length <
      idBound then .ok ()
  else .error (.idsOverflow config.domainRuleBaseId config.maxDomainRules)

/-- The compiler with a configuration's limits. -/
def compiler (config : Config) : Compiler := ⟨config.maxDomainRules, config.domainRuleBaseId⟩

end Config

end Blocklist
