import Blocklist.Config
import Blocklist.Engine.Program
import Blocklist.FilterCache
import Blocklist.FilterList
import Blocklist.Store

/-!
# The cached filter list

One stored entry holds the domains of the list as last fetched. It is used while it is fresh and
replaced as a whole when it is missing, no longer decodes or has become stale. A list that cannot be
fetched is an error; old domains never stand in for it.
-/

namespace Blocklist.Engine

/-- The cache as stored; an entry that does not decode counts as missing. -/
def readCache : Action (Option FilterCache) := do
  match ← Action.readEntry filterCacheKey with
  | none => return none
  | some value => return (FilterCache.ofJson value).toOption

def cacheIsFresh (config : Config) (cache : FilterCache) : Action Bool := do
  return cache.isFresh (← Action.now) config.cacheTtlMs

/-- Fetches the list and stores its domains, whatever was stored before. -/
def refreshCache : Action FilterCache := do
  let text ← Action.fetchList
  let cache : FilterCache := ⟨← Action.now, FilterList.domains text⟩
  Action.writeEntry filterCacheKey cache.toJson
  return cache

/-- The domains of the list: those of a fresh cache, or else those of the list fetched now. -/
def currentDomains (config : Config) : Action (List Domain) := do
  if let some cache ← readCache then
    if ← cacheIsFresh config cache then return cache.domains
  return (← refreshCache).domains

end Blocklist.Engine
