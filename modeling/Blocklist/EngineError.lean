/-!
# Errors of the engine

What can go wrong when the engine asks its host for something. Parsing and compiling never fail.
-/

namespace Blocklist

/-- Why an operation of the engine failed. -/
inductive EngineError where
  | fetch (detail : String)
  | storage (detail : String)
  | enforcement (detail : String)
deriving DecidableEq, Repr

namespace EngineError

def message : EngineError → String
  | fetch detail => "Failed to fetch filter list: " ++ detail
  | storage detail => "Storage error: " ++ detail
  | enforcement detail => "Rule update rejected: " ++ detail

end EngineError

end Blocklist
