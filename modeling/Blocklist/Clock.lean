/-!
# Clocks

What the library needs to know about time, for any monad that can tell it.
-/

namespace Blocklist

class Clock (m : Type → Type) where
  /-- The time in milliseconds since the start of 1970. -/
  unixMillis : m Int64
  /-- The time in nanoseconds since some fixed moment. -/
  stopwatch : m Nat

end Blocklist
