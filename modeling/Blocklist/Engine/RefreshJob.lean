import Blocklist.Engine.Controller
import Blocklist.Host

/-!
# The scheduled refresh

A job that refreshes once per period. Time is counted in milliseconds from any fixed moment on. The
tick at the job's start is passed over, so the first refresh is due one period later; each refresh
is due one period after the one before, however long that took and whether or not it failed. A job
without a period ends at once, and a cancelled one makes no further call.
-/

namespace Blocklist

/-- Ticks in time: one at the start, and then one per period. -/
structure Ticks where
  periodMs : Nat
  /-- The time of the next tick. -/
  next : Nat
deriving DecidableEq, Repr

namespace Ticks

/-- The ticks from a time on; the first is due at once. -/
def start (periodMs now : Nat) : Ticks := ⟨periodMs, now⟩

def tail (ticks : Ticks) : Ticks := { ticks with next := ticks.next + ticks.periodMs }

end Ticks

/-- A job that is waiting for its next tick. -/
structure RefreshJob where
  ticks : Ticks
  /-- Whether the job still waits for ticks. -/
  running : Bool
deriving DecidableEq, Repr

namespace RefreshJob

def start (periodMs now : Nat) : RefreshJob := ⟨(Ticks.start periodMs now).tail, periodMs != 0⟩

def cancel (job : RefreshJob) : RefreshJob := { job with running := false }

def isDue (job : RefreshJob) (now : Nat) : Bool := job.running && job.ticks.next ≤ now

/-- The job after a tick. -/
def tick (job : RefreshJob) : RefreshJob := { job with ticks := job.ticks.tail }

/-- Lets time pass: refreshes at every tick up to the given time, whatever becomes of the
refreshes. -/
def advance (config : Config) (now : Nat) (job : RefreshJob) : StateM Host RefreshJob :=
  if _due : job.isDue now ∧ 0 < job.ticks.periodMs then do
    let _ ← Host.perform (Engine.refresh config)
    advance config now job.tick
  else
    return job
termination_by now + 1 - job.ticks.next
decreasing_by
  simp only [isDue, Bool.and_eq_true, decide_eq_true_eq] at _due
  simp only [tick, Ticks.tail]
  omega

end RefreshJob

end Blocklist
