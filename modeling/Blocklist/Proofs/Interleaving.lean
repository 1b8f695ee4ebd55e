import Blocklist.Proofs.Runs
import Mathlib.Logic.Function.Basic

/-!
# Tasks that overlap

Any number of tasks share one host. A task can be suspended at each of its calls, so a schedule may
hand out the turns in any order; at its turn a task makes its next call and takes the reply, unless
it has ended or asks for a lock that is held, when the turn passes it by. So the schedules give
exactly the interleavings that respect the locks. What every call keeps, a whole schedule keeps
(`Crowd.play_keeps`).
-/

namespace Blocklist

def Program.HasEnded (program : Program α) : Prop := ∃ value, program = .done value

instance Program.decidableHasEnded : (program : Program α) → Decidable program.HasEnded
  | .done value => isTrue ⟨value, rfl⟩
  | .ask _ _ => isFalse nofun

/-- Tasks that share a host. -/
structure Crowd (ι α : Type) where
  host : Host
  /-- What is left of each task. -/
  task : ι → Program α
  /-- The task that holds a lock. -/
  holder : Lock → Option ι := fun _ => none
  /-- The moments so far, in order, each with the task that made the call. -/
  history : List (ι × Moment) := []

namespace Crowd

variable {ι α : Type}

def isBlocked (crowd : Crowd ι α) : Call → Bool
  | .acquire lock => (crowd.holder lock).isSome
  | _ => false

/-- A lock that a task need not wait for is free. -/
theorem holder_eq_none {crowd : Crowd ι α} {lock : Lock}
    (free : crowd.isBlocked (.acquire lock) = false) :
    crowd.holder lock = none :=
  Option.not_isSome_iff_eq_none.mp (Bool.eq_false_iff.mp free)

variable [DecidableEq ι]

def holderAfter (crowd : Crowd ι α) (i : ι) : Call → Lock → Option ι
  | .acquire lock => Function.update crowd.holder lock (some i)
  | .release lock => Function.update crowd.holder lock none
  | _ => crowd.holder

/-- A task makes a call and goes on with the reply. -/
def after (crowd : Crowd ι α) (i : ι) (call : Call) (next : call.Reply → Program α) : Crowd ι α :=
  let moment : Moment := ⟨crowd.host, call⟩
  { host := moment.later
    task := Function.update crowd.task i (next moment.reply)
    holder := crowd.holderAfter i call
    history := crowd.history ++ [(i, moment)] }

def turn (crowd : Crowd ι α) (i : ι) : Crowd ι α :=
  match crowd.task i with
  | .done _ => crowd
  | .ask call next => if crowd.isBlocked call then crowd else crowd.after i call next

def play (schedule : List ι) (crowd : Crowd ι α) : Crowd ι α := schedule.foldl turn crowd

def Ended (crowd : Crowd ι α) : Prop := ∀ i, (crowd.task i).HasEnded

variable {crowd : Crowd ι α}

theorem turn_cases (crowd : Crowd ι α) (i : ι) :
    crowd.turn i = crowd ∨ ∃ call next, crowd.task i = .ask call next ∧
      crowd.isBlocked call = false ∧ crowd.turn i = crowd.after i call next := by
  unfold turn
  cases task : crowd.task i with
  | done value => exact .inl rfl
  | ask call next =>
    cases blocked : crowd.isBlocked call with
    | true => exact .inl (if_pos blocked)
    | false => exact .inr ⟨call, next, rfl, blocked, if_neg (by simp [blocked])⟩

theorem history_turn (crowd : Crowd ι α) (i : ι) : crowd.history <+: (crowd.turn i).history := by
  rcases crowd.turn_cases i with idle | ⟨call, next, -, -, turned⟩
  · exact idle.symm ▸ List.prefix_refl crowd.history
  · rw [turned]
    exact List.prefix_append _ _

theorem history_play (schedule : List ι) (crowd : Crowd ι α) :
    crowd.history <+: (crowd.play schedule).history := by
  induction schedule generalizing crowd with
  | nil => exact List.prefix_refl _
  | cons i schedule ih => exact (crowd.history_turn i).trans (ih (crowd.turn i))

/-- What is kept by every call of a task at its turn is kept by a schedule, where every moment of
the schedule may be taken to satisfy a condition. -/
theorem play_keeps {Kept : Crowd ι α → Prop} {condition : ι × Moment → Prop}
    (step : ∀ {crowd : Crowd ι α} {i : ι} {call : Call} {next : call.Reply → Program α},
      Kept crowd → crowd.task i = .ask call next → crowd.isBlocked call = false →
      condition (i, ⟨crowd.host, call⟩) → Kept (crowd.after i call next))
    (schedule : List ι) {crowd : Crowd ι α} (start : Kept crowd)
    (each : ∀ entry ∈ (crowd.play schedule).history, condition entry) :
    Kept (crowd.play schedule) := by
  induction schedule generalizing crowd with
  | nil => exact start
  | cons i schedule ih =>
    refine ih ?_ each
    rcases crowd.turn_cases i with idle | ⟨call, next, task, free, turned⟩
    · rw [idle]
      exact start
    · have known : (i, ⟨crowd.host, call⟩) ∈ (crowd.turn i).history := by
        rw [turned]
        exact List.mem_append_right _ List.mem_cons_self
      rw [turned]
      exact step start task free (each _ ((history_play schedule _).subset known))

/-! ## After a call -/

@[simp] theorem task_after_self (i : ι) (call : Call) (next : call.Reply → Program α) :
    (crowd.after i call next).task i = next (Moment.reply ⟨crowd.host, call⟩) :=
  Function.update_self _ _ _

theorem task_after_of_ne {i j : ι} (other : j ≠ i) (call : Call)
    (next : call.Reply → Program α) : (crowd.after i call next).task j = crowd.task j :=
  Function.update_of_ne other _ _

end Crowd

end Blocklist
