import Blocklist.Proofs.Confinement

/-!
# The course of a mode change

A mode change reads the stored mode and, when another one is asked for, applies the asked one,
stores it and tells the active tab. Reading, applying and storing can fail. The course of a change
says which of these steps it took, each of them with its own run, so that whatever is to be known of
a change is read off its course.
-/

namespace Blocklist.Engine

open Blocklist.Action

variable {config : Config} {previous mode : Mode} {host later : Host} {moments : List Moment}

/-! ## The stored state -/

/-- The state that a stored value stands for; nothing stands for the default one. -/
def stateOf : Option Json → Except EngineError State
  | none => .ok default
  | some value => (State.ofJson value).mapError fun cause => .storage cause.message

/-- The current state takes one call, and is what the reply to it stands for. -/
theorem currentState_eq :
    currentState = .mk (.ask (.readEntry stateKey) fun reply => .done (reply.bind stateOf)) := by
  refine congrArg (Program.ask (.readEntry stateKey)) (funext fun reply => ?_)
  rcases reply with error | (_ | value)
  · rfl
  · rfl
  · change ((some <$> Action.stored (State.ofJson value)).run.bind _ : Program _) = _
    simp only [Except.bind, stateOf]
    cases State.ofJson value <;> rfl

theorem currentState_iff {outcome : Except EngineError State} :
    currentState.Performs host moments outcome later ↔
      moments = [⟨host, .readEntry stateKey⟩] ∧
        outcome = (Moment.reply ⟨host, .readEntry stateKey⟩).bind stateOf ∧
        later = Moment.later ⟨host, .readEntry stateKey⟩ := by
  rw [currentState_eq]
  exact Performs.call_iff

/-! ## Changing the mode -/

/-- What follows in a mode change when another mode is stored. -/
def changeMode (config : Config) (previous mode : Mode) : Action State := do
  discard (synchronize config mode)
  match ← Action.outcome (saveState ⟨mode⟩) with
  | .error error =>
    discard (Action.outcome (synchronize config previous))
    throw error
  | .ok () =>
    Action.notifyActiveTab ⟨mode⟩
    return ⟨mode⟩

theorem setMode_eq (config : Config) (mode : Mode) :
    setMode config mode = Action.holding .mode (do
      let current ← currentState
      if current.mode = mode then return current else changeMode config current.mode mode) := rfl

/-- The steps from one mode to another. -/
inductive Change (config : Config) (previous mode : Mode) (host : Host) :
    List Moment → Except EngineError State → Host → Prop where
  /-- The rules cannot be applied. -/
  | unapplied {applying : List Moment} {error : EngineError} {later : Host}
      (applies : (synchronize config mode).Performs host applying (.error error) later) :
      Change config previous mode host applying (.error error) later
  /-- The mode cannot be stored, and the rules of the previous one are put back or not. -/
  | unstored {applying saving rolling : List Moment} {report : SyncReport} {error : EngineError}
      {rolled : Except EngineError SyncReport} {applied unsaved later : Host}
      (applies : (synchronize config mode).Performs host applying (.ok report) applied)
      (saves : (saveState ⟨mode⟩).Performs applied saving (.error error) unsaved)
      (rolls : (synchronize config previous).Performs unsaved rolling rolled later) :
      Change config previous mode host (applying ++ (saving ++ rolling)) (.error error) later
  /-- The mode is stored, and the active tab is told. -/
  | stored {applying saving telling : List Moment} {report : SyncReport}
      {applied saved later : Host}
      (applies : (synchronize config mode).Performs host applying (.ok report) applied)
      (saves : (saveState ⟨mode⟩).Performs applied saving (.ok ()) saved)
      (tells : (Action.notifyActiveTab ⟨mode⟩).Performs saved telling (.ok ()) later) :
      Change config previous mode host (applying ++ (saving ++ telling)) (.ok ⟨mode⟩) later

/-- What a mode change does while it holds its lock. -/
inductive Course (config : Config) (mode : Mode) (host : Host) :
    List Moment → Except EngineError State → Host → Prop where
  /-- The stored mode cannot be read. -/
  | unread {reading : List Moment} {error : EngineError} {later : Host}
      (reads : currentState.Performs host reading (.error error) later) :
      Course config mode host reading (.error error) later
  /-- The mode is stored already, and nothing is done. -/
  | kept {reading : List Moment} {later : Host}
      (reads : currentState.Performs host reading (.ok ⟨mode⟩) later) :
      Course config mode host reading (.ok ⟨mode⟩) later
  | changed {previous : Mode} {reading changing : List Moment}
      {outcome : Except EngineError State} {found later : Host} (differs : previous ≠ mode)
      (reads : currentState.Performs host reading (.ok ⟨previous⟩) found)
      (changes : Change config previous mode found changing outcome later) :
      Course config mode host (reading ++ changing) outcome later

/-- Telling the active tab never fails. -/
theorem notifyActiveTab_ok {state : State} {outcome : Except EngineError Unit}
    (performs : (Action.notifyActiveTab state).Performs host moments outcome later) :
    outcome = .ok () := (Performs.call_iff.mp performs).2.1

theorem change_of_changeMode {outcome : Except EngineError State}
    (performs : (changeMode config previous mode).Performs host moments outcome later) :
    Change config previous mode host moments outcome later := by
  unfold changeMode at performs
  rw [discard_bind] at performs
  rcases Performs.bind_iff.mp performs with
    ⟨error, applies, rfl⟩ | ⟨report, applied, applying, _, applies, goesOn, rfl⟩
  · exact .unapplied applies
  obtain ⟨written, middle, saving, finishing, saves, finishes, rfl⟩ :=
    Performs.outcome_bind_iff.mp goesOn
  cases written with
  | error error =>
    simp only [discard_bind] at finishes
    obtain ⟨rolled, finish, rolling, _, rolls, throws, rfl⟩ := Performs.outcome_bind_iff.mp finishes
    obtain ⟨rfl, rfl, rfl⟩ := Performs.throw_iff.mp throws
    rw [List.append_nil]
    exact .unstored applies saves rolls
  | ok _ =>
    rcases Performs.bind_iff.mp finishes with
      ⟨error, tells, -⟩ | ⟨_, told, telling, _, tells, returns, rfl⟩
    · exact absurd (notifyActiveTab_ok tells) nofun
    · obtain ⟨rfl, rfl, rfl⟩ := Performs.pure_iff.mp returns
      rw [List.append_nil]
      exact .stored applies saves tells

/-- A mode change runs its course between taking the lock and giving it back. -/
theorem course_of_setMode {outcome : Except EngineError State}
    (performs : (setMode config mode).Performs host moments outcome later) :
    ∃ held finish, Course config mode (Moment.later ⟨host, .acquire .mode⟩) held outcome finish ∧
      moments = ⟨host, .acquire .mode⟩ :: held ++ [⟨finish, .release .mode⟩] ∧
      later = Moment.later ⟨finish, .release .mode⟩ := by
  rw [setMode_eq] at performs
  obtain ⟨held, finish, body, rfl, rfl⟩ := Performs.holding_iff.mp performs
  refine ⟨held, finish, ?_, rfl, rfl⟩
  rcases Performs.bind_iff.mp body with
    ⟨error, reads, rfl⟩ | ⟨⟨previous⟩, found, reading, changing, reads, goesOn, rfl⟩
  · exact .unread reads
  by_cases same : previous = mode
  · subst same
    rw [if_pos rfl] at goesOn
    obtain ⟨rfl, rfl, rfl⟩ := Performs.pure_iff.mp goesOn
    rw [List.append_nil]
    exact .kept reads
  · rw [if_neg same] at goesOn
    exact .changed same reads (change_of_changeMode goesOn)

end Blocklist.Engine
