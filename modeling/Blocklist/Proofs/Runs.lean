import Blocklist.Host

/-!
# Programs run on hosts

A run passes through moments: at each of them a host is called, and its answer decides how the
program goes on. `Program.Runs` relates a program and a host to the moments of the run, its value
and the host in the end; every program has exactly one run on every host. The rules below take runs
of actions apart, so that an operation of the engine is followed by its own shape: a bind is a run
after a run unless the first one fails, and a lock that is held adds a moment before and one after.
-/

namespace Blocklist

/-- A host that is about to answer a call. -/
structure Moment where
  host : Host
  call : Call

namespace Moment

def reply (moment : Moment) : moment.call.Reply := (Host.answer moment.call moment.host).1

def later (moment : Moment) : Host := (Host.answer moment.call moment.host).2

end Moment

namespace Program

def moments : Program α → Host → List Moment
  | done _, _ => []
  | ask call next, host =>
    ⟨host, call⟩ :: (next (Moment.reply ⟨host, call⟩)).moments (Moment.later ⟨host, call⟩)

/-- A program runs from a host through some moments to a value, and leaves the last host. -/
inductive Runs : Program α → Host → List Moment → α → Host → Prop where
  | done (value : α) (host : Host) : Runs (.done value) host [] value host
  | ask {call : Call} {next : call.Reply → Program α} {host later : Host} {moments : List Moment}
      {value : α}
      (rest : Runs (next (Moment.reply ⟨host, call⟩)) (Moment.later ⟨host, call⟩)
        moments value later) :
      Runs (.ask call next) host (⟨host, call⟩ :: moments) value later

namespace Runs

variable {program : Program α} {next : α → Program β} {host middle later : Host}
variable {first second moments : List Moment} {value : α} {result : β}

@[simp] theorem done_iff {answer : α} :
    (Program.done value).Runs host moments answer later ↔
      moments = [] ∧ answer = value ∧ later = host := by
  constructor
  · intro runs
    cases runs
    exact ⟨rfl, rfl, rfl⟩
  · rintro ⟨rfl, rfl, rfl⟩
    exact .done _ _

theorem ask_iff {call : Call} {rest : call.Reply → Program α} :
    (Program.ask call rest).Runs host moments value later ↔
      ∃ others, moments = ⟨host, call⟩ :: others ∧
        (rest (Moment.reply ⟨host, call⟩)).Runs (Moment.later ⟨host, call⟩) others value later := by
  constructor
  · intro runs
    cases runs with
    | ask rest => exact ⟨_, rfl, rest⟩
  · rintro ⟨others, rfl, runs⟩
    exact .ask runs

/-- The run of a program is there, and its parts are computed by running it. -/
theorem of_run (program : Program α) (host : Host) :
    program.Runs host (program.moments host) (Host.run program host).1
      (Host.run program host).2 := by
  induction program generalizing host with
  | done value => exact .done value host
  | ask call next ih => exact .ask (ih _ _)

theorem moments_eq (runs : program.Runs host moments value later) :
    program.moments host = moments := by
  induction runs with
  | done => rfl
  | ask _ ih => exact congrArg _ ih

theorem run_eq (runs : program.Runs host moments value later) :
    Host.run program host = (value, later) := by
  induction runs with
  | done => rfl
  | ask _ ih => exact ih

theorem deterministic {others : List Moment} {answer : α} {finish : Host}
    (runs : program.Runs host moments value later)
    (again : program.Runs host others answer finish) :
    moments = others ∧ value = answer ∧ later = finish := by
  have outcome := runs.run_eq.symm.trans again.run_eq
  exact ⟨runs.moments_eq.symm.trans again.moments_eq, congrArg Prod.fst outcome,
    congrArg Prod.snd outcome⟩

theorem bind (front : program.Runs host first value middle)
    (back : (next value).Runs middle second result later) :
    (program.bind next).Runs host (first ++ second) result later := by
  induction front with
  | done => exact back
  | ask _ ih => exact .ask (ih back)

theorem bind_iff :
    (program.bind next).Runs host moments result later ↔
      ∃ value middle first second, program.Runs host first value middle ∧
        (next value).Runs middle second result later ∧ moments = first ++ second := by
  constructor
  · intro runs
    have front := of_run program host
    have back := of_run (next (Host.run program host).1) (Host.run program host).2
    obtain ⟨rfl, rfl, rfl⟩ := runs.deterministic (front.bind back)
    exact ⟨_, _, _, _, front, back, rfl⟩
  · rintro ⟨value, middle, first, second, front, back, rfl⟩
    exact front.bind back

/-- What every answer keeps, a run keeps. -/
theorem keeps (relation : Host → Host → Prop) (refl : ∀ host, relation host host)
    (trans : ∀ {a b c}, relation a b → relation b c → relation a c)
    (runs : program.Runs host moments value later)
    (each : ∀ moment ∈ moments, relation moment.host moment.later) : relation host later := by
  induction runs with
  | done => exact refl _
  | ask _ ih =>
    refine trans (each _ List.mem_cons_self) (ih ?_)
    exact fun moment member => each moment (List.mem_cons_of_mem _ member)

end Runs

end Program

namespace Action

def moments (action : Action α) (host : Host) : List Moment := Program.moments action.run host

/-- An action runs from a host through some moments to an outcome, and leaves the last host. -/
def Performs (action : Action α) (host : Host) (moments : List Moment)
    (outcome : Except EngineError α) (later : Host) : Prop :=
  Program.Runs action.run host moments outcome later

/-- Moments that are those of a run of an action, with an outcome. -/
def Spans (action : Action α) (outcome : Except EngineError α) (moments : List Moment) : Prop :=
  ∃ host later, action.Performs host moments outcome later

/-- An action is performed somewhere in a stretch of moments, with an outcome. -/
def PerformedIn (action : Action α) (outcome : Except EngineError α) (stretch : List Moment) :
    Prop :=
  ∃ moments, action.Spans outcome moments ∧ moments <:+: stretch

theorem PerformedIn.mono {action : Action α} {outcome : Except EngineError α}
    {stretch longer : List Moment} (performed : action.PerformedIn outcome stretch)
    (within : stretch <:+: longer) : action.PerformedIn outcome longer := by
  obtain ⟨moments, spans, part⟩ := performed
  exact ⟨moments, spans, part.trans within⟩

theorem discard_bind {action : Action α} {next : Unit → Action β} :
    (discard action >>= next) = action >>= fun _ => next () := by
  rw [show discard action = (fun _ => ()) <$> action from rfl, bind_map_left]

namespace Performs

variable {action : Action α} {next : α → Action β} {host later : Host} {moments : List Moment}
variable {outcome : Except EngineError α} {result : Except EngineError β}

theorem of_perform (action : Action α) (host : Host) :
    action.Performs host (action.moments host) (Host.perform action host).1
      (Host.perform action host).2 :=
  Program.Runs.of_run action.run host

theorem eq_ok_of_toOption {ε : Type} {outcome : Except ε α} {value : α}
    (succeeds : outcome.toOption = some value) : outcome = .ok value := by
  cases outcome with
  | error error => exact absurd succeeds nofun
  | ok answer => exact congrArg Except.ok (Option.some.inj succeeds)

theorem exists_eq_error_of_toOption {ε : Type} {outcome : Except ε α}
    (fails : outcome.toOption = none) : ∃ error, outcome = .error error := by
  cases outcome with
  | error error => exact ⟨error, rfl⟩
  | ok answer => exact absurd fails nofun

/-- A run that is computed and succeeds. -/
theorem of_toOption {value : α} (succeeds : (Host.perform action host).1.toOption = some value) :
    action.Performs host (action.moments host) (.ok value) (Host.perform action host).2 :=
  eq_ok_of_toOption succeeds ▸ of_perform action host

@[simp] theorem pure_iff {value : α} :
    (pure value : Action α).Performs host moments outcome later ↔
      moments = [] ∧ outcome = .ok value ∧ later = host :=
  Program.Runs.done_iff

@[simp] theorem throw_iff {error : EngineError} :
    (throw error : Action α).Performs host moments outcome later ↔
      moments = [] ∧ outcome = .error error ∧ later = host :=
  Program.Runs.done_iff

/-- A bind fails where its first part fails, or goes on to its second part. -/
theorem bind_iff :
    (action >>= next).Performs host moments result later ↔
      (∃ error, action.Performs host moments (.error error) later ∧ result = .error error) ∨
      ∃ value middle first second, action.Performs host first (.ok value) middle ∧
        (next value).Performs middle second result later ∧ moments = first ++ second := by
  constructor
  · intro runs
    obtain ⟨value, middle, first, second, front, back, rfl⟩ := Program.Runs.bind_iff.mp runs
    cases value with
    | error error =>
      obtain ⟨rfl, rfl, rfl⟩ := Program.Runs.done_iff.mp back
      rw [List.append_nil]
      exact .inl ⟨error, front, rfl⟩
    | ok value => exact .inr ⟨value, middle, first, second, front, back, rfl⟩
  · rintro (⟨error, front, rfl⟩ | ⟨value, middle, first, second, front, back, rfl⟩)
    · exact Program.Runs.bind_iff.mpr
        ⟨.error error, later, moments, [], front, .done _ _, (List.append_nil _).symm⟩
    · exact Program.Runs.bind_iff.mpr ⟨.ok value, middle, first, second, front, back, rfl⟩

/-- A bind that succeeds, succeeds in both parts. -/
theorem bind_ok_iff {answer : β} :
    (action >>= next).Performs host moments (.ok answer) later ↔
      ∃ value middle first second, action.Performs host first (.ok value) middle ∧
        (next value).Performs middle second (.ok answer) later ∧ moments = first ++ second := by
  rw [bind_iff]
  constructor
  · rintro (⟨error, -, failed⟩ | succeeds)
    · contradiction
    · exact succeeds
  · exact .inr

/-- A first part that succeeds and a second part after it. -/
theorem bind {value : α} {middle : Host} {first second : List Moment}
    (front : action.Performs host first (.ok value) middle)
    (back : (next value).Performs middle second result later) :
    (action >>= next).Performs host (first ++ second) result later :=
  bind_iff.mpr (.inr ⟨value, middle, first, second, front, back, rfl⟩)

theorem map_iff {f : α → β} :
    (f <$> action).Performs host moments result later ↔
      ∃ outcome, action.Performs host moments outcome later ∧ result = outcome.map f := by
  rw [map_eq_pure_bind, bind_iff]
  constructor
  · rintro (⟨error, runs, rfl⟩ | ⟨value, middle, first, second, runs, back, rfl⟩)
    · exact ⟨.error error, runs, rfl⟩
    · obtain ⟨rfl, rfl, rfl⟩ := pure_iff.mp back
      exact ⟨.ok value, by simpa using runs, rfl⟩
  · rintro ⟨outcome, runs, rfl⟩
    cases outcome with
    | error error => exact .inl ⟨error, runs, rfl⟩
    | ok value =>
      exact .inr ⟨value, later, moments, [], runs, pure_iff.mpr ⟨rfl, rfl, rfl⟩, by simp⟩

/-- An action of a single call has that call's moment alone. -/
theorem call_iff {call : Call} {finish : call.Reply → Except EngineError α} :
    Action.Performs (.mk (.ask call fun reply => .done (finish reply))) host moments outcome
        later ↔
      moments = [⟨host, call⟩] ∧ outcome = finish (Moment.reply ⟨host, call⟩) ∧
        later = Moment.later ⟨host, call⟩ := by
  constructor
  · intro runs
    obtain ⟨others, rfl, rest⟩ := Program.Runs.ask_iff.mp runs
    obtain ⟨rfl, rfl, rfl⟩ := Program.Runs.done_iff.mp rest
    exact ⟨rfl, rfl, rfl⟩
  · rintro ⟨rfl, rfl, rfl⟩
    exact .ask (.done _ _)

theorem outcome_iff {result : Except EngineError (Except EngineError α)} :
    (Action.outcome action).Performs host moments result later ↔
      ∃ outcome, action.Performs host moments outcome later ∧ result = .ok outcome := by
  constructor
  · intro runs
    obtain ⟨outcome, middle, first, second, front, back, rfl⟩ := Program.Runs.bind_iff.mp runs
    obtain ⟨rfl, rfl, rfl⟩ := Program.Runs.done_iff.mp back
    rw [List.append_nil]
    exact ⟨outcome, front, rfl⟩
  · rintro ⟨outcome, runs, rfl⟩
    exact Program.Runs.bind_iff.mpr
      ⟨outcome, later, moments, [], runs, .done _ _, (List.append_nil _).symm⟩

/-- An action that is tried goes on with its outcome, a failure included. -/
theorem outcome_bind_iff {next : Except EngineError α → Action β} :
    (Action.outcome action >>= next).Performs host moments result later ↔
      ∃ outcome middle first second, action.Performs host first outcome middle ∧
        (next outcome).Performs middle second result later ∧ moments = first ++ second := by
  rw [bind_iff]
  constructor
  · rintro (⟨error, tries, -⟩ | ⟨outcome, middle, first, second, tries, goesOn, rfl⟩)
    · obtain ⟨_, -, impossible⟩ := outcome_iff.mp tries
      exact absurd impossible nofun
    · obtain ⟨_, performs, same⟩ := outcome_iff.mp tries
      obtain rfl := Except.ok.inj same
      exact ⟨outcome, middle, first, second, performs, goesOn, rfl⟩
  · rintro ⟨outcome, middle, first, second, performs, goesOn, rfl⟩
    exact .inr ⟨outcome, middle, first, second, outcome_iff.mpr ⟨_, performs, rfl⟩, goesOn, rfl⟩

theorem holding_iff {lock : Lock} :
    (Action.holding lock action).Performs host moments outcome later ↔
      ∃ held finish, action.Performs (Moment.later ⟨host, .acquire lock⟩) held outcome finish ∧
        moments = ⟨host, .acquire lock⟩ :: held ++ [⟨finish, .release lock⟩] ∧
        later = Moment.later ⟨finish, .release lock⟩ := by
  constructor
  · intro runs
    obtain ⟨others, rfl, body⟩ := Program.Runs.ask_iff.mp runs
    obtain ⟨value, finish, held, last, held', back, rfl⟩ := Program.Runs.bind_iff.mp body
    obtain ⟨nothing, rfl, done⟩ := Program.Runs.ask_iff.mp back
    obtain ⟨rfl, rfl, rfl⟩ := Program.Runs.done_iff.mp done
    exact ⟨held, finish, held', rfl, rfl⟩
  · rintro ⟨held, finish, runs, rfl, rfl⟩
    exact .ask (Program.Runs.bind_iff.mpr
      ⟨outcome, finish, held, [⟨finish, .release lock⟩], runs, .ask (.done _ _), rfl⟩)

end Performs

end Action

end Blocklist
