import Blocklist.Proofs.Sessions

/-!
# Telling tabs

Nobody waits for a tab. Where a program tells one the state it goes on in the same way whatever the
tab answers, so what the notifier does in a session changes neither an outcome nor anything about
the host. Most operations do not tell a tab at all, and do not store a mode either; they are
routine.
-/

namespace Blocklist

namespace Call

def isNotice : Call → Bool
  | notifyTab _ _ => true
  | notifyActiveTab _ => true
  | _ => false

/-- A call that neither tells a tab nor stores a mode. -/
structure IsRoutine (call : Call) : Prop where
  untold : call.isNotice = false
  keepsMode : call.KeepsMode

variable {call : Call}

theorem isQuiet_of_isNotice (notice : call.isNotice = true) : call.IsQuiet := by
  cases call with
  | notifyTab => trivial
  | notifyActiveTab => trivial
  | _ => contradiction

theorem isRoutine_writeEntry {key : String} (other : key ≠ stateKey) (value : Json) :
    IsRoutine (.writeEntry key value) := by
  refine ⟨rfl, ?_⟩
  rintro _ ⟨⟩
  exact other rfl

theorem ConcernsList.isRoutine (concerns : call.ConcernsList) : call.IsRoutine := by
  cases concerns with
  | write cache => exact isRoutine_writeEntry (by decide) cache.toJson
  | _ => exact ⟨rfl, nofun⟩

theorem ReadsFigures.isRoutine (reads : call.ReadsFigures) : call.IsRoutine := by
  cases reads <;> exact ⟨rfl, nofun⟩

theorem ConcernsFigures.isRoutine (concerns : call.ConcernsFigures) : call.IsRoutine := by
  cases concerns with
  | reads reads => exact reads.isRoutine
  | write stats => exact isRoutine_writeEntry (by decide) (StoredStats.mk stats).toJson

theorem ConcernsRules.isRoutine (concerns : call.ConcernsRules) : call.IsRoutine := by
  cases concerns with
  | list concerns => exact concerns.isRoutine
  | _ => exact ⟨rfl, nofun⟩

end Call

/-! ## Routine operations -/

namespace Engine

open Blocklist.Action

variable (config : Config)

theorem isRoutine_currentState : currentState.Uses Call.IsRoutine :=
  uses_currentState.mono fun _ read => read ▸ ⟨rfl, nofun⟩

theorem isRoutine_refreshCache : refreshCache.Uses Call.IsRoutine :=
  uses_refreshCache.mono fun _ => Call.ConcernsList.isRoutine

theorem isRoutine_synchronize (mode : Mode) : (synchronize config mode).Uses Call.IsRoutine :=
  (uses_synchronize config mode).mono fun _ => Call.ConcernsRules.isRoutine

theorem isRoutine_applyStored : (applyStored config).Uses Call.IsRoutine :=
  Uses.holding ⟨rfl, nofun⟩ ⟨rfl, nofun⟩
    (isRoutine_currentState.bind fun state => isRoutine_synchronize config state.mode)

theorem isRoutine_refresh : (refresh config).Uses Call.IsRoutine :=
  Uses.bind isRoutine_refreshCache.map fun _ => isRoutine_applyStored config

theorem isRoutine_installed : (installed config).Uses Call.IsRoutine :=
  Uses.bind isRoutine_refreshCache.map fun _ => isRoutine_applyStored config

theorem isRoutine_rollSession : (rollSession config).Uses Call.IsRoutine :=
  (uses_rollSession config).mono fun _ => Call.ConcernsFigures.isRoutine

theorem isRoutine_startup : (startup config).Uses Call.IsRoutine :=
  Uses.bind (isRoutine_rollSession config).map fun _ => isRoutine_applyStored config

theorem isRoutine_statsReport (tab : Option TabId) :
    (statsReport config tab).Uses Call.IsRoutine :=
  (uses_statsReport config tab).mono fun _ => Call.ReadsFigures.isRoutine

end Engine

/-! ## Whatever a tab answers -/

namespace Program

variable {program : Program α} {next : α → Program β}

/-- A program goes on in the same way whatever a tab that it tells answers. -/
def IgnoresTabs : Program α → Prop
  | done _ => True
  | ask call next =>
    (call.isNotice = true → ∀ reply other, next reply = next other) ∧
      ∀ reply, (next reply).IgnoresTabs

theorem IgnoresTabs.of_uses (routine : program.Uses Call.IsRoutine) : program.IgnoresTabs := by
  induction program with
  | done value => trivial
  | ask call next ih =>
    refine ⟨fun notice => ?_, fun reply => ih reply (routine.2 reply)⟩
    exact absurd (routine.1.untold.symm.trans notice) nofun

theorem IgnoresTabs.bind (front : program.IgnoresTabs) (back : ∀ value, (next value).IgnoresTabs) :
    (program.bind next).IgnoresTabs := by
  induction program with
  | done value => exact back value
  | ask call rest ih =>
    refine ⟨fun notice reply other => ?_, fun reply => ih reply (front.2 reply)⟩
    exact congrArg (Program.bind · next) (front.1 notice reply other)

end Program

namespace Action

variable {action : Action α} {next : α → Action β}

def IgnoresTabs (action : Action α) : Prop := Program.IgnoresTabs action.run

namespace IgnoresTabs

theorem of_uses (routine : action.Uses Call.IsRoutine) : action.IgnoresTabs :=
  Program.IgnoresTabs.of_uses routine

theorem bind (front : action.IgnoresTabs) (back : ∀ value, (next value).IgnoresTabs) :
    (action >>= next).IgnoresTabs := by
  refine Program.IgnoresTabs.bind front ?_
  rintro (error | value)
  · trivial
  · exact back value

theorem map {f : α → β} (ignores : action.IgnoresTabs) : (f <$> action).IgnoresTabs := by
  rw [map_eq_pure_bind]
  exact ignores.bind fun value => trivial

theorem outcome (ignores : action.IgnoresTabs) : (Action.outcome action).IgnoresTabs :=
  Program.IgnoresTabs.bind ignores fun _ => trivial

theorem holding {lock : Lock} (ignores : action.IgnoresTabs) :
    (Action.holding lock action).IgnoresTabs :=
  ⟨nofun, fun _ => Program.IgnoresTabs.bind ignores fun _ => ⟨nofun, fun _ => trivial⟩⟩

theorem settle (ignores : action.IgnoresTabs) : action.settle.IgnoresTabs :=
  Program.IgnoresTabs.bind ignores fun _ => trivial

end IgnoresTabs

end Action

namespace Engine

open Blocklist.Action

variable (config : Config)

theorem ignoresTabs_changeMode (previous mode : Mode) :
    (changeMode config previous mode).IgnoresTabs := by
  have synchronizes (mode : Mode) : (synchronize config mode).IgnoresTabs :=
    .of_uses (isRoutine_synchronize config mode)
  have saves : (saveState ⟨mode⟩).IgnoresTabs := ⟨nofun, fun _ => trivial⟩
  refine (synchronizes mode).map.bind fun _ => saves.outcome.bind ?_
  rintro (error | _)
  · exact (synchronizes previous).outcome.map.bind fun _ => trivial
  · exact IgnoresTabs.bind ⟨fun _ _ _ => rfl, fun _ => trivial⟩ fun _ => trivial

theorem ignoresTabs_setMode (mode : Mode) : (setMode config mode).IgnoresTabs := by
  rw [setMode_eq]
  refine IgnoresTabs.holding ((IgnoresTabs.of_uses isRoutine_currentState).bind fun current => ?_)
  split
  · trivial
  · exact ignoresTabs_changeMode config current.mode mode

theorem ignoresTabs_handle (command : Command) : (handle config command).IgnoresTabs := by
  cases command with
  | getState => exact (IgnoresTabs.of_uses isRoutine_currentState).map
  | setMode mode => exact (ignoresTabs_setMode config mode).map
  | applyToTab tab =>
    refine (IgnoresTabs.of_uses isRoutine_currentState).bind fun state => ?_
    exact IgnoresTabs.bind ⟨fun _ _ _ => rfl, fun _ => trivial⟩ fun _ => trivial
  | getStats tab => exact (IgnoresTabs.of_uses (isRoutine_statsReport config tab)).map

theorem ignoresTabs_handleMessage (message : Json) :
    (handleMessage config message).IgnoresTabs := by
  unfold handleMessage
  split
  · trivial
  split
  · trivial
  · refine Program.IgnoresTabs.bind (ignoresTabs_handle config _) ?_
    rintro (error | reply)
    · trivial
    · trivial

end Engine

open Engine Blocklist.Action in
theorem Operation.ignoresTabs (config : Config) (operation : Operation) :
    (operation.program config).IgnoresTabs := by
  have routine {α : Type} {action : Action α} (uses : action.Uses Call.IsRoutine) :
      action.settle.IgnoresTabs := (IgnoresTabs.of_uses uses).settle
  cases operation with
  | command asked => exact (ignoresTabs_handle config asked).settle
  | message value =>
    exact Program.IgnoresTabs.bind (ignoresTabs_handleMessage config value) fun _ => trivial
  | setMode mode => exact (ignoresTabs_setMode config mode).settle
  | installed => exact routine (isRoutine_installed config)
  | startup => exact routine (isRoutine_startup config)
  | refresh => exact routine (isRoutine_refresh config)
  | refreshCache => exact routine isRoutine_refreshCache
  | currentDomains =>
    exact routine ((uses_currentDomains config).mono fun _ => Call.ConcernsList.isRoutine)
  | rollSession => exact routine (isRoutine_rollSession config)

/-! ## Another notifier -/

/-- An environment whose notifier refuses other calls. -/
def Environment.withNotifier (environment : Environment) (refusal : Nat → Call → Option String) :
    Environment :=
  { environment with
    refusal := fun number call =>
      if call.isNotice then refusal number call else environment.refusal number call }

namespace Host

variable (host : Host) (refusal : Nat → Call → Option String)

def withNotifier : Host := { host with environment := host.environment.withNotifier refusal }

variable {host refusal}

theorem noting_withNotifier (call : Call) :
    (host.withNotifier refusal).noting call = (host.noting call).withNotifier refusal := rfl

/-- Any other call is served alike. -/
theorem serve_withNotifier (number : Nat) (call : Call) :
    serve number call (host.withNotifier refusal) =
      ((serve number call host).1, (serve number call host).2.withNotifier refusal) := by
  obtain ⟨surface, store, source, files, environment, calls, callCount⟩ := host
  cases call with
  | fetchList => cases source <;> rfl
  | readEntry key => cases store <;> rfl
  | writeEntry key value => cases store <;> rfl
  | replaceRules removed added =>
    simp only [serve, replaceRules, withNotifier]
    cases surface.replace removed added <;> rfl
  | _ => rfl

theorem answer_withNotifier {call : Call} (other : call.isNotice = false) :
    answer call (host.withNotifier refusal) =
      ((answer call host).1, (answer call host).2.withNotifier refusal) := by
  have same : (host.withNotifier refusal).refusalOf call = host.refusalOf call := by
    simp only [refusalOf, withNotifier, Environment.withNotifier, other, Bool.false_eq_true,
      if_false]
  cases refuses : host.refusalOf call with
  | some reply =>
    rw [answer_of_refused refuses, answer_of_refused (same.trans refuses), noting_withNotifier]
  | none =>
    rw [answer_of_served refuses, answer_of_served (same.trans refuses), noting_withNotifier]
    exact serve_withNotifier _ _

/-- What the notifier refuses changes neither what comes of a program nor the host that it
leaves. -/
theorem run_withNotifier {program : Program α} (ignores : program.IgnoresTabs) (host : Host) :
    run program (host.withNotifier refusal) =
      ((run program host).1, (run program host).2.withNotifier refusal) := by
  induction program generalizing host with
  | done value => rfl
  | ask call next ih =>
    cases notice : call.isNotice with
    | false =>
      change run (next (answer call (host.withNotifier refusal)).1)
        (answer call (host.withNotifier refusal)).2 = _
      rw [answer_withNotifier notice]
      exact ih _ (ignores.2 _) _
    | true =>
      -- Either way the call is only noted, and the program goes on alike.
      have quiet := Call.isQuiet_of_isNotice notice
      have noted (host : Host) : (answer call host).2 = host.noting call :=
        Moment.later_of_quiet quiet
      change run (next (answer call (host.withNotifier refusal)).1)
        (answer call (host.withNotifier refusal)).2 =
          ((run (next (answer call host).1) (answer call host).2).1, _)
      rw [noted, noting_withNotifier, ignores.1 notice _ (answer call host).1,
        ih _ (ignores.2 _) (host.noting call), ← noted host]
      rfl

end Host

/-- What the notifier refuses in a session changes nothing about the host. -/
theorem Session.ending_withNotifier (config : Config) (events : List Event)
    (refusal : Nat → Call → Option String) (host : Host) :
    ending config events (host.withNotifier refusal) =
      (ending config events host).withNotifier refusal := by
  induction events generalizing host with
  | nil => rfl
  | cons event events ih =>
    have step : event.later config (host.withNotifier refusal) =
        (event.later config host).withNotifier refusal := by
      cases event with
      | operation asked =>
        exact congrArg Prod.snd (Host.run_withNotifier (asked.ignoresTabs config) host)
      | matched tab => rfl
      | restarted => rfl
    rw [ending, step, ih, ending]

end Blocklist
