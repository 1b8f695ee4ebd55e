import Blocklist.Proofs.ModeCourse
import Blocklist.Proofs.Synchronization

/-!
# Rules and the stored mode

Which rules are active and which mode is stored are changed by different calls, so a stretch of
moments can do one of three things to the pair. It can leave both alone. It can bring them in step:
the last replacement was a synchronization with the mode that is stored now. Or it can leave them
out of step: a mode was applied and could not be stored, and putting the rules of the stored mode
back failed as well. These effects compose, which takes them from single calls to operations and
from operations to whole sessions.
-/

namespace Blocklist

/-! ## The stored mode -/

/-- The mode that is stored, or the default one when none is. There is none when what is stored
cannot be read or is no state. -/
def Host.storedMode (host : Host) : Option Mode :=
  match host.entry stateKey with
  | .ok none => some default
  | .ok (some value) => (State.ofJson value).toOption.map (·.mode)
  | .error _ => none

inductive Moment.RefusesEntry (key : String) (value : Json) : Moment → Prop where
  | intro {host : Host} {error : EngineError}
      (refused : (Moment.mk host (.writeEntry key value)).reply = .error error) :
      RefusesEntry key value ⟨host, .writeEntry key value⟩

theorem Host.storedMode_congr {a b : Host} (same : a.entry stateKey = b.entry stateKey) :
    a.storedMode = b.storedMode := by
  unfold storedMode
  rw [same]

theorem Host.storedMode_eq_some_iff {host : Host} {mode : Mode} :
    host.storedMode = some mode ↔ (host.entry stateKey).bind Engine.stateOf = .ok ⟨mode⟩ := by
  unfold storedMode
  rcases host.entry stateKey with error | (_ | value)
  · simp [Except.bind]
  · simp [Except.bind, Engine.stateOf, default]
  · simp only [Except.bind, Engine.stateOf]
    cases State.ofJson value with
    | error cause =>
      change none = some mode ↔ Except.error (EngineError.storage cause.message) = .ok (State.mk mode)
      simp
    | ok state =>
      obtain ⟨stored⟩ := state
      change some stored = some mode ↔ Except.ok (State.mk stored) = .ok ⟨mode⟩
      simp

theorem Host.storedMode_of_entry {host : Host} {state : State}
    (held : host.entry stateKey = .ok (some state.toJson)) : host.storedMode = some state.mode := by
  refine storedMode_eq_some_iff.mpr ?_
  rw [held, Except.bind, Engine.stateOf, State.ofJson_toJson]
  rfl

namespace Engine

open Blocklist.Action

/-- A state that is read is the stored one, or the default one. -/
theorem storedMode_of_currentState {host later : Host} {moments : List Moment} {state : State}
    (performs : currentState.Performs host moments (.ok state) later) :
    host.storedMode = some state.mode := by
  obtain ⟨-, found, -⟩ := currentState_iff.mp performs
  rcases Moment.reply_readEntry host stateKey with answered | ⟨error, refused⟩
  · rw [answered] at found
    exact Host.storedMode_eq_some_iff.mpr found.symm
  · rw [refused] at found
    contradiction

end Engine

/-! ## What a stretch of moments does -/

/-- Some moments leave the rules and the stored mode alone. -/
structure Idle (host : Host) (moments : List Moment) (later : Host) : Prop where
  replaces : ∀ moment ∈ moments, ¬ moment.Replaces
  rules : later.surface.rules = host.surface.rules
  stored : later.storedMode = host.storedMode

namespace Idle

variable {host middle later : Host} {first second moments : List Moment}

theorem refl (host : Host) : Idle host [] host := ⟨nofun, rfl, rfl⟩

theorem trans (front : Idle host first middle) (back : Idle middle second later) :
    Idle host (first ++ second) later where
  replaces := List.forall_mem_append.mpr ⟨front.replaces, back.replaces⟩
  rules := back.rules.trans front.rules
  stored := back.stored.trans front.stored

theorem of_quiet {call : Call} (quiet : call.IsQuiet) :
    Idle host [⟨host, call⟩] (Moment.later ⟨host, call⟩) := by
  rw [Moment.later_of_quiet quiet]
  refine ⟨?_, rfl, Host.storedMode_congr (Host.noting_entry call host stateKey)⟩
  rw [List.forall_mem_singleton]
  rintro ⟨accepted⟩
  exact quiet

/-- An action that makes no replacement and writes no mode. -/
theorem of_confined {action : Action α} {outcome : Except EngineError α} {keys : List String}
    (performs : action.Performs host moments outcome later) (confined : action.IsConfinedTo keys)
    (other : stateKey ∉ keys) (sound : ∀ moment ∈ moments, moment.IsSound) :
    Idle host moments later := by
  have writes := confined.mono fun _ confined => confined.writesOnly
  refine ⟨performs.not_replaces confined, ?_, ?_⟩
  · rw [performs.surface_eq confined]
  · exact Host.storedMode_congr (performs.entry_eq writes sound other)

end Idle

/-- The last replacement among some moments belongs to a synchronization with a mode, which got some
domains from the cache. -/
def LastSynchronized (config : Config) (mode : Mode) (domains : List Domain)
    (moments : List Moment) : Prop :=
  ∃ before during after report, moments = before ++ during ++ after ∧
    (Engine.synchronize config mode).Spans (.ok report) during ∧
    (Engine.domainsFor config mode).PerformedIn (.ok domains) during ∧
    ∀ moment ∈ after, ¬ moment.Replaces

/-- The last replacement among some moments belongs to a synchronization with a mode that could not
be stored then, and the synchronization that was to put back the rules of the stored mode failed. -/
def Stranded (config : Config) (mode stored : Mode) (domains : List Domain)
    (moments : List Moment) : Prop :=
  ∃ before during refused rollback after report error,
    moments = before ++ during ++ refused :: rollback ++ after ∧
    (Engine.synchronize config mode).Spans (.ok report) during ∧
    (Engine.domainsFor config mode).PerformedIn (.ok domains) during ∧
    refused.RefusesEntry stateKey (State.mk mode).toJson ∧
    (Engine.synchronize config stored).Spans (.error error) rollback ∧
    ∀ moment ∈ after, ¬ moment.Replaces

/-- The active rules are those of the stored mode, from the domains that the last synchronization
got. -/
def InStep (config : Config) (mode : Mode) (moments : List Moment) (later : Host) : Prop :=
  ∃ domains, LastSynchronized config mode domains moments ∧
    later.surface.rules = config.compiler.rulesFor mode domains ∧ later.storedMode = some mode

/-- The active rules are those of a mode that could not be stored, beside another one that is. -/
def OutOfStep (config : Config) (stored : Mode) (moments : List Moment) (later : Host) : Prop :=
  ∃ mode domains, mode ≠ stored ∧ Stranded config mode stored domains moments ∧
    later.surface.rules = config.compiler.rulesFor mode domains ∧ later.storedMode = some stored

/-- What some moments do to the rules and the stored mode. -/
inductive Effect (config : Config) (host : Host) (moments : List Moment) (later : Host) : Prop where
  | idle (idle : Idle host moments later)
  | inStep (mode : Mode) (inStep : InStep config mode moments later)
  | outOfStep (stored : Mode) (outOfStep : OutOfStep config stored moments later)

section

variable {config : Config} {mode stored : Mode} {domains : List Domain}
variable {host middle later : Host} {first second moments : List Moment}

namespace LastSynchronized

theorem domains_performedIn (last : LastSynchronized config mode domains moments) :
    (Engine.domainsFor config mode).PerformedIn (.ok domains) moments := by
  obtain ⟨before, during, after, report, rfl, -, given, -⟩ := last
  exact given.mono ⟨before, after, rfl⟩

theorem append_left (last : LastSynchronized config mode domains second) :
    LastSynchronized config mode domains (first ++ second) := by
  obtain ⟨before, during, after, report, rfl, spans, given, idle⟩ := last
  exact ⟨first ++ before, during, after, report, by simp, spans, given, idle⟩

theorem append_right (last : LastSynchronized config mode domains first)
    (idle : ∀ moment ∈ second, ¬ moment.Replaces) :
    LastSynchronized config mode domains (first ++ second) := by
  obtain ⟨before, during, after, report, rfl, spans, given, none⟩ := last
  exact ⟨before, during, after ++ second, report, by simp, spans, given,
    List.forall_mem_append.mpr ⟨none, idle⟩⟩

end LastSynchronized

namespace Stranded

theorem append_left (stranded : Stranded config mode stored domains second) :
    Stranded config mode stored domains (first ++ second) := by
  obtain ⟨before, during, refused, rollback, after, report, error, rfl, rest⟩ := stranded
  exact ⟨first ++ before, during, refused, rollback, after, report, error, by simp, rest⟩

theorem append_right (stranded : Stranded config mode stored domains first)
    (idle : ∀ moment ∈ second, ¬ moment.Replaces) :
    Stranded config mode stored domains (first ++ second) := by
  obtain ⟨before, during, refused, rollback, after, report, error, rfl, spans, given, write, failed,
    none⟩ := stranded
  exact ⟨before, during, refused, rollback, after ++ second, report, error, by simp, spans, given,
    write, failed, List.forall_mem_append.mpr ⟨none, idle⟩⟩

/-- Somewhere on the way the stored mode could not be written. -/
theorem refusesEntry (stranded : Stranded config mode stored domains moments) :
    ∃ moment ∈ moments, moment.RefusesEntry stateKey (State.mk mode).toJson := by
  obtain ⟨before, during, refused, rollback, after, report, error, rfl, -, -, write, -⟩ := stranded
  exact ⟨refused, by simp, write⟩

end Stranded

theorem InStep.append_left (inStep : InStep config mode second later) :
    InStep config mode (first ++ second) later := by
  obtain ⟨domains, last, rest⟩ := inStep
  exact ⟨domains, last.append_left, rest⟩

theorem InStep.append_idle (inStep : InStep config mode first middle)
    (idle : Idle middle second later) : InStep config mode (first ++ second) later := by
  obtain ⟨domains, last, rules, stored⟩ := inStep
  exact ⟨domains, last.append_right idle.replaces, idle.rules.trans rules, idle.stored.trans stored⟩

theorem OutOfStep.append_left (outOfStep : OutOfStep config stored second later) :
    OutOfStep config stored (first ++ second) later := by
  obtain ⟨mode, domains, differs, stranded, rest⟩ := outOfStep
  exact ⟨mode, domains, differs, stranded.append_left, rest⟩

theorem OutOfStep.append_idle (outOfStep : OutOfStep config stored first middle)
    (idle : Idle middle second later) : OutOfStep config stored (first ++ second) later := by
  obtain ⟨mode, domains, differs, stranded, rules, mode'⟩ := outOfStep
  exact ⟨mode, domains, differs, stranded.append_right idle.replaces, idle.rules.trans rules,
    idle.stored.trans mode'⟩

/-- Rules that were in step stay so, or are left out of step. -/
theorem InStep.append_effect (inStep : InStep config mode first middle)
    (effect : Effect config middle second later) :
    (∃ mode, InStep config mode (first ++ second) later) ∨
      ∃ stored, OutOfStep config stored (first ++ second) later := by
  cases effect with
  | idle idle => exact .inl ⟨mode, inStep.append_idle idle⟩
  | inStep mode inStep => exact .inl ⟨mode, inStep.append_left⟩
  | outOfStep stored outOfStep => exact .inr ⟨stored, outOfStep.append_left⟩

/-- The last effect that is not idle is the effect of the whole. -/
theorem Effect.trans (front : Effect config host first middle)
    (back : Effect config middle second later) : Effect config host (first ++ second) later := by
  cases back with
  | inStep mode inStep => exact .inStep mode inStep.append_left
  | outOfStep stored outOfStep => exact .outOfStep stored outOfStep.append_left
  | idle idle =>
    cases front with
    | idle before => exact .idle (before.trans idle)
    | inStep mode inStep => exact .inStep mode (inStep.append_idle idle)
    | outOfStep stored outOfStep => exact .outOfStep stored (outOfStep.append_idle idle)

end

end Blocklist
