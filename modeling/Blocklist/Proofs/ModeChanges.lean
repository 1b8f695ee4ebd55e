import Blocklist.Proofs.Enforcement

/-!
# Mode changes

Every operation of the controller has one of the effects, on every host whose store is sound. Only a
synchronization replaces rules, and only a mode change that has just replaced them stores a mode. So
a mode change that succeeds found the mode stored, or has brought the rules in step with it; one
that fails can leave the rules out of step, when storing the mode fails and putting the old rules
back does as well.
-/

namespace Blocklist

/-- The command that a message carries, when it is carried out. -/
def Command.ofMessage? (message : Json) : Option Command :=
  match Command.tagOf? message with
  | none => none
  | some _ => (Command.ofJson message).toOption

/-- An action has one of the effects wherever the store is sound. -/
def Action.HasEffect (config : Config) (action : Action α) : Prop :=
  ∀ host moments outcome later, action.Performs host moments outcome later →
    (∀ moment ∈ moments, moment.IsSound) → Effect config host moments later

namespace Action.HasEffect

variable {config : Config} {action : Action α} {next : α → Action β}

theorem of_confined {keys : List String} (confined : action.IsConfinedTo keys)
    (other : stateKey ∉ keys) : action.HasEffect config :=
  fun _ _ _ _ performs sound => .idle (.of_confined performs confined other sound)

theorem bind (front : action.HasEffect config) (back : ∀ value, (next value).HasEffect config) :
    (action >>= next).HasEffect config := by
  intro host moments outcome later performs sound
  rcases Performs.bind_iff.mp performs with
    ⟨error, first, rfl⟩ | ⟨value, middle, _, _, first, second, rfl⟩
  · exact front _ _ _ _ first sound
  · obtain ⟨soundFirst, soundSecond⟩ := List.forall_mem_append.mp sound
    exact (front _ _ _ _ first soundFirst).trans (back value _ _ _ _ second soundSecond)

theorem map {f : α → β} (effect : action.HasEffect config) : (f <$> action).HasEffect config := by
  intro host moments outcome later performs sound
  obtain ⟨result, performs, -⟩ := Performs.map_iff.mp performs
  exact effect _ _ _ _ performs sound

theorem discard (effect : action.HasEffect config) : (discard action).HasEffect config := effect.map

end Action.HasEffect

/-- Taking a lock and giving it back are idle. -/
theorem Idle.of_holding {lock : Lock} {action : Action α} {host later : Host}
    {moments : List Moment} {outcome : Except EngineError α}
    (performs : (Action.holding lock action).Performs host moments outcome later)
    (sound : ∀ moment ∈ moments, moment.IsSound) :
    ∃ entered taking held left giving, action.Performs entered held outcome left ∧
      (∀ moment ∈ held, moment.IsSound) ∧ Idle host taking entered ∧ Idle left giving later ∧
      moments = taking ++ held ++ giving := by
  obtain ⟨held, finish, body, rfl, rfl⟩ := Action.Performs.holding_iff.mp performs
  refine ⟨_, [⟨host, .acquire lock⟩], held, finish, [⟨finish, .release lock⟩], body, ?_,
    .of_quiet trivial, .of_quiet trivial, rfl⟩
  intro moment member
  exact sound moment (by simp [member])

namespace Engine

open Blocklist.Action

variable {config : Config} {mode : Mode} {host later : Host} {moments : List Moment}

/-! ## Applying a mode and storing it -/

/-- A synchronization replaces nothing, or its replacement is the last; it stores no mode. -/
theorem synchronize_effect {outcome : Except EngineError SyncReport}
    (performs : (synchronize config mode).Performs host moments outcome later)
    (sound : ∀ moment ∈ moments, moment.IsSound) :
    (∃ error, outcome = .error error ∧ Idle host moments later) ∨
      ∃ report domains, outcome = .ok report ∧
        (domainsFor config mode).PerformedIn (.ok domains) moments ∧
        later.surface.rules = config.compiler.rulesFor mode domains ∧
        later.storedMode = host.storedMode := by
  have stored : later.storedMode = host.storedMode :=
    Host.storedMode_congr (performs.entry_eq (writesOnly_synchronize config mode) sound (by decide))
  cases synchronize_cases performs with
  | failed error surface idle => exact .inl ⟨error, rfl, idle, by rw [surface], stored⟩
  | replaced domains given surface =>
    exact .inr ⟨_, domains, rfl, given, by rw [surface]; rfl, stored⟩

/-- A mode that is saved is stored; one that cannot be saved leaves the stored one. -/
theorem saveState_effect {outcome : Except EngineError Unit}
    (performs : (saveState ⟨mode⟩).Performs host moments outcome later)
    (sound : ∀ moment ∈ moments, moment.IsSound) :
    (∀ moment ∈ moments, ¬ moment.Replaces) ∧ later.surface = host.surface ∧
      ((outcome = .ok () ∧ later.storedMode = some mode) ∨
        ∃ error refused, outcome = .error error ∧ moments = [refused] ∧
          refused.RefusesEntry stateKey (State.mk mode).toJson ∧
          later.storedMode = host.storedMode) := by
  have confined := isConfinedTo_saveState ⟨mode⟩
  refine ⟨performs.not_replaces confined, performs.surface_eq confined, ?_⟩
  obtain ⟨rfl, replied, rfl⟩ := Performs.call_iff.mp performs
  obtain ⟨written, kept, -⟩ := List.forall_mem_singleton.mp sound
  cases outcome with
  | ok _ =>
    exact .inl ⟨rfl, Host.storedMode_of_entry (written replied.symm)⟩
  | error error =>
    have unwritten := Host.storedMode_congr (kept error replied.symm)
    exact .inr ⟨error, _, rfl, rfl, .intro replied.symm, unwritten⟩

/-! ## Applying the stored mode -/

/-- Applying the stored mode does nothing, or brings the rules in step. -/
theorem applyStored_effect {outcome : Except EngineError SyncReport}
    (performs : (applyStored config).Performs host moments outcome later)
    (sound : ∀ moment ∈ moments, moment.IsSound) :
    (∃ error, outcome = .error error ∧ Idle host moments later) ∨
      ∃ report mode, outcome = .ok report ∧ InStep config mode moments later := by
  obtain ⟨entered, taking, held, left, giving, body, soundHeld, enter, leave, rfl⟩ :=
    Idle.of_holding performs sound
  rcases Performs.bind_iff.mp body with
    ⟨error, reads, rfl⟩ | ⟨state, middle, reading, applying, reads, applies, rfl⟩
  · have read := Idle.of_confined reads (isConfinedTo_currentState []) nofun soundHeld
    exact .inl ⟨error, rfl, (enter.trans read).trans leave⟩
  obtain ⟨soundReading, soundApplying⟩ := List.forall_mem_append.mp soundHeld
  have read := Idle.of_confined reads (isConfinedTo_currentState []) nofun soundReading
  rcases synchronize_effect applies soundApplying with
    ⟨error, rfl, idle⟩ | ⟨report, domains, rfl, given, rules, stored⟩
  · exact .inl ⟨error, rfl, (enter.trans (read.trans idle)).trans leave⟩
  · have current := storedMode_of_currentState reads
    refine .inr ⟨report, state.mode, rfl, InStep.append_idle ?_ leave⟩
    refine ⟨domains, ⟨taking ++ reading, applying, [], report, by simp, ⟨_, _, applies⟩, given,
      nofun⟩, rules, ?_⟩
    exact stored.trans (read.stored.trans current)

/-! ## Changing the mode -/

/-- Rules that were applied and a mode that was stored then are in step. -/
theorem inStep_of_saved {applied saved : Host} {applying saving : List Moment} {report : SyncReport}
    (applies : (synchronize config mode).Performs host applying (.ok report) applied)
    (saves : (saveState ⟨mode⟩).Performs applied saving (.ok ()) saved)
    (sound : ∀ moment ∈ applying ++ saving, moment.IsSound) :
    InStep config mode (applying ++ saving) saved := by
  obtain ⟨soundApplying, soundSaving⟩ := List.forall_mem_append.mp sound
  obtain ⟨_, domains, -, given, rules, -⟩ :=
    (synchronize_effect applies soundApplying).resolve_left fun ⟨_, failed, _⟩ =>
      absurd failed nofun
  obtain ⟨idle, surface, ⟨-, stored⟩ | ⟨_, _, failed, -⟩⟩ := saveState_effect saves soundSaving
  · exact ⟨domains, ⟨[], applying, saving, report, rfl, ⟨_, _, applies⟩, given, idle⟩,
      by rw [surface, rules], stored⟩
  · exact absurd failed nofun

/-- Where a mode was applied and could not be stored, the rules of the previous mode are back, or
they are left out of step. -/
theorem effect_of_unsaved {previous : Mode} {applied unsaved : Host}
    {applying saving rolling : List Moment} {report : SyncReport} {error : EngineError}
    {rolled : Except EngineError SyncReport}
    (applies : (synchronize config mode).Performs host applying (.ok report) applied)
    (saves : (saveState ⟨mode⟩).Performs applied saving (.error error) unsaved)
    (rolls : (synchronize config previous).Performs unsaved rolling rolled later)
    (sound : ∀ moment ∈ applying ++ (saving ++ rolling), moment.IsSound)
    (stored : host.storedMode = some previous) (differs : previous ≠ mode) :
    Effect config host (applying ++ (saving ++ rolling)) later := by
  obtain ⟨soundApplying, soundRest⟩ := List.forall_mem_append.mp sound
  obtain ⟨soundSaving, soundRolling⟩ := List.forall_mem_append.mp soundRest
  obtain ⟨_, domains, -, given, rules, kept⟩ :=
    (synchronize_effect applies soundApplying).resolve_left fun ⟨_, failed, _⟩ =>
      absurd failed nofun
  obtain ⟨idle, surface, ⟨saved, -⟩ | ⟨_, refused, -, rfl, refuses, unwritten⟩⟩ :=
    saveState_effect saves soundSaving
  · exact absurd saved nofun
  have previousStored : unsaved.storedMode = some previous := unwritten.trans (kept.trans stored)
  rcases synchronize_effect rolls soundRolling with
    ⟨failure, rfl, still⟩ | ⟨again, others, rfl, given', rules', kept'⟩
  · refine .outOfStep previous ⟨mode, domains, differs.symm, ?_, ?_,
      still.stored.trans previousStored⟩
    · exact ⟨[], applying, refused, rolling, [], report, failure, by simp, ⟨_, _, applies⟩, given,
        refuses, ⟨_, _, rolls⟩, nofun⟩
    · rw [still.rules, surface, rules]
  · refine .inStep previous (InStep.append_left (InStep.append_left ?_))
    exact ⟨others, ⟨[], rolling, [], again, by simp, ⟨_, _, rolls⟩, given', nofun⟩, rules',
      kept'.trans previousStored⟩

/-- A change to another mode than the stored one brings the rules in step, or fails with one of the
effects. -/
theorem Change.effect {previous : Mode} {outcome : Except EngineError State}
    (change : Change config previous mode host moments outcome later)
    (sound : ∀ moment ∈ moments, moment.IsSound) (stored : host.storedMode = some previous)
    (differs : previous ≠ mode) :
    (∃ error, outcome = .error error ∧ Effect config host moments later) ∨
      (outcome = .ok ⟨mode⟩ ∧ InStep config mode moments later) := by
  cases change with
  | unapplied applies =>
    rcases synchronize_effect applies sound with ⟨_, -, idle⟩ | ⟨_, _, applied, -⟩
    · exact .inl ⟨_, rfl, .idle idle⟩
    · exact absurd applied nofun
  | unstored applies saves rolls =>
    exact .inl ⟨_, rfl, effect_of_unsaved applies saves rolls sound stored differs⟩
  | stored applies saves tells =>
    rw [← List.append_assoc] at sound ⊢
    obtain ⟨soundSaved, soundTelling⟩ := List.forall_mem_append.mp sound
    have told : Idle _ _ later :=
      .of_confined tells (isConfinedTo_notifyActiveTab [] ⟨mode⟩) nofun soundTelling
    exact .inr ⟨rfl, (inStep_of_saved applies saves soundSaved).append_idle told⟩

/-- What a mode change comes to. -/
inductive ModeChange (config : Config) (mode : Mode) (host : Host) (moments : List Moment) :
    Except EngineError State → Host → Prop where
  /-- The mode was stored already, and nothing is done. -/
  | kept {later : Host} (stored : host.storedMode = some mode) (idle : Idle host moments later) :
      ModeChange config mode host moments (.ok ⟨mode⟩) later
  /-- The mode was applied and stored. -/
  | changed {later : Host} (inStep : InStep config mode moments later) :
      ModeChange config mode host moments (.ok ⟨mode⟩) later
  | failed {later : Host} (error : EngineError) (effect : Effect config host moments later) :
      ModeChange config mode host moments (.error error) later

theorem Course.modeChange {outcome : Except EngineError State}
    (course : Course config mode host moments outcome later)
    (sound : ∀ moment ∈ moments, moment.IsSound) :
    ModeChange config mode host moments outcome later := by
  have read {reading : List Moment} {found : Host} {state : Except EngineError State}
      (reads : currentState.Performs host reading state found)
      (sound : ∀ moment ∈ reading, moment.IsSound) : Idle host reading found :=
    .of_confined reads (isConfinedTo_currentState []) nofun sound
  cases course with
  | unread reads => exact .failed _ (.idle (read reads sound))
  | kept reads => exact .kept (storedMode_of_currentState reads) (read reads sound)
  | changed differs reads change =>
    obtain ⟨soundReading, soundChanging⟩ := List.forall_mem_append.mp sound
    have idle := read reads soundReading
    have stored := idle.stored.trans (storedMode_of_currentState reads)
    rcases change.effect soundChanging stored differs with ⟨_, rfl, effect⟩ | ⟨rfl, inStep⟩
    · exact .failed _ ((Effect.idle idle).trans effect)
    · exact .changed inStep.append_left

/-- Idle moments on both sides change nothing about a mode change. -/
theorem ModeChange.between_idle {first second : List Moment} {entered left : Host}
    {outcome : Except EngineError State} (enter : Idle host first entered)
    (change : ModeChange config mode entered moments outcome left)
    (leave : Idle left second later) :
    ModeChange config mode host (first ++ moments ++ second) outcome later := by
  cases change with
  | kept stored idle =>
    exact .kept (enter.stored.symm.trans stored) ((enter.trans idle).trans leave)
  | changed inStep => exact .changed (inStep.append_left.append_idle leave)
  | failed error effect =>
    exact .failed error (((Effect.idle enter).trans effect).trans (.idle leave))

theorem setMode_cases {outcome : Except EngineError State}
    (performs : (setMode config mode).Performs host moments outcome later)
    (sound : ∀ moment ∈ moments, moment.IsSound) :
    ModeChange config mode host moments outcome later := by
  obtain ⟨held, finish, course, rfl, rfl⟩ := course_of_setMode performs
  have change := course.modeChange fun moment member => sound moment (by simp [member])
  have enter : Idle host [⟨host, .acquire .mode⟩] _ := .of_quiet trivial
  have leave : Idle finish [⟨finish, .release .mode⟩] _ := .of_quiet trivial
  exact change.between_idle enter leave

/-! ## The operations -/

theorem hasEffect_setMode (config : Config) (mode : Mode) :
    (setMode config mode).HasEffect config := by
  intro host moments outcome later performs sound
  cases setMode_cases performs sound with
  | kept _ idle => exact .idle idle
  | changed inStep => exact .inStep mode inStep
  | failed _ effect => exact effect

theorem hasEffect_applyStored (config : Config) : (applyStored config).HasEffect config := by
  intro host moments outcome later performs sound
  rcases applyStored_effect performs sound with ⟨_, -, idle⟩ | ⟨_, mode, -, inStep⟩
  · exact .idle idle
  · exact .inStep mode inStep

theorem hasEffect_refreshCache (config : Config) : refreshCache.HasEffect config :=
  .of_confined isConfinedTo_refreshCache (by decide)

theorem hasEffect_rollSession (config : Config) : (rollSession config).HasEffect config :=
  .of_confined (isConfinedTo_rollSession config) (by decide)

theorem hasEffect_refresh (config : Config) : (refresh config).HasEffect config :=
  (hasEffect_refreshCache config).discard.bind fun _ => hasEffect_applyStored config

theorem hasEffect_installed (config : Config) : (installed config).HasEffect config :=
  (hasEffect_refreshCache config).discard.bind fun _ => hasEffect_applyStored config

theorem hasEffect_startup (config : Config) : (startup config).HasEffect config :=
  (hasEffect_rollSession config).discard.bind fun _ => hasEffect_applyStored config

theorem hasEffect_handle (config : Config) (command : Command) :
    (handle config command).HasEffect config := by
  cases command with
  | getState => exact (Action.HasEffect.of_confined (isConfinedTo_currentState []) nofun).map
  | setMode mode => exact (hasEffect_setMode config mode).map
  | applyToTab tab =>
    refine .of_confined (Uses.bind (isConfinedTo_currentState []) fun state => ?_) nofun
    exact Uses.bind (Uses.call trivial) fun _ => Uses.pure _
  | getStats tab =>
    exact (Action.HasEffect.of_confined (isConfinedTo_statsReport config [] tab) nofun).map

/-- A message is answered without a call, or its command is carried out. -/
theorem handleMessage_cases {message reply : Json}
    (runs : (handleMessage config message).Runs host moments reply later) :
    (Command.ofMessage? message = none ∧ moments = [] ∧ later = host) ∨
      ∃ command outcome, Command.ofMessage? message = some command ∧
        (handle config command).Performs host moments outcome later := by
  unfold handleMessage at runs
  cases known : Command.tagOf? message with
  | none =>
    rw [known] at runs
    obtain ⟨rfl, -, rfl⟩ := Program.Runs.done_iff.mp runs
    exact .inl ⟨by rw [Command.ofMessage?, known], rfl, rfl⟩
  | some tag =>
    rw [known] at runs
    cases decoded : Command.ofJson message with
    | error cause =>
      rw [decoded] at runs
      obtain ⟨rfl, -, rfl⟩ := Program.Runs.done_iff.mp runs
      exact .inl ⟨by rw [Command.ofMessage?, known, decoded]; rfl, rfl, rfl⟩
    | ok command =>
      rw [decoded] at runs
      obtain ⟨outcome, middle, first, second, performs, answers, rfl⟩ :=
        Program.Runs.bind_iff.mp runs
      obtain ⟨rfl, rfl⟩ : second = [] ∧ later = middle := by
        cases outcome with
        | ok reply =>
          obtain ⟨rfl, -, rfl⟩ := Program.Runs.done_iff.mp answers
          exact ⟨rfl, rfl⟩
        | error error =>
          obtain ⟨rfl, -, rfl⟩ := Program.Runs.done_iff.mp answers
          exact ⟨rfl, rfl⟩
      rw [List.append_nil]
      exact .inr ⟨command, outcome, by rw [Command.ofMessage?, known, decoded]; rfl, performs⟩

/-- The hooks at the start of a session, when they succeed, bring the rules in step. -/
theorem inStep_of_bind_applyStored {first : Action α} {report : SyncReport}
    (performs : (first >>= fun _ => applyStored config).Performs host moments (.ok report) later)
    (sound : ∀ moment ∈ moments, moment.IsSound) :
    ∃ mode, InStep config mode moments later := by
  obtain ⟨_, middle, beginning, applying, -, applies, rfl⟩ := Performs.bind_ok_iff.mp performs
  obtain ⟨-, soundApplying⟩ := List.forall_mem_append.mp sound
  rcases applyStored_effect applies soundApplying with ⟨_, failed, -⟩ | ⟨_, mode, -, inStep⟩
  · exact absurd failed nofun
  · exact ⟨mode, inStep.append_left⟩

end Engine

end Blocklist
