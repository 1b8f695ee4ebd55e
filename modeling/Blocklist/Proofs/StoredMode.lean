import Blocklist.Proofs.Notices
import Mathlib.Data.List.Basic

/-!
# Storing a mode and telling of it

A mode change stores the mode only after its rules have replaced the active ones, and it tells the
active tab if and only if the mode was stored. A change that fails leaves the stored mode alone and
returns the error of the step that failed first. So along a session the stored mode is that of the
last change that succeeded, whatever the host refuses on the way.
-/

namespace Blocklist

namespace Moment

inductive StoresEntry (key : String) : Moment → Prop where
  | intro {host : Host} {value : Json}
      (accepted : (Moment.mk host (.writeEntry key value)).reply = .ok ()) :
      StoresEntry key ⟨host, .writeEntry key value⟩

inductive RefusesRead (key : String) (error : EngineError) : Moment → Prop where
  | intro {host : Host} (refused : (Moment.mk host (.readEntry key)).reply = .error error) :
      RefusesRead key error ⟨host, .readEntry key⟩

theorem not_storesEntry_of_isRoutine {moment : Moment} (routine : moment.call.IsRoutine) :
    ¬ moment.StoresEntry stateKey := by
  rintro ⟨accepted⟩
  exact routine.keepsMode _ rfl

/-- A sound store keeps an entry that is not written. -/
theorem later_entry_of_not_storesEntry {moment : Moment} {key : String} (sound : moment.IsSound)
    (unwritten : ¬ moment.StoresEntry key) : moment.later.entry key = moment.host.entry key := by
  obtain ⟨host, call⟩ := moment
  by_cases writes : ∃ value, call = .writeEntry key value
  · obtain ⟨value, rfl⟩ := writes
    cases reply : (Moment.mk host (.writeEntry key value)).reply with
    | ok _ => exact absurd (.intro reply) unwritten
    | error error => exact sound.2.1 error reply
  · exact later_entry sound fun value same => writes ⟨value, same⟩

end Moment

/-- The calls among some moments that tell a tab. -/
def notices (moments : List Moment) : List Call := (moments.map (·.call)).filter Call.isNotice

theorem notices_append (first second : List Moment) :
    notices (first ++ second) = notices first ++ notices second := by
  simp [notices]

theorem notices_eq_nil {moments : List Moment}
    (routine : ∀ moment ∈ moments, moment.call.IsRoutine) : notices moments = [] := by
  refine List.filter_eq_nil_iff.mpr ?_
  intro call member
  obtain ⟨moment, among, rfl⟩ := List.mem_map.mp member
  simp [(routine moment among).untold]

namespace Engine

open Blocklist.Action

variable {config : Config} {mode : Mode} {host later : Host} {moments : List Moment}
variable {outcome : Except EngineError State}

/-! ## What is stored, and when -/

/-- Among some moments a replacement has left the rules of a mode, from domains that were handed out
there. -/
def AppliedIn (config : Config) (mode : Mode) (moments : List Moment) : Prop :=
  ∃ domains, (domainsFor config mode).PerformedIn (.ok domains) moments ∧
    ∃ moment ∈ moments, moment.Replaces ∧
      moment.later.surface.rules = config.compiler.rulesFor mode domains

theorem AppliedIn.append_left {first second : List Moment}
    (applied : AppliedIn config mode second) : AppliedIn config mode (first ++ second) := by
  obtain ⟨domains, given, moment, member, replaces⟩ := applied
  exact ⟨domains, given.mono ⟨first, [], by simp⟩, moment, by simp [member], replaces⟩

theorem appliedIn_of_synchronize {report : SyncReport}
    (performs : (synchronize config mode).Performs host moments (.ok report) later) :
    AppliedIn config mode moments := by
  obtain ⟨moment, member, replaces, surface⟩ := exists_replaces_of_synchronize performs
  cases synchronize_cases performs with
  | replaced domains given replaced =>
    refine ⟨domains, given, moment, member, replaces, ?_⟩
    rw [surface, replaced]
    rfl

/-- What a mode change does about storing the mode: it does not come to it, or it stores the mode
after applying it, in vain or with success. Nothing else that it does stores a mode or tells a
tab. -/
inductive Storing (config : Config) (mode : Mode) :
    List Moment → Except EngineError State → Prop where
  | none {moments : List Moment} {outcome : Except EngineError State}
      (routine : ∀ moment ∈ moments, moment.call.IsRoutine) : Storing config mode moments outcome
  | refused {front back : List Moment} {applied : Host} {error : EngineError}
      (routineFront : ∀ moment ∈ front, moment.call.IsRoutine)
      (routineBack : ∀ moment ∈ back, moment.call.IsRoutine)
      (applies : AppliedIn config mode front)
      (refused : Moment.reply ⟨applied, .writeEntry stateKey (State.mk mode).toJson⟩ =
        .error error) :
      Storing config mode
        (front ++ ⟨applied, .writeEntry stateKey (State.mk mode).toJson⟩ :: back) (.error error)
  | stored {front back : List Moment} {applied saved : Host}
      (routineFront : ∀ moment ∈ front, moment.call.IsRoutine)
      (routineBack : ∀ moment ∈ back, moment.call.IsRoutine)
      (applies : AppliedIn config mode front)
      (accepted : Moment.reply ⟨applied, .writeEntry stateKey (State.mk mode).toJson⟩ = .ok ()) :
      Storing config mode
        (front ++ ⟨applied, .writeEntry stateKey (State.mk mode).toJson⟩ ::
          ⟨saved, .notifyActiveTab ⟨mode⟩⟩ :: back) (.ok ⟨mode⟩)

/-- Routine moments on both sides do nothing about storing the mode. -/
theorem Storing.between {first second : List Moment}
    (routineFirst : ∀ moment ∈ first, moment.call.IsRoutine)
    (storing : Storing config mode moments outcome)
    (routineSecond : ∀ moment ∈ second, moment.call.IsRoutine) :
    Storing config mode (first ++ moments ++ second) outcome := by
  cases storing with
  | none routine =>
    exact .none (List.forall_mem_append.mpr
      ⟨List.forall_mem_append.mpr ⟨routineFirst, routine⟩, routineSecond⟩)
  | refused routineFront routineBack applies refused =>
    rw [← List.append_assoc, List.append_assoc, List.cons_append]
    exact .refused (List.forall_mem_append.mpr ⟨routineFirst, routineFront⟩)
      (List.forall_mem_append.mpr ⟨routineBack, routineSecond⟩) applies.append_left refused
  | stored routineFront routineBack applies accepted =>
    rw [← List.append_assoc, List.append_assoc, List.cons_append, List.cons_append]
    exact .stored (List.forall_mem_append.mpr ⟨routineFirst, routineFront⟩)
      (List.forall_mem_append.mpr ⟨routineBack, routineSecond⟩) applies.append_left accepted

theorem Change.storing {previous : Mode}
    (change : Change config previous mode host moments outcome later) :
    Storing config mode moments outcome := by
  have routine {mode : Mode} {host later : Host} {moments : List Moment}
      {report : Except EngineError SyncReport}
      (performs : (synchronize config mode).Performs host moments report later) :
      ∀ moment ∈ moments, moment.call.IsRoutine :=
    performs.forall_of_uses (isRoutine_synchronize config mode)
  cases change with
  | unapplied applies => exact .none (routine applies)
  | unstored applies saves rolls =>
    obtain ⟨rfl, refused, -⟩ := Performs.call_iff.mp saves
    exact .refused (routine applies) (routine rolls) (appliedIn_of_synchronize applies)
      refused.symm
  | stored applies saves tells =>
    obtain ⟨rfl, accepted, -⟩ := Performs.call_iff.mp saves
    obtain ⟨rfl, -, -⟩ := Performs.call_iff.mp tells
    exact .stored (routine applies) nofun (appliedIn_of_synchronize applies) accepted.symm

theorem storing_of_setMode (performs : (setMode config mode).Performs host moments outcome later) :
    Storing config mode moments outcome := by
  obtain ⟨held, finish, course, rfl, -⟩ := course_of_setMode performs
  have enter : ∀ moment ∈ [Moment.mk host (.acquire .mode)], moment.call.IsRoutine :=
    List.forall_mem_singleton.mpr ⟨rfl, nofun⟩
  have leave : ∀ moment ∈ [Moment.mk finish (.release .mode)], moment.call.IsRoutine :=
    List.forall_mem_singleton.mpr ⟨rfl, nofun⟩
  refine Storing.between enter ?_ leave
  have read {host later : Host} {moments : List Moment} {state : Except EngineError State}
      (performs : currentState.Performs host moments state later) :
      ∀ moment ∈ moments, moment.call.IsRoutine :=
    performs.forall_of_uses isRoutine_currentState
  cases course with
  | unread reads => exact .none (read reads)
  | kept reads => exact .none (read reads)
  | changed differs reads change =>
    rw [← List.append_nil (_ ++ _)]
    exact change.storing.between (read reads) nofun

/-- A mode is stored after its rules have replaced the active ones. -/
theorem Storing.appliedIn_before (storing : Storing config mode moments outcome)
    {before after : List Moment} {writing : Host} {value : Json}
    (writes : moments = before ++ ⟨writing, .writeEntry stateKey value⟩ :: after) :
    value = (State.mk mode).toJson ∧ AppliedIn config mode before := by
  have unstored {others : List Moment} (routine : ∀ moment ∈ others, moment.call.IsRoutine) :
      Moment.mk writing (.writeEntry stateKey value) ∉ others :=
    fun member => (routine _ member).keepsMode value rfl
  have same {front back : List Moment} {applied : Host}
      (routineFront : ∀ moment ∈ front, moment.call.IsRoutine)
      (absent : Moment.mk writing (.writeEntry stateKey value) ∉ back)
      (applies : AppliedIn config mode front)
      (writes : front ++ ⟨applied, .writeEntry stateKey (State.mk mode).toJson⟩ :: back =
        before ++ ⟨writing, .writeEntry stateKey value⟩ :: after) :
      value = (State.mk mode).toJson ∧ AppliedIn config mode before := by
    obtain ⟨rfl, written, -⟩ :=
      (List.append_cons_inj_of_notMem (unstored routineFront) absent).mp writes
    obtain ⟨-, written⟩ := Moment.mk.inj written
    obtain ⟨-, rfl⟩ := Call.writeEntry.inj written
    exact ⟨rfl, applies⟩
  cases storing with
  | none routine => exact absurd (by simp [writes]) (unstored routine)
  | refused routineFront routineBack applies refused =>
    exact same routineFront (unstored routineBack) applies writes
  | stored routineFront routineBack applies accepted =>
    refine same routineFront ?_ applies writes
    rw [List.mem_cons, not_or]
    exact ⟨nofun, unstored routineBack⟩

/-- The active tab is told, once, when the mode was stored, and nobody is told otherwise. -/
theorem Storing.notices_cases (storing : Storing config mode moments outcome) :
    (outcome = .ok ⟨mode⟩ ∧ (∃ moment ∈ moments, moment.StoresEntry stateKey) ∧
        notices moments = [.notifyActiveTab ⟨mode⟩]) ∨
      ((∀ moment ∈ moments, ¬ moment.StoresEntry stateKey) ∧ notices moments = []) := by
  have unstored {others : List Moment} (routine : ∀ moment ∈ others, moment.call.IsRoutine) :
      ∀ moment ∈ others, ¬ moment.StoresEntry stateKey :=
    fun moment member => Moment.not_storesEntry_of_isRoutine (routine moment member)
  cases storing with
  | none routine => exact .inr ⟨unstored routine, notices_eq_nil routine⟩
  | @refused front back applied error routineFront routineBack applies refused =>
    refine .inr ⟨?_, ?_⟩
    · have unwritten : ¬ Moment.StoresEntry stateKey
          ⟨applied, .writeEntry stateKey (State.mk mode).toJson⟩ := by
        rintro ⟨accepted⟩
        exact absurd (refused.symm.trans accepted) nofun
      exact List.forall_mem_append.mpr
        ⟨unstored routineFront, List.forall_mem_cons.mpr ⟨unwritten, unstored routineBack⟩⟩
    · rw [notices_append, notices_eq_nil routineFront]
      change notices back = []
      exact notices_eq_nil routineBack
  | @stored front back applied saved routineFront routineBack applies accepted =>
    refine .inl ⟨rfl, ⟨_, by simp, .intro accepted⟩, ?_⟩
    rw [notices_append, notices_eq_nil routineFront]
    exact congrArg (Call.notifyActiveTab ⟨mode⟩ :: ·) (notices_eq_nil routineBack)

theorem Storing.not_storesEntry_of_error {error : EngineError}
    (storing : Storing config mode moments (.error error)) :
    (∀ moment ∈ moments, ¬ moment.StoresEntry stateKey) ∧ notices moments = [] := by
  rcases storing.notices_cases with ⟨succeeded, -⟩ | untold
  · contradiction
  · exact untold

/-- A mode change that fails leaves what is stored alone. -/
theorem entry_of_setMode_error {error : EngineError}
    (performs : (setMode config mode).Performs host moments (.error error) later)
    (sound : ∀ moment ∈ moments, moment.IsSound) : later.entry stateKey = host.entry stateKey := by
  obtain ⟨unstored, -⟩ := (storing_of_setMode performs).not_storesEntry_of_error
  refine Program.Runs.entry_eq performs ?_
  intro moment member
  exact Moment.later_entry_of_not_storesEntry (sound moment member) (unstored moment member)

/-- Choosing the stored mode takes one call between those for the lock, and goes well unless that
call is refused. -/
theorem setMode_of_stored (performs : (setMode config mode).Performs host moments outcome later)
    (stored : host.storedMode = some mode) :
    moments.map (·.call) = [.acquire .mode, .readEntry stateKey, .release .mode] ∧
      (outcome = .ok ⟨mode⟩ ∨ ∃ error, outcome = .error error ∧
        ∃ moment ∈ moments, moment.RefusesRead stateKey error) := by
  obtain ⟨held, finish, course, rfl, -⟩ := course_of_setMode performs
  have entered : (Moment.later ⟨host, .acquire .mode⟩).storedMode = some mode := by
    rw [← stored, Moment.later_of_quiet (show Call.IsQuiet (.acquire .mode) from trivial)]
    exact Host.storedMode_congr (Host.noting_entry _ host stateKey)
  cases course with
  | unread reads =>
    obtain ⟨rfl, failed, -⟩ := currentState_iff.mp reads
    refine ⟨rfl, .inr ⟨_, rfl, _, List.mem_cons_of_mem _ List.mem_cons_self, ?_⟩⟩
    rcases Moment.reply_readEntry (Moment.later ⟨host, .acquire .mode⟩) stateKey with
      answered | ⟨refusal, refused⟩
    · rw [answered, Host.storedMode_eq_some_iff.mp entered] at failed
      contradiction
    · rw [refused] at failed
      obtain rfl := Except.error.inj failed
      exact .intro refused
  | kept reads =>
    obtain ⟨rfl, -, -⟩ := currentState_iff.mp reads
    exact ⟨rfl, .inl rfl⟩
  | changed differs reads change =>
    have found := storedMode_of_currentState reads
    exact absurd (Option.some.inj (found.symm.trans entered)) differs

end Engine

/-! ## The last change that succeeded -/

def Command.mode? : Command → Option Mode
  | setMode mode => some mode
  | _ => none

def Operation.mode? : Operation → Option Mode
  | setMode mode => some mode
  | command asked => asked.mode?
  | message value => (Command.ofMessage? value).bind Command.mode?
  | _ => none

/-- The mode that an event changes to, when it is a change that succeeds. -/
def Event.chosen? (config : Config) : Event → Host → Option Mode
  | .operation asked, host =>
    asked.mode?.filter fun mode => (Host.perform (Engine.setMode config mode) host).1.isOk
  | _, _ => none

/-- The mode of the last change in a session that succeeds. -/
def Session.lastChosen (config : Config) : List Event → Host → Option Mode
  | [], _ => none
  | event :: events, host =>
    (lastChosen config events (event.later config host)).or (event.chosen? config host)

section

open Engine Blocklist.Action

variable {config : Config} {host later : Host} {moments : List Moment}

/-- A command changes the mode to the one that it asks for, or stores none. -/
theorem Engine.handle_cases {command : Command} {outcome : Except EngineError Reply}
    (performs : (handle config command).Performs host moments outcome later) :
    (∃ mode state, command.mode? = some mode ∧
        (setMode config mode).Performs host moments state later) ∨
      (command.mode? = none ∧ ∀ moment ∈ moments, moment.call.KeepsMode) := by
  have routine {α : Type} {action : Action α} (uses : action.Uses Call.IsRoutine) :
      action.Uses Call.KeepsMode := uses.mono fun _ => Call.IsRoutine.keepsMode
  cases command with
  | setMode mode =>
    obtain ⟨state, performs, -⟩ := Performs.map_iff.mp performs
    exact .inl ⟨mode, state, rfl, performs⟩
  | getState =>
    exact .inr ⟨rfl, performs.forall_of_uses (routine isRoutine_currentState.map)⟩
  | applyToTab tab =>
    have tells (state : State) : (Action.notifyTab tab state).Uses Call.KeepsMode :=
      Uses.call nofun
    have uses := (routine isRoutine_currentState).bind fun state =>
      (tells state).bind fun _ => Uses.pure Reply.applied
    exact .inr ⟨rfl, performs.forall_of_uses uses⟩
  | getStats tab =>
    exact .inr ⟨rfl, performs.forall_of_uses (routine (isRoutine_statsReport config tab).map)⟩

/-- An operation changes the mode to the one that it asks for, or stores none. -/
theorem Operation.mode_cases {operation : Operation}
    (runs : (operation.program config).Runs host moments () later) :
    (∃ mode state, operation.mode? = some mode ∧
        (Engine.setMode config mode).Performs host moments state later) ∨
      (operation.mode? = none ∧ ∀ moment ∈ moments, moment.call.KeepsMode) := by
  have routine {α : Type} {action : Action α} (uses : action.Uses Call.IsRoutine)
      (runs : action.settle.Runs host moments () later) :
      ∀ moment ∈ moments, moment.call.KeepsMode := by
    intro moment member
    exact (runs.forall_of_uses uses.settle moment member).keepsMode
  cases operation with
  | setMode mode =>
    obtain ⟨state, performs⟩ := runs_settle_iff.mp runs
    exact .inl ⟨mode, state, rfl, performs⟩
  | command asked =>
    obtain ⟨outcome, performs⟩ := runs_settle_iff.mp runs
    exact handle_cases performs
  | message value =>
    rcases message_cases runs with ⟨unanswered, rfl, -⟩ | ⟨asked, carried, runs⟩
    · exact .inr ⟨by rw [mode?, unanswered, Option.bind_none], nofun⟩
    · obtain ⟨outcome, performs⟩ := runs_settle_iff.mp runs
      rw [mode?, carried, Option.bind_some]
      exact handle_cases performs
  | installed => exact .inr ⟨rfl, routine (isRoutine_installed config) runs⟩
  | startup => exact .inr ⟨rfl, routine (isRoutine_startup config) runs⟩
  | refresh => exact .inr ⟨rfl, routine (isRoutine_refresh config) runs⟩
  | refreshCache => exact .inr ⟨rfl, routine isRoutine_refreshCache runs⟩
  | currentDomains =>
    exact .inr ⟨rfl, routine ((uses_currentDomains config).mono fun _ =>
      Call.ConcernsList.isRoutine) runs⟩
  | rollSession => exact .inr ⟨rfl, routine (isRoutine_rollSession config) runs⟩

/-- A mode change that succeeds leaves its mode stored, and one that fails the mode from before. -/
theorem Engine.storedMode_of_setMode {mode : Mode} {outcome : Except EngineError State}
    (performs : (setMode config mode).Performs host moments outcome later)
    (sound : ∀ moment ∈ moments, moment.IsSound) :
    later.storedMode = if outcome.isOk then some mode else host.storedMode := by
  cases outcome with
  | error error => exact Host.storedMode_congr (entry_of_setMode_error performs sound)
  | ok state =>
    cases setMode_cases performs sound with
    | kept stored idle => exact idle.stored.trans stored
    | changed inStep =>
      obtain ⟨-, -, -, stored⟩ := inStep
      exact stored

/-- An event leaves the mode that it changes to stored, or the mode from before. -/
theorem Event.storedMode_later (event : Event) {host : Host}
    (sound : ∀ moment ∈ event.moments config host, moment.IsSound) :
    (event.later config host).storedMode = (event.chosen? config host).or host.storedMode := by
  cases event with
  | matched tab => exact Host.storedMode_congr (host.entry_with_surface _ stateKey)
  | restarted => exact Host.storedMode_congr (host.entry_with_surface _ stateKey)
  | operation asked =>
    have runs := Program.Runs.of_run (asked.program config) host
    rcases asked.mode_cases runs with ⟨mode, state, asks, performs⟩ | ⟨asksNone, keeps⟩
    · have outcome : state = (Host.perform (setMode config mode) host).1 :=
        (congrArg Prod.fst performs.run_eq).symm
      have stored := storedMode_of_setMode performs sound
      rw [later, stored, outcome, chosen?, asks, Option.filter]
      split <;> rfl
    · have kept : (Event.later config (.operation asked) host).entry stateKey =
          host.entry stateKey := by
        refine runs.entry_eq ?_
        intro moment member
        exact Moment.later_entry (sound moment member) (keeps moment member)
      rw [chosen?, asksNone]
      exact Host.storedMode_congr kept

/-- The stored mode is that of the last change that succeeded, or the one stored from the start. -/
theorem Session.storedMode_ending (events : List Event) {host : Host}
    (sound : ∀ moment ∈ history config events host, moment.IsSound) :
    (ending config events host).storedMode =
      (lastChosen config events host).or host.storedMode := by
  induction events generalizing host with
  | nil => rfl
  | cons event events ih =>
    obtain ⟨soundEvent, soundRest⟩ := List.forall_mem_append.mp sound
    rw [ending, ih soundRest, event.storedMode_later soundEvent, lastChosen, Option.or_assoc]

end

namespace Session

/-! ## Mode changes in a session -/

/-- A mode change at any point of a session. If the mode is stored already, the store is asked for
it and nothing else is done; the change goes well unless the store refuses to be read. The mode is
written only after a replacement in the same change has left its rules, from domains that were
handed out before. The active tab is told exactly once if the mode was stored, nobody is told
otherwise, and another notifier throughout the session changes neither the outcome nor the host. A
change that fails leaves what is stored alone, tells nobody and returns the error of the step that
failed first. So the state that is answered at that point is that of the last change that succeeded,
or the one stored from the start, which is low when there is none. The store has to be sound, as one
in memory (`isSound_of_inMemory`) and one in a file (`isSound_of_inFile`) always are. -/
theorem setMode_applies_stores_tells (config : Config) (host : Host) (events : List Event)
    (mode : Mode)
    (sound : ∀ moment ∈ history config events host ++
      (Engine.setMode config mode).moments (ending config events host), moment.IsSound) :
    let current := ending config events host
    let moments := (Engine.setMode config mode).moments current
    let outcome := (Host.perform (Engine.setMode config mode) current).1
    let later := (Host.perform (Engine.setMode config mode) current).2
    (current.storedMode = some mode →
        moments.map (·.call) = [.acquire .mode, .readEntry stateKey, .release .mode] ∧
          (outcome = .ok ⟨mode⟩ ∨ ∃ error, outcome = .error error ∧
            ∃ moment ∈ moments, moment.RefusesRead stateKey error)) ∧
      (∀ before writing value after,
        moments = before ++ ⟨writing, .writeEntry stateKey value⟩ :: after →
          value = (State.mk mode).toJson ∧ Engine.AppliedIn config mode before) ∧
      ((∃ moment ∈ moments, moment.StoresEntry stateKey) →
        notices moments = [.notifyActiveTab ⟨mode⟩]) ∧
      ((∀ moment ∈ moments, ¬ moment.StoresEntry stateKey) → notices moments = []) ∧
      (∀ refusal, Host.perform (Engine.setMode config mode)
          (ending config events (host.withNotifier refusal)) =
        (outcome, later.withNotifier refusal)) ∧
      (∀ error, outcome = .error error →
        later.entry stateKey = current.entry stateKey ∧ notices moments = [] ∧
          ∃ held finish,
            moments = ⟨current, .acquire .mode⟩ :: held ++ [⟨finish, .release .mode⟩] ∧
            Engine.Course config mode (Moment.later ⟨current, .acquire .mode⟩) held (.error error)
              finish) ∧
      ∀ reply, (Host.perform (Engine.handle config .getState) current).1 = .ok reply →
        ∃ answered, reply = .state ⟨answered⟩ ∧
          (lastChosen config events host).or host.storedMode = some answered := by
  intro current moments outcome later
  obtain ⟨soundBefore, soundChanging⟩ := List.forall_mem_append.mp sound
  have performs : (Engine.setMode config mode).Performs current moments outcome later :=
    .of_perform _ current
  have storing := Engine.storing_of_setMode performs
  refine ⟨Engine.setMode_of_stored performs, ?_, ?_, ?_, ?_, ?_, ?_⟩
  · intro before writing value after writes
    exact storing.appliedIn_before writes
  · rintro ⟨moment, member, stores⟩
    rcases storing.notices_cases with ⟨-, -, told⟩ | ⟨unstored, -⟩
    · exact told
    · exact absurd stores (unstored moment member)
  · intro unstored
    rcases storing.notices_cases with ⟨-, ⟨moment, member, stores⟩, -⟩ | ⟨-, untold⟩
    · exact absurd stores (unstored moment member)
    · exact untold
  · intro refusal
    rw [ending_withNotifier]
    exact Host.run_withNotifier (Engine.ignoresTabs_setMode config mode) current
  · intro error failed
    rw [failed] at performs storing
    obtain ⟨held, finish, course, split, -⟩ := Engine.course_of_setMode performs
    exact ⟨Engine.entry_of_setMode_error performs soundChanging,
      storing.not_storesEntry_of_error.2, held, finish, split, course⟩
  · intro reply answered
    have answers := Action.Performs.of_perform (Engine.handle config .getState) current
    rw [answered] at answers
    obtain ⟨state, reads, same⟩ := Action.Performs.map_iff.mp answers
    cases state with
    | error error => exact absurd same nofun
    | ok state =>
      obtain rfl := Except.ok.inj same
      refine ⟨state.mode, rfl, ?_⟩
      rw [← storedMode_ending events soundBefore]
      exact Engine.storedMode_of_currentState reads

/-- Back from high to low, the active tab is told once. -/
theorem setMode_applies_stores_tells_low :
    notices ((Engine.setMode {} .low).moments (ending {} installedHigh servedHost)) =
      [.notifyActiveTab ⟨.low⟩] := by
  have memory : servedHost.InMemory := ⟨[], rfl⟩
  have performs := Action.Performs.of_perform (Engine.setMode {} .low)
    (ending {} installedHigh servedHost)
  obtain ⟨soundChanging, -⟩ := Program.Runs.isSound_of_inMemory performs
    (inMemory_ending {} installedHigh memory)
  have sound := List.forall_mem_append.mpr
    ⟨isSound_of_inMemory {} installedHigh memory, soundChanging⟩
  obtain ⟨-, -, told, untold, -⟩ :=
    setMode_applies_stores_tells {} servedHost installedHigh .low sound
  have one : (notices ((Engine.setMode {} .low).moments
      (ending {} installedHigh servedHost))).length = 1 := by decide +kernel
  by_cases stored :
    ∃ moment ∈ (Engine.setMode {} .low).moments (ending {} installedHigh servedHost),
      moment.StoresEntry stateKey
  · exact told stored
  · rw [untold fun moment member stores => stored ⟨moment, member, stores⟩] at one
    exact absurd one Nat.zero_ne_one

def unreadableHost : Host where
  environment :=
    { refusal := fun _ call =>
        match call with
        | .readEntry _ => some "unreadable"
        | _ => none }

/-- Nothing is stored, so the mode is low; but a change to low fails where the store cannot be
read. -/
theorem setMode_low_unread :
    unreadableHost.InMemory ∧ unreadableHost.storedMode = some .low ∧
      ¬ ∃ state, (Host.perform (Engine.setMode {} .low) unreadableHost).1 = .ok state := by
  refine ⟨⟨[], rfl⟩, by decide +kernel, ?_⟩
  rintro ⟨state, succeeded⟩
  have failed : (Host.perform (Engine.setMode {} .low) unreadableHost).1.toOption = none := by
    decide +kernel
  rw [succeeded] at failed
  contradiction

end Session

end Blocklist
