import Blocklist.Proofs.Accounting
import Blocklist.Proofs.CachedLists
import Blocklist.Proofs.Records

/-!
# Who changes an entry

Every entry of the store has its owners: the mode changes that succeed, the operations with a
checkpoint, and the operations that have fetched the list. Along a session an entry changes in an
event only if the event owns it, on the failing paths too, and entries that nobody owns stay as they
are. Commands that ask for something, and messages that hold one, neither fetch nor change anything.
-/

namespace Blocklist

/-! ## Nothing is cached without a fetch -/

namespace Action

/-- An action that does not write the cached list unless it has fetched the list. -/
def CachesFetched (action : Action α) : Prop :=
  ∀ host moments outcome later, action.Performs host moments outcome later →
    (∀ text, .ok text ∉ fetches moments) →
      ∀ moment ∈ moments, moment.call.WritesOnly [stateKey, statsKey]

theorem not_fetched_append {first second : List Moment}
    (unfetched : ∀ text, .ok text ∉ fetches (first ++ second)) :
    (∀ text, .ok text ∉ fetches first) ∧ ∀ text, .ok text ∉ fetches second := by
  simp only [fetches_append, List.mem_append, not_or] at unfetched
  exact ⟨fun text => (unfetched text).1, fun text => (unfetched text).2⟩

namespace CachesFetched

variable {action : Action α} {next : α → Action β}

theorem of_uses (uses : action.Uses (Call.WritesOnly [stateKey, statsKey])) :
    action.CachesFetched :=
  fun _ _ _ _ performs _ => performs.forall_of_uses uses

theorem pure (value : α) : (pure value : Action α).CachesFetched := of_uses (Uses.pure value)

theorem throw (error : EngineError) : (throw error : Action α).CachesFetched :=
  of_uses (Uses.throw error)

theorem bind (front : action.CachesFetched) (back : ∀ value, (next value).CachesFetched) :
    (action >>= next).CachesFetched := by
  intro host moments outcome later performs unfetched
  rcases Performs.bind_iff.mp performs with
    ⟨error, first, rfl⟩ | ⟨value, middle, _, _, first, second, rfl⟩
  · exact front _ _ _ _ first unfetched
  · obtain ⟨unfetchedFirst, unfetchedSecond⟩ := not_fetched_append unfetched
    exact List.forall_mem_append.mpr
      ⟨front _ _ _ _ first unfetchedFirst, back value _ _ _ _ second unfetchedSecond⟩

theorem map {f : α → β} (caches : action.CachesFetched) : (f <$> action).CachesFetched := by
  rw [map_eq_pure_bind]
  exact caches.bind fun value => pure (f value)

theorem outcome (caches : action.CachesFetched) : (Action.outcome action).CachesFetched := by
  intro host moments result later performs
  obtain ⟨outcome, performs, -⟩ := Performs.outcome_iff.mp performs
  exact caches _ _ _ _ performs

theorem holding {lock : Lock} (caches : action.CachesFetched) :
    (Action.holding lock action).CachesFetched := by
  intro host moments outcome later performs unfetched
  obtain ⟨held, finish, body, rfl, -⟩ := Performs.holding_iff.mp performs
  obtain ⟨unfetchedHeld, -⟩ := not_fetched_append unfetched
  have within := caches _ _ _ _ body unfetchedHeld
  simp only [List.cons_append, List.forall_mem_cons, List.forall_mem_append]
  exact ⟨trivial, within, trivial, nofun⟩

end CachesFetched

end Action

namespace Engine

open Blocklist.Action

variable (config : Config)

theorem cachesFetched_currentState : currentState.CachesFetched :=
  .of_uses (writesOnly_currentState _)

theorem cachesFetched_refreshCache : refreshCache.CachesFetched := by
  intro host moments outcome later performs unfetched
  rcases Performs.bind_iff.mp performs with
    ⟨error, fetches, rfl⟩ | ⟨text, fetched, first, rest, fetches, -, rfl⟩
  · obtain ⟨rfl, -, -⟩ := Performs.call_iff.mp fetches
    exact List.forall_mem_singleton.mpr trivial
  · obtain ⟨rfl, given, -⟩ := Performs.call_iff.mp fetches
    refine absurd ?_ (unfetched text)
    rw [fetches_append, given]
    exact .head _

theorem cachesFetched_currentDomains : (currentDomains config).CachesFetched := by
  have reads : readCache.CachesFetched := by
    refine .of_uses (Uses.bind (Uses.call trivial) ?_)
    rintro (_ | value)
    · exact Uses.pure none
    · exact Uses.pure _
  have refreshed : Action.CachesFetched (do return (← refreshCache).domains) :=
    cachesFetched_refreshCache.bind fun _ => .pure _
  refine reads.bind ?_
  rintro (_ | cache)
  · exact refreshed
  · refine CachesFetched.bind (.of_uses (Uses.bind (Uses.call trivial) fun _ => Uses.pure _)) ?_
    rintro (_ | _)
    · exact refreshed
    · exact .pure _

theorem cachesFetched_synchronize (mode : Mode) : (synchronize config mode).CachesFetched := by
  have domains : (domainsFor config mode).CachesFetched := by
    unfold domainsFor
    split
    · exact cachesFetched_currentDomains config
    · exact .pure []
  have reads : Action.activeIds.CachesFetched := .of_uses (Uses.call trivial)
  rw [synchronize_eq]
  refine CachesFetched.holding (reads.bind fun active => domains.map.bind fun rules => ?_)
  exact .of_uses (Uses.bind (Uses.call trivial) fun _ => Uses.pure _)

theorem cachesFetched_setMode (mode : Mode) : (setMode config mode).CachesFetched := by
  have synchronizes := cachesFetched_synchronize config
  have saves : (saveState ⟨mode⟩).CachesFetched := .of_uses (Uses.call (by simp [Call.WritesOnly]))
  have changes (previous : Mode) : (changeMode config previous mode).CachesFetched := by
    refine (synchronizes mode).map.bind fun _ => saves.outcome.bind ?_
    rintro (error | _)
    · exact (synchronizes previous).outcome.map.bind fun _ => .throw error
    · exact .of_uses (Uses.bind (Uses.call trivial) fun _ => Uses.pure _)
  rw [setMode_eq]
  refine CachesFetched.holding (cachesFetched_currentState.bind fun current => ?_)
  split
  · exact .pure current
  · exact changes current.mode

theorem cachesFetched_applyStored : (applyStored config).CachesFetched :=
  .holding (cachesFetched_currentState.bind fun state =>
    cachesFetched_synchronize config state.mode)

theorem cachesFetched_refresh : (refresh config).CachesFetched :=
  cachesFetched_refreshCache.map.bind fun _ => cachesFetched_applyStored config

theorem cachesFetched_rollSession : (rollSession config).CachesFetched :=
  .of_uses ((isConfinedTo_rollSession config).mono fun _ confined =>
    confined.writesOnly.mono (by simp))

theorem cachesFetched_startup : (startup config).CachesFetched :=
  (cachesFetched_rollSession config).map.bind fun _ => cachesFetched_applyStored config

theorem cachesFetched_handle (command : Command) : (handle config command).CachesFetched := by
  cases command with
  | setMode mode => exact (cachesFetched_setMode config mode).map
  | getState => exact cachesFetched_currentState.map
  | applyToTab tab =>
    refine cachesFetched_currentState.bind fun state => ?_
    exact .of_uses (Uses.bind (Uses.call trivial) fun _ => Uses.pure _)
  | getStats tab =>
    exact .of_uses ((isConfinedTo_statsReport config _ tab).mono fun _ =>
      Call.IsConfinedTo.writesOnly).map

end Engine

/-! ## What operations write -/

section

open Engine Blocklist.Action

variable {config : Config} {host later : Host} {moments : List Moment}

theorem Action.CachesFetched.settle {action : Action α} (caches : action.CachesFetched)
    (runs : action.settle.Runs host moments () later)
    (unfetched : ∀ text, .ok text ∉ fetches moments) :
    ∀ moment ∈ moments, moment.call.WritesOnly [stateKey, statsKey] := by
  obtain ⟨outcome, performs⟩ := runs_settle_iff.mp runs
  exact caches _ _ _ _ performs unfetched

/-- An operation that has not fetched the list does not write the cached one. -/
theorem Operation.cachesFetched {operation : Operation}
    (runs : (operation.program config).Runs host moments () later)
    (unfetched : ∀ text, .ok text ∉ fetches moments) :
    ∀ moment ∈ moments, moment.call.WritesOnly [stateKey, statsKey] := by
  cases operation with
  | command asked => exact (cachesFetched_handle config asked).settle runs unfetched
  | message value =>
    rcases message_cases runs with ⟨-, rfl, -⟩ | ⟨asked, -, runs⟩
    · exact nofun
    · exact (cachesFetched_handle config asked).settle runs unfetched
  | setMode mode => exact (cachesFetched_setMode config mode).settle runs unfetched
  | installed => exact (cachesFetched_refresh config).settle runs unfetched
  | refresh => exact (cachesFetched_refresh config).settle runs unfetched
  | startup => exact (cachesFetched_startup config).settle runs unfetched
  | refreshCache => exact cachesFetched_refreshCache.settle runs unfetched
  | currentDomains => exact (cachesFetched_currentDomains config).settle runs unfetched
  | rollSession => exact (cachesFetched_rollSession config).settle runs unfetched

def ownedKeys : List String := [stateKey, statsKey, filterCacheKey]

theorem Call.WritesRecords.writesOnly {call : Call} (writes : call.WritesRecords) :
    call.WritesOnly ownedKeys := by
  cases call with
  | writeEntry key value =>
    change key ∈ ownedKeys
    cases writes <;> simp [ownedKeys]
  | _ => trivial

/-- An operation writes no entries but those that have owners. -/
theorem Operation.writesOnly_ownedKeys {operation : Operation}
    (runs : (operation.program config).Runs host moments () later) :
    ∀ moment ∈ moments, moment.call.WritesOnly ownedKeys := by
  intro moment member
  exact (runs.forall_of_uses (operation.writesRecords config) moment member).writesOnly

/-! ## Owners -/

/-- An event owns an entry on a host: the stored mode when it changes the mode with success, the
figures when it begins with a checkpoint, and the cached list when it has fetched the list. -/
inductive Event.Owns (config : Config) (host : Host) : Event → String → Prop where
  | mode {event : Event} {mode : Mode} (chosen : event.chosen? config host = some mode) :
      Owns config host event stateKey
  | figures {event : Event} (checkpoint : event.hasCheckpoint = true) :
      Owns config host event statsKey
  | list {event : Event} {text : String}
      (fetched : .ok text ∈ fetches (event.moments config host)) :
      Owns config host event filterCacheKey

theorem Event.Owns.mem_ownedKeys {event : Event} {key : String}
    (owns : event.Owns config host key) : key ∈ ownedKeys := by
  cases owns <;> simp [ownedKeys]

/-- An event stores no entries but its own. -/
theorem Event.owns_of_storesEntry {event : Event} {moment : Moment} {key : String}
    (member : moment ∈ event.moments config host) (stores : moment.StoresEntry key) :
    event.Owns config host key := by
  cases event with
  | matched tab | restarted => exact absurd member List.not_mem_nil
  | operation asked =>
    have runs := Program.Runs.of_run (asked.program config) host
    have owned : key ∈ ownedKeys := by
      obtain ⟨accepted⟩ := stores
      exact Operation.writesOnly_ownedKeys runs _ member
    simp only [ownedKeys, List.mem_cons, List.not_mem_nil, or_false] at owned
    rcases owned with rfl | rfl | rfl
    · rcases asked.mode_cases runs with ⟨mode, outcome, asks, performs⟩ | ⟨-, keeps⟩
      · cases outcome with
        | error error =>
          obtain ⟨unstored, -⟩ := (storing_of_setMode performs).not_storesEntry_of_error
          exact absurd stores (unstored moment member)
        | ok state =>
          have succeeds : (Host.perform (Engine.setMode config mode) host).1 = .ok state :=
            congrArg Prod.fst performs.run_eq
          have chosen : Event.chosen? config (.operation asked) host = some mode := by
            rw [chosen?, asks, Option.filter, succeeds]
            rfl
          exact .mode chosen
      · obtain ⟨accepted⟩ := stores
        exact absurd rfl (keeps _ member _)
    · cases checkpoint : asked.hasCheckpoint with
      | true => exact .figures checkpoint
      | false => exact absurd stores (unwritten (.operation asked) checkpoint moment member)
    · by_cases fetched : ∃ text, .ok text ∈ fetches (Event.moments config (.operation asked) host)
      · obtain ⟨text, fetched⟩ := fetched
        exact .list fetched
      · obtain ⟨accepted⟩ := stores
        have written := Operation.cachesFetched runs (not_exists.mp fetched) _ member
        exact absurd written (show filterCacheKey ∉ [stateKey, statsKey] by decide)

/-- No answer in an event changes an entry that the event does not own. -/
theorem Event.entry_moment {event : Event} {key : String} (alien : ¬ event.Owns config host key)
    (sound : ∀ moment ∈ event.moments config host, moment.IsSound) :
    ∀ moment ∈ event.moments config host, moment.later.entry key = moment.host.entry key := by
  intro moment member
  refine Moment.later_entry_of_not_storesEntry (sound moment member) fun stores => ?_
  exact alien (owns_of_storesEntry member stores)

theorem Event.entry_later {event : Event} {key : String} (alien : ¬ event.Owns config host key)
    (sound : ∀ moment ∈ event.moments config host, moment.IsSound) :
    (event.later config host).entry key = host.entry key := by
  cases event with
  | matched tab | restarted => exact host.entry_with_surface _ key
  | operation asked =>
    exact (Program.Runs.of_run (asked.program config) host).entry_eq (entry_moment alien sound)

/-! ## Queries -/

/-- A command that does not change the mode, or a message that holds none that does. -/
inductive Operation.IsQuery : Operation → Prop where
  | command {asked : Command} (keeps : asked.mode? = none) : IsQuery (.command asked)
  | message {value : Json} (keeps : (Command.ofMessage? value).bind Command.mode? = none) :
      IsQuery (.message value)

/-- A call that changes nothing on a host and does not fetch the list. -/
def Call.IsLight (call : Call) : Prop := call.IsQuiet ∧ call ≠ .fetchList

theorem Call.ReadsFigures.isLight {call : Call} (reads : call.ReadsFigures) : call.IsLight := by
  cases reads <;> exact ⟨trivial, nofun⟩

theorem Engine.isLight_handle {command : Command} (keeps : command.mode? = none) :
    (handle config command).Uses Call.IsLight := by
  have state : currentState.Uses Call.IsLight :=
    uses_currentState.mono fun _ read => read ▸ ⟨trivial, nofun⟩
  cases command with
  | setMode mode => contradiction
  | getState => exact state.map
  | applyToTab tab =>
    refine state.bind fun _ => ?_
    exact Uses.bind (Uses.call ⟨trivial, nofun⟩) fun _ => Uses.pure _
  | getStats tab =>
    exact ((uses_statsReport config tab).mono fun _ => Call.ReadsFigures.isLight).map

/-- A query asks for nothing that changes a host, and does not fetch the list. -/
theorem Operation.IsQuery.isLight {query : Operation} (isQuery : query.IsQuery)
    (runs : (query.program config).Runs host moments () later) :
    ∀ moment ∈ moments, moment.call.IsLight := by
  cases isQuery with
  | command keeps => exact runs.forall_of_uses (isLight_handle keeps).settle
  | message keeps =>
    rcases message_cases runs with ⟨-, rfl, -⟩ | ⟨asked, carried, runs⟩
    · exact nofun
    · rw [carried, Option.bind_some] at keeps
      exact runs.forall_of_uses (isLight_handle keeps).settle

/-- Calls that change nothing leave the surface and every entry as they were. -/
theorem Program.Runs.untouched {program : Program α} {value : α}
    (runs : program.Runs host moments value later)
    (light : ∀ moment ∈ moments, moment.call.IsLight) :
    later.surface = host.surface ∧ ∀ key, later.entry key = host.entry key := by
  refine runs.keeps
    (fun before after => after.surface = before.surface ∧
      ∀ key, after.entry key = before.entry key)
    (fun _ => ⟨rfl, fun _ => rfl⟩) ?_ ?_
  · rintro a b c ⟨surface, entry⟩ ⟨surfaceNext, entryNext⟩
    exact ⟨surfaceNext.trans surface, fun key => (entryNext key).trans (entry key)⟩
  · rintro ⟨host, call⟩ member
    obtain ⟨quiet, -⟩ := light _ member
    rw [Moment.later_of_quiet quiet]
    exact ⟨host.noting_surface call, fun key => host.noting_entry call key⟩

end

/-! ## Sessions -/

namespace Session

variable {config : Config} {host : Host}

/-- An entry that a session changes is owned by one of its events. -/
theorem exists_owner (events : List Event) {key : String}
    (sound : ∀ moment ∈ history config events host, moment.IsSound)
    (changed : (ending config events host).entry key ≠ host.entry key) :
    ∃ before event after, events = before ++ event :: after ∧
      event.Owns config (ending config before host) key := by
  induction events generalizing host with
  | nil => exact absurd rfl changed
  | cons event events ih =>
    obtain ⟨soundEvent, soundRest⟩ := List.forall_mem_append.mp sound
    by_cases owns : event.Owns config host key
    · exact ⟨[], event, events, rfl, owns⟩
    · rw [← event.entry_later owns soundEvent] at changed
      obtain ⟨before, owner, after, rfl, owned⟩ := ih soundRest changed
      exact ⟨event :: before, owner, after, rfl, owned⟩

/-- In a session over a store with any entries, an event that does not own an entry leaves it as it
is, with every single answer and in the end, whether what it does succeeds or fails. So an entry
that a session changes is owned by one of its events: the stored mode by a mode change that
succeeds, the figures by a checkpoint, the cached list by an operation that has fetched the list.
All other entries stay as they are. A command that does not change the mode, or a message without
one that does, neither fetches nor writes, and leaves the surface and every entry as they were on
any host. The store has to be sound during the session, as one in memory (`isSound_of_inMemory`) and
one in a file (`isSound_of_inFile`) always are. -/
theorem entries_change_by_owners (config : Config) (host : Host) (events : List Event)
    (sound : ∀ moment ∈ history config events host, moment.IsSound) :
    (∀ before event after, events = before ++ event :: after →
        let now := ending config before host
        ∀ key, ¬ event.Owns config now key →
          (∀ moment ∈ event.moments config now,
            moment.later.entry key = moment.host.entry key) ∧
          (event.later config now).entry key = now.entry key) ∧
      (∀ key, (ending config events host).entry key ≠ host.entry key →
        ∃ before event after, events = before ++ event :: after ∧
          event.Owns config (ending config before host) key) ∧
      (∀ key, key ∉ [stateKey, statsKey, filterCacheKey] → ∀ before after,
        events = before ++ after → (ending config before host).entry key = host.entry key) ∧
      ∀ query : Operation, query.IsQuery → ∀ asked : Host,
        let later := (Host.run (query.program config) asked).2
        (∀ moment ∈ (query.program config).moments asked,
          moment.call ≠ .fetchList ∧ ∀ key value, moment.call ≠ .writeEntry key value) ∧
        later.surface = asked.surface ∧ ∀ key, later.entry key = asked.entry key := by
  refine ⟨?_, fun key => exists_owner events sound, ?_, ?_⟩
  · rintro before event after rfl now key alien
    rw [history_append] at sound
    obtain ⟨-, soundRest⟩ := List.forall_mem_append.mp sound
    obtain ⟨soundEvent, -⟩ := List.forall_mem_append.mp soundRest
    exact ⟨event.entry_moment alien soundEvent, event.entry_later alien soundEvent⟩
  · rintro key unowned before after rfl
    rw [history_append] at sound
    obtain ⟨soundBefore, -⟩ := List.forall_mem_append.mp sound
    by_contra changed
    obtain ⟨_, event, _, -, owns⟩ := exists_owner before soundBefore changed
    exact unowned owns.mem_ownedKeys
  · intro query isQuery asked later
    have runs := Program.Runs.of_run (query.program config) asked
    have light := isQuery.isLight runs
    refine ⟨?_, runs.untouched light⟩
    intro moment member
    obtain ⟨quiet, unfetched⟩ := light moment member
    refine ⟨unfetched, fun key value writes => ?_⟩
    rw [writes] at quiet
    exact quiet

/-- A host that is served a list of one domain, with an entry that nobody owns. -/
def annotatedHost : Host :=
  { servedHost with store := .memory [("annotation", .bool true)] }

def installedHighStarted : List Event := installedHigh ++ [.operation .startup]

/-- The stored mode differs after the session, and the change to high owns it; the entry that nobody
owns is still there. -/
theorem entries_change_by_owners_annotated :
    (∃ before event after, installedHighStarted = before ++ event :: after ∧
        event.Owns {} (ending {} before annotatedHost) stateKey) ∧
      (ending {} installedHighStarted annotatedHost).entry "annotation" =
        .ok (some (.bool true)) := by
  have memory : annotatedHost.InMemory := ⟨_, rfl⟩
  obtain ⟨-, owners, others, -⟩ := entries_change_by_owners {} annotatedHost installedHighStarted
    (isSound_of_inMemory {} installedHighStarted memory)
  constructor
  · refine owners stateKey fun same => ?_
    have high : (ending {} installedHighStarted annotatedHost).storedMode = some .high := by
      decide +kernel
    rw [Host.storedMode_congr same] at high
    exact absurd high (by decide +kernel)
  · rw [others "annotation" (by decide) installedHighStarted [] (List.append_nil _).symm,
      Host.entry_of_memory rfl]
    rfl

end Session

end Blocklist
