import Blocklist.Proofs.ModeProtocol
import Blocklist.Proofs.Sessions

/-!
# What the engine stores

The engine keeps three records in the store, each under its own key. No operation writes anything
else, whatever it is asked for and whatever its host replies.
-/

namespace Blocklist

/-- A record of the engine, under its key. -/
inductive IsRecord : String → Json → Prop where
  | state (state : State) : IsRecord stateKey state.toJson
  | figures (stats : Stats) : IsRecord statsKey (StoredStats.mk stats).toJson
  | list (cache : FilterCache) : IsRecord filterCacheKey cache.toJson

namespace Call

/-- A call that writes no entry but a record of the engine. -/
def WritesRecords : Call → Prop
  | writeEntry key value => IsRecord key value
  | _ => True

variable {call : Call}

theorem ConcernsList.writesRecords (concerns : call.ConcernsList) : call.WritesRecords := by
  cases concerns with
  | write cache => exact .list cache
  | _ => trivial

theorem ConcernsRules.writesRecords (concerns : call.ConcernsRules) : call.WritesRecords := by
  cases concerns with
  | list concerns => exact concerns.writesRecords
  | _ => trivial

theorem ReadsFigures.writesRecords (reads : call.ReadsFigures) : call.WritesRecords := by
  cases reads <;> trivial

theorem ConcernsFigures.writesRecords (concerns : call.ConcernsFigures) : call.WritesRecords := by
  cases concerns with
  | reads reads => exact reads.writesRecords
  | write stats => exact .figures stats

end Call

namespace Engine

open Blocklist.Action

variable (config : Config)

theorem writesRecords_currentState : currentState.Uses Call.WritesRecords :=
  uses_currentState.mono fun _ read => read ▸ trivial

theorem writesRecords_refreshCache : refreshCache.Uses Call.WritesRecords :=
  uses_refreshCache.mono fun _ => Call.ConcernsList.writesRecords

theorem writesRecords_synchronize (mode : Mode) :
    (synchronize config mode).Uses Call.WritesRecords :=
  (uses_synchronize config mode).mono fun _ => Call.ConcernsRules.writesRecords

theorem writesRecords_rollSession : (rollSession config).Uses Call.WritesRecords :=
  (uses_rollSession config).mono fun _ => Call.ConcernsFigures.writesRecords

theorem writesRecords_changeMode (previous mode : Mode) :
    (changeMode config previous mode).Uses Call.WritesRecords := by
  have saves : (saveState ⟨mode⟩).Uses Call.WritesRecords := Uses.call (.state ⟨mode⟩)
  refine (writesRecords_synchronize config mode).map.bind fun _ => saves.outcome.bind ?_
  rintro (error | _)
  · exact (writesRecords_synchronize config previous).outcome.map.bind fun _ => Uses.throw error
  · exact Uses.bind (Uses.call trivial) fun _ => Uses.pure _

theorem writesRecords_setMode (mode : Mode) : (setMode config mode).Uses Call.WritesRecords := by
  rw [setMode_eq]
  apply Uses.holding trivial trivial
  refine writesRecords_currentState.bind fun current => ?_
  split
  · exact Uses.pure current
  · exact writesRecords_changeMode config current.mode mode

theorem writesRecords_applyStored : (applyStored config).Uses Call.WritesRecords :=
  Uses.holding trivial trivial
    (writesRecords_currentState.bind fun state => writesRecords_synchronize config state.mode)

theorem writesRecords_refresh : (refresh config).Uses Call.WritesRecords :=
  writesRecords_refreshCache.map.bind fun _ => writesRecords_applyStored config

theorem writesRecords_installed : (installed config).Uses Call.WritesRecords :=
  writesRecords_refreshCache.map.bind fun _ => writesRecords_applyStored config

theorem writesRecords_startup : (startup config).Uses Call.WritesRecords :=
  (writesRecords_rollSession config).map.bind fun _ => writesRecords_applyStored config

theorem writesRecords_handle (command : Command) :
    (handle config command).Uses Call.WritesRecords := by
  cases command with
  | getState => exact writesRecords_currentState.map
  | setMode mode => exact (writesRecords_setMode config mode).map
  | applyToTab tab =>
    refine writesRecords_currentState.bind fun state => ?_
    exact Uses.bind (Uses.call trivial) fun _ => Uses.pure _
  | getStats tab =>
    exact ((uses_statsReport config tab).mono fun _ => Call.ReadsFigures.writesRecords).map

theorem writesRecords_handleMessage (message : Json) :
    (handleMessage config message).Uses Call.WritesRecords := by
  unfold handleMessage
  split
  · trivial
  · split
    · trivial
    · refine Program.Uses.bind (writesRecords_handle config _) ?_
      rintro (error | reply) <;> trivial

end Engine

open Engine

/-- An operation writes nothing but records. -/
theorem Operation.writesRecords (config : Config) (operation : Operation) :
    (operation.program config).Uses Call.WritesRecords := by
  cases operation with
  | command asked => exact (writesRecords_handle config asked).settle
  | message value =>
    exact Program.Uses.bind (writesRecords_handleMessage config value) fun _ => trivial
  | setMode mode => exact (writesRecords_setMode config mode).settle
  | installed => exact (writesRecords_installed config).settle
  | startup => exact (writesRecords_startup config).settle
  | refresh => exact (writesRecords_refresh config).settle
  | refreshCache => exact writesRecords_refreshCache.settle
  | currentDomains =>
    exact ((uses_currentDomains config).mono fun _ => Call.ConcernsList.writesRecords).settle
  | rollSession => exact (writesRecords_rollSession config).settle

/-- What a trigger sets off writes nothing but records either. -/
theorem Trigger.writesRecords (config : Config) (trigger : Trigger) :
    (trigger.action config).Uses Call.WritesRecords := by
  cases trigger with
  | setMode mode => exact (writesRecords_setMode config mode).map
  | installed => exact (writesRecords_installed config).map
  | startup => exact (writesRecords_startup config).map
  | refresh => exact (writesRecords_refresh config).map

end Blocklist
