import Blocklist.Proofs.Confinement
import Blocklist.Proofs.Replacement

/-!
# Synchronizing is all or nothing

A synchronization reads the active ids, gets the domains, and replaces everything that is active by
the compiled rules. Nothing between the reading and the replacing touches the surface, so the ids
that are removed are all that are active, and the replacement is one of everything by a compiled
rule set. Whatever fails on the way, fails before the surface changes.
-/

namespace Blocklist

namespace Call

/-- A call for the active rules or for the list that they are compiled from. -/
inductive ConcernsRules : Call → Prop where
  | acquire : ConcernsRules (.acquire .synchronization)
  | release : ConcernsRules (.release .synchronization)
  | ids : ConcernsRules .activeIds
  | replace (removed : List RuleId) (added : List Rule) :
      ConcernsRules (.replaceRules removed added)
  | list {call : Call} (concerns : call.ConcernsList) : ConcernsRules call

theorem ConcernsRules.writesOnly {call : Call} (concerns : call.ConcernsRules) :
    call.WritesOnly [filterCacheKey] := by
  cases concerns with
  | list concerns => exact concerns.isConfinedTo.writesOnly
  | _ => trivial

end Call

namespace Engine

open Blocklist.Action

variable {config : Config} {mode : Mode} {host later : Host} {moments : List Moment}

/-- The domains that the rules of a mode are compiled from. -/
def domainsFor (config : Config) (mode : Mode) : Action (List Domain) :=
  if mode.usesFilterList then currentDomains config else pure []

theorem uses_domainsFor (config : Config) (mode : Mode) :
    (domainsFor config mode).Uses Call.ConcernsList := by
  unfold domainsFor
  split
  · exact uses_currentDomains config
  · exact Uses.pure []

theorem isConfinedTo_domainsFor (config : Config) (mode : Mode) :
    (domainsFor config mode).IsConfinedTo [filterCacheKey] :=
  (uses_domainsFor config mode).mono fun _ => Call.ConcernsList.isConfinedTo

theorem rulesFor_eq (config : Config) (mode : Mode) :
    rulesFor config mode = config.compiler.rulesFor mode <$> domainsFor config mode := by
  unfold rulesFor domainsFor
  rw [map_eq_pure_bind]
  split
  · rfl
  · rfl

/-- The part of a synchronization that runs under its lock. -/
def replaceActive (config : Config) (mode : Mode) : Action SyncReport := do
  let active ← Action.activeIds
  let rules ← config.compiler.rulesFor mode <$> domainsFor config mode
  Action.replaceRules active rules
  return ⟨mode, active.length, rules.length⟩

theorem synchronize_eq (config : Config) (mode : Mode) :
    synchronize config mode = Action.holding .synchronization (replaceActive config mode) := by
  unfold synchronize replaceActive
  rw [rulesFor_eq]

theorem uses_synchronize (config : Config) (mode : Mode) :
    (synchronize config mode).Uses Call.ConcernsRules := by
  rw [synchronize_eq]
  refine Uses.holding .acquire .release (Uses.bind (Uses.call .ids) fun active => ?_)
  have domains := (uses_domainsFor config mode).mono fun _ => Call.ConcernsRules.list
  exact Uses.bind domains.map fun rules => Uses.bind (Uses.call (.replace _ _)) fun _ => Uses.pure _

/-- A synchronization writes no entry but the cached list. -/
theorem writesOnly_synchronize (config : Config) (mode : Mode) :
    (synchronize config mode).Uses (Call.WritesOnly [filterCacheKey]) :=
  (uses_synchronize config mode).mono fun _ => Call.ConcernsRules.writesOnly

/-- What a synchronization comes to: it fails before any replacement, or it replaces everything that
was active by the rules of its mode. -/
inductive Synchronizes (config : Config) (mode : Mode) (host : Host) (moments : List Moment) :
    Except EngineError SyncReport → Host → Prop where
  | failed {later : Host} (error : EngineError) (surface : later.surface = host.surface)
      (idle : ∀ moment ∈ moments, ¬ moment.Replaces) :
      Synchronizes config mode host moments (.error error) later
  | replaced {later : Host} (domains : List Domain)
      (given : (domainsFor config mode).PerformedIn (.ok domains) moments)
      (surface : later.surface = host.surface.withRules (config.compiler.rulesFor mode domains)) :
      Synchronizes config mode host moments
        (.ok ⟨mode, host.surface.rules.length, (config.compiler.rulesFor mode domains).length⟩)
        later

/-! ## Stages -/

/-- The replacement of everything that is active on a host by the rules of a mode. -/
def replacement (config : Config) (mode : Mode) (host : Host) (domains : List Domain) : Call :=
  .replaceRules host.surface.activeIds (config.compiler.rulesFor mode domains)

/-- The stages of a synchronization under its lock: the ids of the active rules are read, the
domains are got, and everything is replaced. Each of them can fail. -/
inductive Stages (config : Config) (mode : Mode) (host : Host) :
    List Moment → Except EngineError SyncReport → Host → Prop where
  | unlisted {error : EngineError} (refused : Moment.reply ⟨host, .activeIds⟩ = .error error) :
      Stages config mode host [⟨host, .activeIds⟩] (.error error) (host.noting .activeIds)
  | unsupplied {given : List Moment} {error : EngineError} {later : Host}
      (listed : Moment.reply ⟨host, .activeIds⟩ = .ok host.surface.activeIds)
      (gets : (domainsFor config mode).Performs (host.noting .activeIds) given (.error error)
        later) :
      Stages config mode host (⟨host, .activeIds⟩ :: given) (.error error) later
  | refused {given : List Moment} {domains : List Domain} {middle : Host} {error : EngineError}
      (listed : Moment.reply ⟨host, .activeIds⟩ = .ok host.surface.activeIds)
      (gets : (domainsFor config mode).Performs (host.noting .activeIds) given (.ok domains) middle)
      (refused : Moment.reply ⟨middle, replacement config mode host domains⟩ = .error error) :
      Stages config mode host
        (⟨host, .activeIds⟩ :: given ++ [⟨middle, replacement config mode host domains⟩])
        (.error error) (middle.noting (replacement config mode host domains))
  | replaced {given : List Moment} {domains : List Domain} {middle : Host} {next : Surface}
      (listed : Moment.reply ⟨host, .activeIds⟩ = .ok host.surface.activeIds)
      (gets : (domainsFor config mode).Performs (host.noting .activeIds) given (.ok domains) middle)
      (accepted : host.surface.replace host.surface.activeIds
        (config.compiler.rulesFor mode domains) = .ok next)
      (answered : Moment.reply ⟨middle, replacement config mode host domains⟩ = .ok ())
      (left : Moment.later ⟨middle, replacement config mode host domains⟩ =
        { middle.noting (replacement config mode host domains) with surface := next }) :
      Stages config mode host
        (⟨host, .activeIds⟩ :: given ++ [⟨middle, replacement config mode host domains⟩])
        (.ok ⟨mode, host.surface.rules.length, (config.compiler.rulesFor mode domains).length⟩)
        (Moment.later ⟨middle, replacement config mode host domains⟩)

theorem stages_of_replaceActive {outcome : Except EngineError SyncReport}
    (performs : (replaceActive config mode).Performs host moments outcome later) :
    Stages config mode host moments outcome later := by
  have noted : Moment.later ⟨host, .activeIds⟩ = host.noting .activeIds :=
    Moment.later_of_quiet (show Call.IsQuiet .activeIds from trivial)
  rcases Performs.bind_iff.mp performs with
    ⟨error, reads, rfl⟩ | ⟨active, second, reading, others, reads, goesOn, rfl⟩
  · obtain ⟨rfl, refused, rfl⟩ := Performs.call_iff.mp reads
    rw [noted]
    exact .unlisted refused.symm
  obtain ⟨rfl, answered, rfl⟩ := Performs.call_iff.mp reads
  have listed : Moment.reply ⟨host, .activeIds⟩ = .ok host.surface.activeIds := by
    rcases Moment.reply_activeIds host with given | ⟨error, refused⟩
    · exact given
    · exact absurd (answered.trans refused) nofun
  obtain rfl := Except.ok.inj (answered.trans listed)
  rw [noted] at goesOn
  rcases Performs.bind_iff.mp goesOn with
    ⟨error, compiles, rfl⟩ | ⟨rules, middle, compiling, others, compiles, goesOn, rfl⟩
  · obtain ⟨domains, gets, same⟩ := Performs.map_iff.mp compiles
    cases domains with
    | ok domains => contradiction
    | error cause =>
      obtain rfl := Except.error.inj same
      exact .unsupplied listed gets
  obtain ⟨domains, gets, same⟩ := Performs.map_iff.mp compiles
  cases domains with
  | error cause => contradiction
  | ok domains =>
    obtain rfl := Except.ok.inj same
    have surface : middle.surface = host.surface :=
      gets.surface_eq (isConfinedTo_domainsFor config mode)
    rw [← map_eq_pure_bind] at goesOn
    obtain ⟨replacing, replaces, rfl⟩ := Performs.map_iff.mp goesOn
    obtain ⟨rfl, rfl, rfl⟩ := Performs.call_iff.mp replaces
    rcases Moment.replaceRules_cases middle host.surface.activeIds
      (config.compiler.rulesFor mode domains) with
      ⟨next, accepted, answered, left⟩ | ⟨error, refused, left⟩
    · rw [answered, show host.surface.activeIds.length = host.surface.rules.length from
        List.length_map _]
      rw [surface] at accepted
      exact .replaced listed gets accepted answered left
    · rw [refused, left]
      exact .refused listed gets refused

theorem stages_of_synchronize {outcome : Except EngineError SyncReport}
    (performs : (synchronize config mode).Performs host moments outcome later) :
    ∃ held finish, Stages config mode (host.noting (.acquire .synchronization)) held outcome finish ∧
      moments = ⟨host, .acquire .synchronization⟩ :: held ++
        [⟨finish, .release .synchronization⟩] ∧
      later = finish.noting (.release .synchronization) := by
  rw [synchronize_eq] at performs
  obtain ⟨held, finish, body, rfl, rfl⟩ := Performs.holding_iff.mp performs
  rw [Moment.later_of_quiet (show Call.IsQuiet (.acquire .synchronization) from trivial)] at body
  rw [Moment.later_of_quiet (show Call.IsQuiet (.release .synchronization) from trivial)]
  exact ⟨held, finish, stages_of_replaceActive body, rfl, rfl⟩

theorem synchronize_cases {outcome : Except EngineError SyncReport}
    (performs : (synchronize config mode).Performs host moments outcome later) :
    Synchronizes config mode host moments outcome later := by
  obtain ⟨held, finish, stages, rfl, rfl⟩ := stages_of_synchronize performs
  have confined := isConfinedTo_domainsFor config mode
  cases stages with
  | unlisted refused =>
    refine .failed _ rfl ?_
    simp only [List.cons_append, List.forall_mem_cons, List.nil_append]
    exact ⟨nofun, nofun, nofun, nofun⟩
  | unsupplied _ gets =>
    refine .failed _ (gets.surface_eq confined) ?_
    simp only [List.cons_append, List.forall_mem_cons, List.forall_mem_append]
    exact ⟨nofun, nofun, gets.not_replaces confined, nofun, nofun⟩
  | refused _ gets refused =>
    refine .failed _ (gets.surface_eq confined) ?_
    have unreplaced {host : Host} {removed added} {error : EngineError}
        (refused : (Moment.mk host (.replaceRules removed added)).reply = .error error) :
        ¬ (Moment.mk host (.replaceRules removed added)).Replaces := by
      rintro ⟨accepted⟩
      rw [refused] at accepted
      contradiction
    simp only [List.cons_append, List.forall_mem_cons, List.forall_mem_append]
    exact ⟨nofun, nofun, ⟨gets.not_replaces confined, unreplaced refused, nofun⟩, nofun, nofun⟩
  | @replaced given domains middle _ _ gets accepted _ left =>
    refine .replaced domains ⟨given, ⟨_, _, gets⟩, ?_⟩ ?_
    · exact ⟨[_, _], [_, _], congrArg (_ :: _ :: ·) (List.append_assoc given [_] [_]).symm⟩
    · exact (congrArg Host.surface left).trans (Surface.eq_withRules_of_replace accepted)

/-- In a synchronization that succeeds, one replacement goes through, and leaves the surface as the
synchronization does. -/
theorem exists_replaces_of_synchronize {report : SyncReport}
    (performs : (synchronize config mode).Performs host moments (.ok report) later) :
    ∃ moment ∈ moments, moment.Replaces ∧ moment.later.surface = later.surface := by
  obtain ⟨held, finish, stages, rfl, rfl⟩ := stages_of_synchronize performs
  cases stages with
  | @replaced _ domains middle _ _ _ _ answered =>
    exact ⟨⟨middle, replacement config mode _ domains⟩, by simp, .intro answered, rfl⟩

/-! ## Off -/

/-- Without refusals of the surface, off is reached by four calls, and none of them is to the store
or for the list. -/
theorem performs_synchronize_off (config : Config) {host : Host}
    (served : host.environment.ServesSurface) :
    ∃ reading replacing leaving later, (synchronize config .off).Performs host
      [⟨host, .acquire .synchronization⟩, ⟨reading, .activeIds⟩,
        ⟨replacing, .replaceRules host.surface.activeIds []⟩, ⟨leaving, .release .synchronization⟩]
      (.ok ⟨.off, host.surface.rules.length, 0⟩) later := by
  let reading := host.noting (.acquire .synchronization)
  let replacing := reading.noting .activeIds
  let leaving := Moment.later ⟨replacing, .replaceRules host.surface.activeIds []⟩
  have ids : (Moment.mk reading .activeIds).reply = .ok reading.surface.activeIds :=
    Moment.reply_activeIds_of_served served
  have accepted : (Moment.mk replacing (.replaceRules replacing.surface.activeIds [])).reply =
      .ok () :=
    Moment.reply_replaceRules_of_served served replacing.surface.replace_activeIds_off
  have noted : (Moment.mk host (.acquire .synchronization)).later = reading :=
    Moment.later_of_quiet (show Call.IsQuiet (.acquire .synchronization) from trivial)
  have read : activeIds.Performs reading [⟨reading, .activeIds⟩] (.ok host.surface.activeIds)
      replacing := by
    refine Performs.call_iff.mpr ⟨rfl, ids.symm, ?_⟩
    exact (Moment.later_of_quiet (show Call.IsQuiet .activeIds from trivial)).symm
  have compiled : (config.compiler.rulesFor .off <$> domainsFor config .off).Performs replacing []
      (.ok []) replacing := by
    refine Performs.map_iff.mpr ⟨.ok [], Performs.pure_iff.mpr ⟨rfl, rfl, rfl⟩, ?_⟩
    rw [Except.map, Compiler.rulesFor_off]
  have replaced : (replaceRules host.surface.activeIds []).Performs replacing
      [⟨replacing, .replaceRules host.surface.activeIds []⟩] (.ok ()) leaving :=
    Performs.call_iff.mpr ⟨rfl, accepted.symm, rfl⟩
  have body : (replaceActive config .off).Performs reading
      [⟨reading, .activeIds⟩, ⟨replacing, .replaceRules host.surface.activeIds []⟩]
      (.ok ⟨.off, host.surface.rules.length, 0⟩) leaving := by
    refine Performs.bind read (Performs.bind compiled (Performs.bind replaced ?_))
    refine Performs.pure_iff.mpr ⟨rfl, ?_, rfl⟩
    rw [Surface.activeIds, List.length_map, List.length_nil]
  refine ⟨reading, replacing, leaving, Moment.later ⟨leaving, .release .synchronization⟩, ?_⟩
  rw [synchronize_eq]
  refine Performs.holding_iff.mpr ⟨[⟨reading, .activeIds⟩,
    ⟨replacing, .replaceRules host.surface.activeIds []⟩], leaving, ?_, rfl, rfl⟩
  rw [noted]
  exact body

/-! ## All or nothing -/

/-- A synchronization that succeeds leaves the rules of its mode, compiled from the domains that it
got, and no others; it reports how many rules there were and are, and counts one replacement. One
that fails leaves the surface as it was. Either way the match counters stay, and no entry but the
cached list is written, so in a sound store, as in memory and in a file, the stored mode and the
figures stay as well. Unless the surface itself refuses, off is always reached, without a fetch and
without the store. -/
theorem synchronize_replaces_all_or_nothing (config : Config) (mode : Mode) (host : Host) :
    let moments := (synchronize config mode).moments host
    let outcome := (Host.perform (synchronize config mode) host).1
    let later := (Host.perform (synchronize config mode) host).2
    (∀ report, outcome = .ok report → ∃ domains,
        (domainsFor config mode).PerformedIn (.ok domains) moments ∧
        later.surface.rules = config.compiler.rulesFor mode domains ∧
        StrictlyOrdered later.surface.rules ∧
        report = ⟨mode, host.surface.rules.length, later.surface.rules.length⟩ ∧
        later.surface.replaceCount = host.surface.replaceCount + 1) ∧
      (∀ error, outcome = .error error → later.surface = host.surface) ∧
      (later.surface.tabMatches = host.surface.tabMatches ∧
        later.surface.sessionMatches = host.surface.sessionMatches) ∧
      (∀ moment ∈ moments, moment.call.WritesOnly [filterCacheKey]) ∧
      ((∀ moment ∈ moments, moment.IsSound) →
        later.entry stateKey = host.entry stateKey ∧ later.entry statsKey = host.entry statsKey) ∧
      (mode = .off → host.environment.ServesSurface →
        outcome = .ok ⟨.off, host.surface.rules.length, 0⟩ ∧
        moments.map (·.call) = [.acquire .synchronization, .activeIds,
          .replaceRules host.surface.activeIds [], .release .synchronization]) := by
  intro moments outcome later
  have performs : (synchronize config mode).Performs host moments outcome later :=
    Performs.of_perform _ host
  clear_value moments outcome later
  have writes := writesOnly_synchronize config mode
  refine ⟨?_, ?_, ?_, performs.forall_of_uses writes, ?_, ?_⟩
  · intro report succeeded
    rw [succeeded] at performs
    cases synchronize_cases performs with
    | replaced domains given surface =>
      rw [surface]
      exact ⟨domains, given, rfl, config.compiler.strictlyOrdered_rulesFor mode domains, rfl, rfl⟩
  · intro error failed
    rw [failed] at performs
    cases synchronize_cases performs with
    | failed _ surface _ => exact surface
  · cases synchronize_cases performs with
    | failed _ surface _ => rw [surface]; exact ⟨rfl, rfl⟩
    | replaced _ _ surface => rw [surface]; exact ⟨rfl, rfl⟩
  · intro sound
    refine ⟨performs.entry_eq writes sound ?_, performs.entry_eq writes sound ?_⟩
    · decide
    · decide
  · rintro rfl served
    obtain ⟨reading, replacing, leaving, finish, off⟩ := performs_synchronize_off config served
    obtain ⟨same, reported, -⟩ := Program.Runs.deterministic performs off
    rw [same]
    exact ⟨reported, rfl⟩

end Engine

end Blocklist
