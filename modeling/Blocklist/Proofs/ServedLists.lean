import Blocklist.Proofs.Repetition

/-!
# Rules from the list that is served

A synchronization that succeeds while the cache is of no use has fetched the list, and the rules
that it leaves are compiled from it. The cache is of no use when it is missing, does not decode, or
is stale at the time that is compared with, which is the first that a clock shows.
-/

namespace Blocklist

def Moment.shown? : Moment → Option Int64
  | ⟨host, .now⟩ => some (Moment.reply ⟨host, .now⟩)
  | _ => none

def clockTimes (moments : List Moment) : List Int64 := moments.filterMap Moment.shown?

/-- A host is served one list at all times. -/
def Host.Serves (text : String) (host : Host) : Prop :=
  host.source = .served ∧ ∀ number, host.environment.list number = text

/-- A list that is served is fetched as it is, unless fetching is refused. -/
theorem Moment.eq_of_fetched {host : Host} {text list : String} (serves : host.Serves text)
    (fetched : Moment.reply ⟨host, .fetchList⟩ = .ok list) : list = text := by
  rcases answer_cases host .fetchList with ⟨detail, refused, -⟩ | ⟨reply, -⟩
  · have clash := (Option.some.inj refused).trans fetched
    contradiction
  · have answered : (Host.serve host.callCount .fetchList (host.noting .fetchList)).1 =
        .ok (host.environment.list host.callCount) := by
      have source : (host.noting .fetchList).source = .served := serves.1
      simp only [Host.serve, Host.fetchList, bind, StateT.bind, get, getThe, MonadStateOf.get,
        StateT.get, pure, source]
      rfl
    rw [← serves.2 host.callCount]
    exact Except.ok.inj (fetched.symm.trans (reply.trans answered))

namespace Engine

open Blocklist.Action

def CacheOfNoUse (config : Config) (host : Host) (moments : List Moment) : Prop :=
  ∀ time ∈ (clockTimes moments).head?, host.freshCache? config time = .ok none

def ListIs (text : String) (moments : List Moment) : Prop :=
  ∀ list, .ok list ∈ fetches moments → list = text

theorem listIs_of_serves {program : Program α} {host later : Host} {moments : List Moment}
    {value : α} {text : String} (runs : program.Runs host moments value later)
    (serves : host.Serves text) : ListIs text moments := by
  induction runs with
  | done => exact fun _ among => absurd among List.not_mem_nil
  | @ask call next host later moments value rest ih =>
    have kept : (Moment.mk host call).later.Serves text := by
      rw [Host.Serves, Moment.later_source, Moment.later_environment]
      exact serves
    intro list among
    obtain ⟨moment, member, fetched⟩ := List.mem_filterMap.mp among
    rcases List.mem_cons.mp member with rfl | later
    · cases call with
      | fetchList => exact Moment.eq_of_fetched serves (Option.some.inj fetched)
      | _ => contradiction
    · exact ih kept list (List.mem_filterMap.mpr ⟨moment, later, fetched⟩)

section

variable {config : Config} {mode : Mode} {host later : Host} {moments : List Moment}
variable {domains : List Domain}

/-- What is stored anew are the domains of a list that was fetched. -/
theorem fetched_of_refreshCache {cache : FilterCache}
    (performs : refreshCache.Performs host moments (.ok cache) later) :
    ∃ text, .ok text ∈ fetches moments ∧ cache.domains = FilterList.domains text := by
  obtain ⟨text, fetched, first, rest, fetching, goesOn, rfl⟩ := Performs.bind_ok_iff.mp performs
  obtain ⟨rfl, given, rfl⟩ := Performs.call_iff.mp fetching
  obtain ⟨now, asked, asking, others, -, stores, rfl⟩ := Performs.bind_ok_iff.mp goesOn
  obtain ⟨_, written, writing, last, -, returns, rfl⟩ := Performs.bind_ok_iff.mp stores
  obtain ⟨-, same, -⟩ := Performs.pure_iff.mp returns
  obtain rfl := Except.ok.inj same
  refine ⟨text, ?_, rfl⟩
  rw [fetches_append, given]
  exact .head _

/-- Domains that a cache of no use did not give were fetched. -/
theorem fetched_of_currentDomains
    (performs : (currentDomains config).Performs host moments (.ok domains) later)
    (useless : CacheOfNoUse config host moments) :
    ∃ text, .ok text ∈ fetches moments ∧ domains = FilterList.domains text := by
  have renewed {middle : Host} {first second : List Moment}
      (goesOn : Action.Performs (do return (← refreshCache).domains) middle second (.ok domains)
        later) :
      ∃ text, .ok text ∈ fetches (first ++ second) ∧ domains = FilterList.domains text := by
    rw [← map_eq_pure_bind] at goesOn
    obtain ⟨outcome, renews, same⟩ := Performs.map_iff.mp goesOn
    cases outcome with
    | error error => contradiction
    | ok cache =>
      obtain rfl := Except.ok.inj same
      obtain ⟨text, fetched, same⟩ := fetched_of_refreshCache renews
      rw [fetches_append]
      exact ⟨text, List.mem_append_right _ fetched, same⟩
  obtain ⟨found, middle, reading, rest, reads, goesOn, rfl⟩ := Performs.bind_ok_iff.mp performs
  obtain ⟨rfl, rfl, ⟨_, same, held⟩ | ⟨_, failed, -⟩⟩ := readCache_cases reads
  · obtain rfl := Except.ok.inj same
    cases found with
    | none => exact renewed goesOn
    | some cache =>
      obtain ⟨fresh, asked, asking, others, asks, decides, rfl⟩ := Performs.bind_ok_iff.mp goesOn
      obtain ⟨time, _, clock, _, shows, compares, rfl⟩ := Performs.bind_ok_iff.mp asks
      obtain ⟨rfl, shown, rfl⟩ := Performs.call_iff.mp shows
      obtain ⟨rfl, compared, rfl⟩ := Performs.pure_iff.mp compares
      obtain rfl := Except.ok.inj compared
      have stale : cache.isFresh time config.cacheTtlMs = false := by
        have unusable := useless time (congrArg some (Except.ok.inj shown).symm)
        rw [Host.freshCache?, held] at unusable
        simpa [Except.map] using unusable
      rw [stale] at decides
      rw [← List.append_assoc]
      exact renewed decides
  · contradiction

/-- The moments of a synchronization that succeeds are those of getting the domains, behind taking
the lock and reading the ids. -/
theorem getting_of_synchronize {report : SyncReport}
    (performs : (synchronize config mode).Performs host moments (.ok report) later) :
    ∃ domains given after middle, moments = ⟨host, .acquire .synchronization⟩ ::
        ⟨host.noting (.acquire .synchronization), .activeIds⟩ :: (given ++ after) ∧
      (domainsFor config mode).Performs (asked host) given (.ok domains) middle := by
  obtain ⟨held, finish, stages, rfl, -⟩ := stages_of_synchronize performs
  cases stages with
  | @replaced given domains middle _ _ gets =>
    exact ⟨domains, given, [⟨middle, _⟩, ⟨_, .release .synchronization⟩], middle,
      congrArg (opening host ++ ·) (List.append_assoc given [_] [_]), gets⟩

/-- The rules that a synchronization leaves are compiled from the list that is served. -/
theorem rules_of_synchronize {report : SyncReport} {text : String}
    (performs : (synchronize config mode).Performs host moments (.ok report) later)
    (served : ListIs text moments) (useless : CacheOfNoUse config host moments) :
    later.surface.rules = config.compiler.rulesFor mode (FilterList.domains text) := by
  obtain ⟨domains, given, after, middle, rfl, gets⟩ := getting_of_synchronize performs
  obtain ⟨_, same, -, -, -, left⟩ := supplied_of_synchronize performs gets
  obtain rfl := Except.ok.inj same
  have rules : later.surface.rules = config.compiler.rulesFor mode domains :=
    congrArg Surface.rules left
  cases uses : mode.usesFilterList with
  | false => simp [rules, Compiler.rulesFor, uses]
  | true =>
    rw [domainsFor, if_pos uses] at gets
    have times : clockTimes (⟨host, .acquire .synchronization⟩ ::
        ⟨host.noting (.acquire .synchronization), .activeIds⟩ :: (given ++ after)) =
          clockTimes given ++ clockTimes after := List.filterMap_append
    have uselessThen : CacheOfNoUse config (asked host) given := by
      intro time first
      have unchanged : (asked host).entry filterCacheKey = host.entry filterCacheKey := by
        rw [asked, Host.noting_entry, Host.noting_entry]
      rw [Host.freshCache?_congr unchanged]
      refine useless time ?_
      rw [times, List.head?_append, Option.mem_def.mp first]
      rfl
    obtain ⟨list, fetched, rfl⟩ := fetched_of_currentDomains gets uselessThen
    have lists : fetches (⟨host, .acquire .synchronization⟩ ::
        ⟨host.noting (.acquire .synchronization), .activeIds⟩ :: (given ++ after)) =
          fetches given ++ fetches after := List.filterMap_append
    rw [rules, served list (lists ▸ List.mem_append_left _ fetched)]

end

end Engine

end Blocklist
