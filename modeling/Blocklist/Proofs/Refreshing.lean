import Blocklist.Proofs.CachedLists
import Blocklist.Proofs.StoredMode

/-!
# Refreshing the list

The hooks that renew the list fetch it, store it with the time, and apply the stored mode. Applying
the mode asks the cache for the domains again. What was stored a moment ago decodes to what was
encoded and is fresh, so the cache hands out the domains of the text that was fetched, all of them,
and there is no second fetch. From the storing on nothing is written any more.
-/

namespace Blocklist

namespace Action

/-- An action that neither fetches nor writes while a cache is stored, as long as the clock shows
the time at which the cache was fetched. -/
def RestsOn (cache : FilterCache) (action : Action α) : Prop :=
  ∀ host moments outcome later, action.Performs host moments outcome later → host.Holds cache →
    (∀ moment ∈ moments, moment.Shows cache.fetchedAt) → ∀ moment ∈ moments, moment.call.IsSparing

namespace RestsOn

variable {cache : FilterCache} {action : Action α} {next : α → Action β}

theorem of_uses (uses : action.Uses Call.IsSparing) : action.RestsOn cache :=
  fun _ _ _ _ performs _ _ => performs.forall_of_uses uses

theorem bind (front : action.RestsOn cache) (back : ∀ value, (next value).RestsOn cache) :
    (action >>= next).RestsOn cache := by
  intro host moments outcome later performs holds clock
  rcases Performs.bind_iff.mp performs with
    ⟨error, first, rfl⟩ | ⟨value, middle, _, _, first, second, rfl⟩
  · exact front _ _ _ _ first holds clock
  · obtain ⟨clockFirst, clockSecond⟩ := List.forall_mem_append.mp clock
    have sparing := front _ _ _ _ first holds clockFirst
    have kept := (Program.Runs.entry_eq_of_isSparing first sparing filterCacheKey).trans holds
    exact List.forall_mem_append.mpr ⟨sparing, back value _ _ _ _ second kept clockSecond⟩

theorem map {f : α → β} (rests : action.RestsOn cache) : (f <$> action).RestsOn cache := by
  rw [map_eq_pure_bind]
  exact rests.bind fun value => of_uses (Uses.pure _)

theorem holding {lock : Lock} (rests : action.RestsOn cache) :
    (Action.holding lock action).RestsOn cache := by
  intro host moments outcome later performs holds clock
  obtain ⟨held, finish, body, rfl, rfl⟩ := Performs.holding_iff.mp performs
  have entered : (Moment.later ⟨host, .acquire lock⟩).Holds cache := by
    rw [Host.Holds, Moment.later_of_quiet (show Call.IsQuiet (.acquire lock) from trivial)]
    exact (Host.noting_entry _ host filterCacheKey).trans holds
  have sparing := rests _ _ _ _ body entered fun moment member => clock moment (by simp [member])
  simp only [List.cons_append, List.forall_mem_cons, List.forall_mem_append]
  exact ⟨trivial, sparing, trivial, nofun⟩

end RestsOn

end Action

namespace Engine

open Blocklist.Action

variable {config : Config} {cache : FilterCache} {host later : Host} {moments : List Moment}

/-! ## What a stored cache hands out -/

/-- A cache hands out its domains, without a fetch, at the time at which it was fetched. -/
theorem currentDomains_of_holds (valid : config.validate = .ok ())
    {outcome : Except EngineError (List Domain)}
    (performs : (currentDomains config).Performs host moments outcome later)
    (holds : host.Holds cache) (clock : ∀ moment ∈ moments, moment.Shows cache.fetchedAt) :
    (∀ moment ∈ moments, moment.call.IsSparing) ∧
      ∀ domains, outcome = .ok domains → domains = cache.domains := by
  obtain ⟨sparing, handed | ⟨error, failed, -⟩⟩ :=
    currentDomains_of_usable performs (holds.freshCache?_eq valid) clock
  · exact ⟨sparing, fun domains same => Except.ok.inj (same.symm.trans handed)⟩
  · exact ⟨sparing, fun domains same => absurd (same.symm.trans failed) nofun⟩

theorem restsOn_currentDomains (valid : config.validate = .ok ()) :
    (currentDomains config).RestsOn cache :=
  fun _ _ _ _ performs holds clock => (currentDomains_of_holds valid performs holds clock).1

/-! ## Applying the stored mode -/

theorem restsOn_domainsFor (valid : config.validate = .ok ()) (mode : Mode) :
    (domainsFor config mode).RestsOn cache := by
  unfold domainsFor
  split
  · exact restsOn_currentDomains valid
  · exact .of_uses (Uses.pure [])

theorem restsOn_synchronize (valid : config.validate = .ok ()) (mode : Mode) :
    (synchronize config mode).RestsOn cache := by
  rw [synchronize_eq]
  have replaces (removed : List RuleId) (added : List Rule) :
      (Action.replaceRules removed added).RestsOn cache := .of_uses (Uses.call trivial)
  have reads : Action.activeIds.RestsOn cache := .of_uses (Uses.call trivial)
  refine RestsOn.holding (reads.bind fun active => ?_)
  refine (restsOn_domainsFor valid mode).map.bind fun rules => ?_
  exact (replaces active rules).bind fun _ => .of_uses (Uses.pure _)

theorem restsOn_applyStored (valid : config.validate = .ok ()) :
    (applyStored config).RestsOn cache := by
  have reads : currentState.RestsOn cache :=
    .of_uses (uses_currentState.mono fun _ read => read ▸ trivial)
  exact RestsOn.holding (reads.bind fun state => restsOn_synchronize valid state.mode)

/-- Rules are compiled from the domains of the cache, while it is fresh. -/
theorem rulesFor_of_holds (valid : config.validate = .ok ()) {mode : Mode} {domains : List Domain}
    (given : (domainsFor config mode).PerformedIn (.ok domains) moments)
    (holds : ∀ moment ∈ moments, moment.host.Holds cache)
    (clock : ∀ moment ∈ moments, moment.Shows cache.fetchedAt) :
    config.compiler.rulesFor mode domains = config.compiler.rulesFor mode cache.domains := by
  obtain ⟨during, ⟨start, finish, performs⟩, within⟩ := given
  unfold domainsFor at performs
  split at performs
  · -- The first of the moments is that of reading the cache.
    obtain ⟨others, rfl, -⟩ := Program.Runs.ask_iff.mp performs
    have held := holds _ (within.subset List.mem_cons_self)
    obtain ⟨-, handed⟩ := currentDomains_of_holds valid performs held
      fun moment member => clock moment (within.subset member)
    rw [handed domains rfl]
  · next unused =>
    obtain rfl : mode = .off := by simpa [Mode.usesFilterList] using unused
    rw [Compiler.rulesFor_off, Compiler.rulesFor_off]

/-- Applying the stored mode fails before the surface changes, or it succeeds. -/
theorem surface_of_applyStored_error {error : EngineError}
    (performs : (applyStored config).Performs host moments (.error error) later) :
    later.surface = host.surface := by
  obtain ⟨held, finish, body, rfl, rfl⟩ := Performs.holding_iff.mp performs
  have entered : (Moment.later ⟨host, .acquire .mode⟩).surface = host.surface :=
    Moment.later_surface nofun
  have left : (Moment.later ⟨finish, .release .mode⟩).surface = finish.surface :=
    Moment.later_surface nofun
  refine left.trans (Eq.trans ?_ entered)
  rcases Performs.bind_iff.mp body with
    ⟨_, reads, -⟩ | ⟨state, middle, reading, applying, reads, applies, -⟩
  · exact reads.surface_eq (isConfinedTo_currentState [])
  · have read := reads.surface_eq (isConfinedTo_currentState [])
    cases synchronize_cases applies with
    | failed _ surface _ => exact surface.trans read

/-- Applying the stored mode while the cache is fresh leaves the rules of that mode, from the
domains of the cache, or it fails and leaves the surface alone. -/
theorem applyStored_of_holds (valid : config.validate = .ok ())
    {outcome : Except EngineError SyncReport}
    (performs : (applyStored config).Performs host moments outcome later)
    (holds : host.Holds cache) (clock : ∀ moment ∈ moments, moment.Shows cache.fetchedAt)
    (sound : ∀ moment ∈ moments, moment.IsSound) :
    (∃ error, outcome = .error error ∧ later.surface = host.surface) ∨
      ∃ report mode, outcome = .ok report ∧ later.storedMode = some mode ∧
        later.surface.rules = config.compiler.rulesFor mode cache.domains := by
  rcases applyStored_effect performs sound with ⟨error, rfl, -⟩ | ⟨report, mode, rfl, inStep⟩
  · exact .inl ⟨error, rfl, surface_of_applyStored_error performs⟩
  · obtain ⟨domains, last, rules, stored⟩ := inStep
    have sparing := restsOn_applyStored valid _ _ _ _ performs holds clock
    have held := Program.Runs.holds_of_isSparing performs holds sparing
    refine .inr ⟨report, mode, rfl, stored, rules.trans ?_⟩
    exact rulesFor_of_holds valid last.domains_performedIn held clock

/-! ## The hooks -/

/-- What the hooks that renew the list do. -/
def renew (config : Config) : Action SyncReport := refreshCache >>= fun _ => applyStored config

theorem installed_eq (config : Config) : installed config = renew config := discard_bind

theorem refresh_eq (config : Config) : refresh config = renew config := discard_bind

/-- A renewal that fails changes nothing. One that does not stores the whole new list, once, and
then applies the stored mode to it or leaves the surface alone. -/
theorem renew_cases {time : Int64} (valid : config.validate = .ok ())
    {outcome : Except EngineError SyncReport}
    (performs : (renew config).Performs host moments outcome later)
    (clock : ∀ moment ∈ moments, moment.Shows time) (sound : ∀ moment ∈ moments, moment.IsSound) :
    (∃ fetched error, fetches moments = [fetched] ∧ RenewalFailed moments ∧
        outcome = .error error ∧ later.surface = host.surface ∧
        ∀ key, later.entry key = host.entry key) ∨
      ∃ text, fetches moments = [.ok text] ∧ ¬ RenewalFailed moments ∧
        later.Holds ⟨time, FilterList.domains text⟩ ∧
        (∀ key, key ≠ filterCacheKey → later.entry key = host.entry key) ∧
        ((∃ error, outcome = .error error ∧ later.surface = host.surface) ∨
          ∃ report mode, outcome = .ok report ∧ host.storedMode = some mode ∧
            later.surface.rules = config.compiler.rulesFor mode (FilterList.domains text)) := by
  rcases Performs.bind_iff.mp performs with
    ⟨error, renews, rfl⟩ | ⟨cache, middle, first, second, renews, applies, rfl⟩
  · obtain ⟨⟨fetched, once⟩, failed, kept⟩ := (renewal_of_refreshCache renews clock sound).failed
    have surface := renews.surface_eq isConfinedTo_refreshCache
    exact .inl ⟨fetched, error, once, failed, rfl, surface, kept⟩
  · obtain ⟨clockFirst, clockSecond⟩ := List.forall_mem_append.mp clock
    obtain ⟨soundFirst, soundSecond⟩ := List.forall_mem_append.mp sound
    obtain ⟨text, rfl, once, unfailed, holds, kept⟩ :=
      (renewal_of_refreshCache renews clockFirst soundFirst).succeeded
    have surface := renews.surface_eq isConfinedTo_refreshCache
    have sparing := restsOn_applyStored valid _ _ _ _ applies holds clockSecond
    have same := Program.Runs.entry_eq_of_isSparing applies sparing
    have others (key : String) (other : key ≠ filterCacheKey) :
        later.entry key = host.entry key := (same key).trans (kept key other)
    refine .inr ⟨text, ?_, ?_, (same filterCacheKey).trans holds, others, ?_⟩
    · rw [fetches_append, fetches_eq_nil sparing, List.append_nil, once]
    · rw [renewalFailed_append, not_or]
      exact ⟨unfailed, not_renewalFailed sparing⟩
    · rcases applyStored_of_holds valid applies holds clockSecond soundSecond with
        ⟨error, rfl, unchanged⟩ | ⟨report, mode, rfl, stored, rules⟩
      · exact .inl ⟨error, rfl, unchanged.trans surface⟩
      · have mode' := Host.storedMode_congr (others stateKey (by decide))
        exact .inr ⟨report, mode, rfl, mode'.symm.trans stored, rules⟩

/-- The hooks that renew the list, at a time that the clock shows throughout. They fetch exactly
once. When they succeed, the cache is the time with all domains of the text that was fetched, and
the active rules are those of the stored mode, compiled from these domains. When they fail the
surface is as it was. So is every entry, if the list could not be fetched or the cache could not be
written; otherwise the cache holds the whole new list. No entry but the cache changes in any case,
neither the stored mode nor the figures. -/
theorem hooks_renew_list {config : Config} {time : Int64} {host : Host} {hook : Action SyncReport}
    (renewing : hook = installed config ∨ hook = refresh config)
    (valid : config.validate = .ok ())
    (clock : ∀ moment ∈ hook.moments host, moment.Shows time)
    (sound : ∀ moment ∈ hook.moments host, moment.IsSound) :
    let moments := hook.moments host
    let outcome := (Host.perform hook host).1
    let later := (Host.perform hook host).2
    (fetches moments).length = 1 ∧
      (∀ report, outcome = .ok report → ∃ text mode, fetches moments = [.ok text] ∧
        later.entry filterCacheKey =
          .ok (some (FilterCache.mk time (FilterList.domains text)).toJson) ∧
        host.storedMode = some mode ∧
        later.surface.rules = config.compiler.rulesFor mode (FilterList.domains text)) ∧
      (∀ error, outcome = .error error → later.surface = host.surface ∧
        (RenewalFailed moments → ∀ key, later.entry key = host.entry key) ∧
        (¬ RenewalFailed moments → ∃ text, fetches moments = [.ok text] ∧
          later.entry filterCacheKey =
            .ok (some (FilterCache.mk time (FilterList.domains text)).toJson))) ∧
      (∀ key, key ≠ filterCacheKey → later.entry key = host.entry key) ∧
      later.entry stateKey = host.entry stateKey ∧ later.entry statsKey = host.entry statsKey := by
  intro moments outcome later
  have same : hook = renew config := by
    rcases renewing with rfl | rfl
    · exact installed_eq config
    · exact refresh_eq config
  have performs : (renew config).Performs host moments outcome later :=
    same ▸ Performs.of_perform hook host
  rcases renew_cases valid performs clock sound with
    ⟨fetched, error, once, failed, outcome', surface, kept⟩ |
      ⟨text, once, unfailed, holds, kept, ends⟩
  · refine ⟨by rw [once]; rfl, ?_, ?_, fun key _ => kept key, kept stateKey, kept statsKey⟩
    · intro report succeeded
      exact absurd (outcome'.symm.trans succeeded) nofun
    · intro error' _
      exact ⟨surface, fun _ => kept, fun unfailed => absurd failed unfailed⟩
  · refine ⟨by rw [once]; rfl, ?_, ?_, kept, kept stateKey (by decide), kept statsKey (by decide)⟩
    · intro report succeeded
      rcases ends with ⟨error, failed, -⟩ | ⟨report', mode, -, stored, rules⟩
      · exact absurd (failed.symm.trans succeeded) nofun
      · exact ⟨text, mode, once, holds, stored, rules⟩
    · intro error failed
      rcases ends with ⟨error', -, surface⟩ | ⟨report, mode, succeeded, -, -⟩
      · exact ⟨surface, fun failure => absurd failure unfailed, fun _ => ⟨text, once, holds⟩⟩
      · exact absurd (succeeded.symm.trans failed) nofun

/-- The hook that follows an installation puts the one domain of the list into force. -/
theorem hooks_renew_list_installed :
    ∃ text mode, fetches ((installed {}).moments Session.servedHost) = [.ok text] ∧
      (Host.perform (installed {}) Session.servedHost).2.entry filterCacheKey =
        .ok (some (FilterCache.mk 0 (FilterList.domains text)).toJson) ∧
      Session.servedHost.storedMode = some mode ∧
      (Host.perform (installed {}) Session.servedHost).2.surface.rules =
        ({} : Config).compiler.rulesFor mode (FilterList.domains text) := by
  have memory : Session.servedHost.InMemory := ⟨[], rfl⟩
  have succeeds : (installed {}).Performs Session.servedHost
      ((installed {}).moments Session.servedHost) (.ok ⟨.low, 0, 1⟩)
      (Host.perform (installed {}) Session.servedHost).2 := .of_toOption (by decide +kernel)
  obtain ⟨sound, -⟩ := Program.Runs.isSound_of_inMemory succeeds memory
  have clock := Program.Runs.shows succeeds fun _ => rfl
  obtain ⟨-, renews, -⟩ := hooks_renew_list (.inl rfl) (by rfl) clock sound
  exact renews _ (congrArg Prod.fst succeeds.run_eq)

end Engine

end Blocklist
