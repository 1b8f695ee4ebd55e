import Blocklist.Proofs.Enforcement

/-!
# What the cache hands out

The domains of the list are asked for through the cache. A cache that was read and is fresh at the
time hands out its domains, and besides reading it only the clock is asked. A cache that is missing,
does not decode or has become stale is renewed: the list is fetched, and its domains are stored with
the time before they are handed out. Nothing else is ever handed out.
-/

namespace Blocklist

/-! ## Fetches and clocks -/

def Moment.fetched? : Moment → Option (Except EngineError String)
  | ⟨host, .fetchList⟩ => some (Moment.reply ⟨host, .fetchList⟩)
  | _ => none

def fetches (moments : List Moment) : List (Except EngineError String) :=
  moments.filterMap Moment.fetched?

theorem fetches_append (first second : List Moment) :
    fetches (first ++ second) = fetches first ++ fetches second := List.filterMap_append

/-- A clock that, if it is read, shows a time. -/
def Moment.Shows (time : Int64) : Moment → Prop
  | ⟨host, .now⟩ => Moment.reply ⟨host, .now⟩ = time
  | _ => True

/-- A clock that stands still shows its time throughout a run. -/
theorem Program.Runs.shows {program : Program α} {host later : Host} {moments : List Moment}
    {value : α} {time : Int64} (runs : program.Runs host moments value later)
    (still : ∀ number, host.environment.clock number = time) :
    ∀ moment ∈ moments, moment.Shows time := by
  induction runs with
  | done => exact nofun
  | @ask call next host later moments value rest ih =>
    refine List.forall_mem_cons.mpr ⟨?_, ih ?_⟩
    · cases call with
      | now =>
        have unrefused : host.refusalOf .now = none := by
          unfold Host.refusalOf
          cases host.environment.refusal host.callCount .now <;> rfl
        exact (Moment.reply_of_served unrefused).trans (still host.callCount)
      | _ => trivial
    · rw [Moment.later_environment]
      exact still

/-! ## Fresh caches -/

namespace FilterCache

/-- A cache is fresh at the time it was fetched at, if caches are kept at all. -/
theorem isFresh_fetchedAt (cache : FilterCache) {span : UInt64} (positive : span ≠ 0) :
    cache.isFresh cache.fetchedAt span = true := by
  have age : saturatingSub cache.fetchedAt cache.fetchedAt = 0 := by
    rw [saturatingSub, Int.sub_self]
    decide
  have lasts : 0 < span.toNat := by
    have := mt (UInt64.toNat_inj (b := 0)).mp positive
    exact Nat.pos_of_ne_zero this
  simp [isFresh, age, lasts]

end FilterCache

theorem Config.cacheTtlMs_ne_zero {config : Config} (valid : config.validate = .ok ()) :
    config.cacheTtlMs ≠ 0 := by
  intro zero
  unfold validate at valid
  split at valid
  · contradiction
  · contradiction

def Host.Holds (cache : FilterCache) (host : Host) : Prop :=
  host.entry filterCacheKey = .ok (some cache.toJson)

/-- A call that neither fetches the list nor writes an entry. -/
def Call.IsSparing : Call → Prop
  | fetchList => False
  | writeEntry _ _ => False
  | _ => True

/-- A call that does not write keeps every entry. -/
theorem Moment.later_entry_of_isSparing {moment : Moment} (sparing : moment.call.IsSparing)
    (key : String) : moment.later.entry key = moment.host.entry key := by
  obtain ⟨host, call⟩ := moment
  refine later_entry ?_ ?_
  · cases call with
    | writeEntry => exact sparing.elim
    | _ => trivial
  · rintro value rfl
    exact sparing

theorem fetches_eq_nil {moments : List Moment}
    (sparing : ∀ moment ∈ moments, moment.call.IsSparing) : fetches moments = [] := by
  refine List.filterMap_eq_nil_iff.mpr ?_
  rintro ⟨host, call⟩ member
  cases call with
  | fetchList => exact (sparing _ member).elim
  | _ => rfl

/-- The cache as the store has it, as far as it can be read; one that does not decode counts as
missing. -/
def Host.cache? (host : Host) : Except EngineError (Option FilterCache) :=
  (host.entry filterCacheKey).map fun entry =>
    entry.bind fun value => (FilterCache.ofJson value).toOption

def Host.freshCache? (config : Config) (time : Int64) (host : Host) :
    Except EngineError (Option FilterCache) :=
  host.cache?.map (Option.filter (·.isFresh time config.cacheTtlMs))

theorem Host.freshCache?_congr {a b : Host}
    (same : a.entry filterCacheKey = b.entry filterCacheKey) (config : Config) (time : Int64) :
    a.freshCache? config time = b.freshCache? config time := by
  unfold freshCache? cache?
  rw [same]

/-- A cache that is stored can be used at the time at which it was fetched. -/
theorem Host.Holds.freshCache?_eq {config : Config} {cache : FilterCache} {host : Host}
    (holds : host.Holds cache) (valid : config.validate = .ok ()) :
    host.freshCache? config cache.fetchedAt = .ok (some cache) := by
  have fresh := cache.isFresh_fetchedAt (Config.cacheTtlMs_ne_zero valid)
  rw [freshCache?, cache?, holds, Except.map, Option.bind_some, FilterCache.ofJson_toJson]
  simp [Except.map, Except.toOption, fresh]

section

variable {cache : FilterCache} {host later : Host} {moments : List Moment}

theorem Program.Runs.entry_eq_of_isSparing {program : Program α} {value : α}
    (runs : program.Runs host moments value later)
    (sparing : ∀ moment ∈ moments, moment.call.IsSparing) (key : String) :
    later.entry key = host.entry key :=
  runs.entry_eq fun moment member => Moment.later_entry_of_isSparing (sparing moment member) key

/-- Calls that spare the store find it at each moment as it was at first. -/
theorem Program.Runs.holds_of_isSparing {program : Program α} {value : α}
    (runs : program.Runs host moments value later) (holds : host.Holds cache)
    (sparing : ∀ moment ∈ moments, moment.call.IsSparing) :
    ∀ moment ∈ moments, moment.host.Holds cache := by
  induction runs with
  | done => exact nofun
  | ask _ ih =>
    obtain ⟨first, others⟩ := List.forall_mem_cons.mp sparing
    refine List.forall_mem_cons.mpr ⟨holds, ih ?_ others⟩
    exact (Moment.later_entry_of_isSparing first filterCacheKey).trans holds

end

namespace Engine

open Blocklist.Action

variable {config : Config} {cache : FilterCache} {host later : Host} {moments : List Moment}

/-! ## Reading the cache -/

/-- What is read is the cache as the store has it, unless reading is refused. -/
theorem readCache_cases {outcome : Except EngineError (Option FilterCache)}
    (performs : readCache.Performs host moments outcome later) :
    moments = [⟨host, .readEntry filterCacheKey⟩] ∧
      later = host.noting (.readEntry filterCacheKey) ∧
      ((∃ found, outcome = .ok found ∧ host.cache? = .ok found) ∨
        ∃ error, outcome = .error error ∧
          Moment.reply ⟨host, .readEntry filterCacheKey⟩ = .error error) := by
  have noted : Moment.later ⟨host, .readEntry filterCacheKey⟩ =
      host.noting (.readEntry filterCacheKey) :=
    Moment.later_of_quiet (show Call.IsQuiet (.readEntry filterCacheKey) from trivial)
  rcases Performs.bind_iff.mp performs with
    ⟨error, reads, rfl⟩ | ⟨found, middle, first, second, reads, decodes, rfl⟩
  · obtain ⟨rfl, refused, rfl⟩ := Performs.call_iff.mp reads
    exact ⟨rfl, noted, .inr ⟨error, rfl, refused.symm⟩⟩
  · obtain ⟨rfl, answered, rfl⟩ := Performs.call_iff.mp reads
    rcases Moment.reply_readEntry host filterCacheKey with same | ⟨error, refused⟩
    · have held : host.entry filterCacheKey = .ok found := same.symm.trans answered.symm
      rw [Host.cache?, held]
      cases found with
      | none =>
        obtain ⟨rfl, rfl, rfl⟩ := Performs.pure_iff.mp decodes
        exact ⟨rfl, noted, .inl ⟨_, rfl, rfl⟩⟩
      | some value =>
        obtain ⟨rfl, rfl, rfl⟩ := Performs.pure_iff.mp decodes
        exact ⟨rfl, noted, .inl ⟨_, rfl, rfl⟩⟩
    · exact absurd (answered.trans refused) nofun

/-- A clock that is read shows the time that the moment shows. -/
theorem now_of_shows {time : Int64} {outcome : Except EngineError Int64}
    (performs : Action.now.Performs host moments outcome later)
    (clock : ∀ moment ∈ moments, moment.Shows time) :
    moments = [⟨host, .now⟩] ∧ outcome = .ok time ∧ later = host.noting .now := by
  obtain ⟨rfl, rfl, rfl⟩ := Performs.call_iff.mp performs
  have shown := List.forall_mem_singleton.mp clock
  exact ⟨rfl, congrArg Except.ok shown, Moment.later_of_quiet (show Call.IsQuiet .now from trivial)⟩

theorem cacheIsFresh_of_shows {time : Int64} {outcome : Except EngineError Bool}
    (performs : (cacheIsFresh config cache).Performs host moments outcome later)
    (clock : ∀ moment ∈ moments, moment.Shows time) :
    moments = [⟨host, .now⟩] ∧ outcome = .ok (cache.isFresh time config.cacheTtlMs) ∧
      later = host.noting .now := by
  rcases Performs.bind_iff.mp performs with
    ⟨error, asks, rfl⟩ | ⟨told, middle, first, second, asks, compares, rfl⟩
  · obtain ⟨-, failed, -⟩ := now_of_shows asks clock
    contradiction
  · obtain ⟨rfl, rfl, rfl⟩ := Performs.pure_iff.mp compares
    rw [List.append_nil] at clock ⊢
    obtain ⟨rfl, same, rfl⟩ := now_of_shows asks clock
    obtain rfl := Except.ok.inj same
    exact ⟨rfl, rfl, rfl⟩

/-! ## Fetching and storing -/

/-- Among some moments the list could not be fetched, or the cache could not be written. -/
def RenewalFailed (moments : List Moment) : Prop :=
  (∃ error, .error error ∈ fetches moments) ∨
    ∃ moment ∈ moments, ∃ value, moment.RefusesEntry filterCacheKey value

theorem renewalFailed_append {first second : List Moment} :
    RenewalFailed (first ++ second) ↔ RenewalFailed first ∨ RenewalFailed second := by
  simp only [RenewalFailed, fetches_append, List.mem_append, exists_or, or_and_right]
  exact or_or_or_comm

/-- Calls that neither fetch nor write cannot make a renewal fail. -/
theorem not_renewalFailed (sparing : ∀ moment ∈ moments, moment.call.IsSparing) :
    ¬ RenewalFailed moments := by
  rintro (⟨error, among⟩ | ⟨moment, member, value, ⟨refused⟩⟩)
  · rw [fetches_eq_nil sparing] at among
    exact List.not_mem_nil among
  · exact sparing _ member

/-- What fetching the list and storing it comes to. -/
inductive Renewal (time : Int64) (host : Host) :
    List Moment → Except EngineError FilterCache → Host → Prop where
  | unfetched {error : EngineError} {later : Host}
      (refused : Moment.reply ⟨host, .fetchList⟩ = .error error)
      (kept : ∀ key, later.entry key = host.entry key) :
      Renewal time host [⟨host, .fetchList⟩] (.error error) later
  | unwritten {text : String} {asked writing later : Host} {error : EngineError}
      (fetched : Moment.reply ⟨host, .fetchList⟩ = .ok text)
      (refused : Moment.reply ⟨writing, .writeEntry filterCacheKey
        (FilterCache.mk time (FilterList.domains text)).toJson⟩ = .error error)
      (kept : ∀ key, later.entry key = host.entry key) :
      Renewal time host [⟨host, .fetchList⟩, ⟨asked, .now⟩, ⟨writing, .writeEntry filterCacheKey
        (FilterCache.mk time (FilterList.domains text)).toJson⟩] (.error error) later
  | renewed {text : String} {asked writing later : Host}
      (fetched : Moment.reply ⟨host, .fetchList⟩ = .ok text)
      (accepted : Moment.reply ⟨writing, .writeEntry filterCacheKey
        (FilterCache.mk time (FilterList.domains text)).toJson⟩ = .ok ())
      (holds : later.Holds ⟨time, FilterList.domains text⟩)
      (kept : ∀ key, key ≠ filterCacheKey → later.entry key = host.entry key) :
      Renewal time host [⟨host, .fetchList⟩, ⟨asked, .now⟩, ⟨writing, .writeEntry filterCacheKey
        (FilterCache.mk time (FilterList.domains text)).toJson⟩]
        (.ok ⟨time, FilterList.domains text⟩) later

namespace Renewal

variable {time : Int64}

/-- A renewal that fails changes no entry. -/
theorem failed {error : EngineError} (renewal : Renewal time host moments (.error error) later) :
    (∃ fetched, fetches moments = [fetched]) ∧ RenewalFailed moments ∧
      ∀ key, later.entry key = host.entry key := by
  cases renewal with
  | unfetched refused kept =>
    have fetched : fetches [⟨host, .fetchList⟩] = [.error error] :=
      congrArg (fun reply => [reply]) refused
    exact ⟨⟨_, fetched⟩, .inl ⟨error, by simp [fetched]⟩, kept⟩
  | unwritten fetched refused kept =>
    exact ⟨⟨_, rfl⟩, .inr ⟨_, by simp, _, .intro refused⟩, kept⟩

/-- A renewal that succeeds stores the whole list that it fetched, and nothing else. -/
theorem succeeded (renewal : Renewal time host moments (.ok cache) later) :
    ∃ text, cache = ⟨time, FilterList.domains text⟩ ∧ fetches moments = [.ok text] ∧
      ¬ RenewalFailed moments ∧ later.Holds cache ∧
      ∀ key, key ≠ filterCacheKey → later.entry key = host.entry key := by
  cases renewal with
  | @renewed text asked writing _ fetched accepted holds kept =>
    have once : fetches [⟨host, .fetchList⟩, ⟨asked, .now⟩, ⟨writing, .writeEntry filterCacheKey
        (FilterCache.mk time (FilterList.domains text)).toJson⟩] = [.ok text] :=
      congrArg (fun reply => [reply]) fetched
    refine ⟨text, rfl, once, ?_, holds, kept⟩
    rintro (⟨error, among⟩ | ⟨moment, member, value, ⟨refused⟩⟩)
    · rw [once] at among
      simp at among
    · simp only [List.mem_cons, List.not_mem_nil, or_false, reduceCtorEq, Moment.mk.injEq,
        and_false, false_or, Call.writeEntry.injEq, true_and] at member
      obtain ⟨rfl, rfl⟩ := member
      exact absurd (refused.symm.trans accepted) nofun

end Renewal

theorem renewal_of_refreshCache {time : Int64} {outcome : Except EngineError FilterCache}
    (performs : refreshCache.Performs host moments outcome later)
    (clock : ∀ moment ∈ moments, moment.Shows time)
    (sound : ∀ moment ∈ moments, moment.IsSound) : Renewal time host moments outcome later := by
  have noted : (Moment.mk host .fetchList).later = host.noting .fetchList :=
    Moment.later_of_quiet (show Call.IsQuiet .fetchList from trivial)
  rcases Performs.bind_iff.mp performs with
    ⟨error, fetches, rfl⟩ | ⟨text, fetched, fetching, _, fetches, goesOn, rfl⟩
  · obtain ⟨rfl, refused, rfl⟩ := Performs.call_iff.mp fetches
    refine .unfetched refused.symm fun key => ?_
    rw [noted, Host.noting_entry]
  obtain ⟨rfl, given, rfl⟩ := Performs.call_iff.mp fetches
  obtain ⟨-, clockRest⟩ := List.forall_mem_append.mp clock
  obtain ⟨-, soundRest⟩ := List.forall_mem_append.mp sound
  rcases Performs.bind_iff.mp goesOn with
    ⟨error, asks, rfl⟩ | ⟨now, asked, asking, _, asks, goesOn, rfl⟩
  · obtain ⟨-, failed, -⟩ := now_of_shows asks clockRest
    contradiction
  obtain ⟨clockAsking, -⟩ := List.forall_mem_append.mp clockRest
  obtain ⟨-, soundLast⟩ := List.forall_mem_append.mp soundRest
  obtain ⟨rfl, told, rfl⟩ := now_of_shows asks clockAsking
  obtain rfl := Except.ok.inj told
  have unchanged (key : String) :
      ((Moment.later ⟨host, .fetchList⟩).noting .now).entry key = host.entry key := by
    rw [Host.noting_entry, noted, Host.noting_entry]
  rcases Performs.bind_iff.mp goesOn with
    ⟨error, writes, rfl⟩ | ⟨_, written, writing, _, writes, returns, rfl⟩
  · obtain ⟨rfl, refused, rfl⟩ := Performs.call_iff.mp writes
    obtain ⟨-, same, others⟩ := List.forall_mem_singleton.mp soundLast
    refine .unwritten given.symm refused.symm fun key => ?_
    by_cases cached : key = filterCacheKey
    · rw [cached, same error refused.symm, unchanged]
    · rw [others key cached, unchanged]
  · obtain ⟨rfl, accepted, rfl⟩ := Performs.call_iff.mp writes
    obtain ⟨rfl, rfl, rfl⟩ := Performs.pure_iff.mp returns
    obtain ⟨soundWriting, -⟩ := List.forall_mem_append.mp soundLast
    obtain ⟨written, -, others⟩ := List.forall_mem_singleton.mp soundWriting
    refine .renewed given.symm accepted.symm (written accepted.symm) fun key other => ?_
    rw [others key other, unchanged]

/-! ## Handing out -/

/-- What asking for the domains comes to at a time: reading the cache is refused, the cache is used,
or, when there is none that can be used, it is renewed. -/
inductive Handout (config : Config) (time : Int64) (host : Host) :
    List Moment → Except EngineError (List Domain) → Host → Prop where
  | unread {error : EngineError}
      (refused : Moment.reply ⟨host, .readEntry filterCacheKey⟩ = .error error) :
      Handout config time host [⟨host, .readEntry filterCacheKey⟩] (.error error)
        (host.noting (.readEntry filterCacheKey))
  | used {cache : FilterCache} (usable : host.freshCache? config time = .ok (some cache)) :
      Handout config time host
        [⟨host, .readEntry filterCacheKey⟩, ⟨host.noting (.readEntry filterCacheKey), .now⟩]
        (.ok cache.domains) ((host.noting (.readEntry filterCacheKey)).noting .now)
  | renewed {reading renewing : List Moment} {middle later : Host}
      {outcome : Except EngineError FilterCache}
      (unusable : host.freshCache? config time = .ok none)
      (sparing : ∀ moment ∈ reading, moment.call.IsSparing)
      (kept : ∀ key, middle.entry key = host.entry key)
      (renews : refreshCache.Performs middle renewing outcome later) :
      Handout config time host (reading ++ renewing) (outcome.map (·.domains)) later

theorem handout_of_currentDomains {time : Int64} {outcome : Except EngineError (List Domain)}
    (performs : (currentDomains config).Performs host moments outcome later)
    (clock : ∀ moment ∈ moments, moment.Shows time) :
    Handout config time host moments outcome later := by
  have renews {middle later : Host} {second : List Moment} {result}
      (goesOn : Action.Performs (do return (← refreshCache).domains) middle second result later) :
      ∃ outcome, refreshCache.Performs middle second outcome later ∧
        result = outcome.map (·.domains) := by
    rw [← map_eq_pure_bind] at goesOn
    exact Performs.map_iff.mp goesOn
  rcases Performs.bind_iff.mp performs with
    ⟨error, reads, rfl⟩ | ⟨found, middle, first, second, reads, goesOn, rfl⟩
  · obtain ⟨rfl, rfl, ⟨_, succeeded, -⟩ | ⟨_, same, refused⟩⟩ := readCache_cases reads
    · contradiction
    · obtain rfl := Except.error.inj same
      exact .unread refused
  obtain ⟨rfl, rfl, ⟨_, same, held⟩ | ⟨_, failed, -⟩⟩ := readCache_cases reads
  · obtain rfl := Except.ok.inj same
    have unchanged := host.noting_entry (.readEntry filterCacheKey)
    have reading : ∀ moment ∈ [Moment.mk host (.readEntry filterCacheKey)],
        moment.call.IsSparing := List.forall_mem_singleton.mpr trivial
    cases found with
    | none =>
      obtain ⟨outcome, renewing, rfl⟩ := renews goesOn
      exact .renewed (by rw [Host.freshCache?, held]; rfl) reading unchanged renewing
    | some cache =>
      obtain ⟨-, clock⟩ := List.forall_mem_append.mp clock
      rcases Performs.bind_iff.mp goesOn with
        ⟨error, asks, rfl⟩ | ⟨fresh, asked, asking, third, asks, goesOn, rfl⟩
      · obtain ⟨-, failed, -⟩ := cacheIsFresh_of_shows asks clock
        contradiction
      obtain ⟨clock, -⟩ := List.forall_mem_append.mp clock
      obtain ⟨rfl, same, rfl⟩ := cacheIsFresh_of_shows asks clock
      obtain rfl := Except.ok.inj same
      cases usable : cache.isFresh time config.cacheTtlMs with
      | true =>
        rw [usable] at goesOn
        obtain ⟨rfl, rfl, rfl⟩ := Performs.pure_iff.mp goesOn
        refine .used ?_
        rw [Host.freshCache?, held]
        simp [Except.map, usable]
      | false =>
        rw [usable] at goesOn
        obtain ⟨outcome, renewing, rfl⟩ := renews goesOn
        rw [← List.append_assoc]
        refine .renewed ?_ ?_ ?_ renewing
        · rw [Host.freshCache?, held]
          simp [Except.map, usable]
        · exact List.forall_mem_append.mpr ⟨reading, List.forall_mem_singleton.mpr trivial⟩
        · intro key
          rw [Host.noting_entry, unchanged]
  · contradiction

/-- A cache that can be used is handed out without a fetch, unless it cannot be read. -/
theorem currentDomains_of_usable {time : Int64} {outcome : Except EngineError (List Domain)}
    (performs : (currentDomains config).Performs host moments outcome later)
    (usable : host.freshCache? config time = .ok (some cache))
    (clock : ∀ moment ∈ moments, moment.Shows time) :
    (∀ moment ∈ moments, moment.call.IsSparing) ∧
      (outcome = .ok cache.domains ∨ ∃ error, outcome = .error error ∧
        Moment.reply ⟨host, .readEntry filterCacheKey⟩ = .error error) := by
  cases handout_of_currentDomains performs clock with
  | unread refused => exact ⟨List.forall_mem_singleton.mpr trivial, .inr ⟨_, rfl, refused⟩⟩
  | used used =>
    obtain rfl := Option.some.inj (Except.ok.inj (used.symm.trans usable))
    exact ⟨List.forall_mem_cons.mpr ⟨trivial, List.forall_mem_singleton.mpr trivial⟩, .inl rfl⟩
  | renewed unusable => exact absurd (Except.ok.inj (unusable.symm.trans usable)) nofun

end Engine

end Blocklist
