import Blocklist.Proofs.CachedLists
import Mathlib.Algebra.Group.Int.Defs

/-!
# Fresh, fetched or failed

The domains of the list are those of a stored cache that is fresh, or they are fetched, or there is
an error: nothing old and nothing made up stands in for them. Whether a cache is fresh is a matter
of its age, a difference of two signed 64-bit numbers, which need not be one itself. The age stops
at the ends of the range, which changes nothing for a span that is in the range; under a span beyond
it every cache is fresh.
-/

namespace Blocklist

/-! ## The age of a cache -/

theorem maxTime_eq : maxTime = 2 ^ 63 - 1 := by decide

theorem minTime_eq : minTime = -2 ^ 63 := by decide

namespace FilterCache

/-- How much earlier than a time a cache was fetched, as a number without bounds. -/
def age (cache : FilterCache) (now : Int64) : Int := now.toInt - cache.fetchedAt.toInt

/-- A cache is fresh when it is younger than the span, and always when the span lies beyond the
signed 64-bit numbers. -/
theorem isFresh_iff (cache : FilterCache) (now : Int64) (span : UInt64) :
    cache.isFresh now span = true ↔ cache.age now < span.toNat ∨ maxTime < span.toNat := by
  simp only [isFresh, saturatingSub, age, maxTime_eq, minTime_eq, Bool.or_eq_true,
    decide_eq_true_eq]
  omega

theorem isFresh_of_age_lt {cache : FilterCache} {now : Int64} {span : UInt64}
    (younger : cache.age now < span.toNat) : cache.isFresh now span = true :=
  (cache.isFresh_iff now span).mpr (.inl younger)

/-- An entry that stands for a cache which is fresh at a time. -/
def UsableIn (config : Config) (time : Int64) (entry : Option Json) (cache : FilterCache) : Prop :=
  ∃ value, entry = some value ∧ ofJson value = .ok cache ∧
    cache.isFresh time config.cacheTtlMs = true

end FilterCache

namespace Host

variable {config : Config} {time : Int64} {host : Host} {entry : Option Json}

theorem freshCache?_eq_some_iff {cache : FilterCache}
    (stored : host.entry filterCacheKey = .ok entry) :
    host.freshCache? config time = .ok (some cache) ↔
      FilterCache.UsableIn config time entry cache := by
  have decodes (value : Json) : (FilterCache.ofJson value).toOption = some cache ↔
      FilterCache.ofJson value = .ok cache :=
    ⟨Action.Performs.eq_ok_of_toOption, fun decoded => by rw [decoded]; rfl⟩
  simp only [freshCache?, cache?, stored, Except.map, Except.ok.injEq, Option.filter_eq_some_iff,
    Option.bind_eq_some_iff, decodes, FilterCache.UsableIn]
  constructor
  · rintro ⟨⟨value, same, decoded⟩, fresh⟩
    exact ⟨value, same, decoded, fresh⟩
  · rintro ⟨value, same, decoded, fresh⟩
    exact ⟨⟨value, same, decoded⟩, fresh⟩

theorem freshCache?_eq_none_iff (stored : host.entry filterCacheKey = .ok entry) :
    host.freshCache? config time = .ok none ↔
      ¬ ∃ cache, FilterCache.UsableIn config time entry cache := by
  have told : ∃ found, host.freshCache? config time = .ok found := by
    rw [freshCache?, cache?, stored]
    exact ⟨_, rfl⟩
  obtain ⟨found, told⟩ := told
  constructor
  · rintro none ⟨cache, usable⟩
    have some := (freshCache?_eq_some_iff stored).mpr usable
    exact absurd (Except.ok.inj (some.symm.trans none)) (Option.some_ne_none cache)
  · intro unusable
    cases found with
    | none => exact told
    | some cache => exact absurd ⟨cache, (freshCache?_eq_some_iff stored).mp told⟩ unusable

theorem cache?_of_freshCache? {cache : FilterCache}
    (usable : host.freshCache? config time = .ok (some cache)) :
    host.cache? = .ok (some cache) ∧ cache.isFresh time config.cacheTtlMs = true := by
  unfold freshCache? at usable
  cases held : host.cache? with
  | error error =>
    rw [held] at usable
    contradiction
  | ok found =>
    rw [held] at usable
    obtain ⟨rfl, fresh⟩ := Option.filter_eq_some_iff.mp (Except.ok.inj usable)
    exact ⟨rfl, fresh⟩

end Host

/-- What is read is what is stored. -/
theorem Moment.entry_of_reply {host : Host} {key : String} {entry : Option Json}
    (read : Moment.reply ⟨host, .readEntry key⟩ = .ok entry) : host.entry key = .ok entry := by
  rcases Moment.reply_readEntry host key with same | ⟨error, refused⟩
  · exact same.symm.trans read
  · exact absurd (read.symm.trans refused) nofun

namespace Engine

open Blocklist.Action

variable {config : Config} {time : Int64} {host later : Host} {moments : List Moment}
variable {outcome : Except EngineError (List Domain)}

/-! ## What asking for the domains comes to -/

/-- Without an answer from the store there is no second call. -/
theorem currentDomains_of_unread {error : EngineError}
    (performs : (currentDomains config).Performs host moments outcome later)
    (unread : Moment.reply ⟨host, .readEntry filterCacheKey⟩ = .error error) :
    moments = [⟨host, .readEntry filterCacheKey⟩] ∧ outcome = .error error ∧
      later = host.noting (.readEntry filterCacheKey) := by
  rcases Performs.bind_iff.mp performs with
    ⟨error', reads, rfl⟩ | ⟨found, middle, first, second, reads, goesOn, rfl⟩
  · obtain ⟨rfl, rfl, ⟨_, succeeded, -⟩ | ⟨_, same, refused⟩⟩ := readCache_cases reads
    · contradiction
    · obtain rfl := Except.error.inj same
      obtain rfl := Except.error.inj (refused.symm.trans unread)
      exact ⟨rfl, rfl, rfl⟩
  · obtain ⟨entry, _, _, _, asks, -, -⟩ := Performs.bind_ok_iff.mp reads
    obtain ⟨-, answered, -⟩ := Performs.call_iff.mp asks
    exact absurd (answered.trans unread) nofun

/-- What asking for the domains comes to at a time, by the reply of the store: there is none, the
entry is good for a cache that is handed out, or the list is fetched, in vain or with success. -/
inductive Asked (config : Config) (time : Int64) (host : Host) (moments : List Moment) :
    Except EngineError (List Domain) → Host → Prop where
  | unread {error : EngineError} {later : Host}
      (unread : Moment.reply ⟨host, .readEntry filterCacheKey⟩ = .error error)
      (sparing : ∀ moment ∈ moments, moment.call.IsSparing) :
      Asked config time host moments (.error error) later
  | used {entry : Option Json} {cache : FilterCache} {later : Host}
      (read : Moment.reply ⟨host, .readEntry filterCacheKey⟩ = .ok entry)
      (usable : cache.UsableIn config time entry)
      (sparing : ∀ moment ∈ moments, moment.call.IsSparing) :
      Asked config time host moments (.ok cache.domains) later
  | unrenewed {entry : Option Json} {fetched : Except EngineError String} {error : EngineError}
      {later : Host}
      (read : Moment.reply ⟨host, .readEntry filterCacheKey⟩ = .ok entry)
      (unusable : ¬ ∃ cache, FilterCache.UsableIn config time entry cache)
      (once : fetches moments = [fetched]) (failed : RenewalFailed moments)
      (kept : ∀ key, later.entry key = host.entry key) :
      Asked config time host moments (.error error) later
  | renewed {entry : Option Json} {text : String} {later : Host}
      (read : Moment.reply ⟨host, .readEntry filterCacheKey⟩ = .ok entry)
      (unusable : ¬ ∃ cache, FilterCache.UsableIn config time entry cache)
      (once : fetches moments = [.ok text]) (unfailed : ¬ RenewalFailed moments)
      (holds : later.Holds ⟨time, FilterList.domains text⟩) :
      Asked config time host moments (.ok (FilterList.domains text)) later

theorem asked_of_currentDomains
    (performs : (currentDomains config).Performs host moments outcome later)
    (clock : ∀ moment ∈ moments, moment.Shows time) (sound : ∀ moment ∈ moments, moment.IsSound) :
    Asked config time host moments outcome later := by
  cases read : Moment.reply ⟨host, .readEntry filterCacheKey⟩ with
  | error error =>
    obtain ⟨rfl, rfl, -⟩ := currentDomains_of_unread performs read
    exact .unread read (List.forall_mem_singleton.mpr trivial)
  | ok entry =>
    have stored := Moment.entry_of_reply read
    cases handout_of_currentDomains performs clock with
    | unread refused => exact absurd (read.symm.trans refused) nofun
    | used usable =>
      refine .used read ((Host.freshCache?_eq_some_iff stored).mp usable) ?_
      exact List.forall_mem_cons.mpr ⟨trivial, List.forall_mem_singleton.mpr trivial⟩
    | @renewed reading renewing middle _ outcome unusable sparing kept renews =>
      have unusable := (Host.freshCache?_eq_none_iff stored).mp unusable
      obtain ⟨-, clock⟩ := List.forall_mem_append.mp clock
      obtain ⟨-, sound⟩ := List.forall_mem_append.mp sound
      have lists : fetches (reading ++ renewing) = fetches renewing := by
        rw [fetches_append, fetches_eq_nil sparing, List.nil_append]
      have failed : RenewalFailed (reading ++ renewing) ↔ RenewalFailed renewing := by
        rw [renewalFailed_append, or_iff_right (not_renewalFailed sparing)]
      cases outcome with
      | error error =>
        obtain ⟨⟨fetched, once⟩, fails, same⟩ := (renewal_of_refreshCache renews clock sound).failed
        exact .unrenewed read unusable (lists.trans once) (failed.mpr fails)
          fun key => (same key).trans (kept key)
      | ok cache =>
        obtain ⟨text, rfl, once, unfailed, holds, -⟩ :=
          (renewal_of_refreshCache renews clock sound).succeeded
        exact .renewed read unusable (lists.trans once) (mt failed.mp unfailed) holds

namespace Asked

theorem fetches_ne_nil_iff (asked : Asked config time host moments outcome later) :
    fetches moments ≠ [] ↔ ∃ entry, Moment.reply ⟨host, .readEntry filterCacheKey⟩ = .ok entry ∧
      ¬ ∃ cache, FilterCache.UsableIn config time entry cache := by
  have same {entry other : Option Json}
      (read : Moment.reply ⟨host, .readEntry filterCacheKey⟩ = .ok entry)
      (read' : Moment.reply ⟨host, .readEntry filterCacheKey⟩ = .ok other) : entry = other :=
    Except.ok.inj (read.symm.trans read')
  cases asked with
  | unread unread sparing =>
    refine iff_of_false (fun fetched => fetched (fetches_eq_nil sparing)) ?_
    rintro ⟨entry, read, -⟩
    exact absurd (unread.symm.trans read) nofun
  | used read usable sparing =>
    refine iff_of_false (fun fetched => fetched (fetches_eq_nil sparing)) ?_
    rintro ⟨other, read', unusable⟩
    obtain rfl := same read read'
    exact unusable ⟨_, usable⟩
  | unrenewed read unusable once | renewed read unusable once =>
    refine iff_of_true ?_ ⟨_, read, unusable⟩
    rw [once]
    exact List.cons_ne_nil _ _

/-- Without a fetch the domains are those of the stored cache. -/
theorem of_unfetched (asked : Asked config time host moments outcome later)
    (unfetched : fetches moments = []) :
    (∀ moment ∈ moments, moment.call.IsSparing) ∧ ∀ domains, outcome = .ok domains →
      ∃ (entry : Option Json) (cache : FilterCache),
        Moment.reply ⟨host, .readEntry filterCacheKey⟩ = .ok entry ∧
          cache.UsableIn config time entry ∧ domains = cache.domains := by
  cases asked with
  | unread unread sparing => exact ⟨sparing, nofun⟩
  | used read usable sparing =>
    refine ⟨sparing, fun domains same => ⟨_, _, read, usable, ?_⟩⟩
    exact (Except.ok.inj same).symm
  | unrenewed read unusable once | renewed read unusable once =>
    exact absurd (once.symm.trans unfetched) nofun

/-- With a fetch the domains are those of the list, and stored with the time. -/
theorem of_fetched {domains : List Domain}
    (asked : Asked config time host moments (.ok domains) later) (fetched : fetches moments ≠ []) :
    ∃ text, fetches moments = [.ok text] ∧ domains = FilterList.domains text ∧
      later.Holds ⟨time, domains⟩ := by
  cases asked with
  | used read usable sparing => exact absurd (fetches_eq_nil sparing) fetched
  | renewed read unusable once unfailed holds => exact ⟨_, once, rfl, holds⟩

/-- There is an error when reading, fetching or writing fails, and domains otherwise. -/
theorem error_iff (asked : Asked config time host moments outcome later) :
    (∃ error, outcome = .error error) ↔
      (∃ error, Moment.reply ⟨host, .readEntry filterCacheKey⟩ = .error error) ∨
        RenewalFailed moments := by
  have readable {entry : Option Json}
      (read : Moment.reply ⟨host, .readEntry filterCacheKey⟩ = .ok entry) :
      ¬ ∃ error, Moment.reply ⟨host, .readEntry filterCacheKey⟩ = .error error := by
    rintro ⟨error, unread⟩
    exact absurd (read.symm.trans unread) nofun
  cases asked with
  | unread unread => exact iff_of_true ⟨_, rfl⟩ (.inl ⟨_, unread⟩)
  | unrenewed read unusable once failed => exact iff_of_true ⟨_, rfl⟩ (.inr failed)
  | used read usable sparing =>
    exact iff_of_false nofun (not_or.mpr ⟨readable read, not_renewalFailed sparing⟩)
  | renewed read unusable once unfailed =>
    exact iff_of_false nofun (not_or.mpr ⟨readable read, unfailed⟩)

/-- An error leaves everything stored as it was. -/
theorem entry_eq_of_error {error : EngineError}
    (asked : Asked config time host moments (.error error) later)
    (performs : (currentDomains config).Performs host moments (.error error) later) (key : String) :
    later.entry key = host.entry key := by
  cases asked with
  | unread unread sparing => exact Program.Runs.entry_eq_of_isSparing performs sparing key
  | unrenewed read unusable once failed kept => exact kept key

end Asked

/-! ## What a stored cache is good for -/

section

variable {cache : FilterCache}

/-- A stored cache is read as it was stored. -/
theorem readCache_of_holds (holds : host.Holds cache)
    (readable : ∀ error, Moment.reply ⟨host, .readEntry filterCacheKey⟩ ≠ .error error) :
    (Host.perform readCache host).1 = .ok (some cache) := by
  have stored : host.cache? = .ok (some cache) := by
    rw [Host.cache?, holds, Except.map, Option.bind_some, FilterCache.ofJson_toJson]
    rfl
  obtain ⟨-, -, ⟨found, outcome, held⟩ | ⟨error, -, refused⟩⟩ :=
    readCache_cases (Performs.of_perform readCache host)
  · rw [outcome, ← stored, held]
  · exact absurd refused (readable error)

/-- A stored cache is handed out without a fetch as long as it is younger than the span. -/
theorem currentDomains_of_young {now : Int64} (holds : host.Holds cache)
    (younger : cache.age now < config.cacheTtlMs.toNat)
    (readable : ∀ error, Moment.reply ⟨host, .readEntry filterCacheKey⟩ ≠ .error error)
    (clock : ∀ moment ∈ (currentDomains config).moments host, moment.Shows now) :
    (∀ moment ∈ (currentDomains config).moments host, moment.call.IsSparing) ∧
      (Host.perform (currentDomains config) host).1 = .ok cache.domains := by
  have usable : host.freshCache? config now = .ok (some cache) :=
    (Host.freshCache?_eq_some_iff holds).mpr
      ⟨_, rfl, FilterCache.ofJson_toJson cache, FilterCache.isFresh_of_age_lt younger⟩
  obtain ⟨sparing, handed | ⟨error, -, refused⟩⟩ :=
    currentDomains_of_usable (Performs.of_perform (currentDomains config) host) usable clock
  · exact ⟨sparing, handed⟩
  · exact absurd refused (readable error)

end

/-! ## Fresh, fetched or failed -/

/-- The domains at a time that the clock shows throughout, whatever is stored and whatever fails.
The list is fetched exactly when the store was read and its entry is good for no cache: there is
none, it does not decode, or it is not fresh. Without a fetch nothing is written, and domains that
are handed out are those of the cache. With a fetch they are those of the text, and the entry is
these domains with the time; it is read back as it is, and handed out without a fetch as long as it
is younger than the span. There is an error exactly when reading, fetching or writing fails, and
then every entry is as it was. The store has to be sound, as one in memory always is
(`Host.InMemory.staysSound`), and one in a file for these calls
(`Host.InFile.staysSound_writesRecords`). -/
theorem currentDomains_fresh_or_fetched (config : Config) (host : Host) (time : Int64)
    (clock : ∀ moment ∈ (currentDomains config).moments host, moment.Shows time)
    (sound : ∀ moment ∈ (currentDomains config).moments host, moment.IsSound) :
    let moments := (currentDomains config).moments host
    let outcome := (Host.perform (currentDomains config) host).1
    let later := (Host.perform (currentDomains config) host).2
    (fetches moments ≠ [] ↔
        ∃ entry, Moment.reply ⟨host, .readEntry filterCacheKey⟩ = .ok entry ∧
          ¬ ∃ cache, FilterCache.UsableIn config time entry cache) ∧
      (fetches moments = [] →
        (∀ moment ∈ moments, moment.call.IsSparing) ∧ ∀ domains, outcome = .ok domains →
          ∃ (entry : Option Json) (cache : FilterCache),
            Moment.reply ⟨host, .readEntry filterCacheKey⟩ = .ok entry ∧
              cache.UsableIn config time entry ∧ domains = cache.domains) ∧
      (fetches moments ≠ [] → ∀ domains, outcome = .ok domains →
        (∃ text, fetches moments = [.ok text] ∧ domains = FilterList.domains text) ∧
          later.Holds ⟨time, domains⟩ ∧
          ∀ again : Host, again.Holds ⟨time, domains⟩ →
            (∀ error, Moment.reply ⟨again, .readEntry filterCacheKey⟩ ≠ .error error) →
            (Host.perform readCache again).1 = .ok (some ⟨time, domains⟩) ∧
              ∀ (other : Config) (now : Int64),
                now.toInt - time.toInt < other.cacheTtlMs.toNat →
                (∀ moment ∈ (currentDomains other).moments again, moment.Shows now) →
                (∀ moment ∈ (currentDomains other).moments again, moment.call.IsSparing) ∧
                  (Host.perform (currentDomains other) again).1 = .ok domains) ∧
      ((∃ error, outcome = .error error) ↔
        (∃ error, Moment.reply ⟨host, .readEntry filterCacheKey⟩ = .error error) ∨
          RenewalFailed moments) ∧
      ∀ error, outcome = .error error → ∀ key, later.entry key = host.entry key := by
  intro moments outcome later
  have performs : (currentDomains config).Performs host moments outcome later :=
    .of_perform (currentDomains config) host
  have asked := asked_of_currentDomains performs clock sound
  refine ⟨asked.fetches_ne_nil_iff, asked.of_unfetched, ?_, asked.error_iff, ?_⟩
  · intro fetched domains handed
    rw [handed] at asked
    obtain ⟨text, once, same, holds⟩ := asked.of_fetched fetched
    refine ⟨⟨text, once, same⟩, holds, fun again holds readable => ?_⟩
    refine ⟨readCache_of_holds holds readable, fun other now younger clock => ?_⟩
    exact currentDomains_of_young holds younger readable clock
  · intro error failed
    rw [failed] at asked performs
    exact asked.entry_eq_of_error performs

/-- A host whose cache has just reached the age of a week. -/
def weekOldHost : Host where
  store := .memory [(filterCacheKey, (FilterCache.mk 0 []).toJson)]
  environment := { clock := fun _ => 604800000, list := fun _ => "||a.example^" }

/-- A cache that is a week old is replaced, and so is its time. -/
theorem currentDomains_fresh_or_fetched_weekOld :
    fetches ((currentDomains {}).moments weekOldHost) ≠ [] ∧
      (Host.perform (currentDomains {}) weekOldHost).2.Holds
        ⟨604800000, FilterList.domains "||a.example^"⟩ := by
  have performs : (currentDomains {}).Performs weekOldHost ((currentDomains {}).moments weekOldHost)
      (.ok (FilterList.domains "||a.example^"))
      (Host.perform (currentDomains {}) weekOldHost).2 := .of_toOption (by decide +kernel)
  have clock := Program.Runs.shows performs fun _ => rfl
  obtain ⟨sound, -⟩ := Program.Runs.isSound_of_inMemory performs ⟨_, rfl⟩
  obtain ⟨-, -, fetched, -⟩ := currentDomains_fresh_or_fetched {} weekOldHost 604800000 clock sound
  have once : (fetches ((currentDomains {}).moments weekOldHost)).length = 1 := by decide +kernel
  have some := List.ne_nil_of_length_eq_add_one once
  exact ⟨some, (fetched some _ (congrArg Prod.fst performs.run_eq)).2.1⟩

/-! ## Caches that outlive their span -/

theorem fetches_ne_nil_of_refreshCache {outcome : Except EngineError FilterCache}
    (performs : refreshCache.Performs host moments outcome later) : fetches moments ≠ [] := by
  obtain ⟨others, rfl, -⟩ := Program.Runs.ask_iff.mp performs
  exact List.cons_ne_nil _ _

/-- Domains that are handed out without a fetch are those of a fresh cache. -/
theorem fresh_of_unfetched (performs : (currentDomains config).Performs host moments outcome later)
    (clock : ∀ moment ∈ moments, moment.Shows time) (unfetched : fetches moments = [])
    {domains : List Domain} (handed : outcome = .ok domains) :
    ∃ cache, host.cache? = .ok (some cache) ∧ domains = cache.domains ∧
      cache.isFresh time config.cacheTtlMs = true := by
  cases handout_of_currentDomains performs clock with
  | unread => contradiction
  | @used cache usable =>
    obtain ⟨held, fresh⟩ := Host.cache?_of_freshCache? usable
    exact ⟨cache, held, (Except.ok.inj handed).symm, fresh⟩
  | renewed unusable sparing kept renews =>
    rw [fetches_append, List.append_eq_nil_iff] at unfetched
    exact absurd unfetched.2 (fetches_ne_nil_of_refreshCache renews)

/-- A cache is fresh when it is younger than the span, and under a span beyond the signed 64-bit
numbers however old it is. So a cache that is handed out without a fetch is younger than any other
span. -/
theorem currentDomains_young_or_boundless (config : Config) (host : Host) :
    (∀ (cache : FilterCache) (now : Int64), cache.isFresh now config.cacheTtlMs = true ↔
        cache.age now < config.cacheTtlMs.toNat ∨ maxTime < config.cacheTtlMs.toNat) ∧
      ∀ time, (∀ moment ∈ (currentDomains config).moments host, moment.Shows time) →
        fetches ((currentDomains config).moments host) = [] → ∀ domains,
          (Host.perform (currentDomains config) host).1 = .ok domains →
            ∃ cache, host.cache? = .ok (some cache) ∧ domains = cache.domains ∧
              (cache.age time < config.cacheTtlMs.toNat ∨ maxTime < config.cacheTtlMs.toNat) := by
  refine ⟨fun cache now => cache.isFresh_iff now config.cacheTtlMs, ?_⟩
  intro time clock unfetched domains handed
  obtain ⟨cache, held, same, fresh⟩ :=
    fresh_of_unfetched (Performs.of_perform _ host) clock unfetched handed
  exact ⟨cache, held, same, (cache.isFresh_iff _ _).mp fresh⟩

/-- A configuration under which a cache may be used for 2 ^ 63 milliseconds. -/
def boundless : Config := { cacheTtlMs := 9223372036854775808 }

/-- A host at the start of 1970 whose cache was fetched 2 ^ 63 milliseconds before. -/
def ancientHost : Host where
  store := .memory [(filterCacheKey, (FilterCache.mk Int64.minValue []).toJson)]
  environment := { list := fun _ => "||a.example^" }

/-- A cache whose age has reached the span is fresh nevertheless, and handed out without a fetch,
when the span is the first beyond the signed 64-bit numbers. -/
theorem currentDomains_old_unfetched :
    boundless.validate = .ok () ∧
      ¬ ((FilterCache.mk Int64.minValue []).isFresh 0 boundless.cacheTtlMs = true ↔
        (FilterCache.mk Int64.minValue []).age 0 < boundless.cacheTtlMs.toNat) ∧
      (fetches ((currentDomains boundless).moments ancientHost)).length = 0 ∧
      (Host.perform (currentDomains boundless) ancientHost).1.toOption = some [] := by
  refine ⟨rfl, by decide +kernel, by decide +kernel, by decide +kernel⟩

end Engine

end Blocklist
