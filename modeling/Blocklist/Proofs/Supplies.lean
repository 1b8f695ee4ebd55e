import Blocklist.Proofs.Acceptance
import Blocklist.Proofs.CachedLists

/-!
# Synchronizing from what is there

The domains of a mode are there when the cached list can be used, or when the mode needs none. Then
a synchronization makes no fetch and writes no entry, whatever list would be served, and the quota
decides what comes of it. Only a host that refuses one of the calls that a synchronization cannot do
without keeps the rules out.
-/

namespace Blocklist

/-! ## Refusals -/

/-- An environment that never refuses to read or to write an entry. -/
def Environment.ServesStore (environment : Environment) : Prop :=
  ∀ number key, environment.refusal number (.readEntry key) = none ∧
    ∀ value, environment.refusal number (.writeEntry key value) = none

namespace Moment

def IsRefused (moment : Moment) : Prop := (moment.host.refusalOf moment.call).isSome

/-- What is answered is what serving the call gives, unless the call is refused. -/
theorem reply_eq_or_isRefused (host : Host) (call : Call) :
    (Moment.mk host call).reply = (Host.serve host.callCount call (host.noting call)).1 ∨
      (Moment.mk host call).IsRefused := by
  cases refusal : host.refusalOf call with
  | none => exact .inl (reply_of_served refusal)
  | some reply => exact .inr (by simp [IsRefused, refusal])

end Moment

/-- A call that a synchronization cannot do without: for the ids of the active rules, for the cached
list, and for the replacement. -/
inductive Call.IsNeeded : Call → Prop where
  | ids : IsNeeded .activeIds
  | list : IsNeeded (.readEntry filterCacheKey)
  | replace (removed : List RuleId) (added : List Rule) : IsNeeded (.replaceRules removed added)

/-- Among some moments a call was refused that a synchronization cannot do without. -/
def Hindered (moments : List Moment) : Prop :=
  ∃ moment ∈ moments, moment.call.IsNeeded ∧ moment.IsRefused

theorem Hindered.mono {part moments : List Moment} (hindered : Hindered part)
    (within : part ⊆ moments) : Hindered moments := by
  obtain ⟨moment, member, refused⟩ := hindered
  exact ⟨moment, within member, refused⟩

/-- A run leaves the environment as it was. -/
theorem Program.Runs.environment_eq {program : Program α} {host later : Host}
    {moments : List Moment} {value : α} (runs : program.Runs host moments value later) :
    later.environment = host.environment :=
  runs.keeps (fun before after => after.environment = before.environment) (fun _ => rfl)
    (fun first second => second.trans first)
    fun moment _ => Moment.later_environment moment.host moment.call

/-- Where neither the store nor the surface is ever refused, nothing is hindered. -/
theorem Program.Runs.not_hindered {program : Program α} {host later : Host} {moments : List Moment}
    {value : α} (runs : program.Runs host moments value later)
    (stores : host.environment.ServesStore) (surface : host.environment.ServesSurface) :
    ¬ Hindered moments := by
  induction runs with
  | done => exact nofun
  | @ask call next host later moments value rest ih =>
    rw [Moment.later_environment] at ih
    rintro ⟨moment, member, needed, refused⟩
    rcases List.mem_cons.mp member with rfl | member
    · have served : host.environment.refusal host.callCount call = none := by
        cases needed with
        | ids => exact (surface host.callCount).1
        | list => exact (stores host.callCount filterCacheKey).1
        | replace removed added => exact (surface host.callCount).2 removed added
      simp [Moment.IsRefused, Host.refusalOf_eq_none served] at refused
    · exact ih stores surface ⟨moment, member, needed, refused⟩

namespace Engine

open Blocklist.Action

variable {config : Config} {mode : Mode} {host later : Host} {moments : List Moment}
variable {time : Int64} {domains : List Domain}

/-! ## Domains that are there -/

/-- The domains of a mode can be had at a time without a fetch. -/
def Supplies (config : Config) (mode : Mode) (time : Int64) (domains : List Domain) (host : Host) :
    Prop :=
  if mode.usesFilterList then
    ∃ cache, host.freshCache? config time = .ok (some cache) ∧ cache.domains = domains
  else domains = []

theorem Supplies.of_entry {a b : Host} (supplies : Supplies config mode time domains a)
    (same : b.entry filterCacheKey = a.entry filterCacheKey) :
    Supplies config mode time domains b := by
  unfold Supplies at supplies ⊢
  rw [Host.freshCache?_congr same]
  exact supplies

theorem Supplies.noting (supplies : Supplies config mode time domains host) (call : Call) :
    Supplies config mode time domains (host.noting call) :=
  supplies.of_entry (Host.noting_entry call host filterCacheKey)

/-- A cached list that can be used supplies every mode. -/
theorem supplies_of_usable {cache : FilterCache}
    (usable : host.freshCache? config time = .ok (some cache)) (mode : Mode) :
    ∃ domains, Supplies config mode time domains host ∧
      config.compiler.rulesFor mode domains = config.compiler.rulesFor mode cache.domains := by
  unfold Supplies
  split
  · exact ⟨cache.domains, ⟨cache, usable, rfl⟩, rfl⟩
  · next unused =>
    refine ⟨[], rfl, ?_⟩
    cases mode with
    | off => rfl
    | _ => exact absurd rfl unused

/-- Domains that were got once are there from then on. -/
theorem supplies_of_domainsFor (valid : config.validate = .ok ())
    (performs : (domainsFor config mode).Performs host moments (.ok domains) later)
    (clock : ∀ moment ∈ moments, moment.Shows time) (sound : ∀ moment ∈ moments, moment.IsSound) :
    Supplies config mode time domains later := by
  unfold domainsFor at performs
  unfold Supplies
  split
  · next uses =>
    rw [if_pos uses] at performs
    generalize result : (.ok domains : Except EngineError (List Domain)) = outcome at performs
    cases handout_of_currentDomains performs clock with
    | unread refused => contradiction
    | @used cache usable =>
      refine ⟨cache, ?_, (Except.ok.inj result).symm⟩
      rw [← usable]
      refine Host.freshCache?_congr ?_ config time
      rw [Host.noting_entry, Host.noting_entry]
    | @renewed reading renewing middle _ outcome unusable sparing kept renews =>
      cases outcome with
      | error error => contradiction
      | ok cache =>
        obtain ⟨-, clock⟩ := List.forall_mem_append.mp clock
        obtain ⟨-, sound⟩ := List.forall_mem_append.mp sound
        obtain ⟨text, rfl, -, -, holds, -⟩ := (renewal_of_refreshCache renews clock sound).succeeded
        exact ⟨_, holds.freshCache?_eq valid, (Except.ok.inj result).symm⟩
  · next unused =>
    rw [if_neg unused] at performs
    obtain ⟨-, same, -⟩ := Performs.pure_iff.mp performs
    exact Except.ok.inj same

/-- A cache that can be used is read, unless reading it is refused. -/
theorem isRefused_of_unread {cache : FilterCache} {error : EngineError}
    (usable : host.freshCache? config time = .ok (some cache))
    (failed : (Moment.mk host (.readEntry filterCacheKey)).reply = .error error) :
    (Moment.mk host (.readEntry filterCacheKey)).IsRefused := by
  rcases Moment.reply_eq_or_isRefused host (.readEntry filterCacheKey) with answered | refused
  · have read := Host.noting_entry (.readEntry filterCacheKey) host filterCacheKey
    have held : host.entry filterCacheKey = .error error :=
      (answered.trans read).symm.trans failed
    rw [Host.freshCache?, Host.cache?, held] at usable
    contradiction
  · exact refused

/-- Domains that are there are got without a fetch, unless reading them is refused. -/
theorem domainsFor_of_supplies {outcome : Except EngineError (List Domain)}
    (performs : (domainsFor config mode).Performs host moments outcome later)
    (supplies : Supplies config mode time domains host)
    (clock : ∀ moment ∈ moments, moment.Shows time) :
    (∀ moment ∈ moments, moment.call.IsSparing) ∧
      (outcome = .ok domains ∨ ∃ error, outcome = .error error ∧ Hindered moments) := by
  unfold domainsFor at performs
  unfold Supplies at supplies
  split at supplies
  · next uses =>
    rw [if_pos uses] at performs
    obtain ⟨cache, usable, rfl⟩ := supplies
    obtain ⟨sparing, -⟩ := currentDomains_of_usable performs usable clock
    refine ⟨sparing, ?_⟩
    cases handout_of_currentDomains performs clock with
    | unread failed =>
      have refused := isRefused_of_unread usable failed
      exact .inr ⟨_, rfl, _, List.mem_singleton_self _, .list, refused⟩
    | used used =>
      obtain rfl := Option.some.inj (Except.ok.inj (used.symm.trans usable))
      exact .inl rfl
    | renewed unusable => exact absurd (Except.ok.inj (unusable.symm.trans usable)) nofun
  · next unused =>
    rw [if_neg unused] at performs
    obtain ⟨rfl, rfl, -⟩ := Performs.pure_iff.mp performs
    exact ⟨nofun, .inl (congrArg Except.ok supplies.symm)⟩

/-! ## What comes of a synchronization -/

/-- What a synchronization comes to that is supplied with domains. -/
inductive FromSupply (config : Config) (mode : Mode) (domains : List Domain) (host : Host)
    (moments : List Moment) : Except EngineError SyncReport → Host → Prop where
  | applied {later : Host}
      (surface : later.surface = host.surface.withRules (config.compiler.rulesFor mode domains)) :
      FromSupply config mode domains host moments
        (.ok ⟨mode, host.surface.rules.length, (config.compiler.rulesFor mode domains).length⟩)
        later
  | unapplied {error : EngineError} {later : Host} (surface : later.surface = host.surface)
      (cause : host.surface.quota < (config.compiler.rulesFor mode domains).length ∨
        Hindered moments) :
      FromSupply config mode domains host moments (.error error) later

/-- The surface itself refuses the rules of a mode for the quota alone. -/
theorem overQuota_or_isRefused {middle : Host} {error : EngineError}
    (surface : middle.surface = host.surface)
    (failed : Moment.reply ⟨middle, replacement config mode host domains⟩ = .error error) :
    host.surface.quota < (config.compiler.rulesFor mode domains).length ∨
      (Moment.mk middle (replacement config mode host domains)).IsRefused := by
  rcases Moment.reply_eq_or_isRefused middle (replacement config mode host domains) with
    answered | refused
  · refine .inl (Nat.lt_of_not_le fun room => ?_)
    have fits : (middle.noting (replacement config mode host domains)).surface.replace
        host.surface.activeIds (config.compiler.rulesFor mode domains) =
          .ok (host.surface.withRules (config.compiler.rulesFor mode domains)) := by
      rw [Host.noting_surface, surface, Surface.replace_activeIds_rulesFor]
      exact if_neg (Nat.not_lt.mpr room)
    have served := answered.trans (congrArg Prod.fst (Host.replaceRules_of_ok fits))
    exact absurd (failed.symm.trans served) nofun
  · exact .inr refused

/-- Under the lock. -/
theorem Stages.fromSupply {outcome : Except EngineError SyncReport}
    (stages : Stages config mode host moments outcome later)
    (supplies : Supplies config mode time domains host)
    (clock : ∀ moment ∈ moments, moment.Shows time) :
    (∀ moment ∈ moments, moment.call.IsSparing) ∧
      FromSupply config mode domains host moments outcome later := by
  have there := supplies.noting .activeIds
  have confined := isConfinedTo_domainsFor config mode
  have listing : (Moment.mk host .activeIds).call.IsSparing := trivial
  cases stages with
  | unlisted failed =>
    refine ⟨List.forall_mem_singleton.mpr listing, .unapplied rfl (.inr ?_)⟩
    rcases Moment.reply_eq_or_isRefused host .activeIds with answered | refused
    · exact absurd (failed.symm.trans answered) nofun
    · exact ⟨_, List.mem_singleton_self _, .ids, refused⟩
  | unsupplied _ gets =>
    obtain ⟨-, clock⟩ := List.forall_mem_cons.mp clock
    obtain ⟨sparing, given | ⟨_, -, hindered⟩⟩ := domainsFor_of_supplies gets there clock
    · contradiction
    · exact ⟨List.forall_mem_cons.mpr ⟨listing, sparing⟩,
        .unapplied (gets.surface_eq confined) (.inr (hindered.mono (List.subset_cons_self _ _)))⟩
  | refused _ gets failed =>
    obtain ⟨-, clock⟩ := List.forall_mem_cons.mp (List.forall_mem_append.mp clock).1
    obtain ⟨sparing, given | ⟨_, unsupplied, -⟩⟩ := domainsFor_of_supplies gets there clock
    · obtain rfl := Except.ok.inj given
      have surface := gets.surface_eq confined
      refine ⟨List.forall_mem_append.mpr ⟨List.forall_mem_cons.mpr ⟨listing, sparing⟩,
        List.forall_mem_singleton.mpr trivial⟩, .unapplied surface ?_⟩
      refine (overQuota_or_isRefused surface failed).imp_right fun refused => ?_
      exact ⟨_, List.mem_append_right _ (List.mem_singleton_self _), .replace _ _, refused⟩
    · contradiction
  | replaced _ gets accepted _ left =>
    obtain ⟨-, clock⟩ := List.forall_mem_cons.mp (List.forall_mem_append.mp clock).1
    obtain ⟨sparing, given | ⟨_, unsupplied, -⟩⟩ := domainsFor_of_supplies gets there clock
    · obtain rfl := Except.ok.inj given
      refine ⟨List.forall_mem_append.mpr ⟨List.forall_mem_cons.mpr ⟨listing, sparing⟩,
        List.forall_mem_singleton.mpr trivial⟩, .applied ?_⟩
      exact (congrArg Host.surface left).trans (Surface.eq_withRules_of_replace accepted)
    · contradiction

/-- Supplied with domains, a synchronization fetches and writes nothing, and it applies their rules
unless the quota has no room for them or it is hindered. -/
theorem fromSupply_of_synchronize {outcome : Except EngineError SyncReport}
    (performs : (synchronize config mode).Performs host moments outcome later)
    (supplies : Supplies config mode time domains host)
    (clock : ∀ moment ∈ moments, moment.Shows time) :
    (∀ moment ∈ moments, moment.call.IsSparing) ∧
      FromSupply config mode domains host moments outcome later := by
  obtain ⟨held, finish, stages, rfl, rfl⟩ := stages_of_synchronize performs
  have within : held ⊆ ⟨host, .acquire .synchronization⟩ :: held ++
      [⟨finish, .release .synchronization⟩] := by simp
  obtain ⟨sparing, ends⟩ := stages.fromSupply (supplies.noting _)
    fun moment member => clock moment (within member)
  constructor
  · simp only [List.cons_append, List.forall_mem_cons, List.forall_mem_append]
    exact ⟨trivial, sparing, trivial, nofun⟩
  · cases ends with
    | applied surface => exact .applied surface
    | unapplied surface cause =>
      exact .unapplied surface (cause.imp_right fun hindered => hindered.mono within)

end Engine

end Blocklist
