import Blocklist.Proofs.Sessions
import Blocklist.Proofs.Supplies

/-!
# Synchronizing again

A synchronization goes through stages: the ids are read, the domains are got, everything is
replaced. What comes of it depends on the surface in nothing but the quota, because the domains are
got without the surface and compiled rules fit any surface that has room for them. Once it has
succeeded, the domains can be had from the cache, so that doing it again gets the same domains
without a fetch and puts the same rules in their own place.
-/

namespace Blocklist

/-- A replacement that the surface refuses is refused with the reason. -/
theorem Moment.reply_replaceRules_of_refused {host : Host} {removed : List RuleId}
    {added : List Rule} {refusal : Surface.Refusal} (served : host.environment.ServesSurface)
    (refused : host.surface.replace removed added = .error refusal) :
    (Moment.mk host (.replaceRules removed added)).reply =
      .error (.enforcement refusal.message) := by
  rw [reply_of_served (Host.refusalOf_eq_none ((served host.callCount).2 removed added))]
  have unrecorded : (host.noting (.replaceRules removed added)).surface.replace removed added =
      .error refusal := refused
  exact congrArg Prod.fst (Host.replaceRules_of_error unrecorded)

namespace Host

def inWorld (host : Host) (source : ListSource) (environment : Environment) : Host :=
  { host with source, environment }

theorem entry_inWorld (host : Host) (source : ListSource) (environment : Environment)
    (key : String) : (host.inWorld source environment).entry key = host.entry key :=
  entry_congr (a := host.inWorld source environment) (b := host) rfl rfl key

variable {host : Host} {surface : Surface} {call : Call}

/-! ## Other surfaces -/

/-- A call for the list is answered alike whatever the surface. -/
theorem answer_withSurface (concerns : call.ConcernsList) (host : Host) (surface : Surface) :
    answer call { host with surface } =
      ((answer call host).1, { (answer call host).2 with surface }) := by
  have same : ({ host with surface } : Host).refusalOf call = host.refusalOf call := rfl
  cases refuses : host.refusalOf call with
  | some reply =>
    rw [answer_of_refused refuses, answer_of_refused (same.trans refuses)]
    rfl
  | none =>
    rw [answer_of_served refuses, answer_of_served (same.trans refuses)]
    obtain ⟨_, store, source, files, environment, calls, callCount⟩ := host
    cases concerns with
    | read => cases store <;> rfl
    | write cache => cases store <;> rfl
    | fetch => cases source <;> rfl
    | time => rfl

/-- A program that asks for the list alone runs alike whatever the surface. -/
theorem runs_withSurface {program : Program α} {later : Host} {moments : List Moment} {value : α}
    (runs : program.Runs host moments value later) (uses : program.Uses Call.ConcernsList)
    (surface : Surface) :
    ∃ others, program.Runs { host with surface } others value { later with surface } := by
  induction runs with
  | done value host => exact ⟨[], .done value _⟩
  | @ask call next host later moments value rest ih =>
    obtain ⟨others, alike⟩ := ih (uses.2 _)
    have answer := answer_withSurface uses.1 host surface
    refine ⟨⟨_, call⟩ :: others, .ask ?_⟩
    rw [Moment.reply, Moment.later, answer]
    exact alike

end Host

namespace Engine

open Blocklist.Action

section

variable {config : Config} {mode : Mode} {host later : Host} {moments : List Moment}
variable {time : Int64} {domains : List Domain}

/-! ## Stages -/

/-- The host that a synchronization asks for the domains: the lock was taken and the ids were
read. -/
def asked (host : Host) : Host := (host.noting (.acquire .synchronization)).noting .activeIds

/-- The moments up to there. -/
def opening (host : Host) : List Moment :=
  [⟨host, .acquire .synchronization⟩, ⟨host.noting (.acquire .synchronization), .activeIds⟩]

/-- What a synchronization of a surface comes to on a host, by the domains that it got there. -/
inductive Ends (config : Config) (mode : Mode) (surface : Surface) (middle : Host) :
    Except EngineError (List Domain) → Except EngineError SyncReport → Surface → Prop where
  | unsupplied (error : EngineError) :
      Ends config mode surface middle (.error error) (.error error) surface
  | refused {domains : List Domain} {error : EngineError}
      (refused : Moment.reply ⟨middle, .replaceRules surface.activeIds
        (config.compiler.rulesFor mode domains)⟩ = .error error) :
      Ends config mode surface middle (.ok domains) (.error error) surface
  | replaced {domains : List Domain} {next : Surface}
      (accepted : surface.replace surface.activeIds (config.compiler.rulesFor mode domains) =
        .ok next) :
      Ends config mode surface middle (.ok domains)
        (.ok ⟨mode, surface.rules.length, (config.compiler.rulesFor mode domains).length⟩) next

/-- A synchronization gets the domains on a host, comes to an end with them, and besides getting
them neither fetches nor writes. -/
def GoesThrough (config : Config) (mode : Mode) (host : Host) (moments : List Moment)
    (outcome : Except EngineError SyncReport) (later : Host) : Prop :=
  ∃ before given after middle domains, moments = before ++ given ++ after ∧
    (∀ moment ∈ before ++ after, moment.call.IsSparing) ∧
    (domainsFor config mode).Performs host given domains middle ∧
    (∀ key, later.entry key = middle.entry key) ∧
    Ends config mode host.surface middle domains outcome later.surface

theorem sparing_opening (host : Host) : ∀ moment ∈ opening host, moment.call.IsSparing :=
  List.forall_mem_cons.mpr ⟨trivial, List.forall_mem_singleton.mpr trivial⟩

/-- With the domains it goes through to a replacement, however that ends. -/
theorem goesThrough_of_gets {given : List Moment} {middle finish : Host} {removed : List RuleId}
    {added : List Rule} {outcome : Except EngineError SyncReport}
    (gets : (domainsFor config mode).Performs (asked host) given (.ok domains) middle)
    (kept : ∀ key, later.entry key = middle.entry key)
    (ends : Ends config mode (asked host).surface middle (.ok domains) outcome later.surface) :
    GoesThrough config mode (asked host)
      (opening host ++ (given ++ [⟨middle, .replaceRules removed added⟩] ++
        [⟨finish, .release .synchronization⟩])) outcome later := by
  refine ⟨opening host, given,
    [⟨middle, .replaceRules removed added⟩, ⟨finish, .release .synchronization⟩], middle,
    .ok domains, ?_, ?_, gets, kept, ends⟩
  · rw [List.append_assoc, List.append_assoc, List.singleton_append]
  · exact List.forall_mem_append.mpr ⟨sparing_opening host,
      List.forall_mem_cons.mpr ⟨trivial, List.forall_mem_singleton.mpr trivial⟩⟩

/-- A synchronization that is given the ids goes through from there. -/
theorem goesThrough_of_synchronize {outcome : Except EngineError SyncReport}
    (performs : (synchronize config mode).Performs host moments outcome later)
    (ids : Moment.reply ⟨host.noting (.acquire .synchronization), .activeIds⟩ =
      .ok host.surface.activeIds) :
    GoesThrough config mode (asked host) moments outcome later := by
  obtain ⟨held, finish, stages, rfl, rfl⟩ := stages_of_synchronize performs
  have confined := isConfinedTo_domainsFor config mode
  cases stages with
  | unlisted refused => exact absurd (refused.symm.trans ids) nofun
  | @unsupplied given error _ _ gets =>
    refine ⟨opening host, given, [⟨finish, .release .synchronization⟩], finish, .error error, rfl,
      ?_, gets, Host.noting_entry _ finish, ?_⟩
    · exact List.forall_mem_append.mpr
        ⟨sparing_opening host, List.forall_mem_singleton.mpr trivial⟩
    · rw [Host.noting_surface, gets.surface_eq confined]
      exact .unsupplied error
  | refused _ gets refused =>
    refine goesThrough_of_gets gets ?_ ?_
    · intro key
      rw [Host.noting_entry, Host.noting_entry]
    · rw [Host.noting_surface, Host.noting_surface, gets.surface_eq confined]
      exact .refused refused
  | replaced _ gets accepted _ left =>
    refine goesThrough_of_gets gets ?_ ?_
    · intro key
      rw [Host.noting_entry, left, Host.entry_with_surface, Host.noting_entry]
    · rw [Host.noting_surface, left]
      exact .replaced accepted

/-- A synchronization that succeeds was given the ids. -/
theorem goesThrough_of_synchronize_ok {report : SyncReport}
    (performs : (synchronize config mode).Performs host moments (.ok report) later) :
    GoesThrough config mode (asked host) moments (.ok report) later := by
  refine goesThrough_of_synchronize performs ?_
  obtain ⟨held, finish, stages, -, -⟩ := stages_of_synchronize performs
  cases stages with
  | replaced listed => exact listed

/-! ## How a synchronization ends -/

/-- The report on replacing the rules of a surface by those for some domains, or the refusal by the
quota. -/
def reportOn (config : Config) (mode : Mode) (surface : Surface) (domains : List Domain) :
    Except EngineError SyncReport :=
  let rules := config.compiler.rulesFor mode domains
  if surface.quota < rules.length then
    .error (.enforcement (Surface.Refusal.overQuota rules.length surface.quota).message)
  else .ok ⟨mode, surface.rules.length, rules.length⟩

namespace Ends

variable {surface next : Surface} {middle : Host} {outcome : Except EngineError SyncReport}
variable {given : Except EngineError (List Domain)}

/-- Where the surface is never refused, only the quota decides. -/
theorem outcome_eq (ends : Ends config mode surface middle given outcome next)
    (same : middle.surface = surface) (served : middle.environment.ServesSurface) :
    outcome = given.bind (reportOn config mode surface) := by
  cases ends with
  | unsupplied error => rfl
  | @refused domains error refused =>
    have replaces := surface.replace_activeIds_rulesFor config.compiler mode domains
    rw [← same] at replaces refused
    rw [Except.bind, reportOn, ← same]
    split at replaces
    · next exceeds =>
      rw [if_pos exceeds]
      rw [Moment.reply_replaceRules_of_refused served replaces] at refused
      exact congrArg Except.error (Except.error.inj refused.symm)
    · exact absurd (refused.symm.trans (Moment.reply_replaceRules_of_served served replaces)) nofun
  | @replaced domains next accepted =>
    have replaces := surface.replace_activeIds_rulesFor config.compiler mode domains
    rw [Except.bind, reportOn]
    split at replaces
    · exact absurd (accepted.symm.trans replaces) nofun
    · next fits => rw [if_neg fits]

/-- A synchronization that succeeds got domains whose rules fit, and left them. -/
theorem of_ok {report : SyncReport}
    (ends : Ends config mode surface middle given (.ok report) next) :
    ∃ domains, given = .ok domains ∧ reportOn config mode surface domains = .ok report ∧
      next = surface.withRules (config.compiler.rulesFor mode domains) := by
  cases ends with
  | @replaced domains next accepted =>
    have replaces := surface.replace_activeIds_rulesFor config.compiler mode domains
    refine ⟨domains, rfl, ?_, Surface.eq_withRules_of_replace accepted⟩
    rw [reportOn]
    split at replaces
    · exact absurd (accepted.symm.trans replaces) nofun
    · next fits => rw [if_neg fits]

end Ends

/-- What a synchronization comes to where the surface is never refused. -/
theorem outcome_of_served {outcome : Except EngineError SyncReport} {middle : Host}
    {given : List Moment} {supplied : Except EngineError (List Domain)}
    (performs : (synchronize config mode).Performs host moments outcome later)
    (gets : (domainsFor config mode).Performs (asked host) given supplied middle)
    (served : host.environment.ServesSurface) :
    outcome = supplied.bind (reportOn config mode host.surface) ∧
      ∀ key, later.entry key = middle.entry key := by
  have ids : Moment.reply ⟨host.noting (.acquire .synchronization), .activeIds⟩ =
      .ok host.surface.activeIds := Moment.reply_activeIds_of_served served
  obtain ⟨before, during, after, last, domains, rfl, -, got, kept, ends⟩ :=
    goesThrough_of_synchronize performs ids
  obtain ⟨rfl, rfl, rfl⟩ := Program.Runs.deterministic got gets
  have surface : last.surface = host.surface :=
    got.surface_eq (isConfinedTo_domainsFor config mode)
  have environment : last.environment = (asked host).environment :=
    Program.Runs.environment_eq got
  exact ⟨ends.outcome_eq surface (environment ▸ served), kept⟩

/-- A synchronization that succeeds got domains, which its rules then are compiled from. -/
theorem supplied_of_synchronize {report : SyncReport} {middle : Host} {given : List Moment}
    {supplied : Except EngineError (List Domain)}
    (performs : (synchronize config mode).Performs host moments (.ok report) later)
    (gets : (domainsFor config mode).Performs (asked host) given supplied middle) :
    ∃ domains, supplied = .ok domains ∧ (∀ moment ∈ given, moment ∈ moments) ∧
      (∀ key, later.entry key = middle.entry key) ∧
      reportOn config mode host.surface domains = .ok report ∧
      later.surface = host.surface.withRules (config.compiler.rulesFor mode domains) := by
  obtain ⟨before, during, after, last, _, rfl, -, got, kept, ends⟩ :=
    goesThrough_of_synchronize_ok performs
  obtain ⟨domains, rfl, reported, left⟩ := ends.of_ok
  obtain ⟨rfl, rfl, rfl⟩ := Program.Runs.deterministic got gets
  refine ⟨domains, rfl, ?_, kept, reported, left⟩
  intro moment member
  exact List.mem_append_left _ (List.mem_append_right _ member)

/-- Where the domains are there and their rules active already, a synchronization changes
nothing. -/
theorem synchronize_of_supplies {outcome : Except EngineError SyncReport}
    (performs : (synchronize config mode).Performs host moments outcome later)
    (supplies : Supplies config mode time domains host)
    (rules : host.surface.rules = config.compiler.rulesFor mode domains)
    (room : host.surface.rules.length ≤ host.surface.quota)
    (still : ∀ number, host.environment.clock number = time)
    (stores : host.environment.ServesStore) (surface : host.environment.ServesSurface) :
    outcome = .ok ⟨mode, host.surface.rules.length, host.surface.rules.length⟩ ∧
      (∀ moment ∈ moments, moment.call.IsSparing) ∧
      later.surface.rules = host.surface.rules ∧ ∀ key, later.entry key = host.entry key := by
  obtain ⟨sparing, ends⟩ :=
    fromSupply_of_synchronize performs supplies (Program.Runs.shows performs still)
  cases ends with
  | applied left =>
    rw [left, rules]
    exact ⟨rfl, sparing, rfl, Program.Runs.entry_eq_of_isSparing performs sparing⟩
  | unapplied _ cause =>
    rw [← rules] at cause
    have hindered := cause.resolve_left (Nat.not_lt.mpr room)
    exact absurd hindered (Program.Runs.not_hindered performs stores surface)

/-- The quota is all that a synchronization learns from the surface. -/
theorem outcome_withSurface {surface : Surface} (quota : surface.quota = host.surface.quota)
    (served : host.environment.ServesSurface) :
    let first := Host.perform (synchronize config mode) host
    let other := Host.perform (synchronize config mode) { host with surface }
    (∀ error, first.1 = .error error ↔ other.1 = .error error) ∧
      (∀ report, first.1 = .ok report →
        other.1 = .ok ⟨mode, surface.rules.length, report.added⟩ ∧
          other.2.surface.rules = first.2.surface.rules) ∧
      ∀ key, other.2.entry key = first.2.entry key := by
  intro first other
  obtain ⟨given, supplied, middle, gets⟩ : ∃ given supplied middle,
      (domainsFor config mode).Performs (asked host) given supplied middle :=
    ⟨_, _, _, Performs.of_perform _ _⟩
  obtain ⟨_, getsToo⟩ := Host.runs_withSurface gets (uses_domainsFor config mode) surface
  have performs : (synchronize config mode).Performs host _ first.1 first.2 :=
    Performs.of_perform _ _
  have performsToo : (synchronize config mode).Performs { host with surface } _ other.1 other.2 :=
    Performs.of_perform _ _
  obtain ⟨ended, kept⟩ := outcome_of_served performs gets served
  obtain ⟨endedToo, keptToo⟩ := outcome_of_served performsToo getsToo served
  refine ⟨?_, ?_, ?_⟩
  · intro error
    rw [ended, endedToo]
    cases supplied with
    | error cause => exact Iff.rfl
    | ok domains =>
      simp only [Except.bind, reportOn, quota]
      split
      · exact Iff.rfl
      · exact ⟨nofun, nofun⟩
  · intro report succeeded
    rw [succeeded] at performs
    obtain ⟨domains, rfl, -, -, reported, left⟩ := supplied_of_synchronize performs gets
    have reportedToo : other.1 = .ok ⟨mode, surface.rules.length, report.added⟩ := by
      simp only [endedToo, Except.bind, reportOn, quota]
      rw [reportOn] at reported
      split at reported
      · contradiction
      · next fits =>
        obtain rfl := Except.ok.inj reported
        rw [if_neg fits]
    rw [reportedToo] at performsToo
    obtain ⟨_, same, -, -, -, leftToo⟩ := supplied_of_synchronize performsToo getsToo
    obtain rfl := Except.ok.inj same
    refine ⟨reportedToo, ?_⟩
    rw [leftToo, left]
    rfl
  · intro key
    rw [keptToo, kept]
    exact Host.entry_with_surface middle surface key

end

/-! ## Rows of synchronizations -/

/-- A synchronization that is asked for, and the world that it meets beside the surface. -/
structure Turn where
  mode : Mode
  world : Host

namespace Turn

def domains (config : Config) (turn : Turn) : Except EngineError (List Domain) :=
  (Host.perform (domainsFor config turn.mode) (asked turn.world)).1

def outcome (config : Config) (turn : Turn) (surface : Surface) : Except EngineError SyncReport :=
  (Host.perform (synchronize config turn.mode) { turn.world with surface }).1

def later (config : Config) (turn : Turn) (surface : Surface) : Surface :=
  (Host.perform (synchronize config turn.mode) { turn.world with surface }).2.surface

/-- The mode and the domains that the synchronization has put into force, if it has succeeded. -/
def applied? (config : Config) (turn : Turn) (surface : Surface) : Option (Mode × List Domain) :=
  match turn.outcome config surface, turn.domains config with
  | .ok _, .ok domains => some (turn.mode, domains)
  | _, _ => none

end Turn

def applying (config : Config) : List Turn → Surface → Surface
  | [], surface => surface
  | turn :: turns, surface => applying config turns (turn.later config surface)

/-- What the last synchronization of a row that has succeeded put into force. -/
def lastApplied? (config : Config) : List Turn → Surface → Option (Mode × List Domain)
  | [], _ => none
  | turn :: turns, surface =>
    (lastApplied? config turns (turn.later config surface)).or (turn.applied? config surface)

/-- The rules of a mode and some domains, or else those of a surface. -/
def rulesOf (config : Config) (surface : Surface) : Option (Mode × List Domain) → List Rule
  | some (mode, domains) => config.compiler.rulesFor mode domains
  | none => surface.rules

theorem Turn.rules_later (config : Config) (turn : Turn) (surface : Surface) :
    (turn.later config surface).rules = rulesOf config surface (turn.applied? config surface) := by
  obtain ⟨given, middle, gets⟩ : ∃ given middle,
      (domainsFor config turn.mode).Performs (asked turn.world) given (turn.domains config)
        middle :=
    ⟨_, _, Performs.of_perform _ _⟩
  obtain ⟨_, gets⟩ := Host.runs_withSurface gets (uses_domainsFor config turn.mode) surface
  have performs : (synchronize config turn.mode).Performs { turn.world with surface } _
      (turn.outcome config surface) _ := Performs.of_perform _ _
  unfold Turn.applied?
  cases ended : turn.outcome config surface with
  | error error =>
    rw [ended] at performs
    cases synchronize_cases performs with
    | failed _ unchanged _ => exact congrArg Surface.rules unchanged
  | ok report =>
    rw [ended] at performs
    obtain ⟨domains, supplied, -, -, -, left⟩ := supplied_of_synchronize performs gets
    rw [supplied]
    exact congrArg Surface.rules left

/-- The last synchronization that has succeeded decides. -/
theorem rules_applying (config : Config) (turns : List Turn) (surface : Surface) :
    (applying config turns surface).rules =
      rulesOf config surface (lastApplied? config turns surface) := by
  induction turns generalizing surface with
  | nil => rfl
  | cons turn turns ih =>
    rw [applying, lastApplied?, ih]
    cases lastApplied? config turns (turn.later config surface) with
    | none => exact turn.rules_later config surface
    | some applied => rfl

/-! ## Idempotence -/

/-- Three laws of synchronizing. Once it has succeeded, doing it again at the same time succeeds as
well, whatever list would be served, as long as neither the store nor the surface refuses a call: it
makes no fetch and writes no entry, leaves the rules and the entries as they are, and reports that
as many rules were removed and added as were added the first time. On surfaces of one quota it comes
to the same, whatever rules they hold: the same error, or the same rules, with the same entries
stored. And after a row of synchronizations, whatever the world is like at each of them, the rules
are those of the last that succeeded, for its mode and the domains that it got. -/
theorem synchronize_repeats_and_forgets {config : Config} (valid : config.validate = .ok ())
    (mode : Mode) (host : Host) :
    let first := Host.perform (synchronize config mode) host
    (∀ time report source environment,
        (∀ number, host.environment.clock number = time) →
        (∀ moment ∈ (synchronize config mode).moments host, moment.IsSound) →
        first.1 = .ok report →
        (∀ number, environment.clock number = time) → environment.ServesStore →
        environment.ServesSurface →
        let again := first.2.inWorld source environment
        let second := Host.perform (synchronize config mode) again
        second.1 = .ok ⟨mode, report.added, report.added⟩ ∧
          (∀ moment ∈ (synchronize config mode).moments again, moment.call.IsSparing) ∧
          second.2.surface.rules = first.2.surface.rules ∧
          ∀ key, second.2.entry key = first.2.entry key) ∧
      (∀ surface, surface.quota = host.surface.quota → host.environment.ServesSurface →
        let other := Host.perform (synchronize config mode) { host with surface }
        (∀ error, first.1 = .error error ↔ other.1 = .error error) ∧
          (∀ report, first.1 = .ok report →
            other.1 = .ok ⟨mode, surface.rules.length, report.added⟩ ∧
              other.2.surface.rules = first.2.surface.rules) ∧
          ∀ key, other.2.entry key = first.2.entry key) ∧
      ∀ turns surface, (applying config turns surface).rules =
        rulesOf config surface (lastApplied? config turns surface) := by
  intro first
  refine ⟨?_, fun surface => outcome_withSurface, rules_applying config⟩
  intro time report source environment still sound succeeded stillThen stores served again second
  have performs : (synchronize config mode).Performs host _ first.1 first.2 :=
    Performs.of_perform _ _
  rw [succeeded] at performs
  obtain ⟨given, supplied, middle, gets⟩ : ∃ given supplied middle,
      (domainsFor config mode).Performs (asked host) given supplied middle :=
    ⟨_, _, _, Performs.of_perform _ _⟩
  obtain ⟨domains, rfl, within, kept, reported, left⟩ := supplied_of_synchronize performs gets
  -- The second host differs from the one that the first left in what the world does, not in what
  -- it holds.
  have held (key : String) : again.entry key = first.2.entry key :=
    first.2.entry_inWorld source environment key
  have there : Supplies config mode time domains again := by
    refine Supplies.of_entry ?_ ((held filterCacheKey).trans (kept filterCacheKey))
    exact supplies_of_domainsFor valid gets (Program.Runs.shows gets still)
      fun moment member => sound moment (within moment member)
  have active : again.surface = host.surface.withRules (config.compiler.rulesFor mode domains) :=
    left
  have rules : again.surface.rules = config.compiler.rulesFor mode domains :=
    congrArg Surface.rules active
  obtain ⟨room, rfl⟩ : again.surface.rules.length ≤ again.surface.quota ∧
      report = ⟨mode, host.surface.rules.length, again.surface.rules.length⟩ := by
    rw [reportOn] at reported
    split at reported
    · contradiction
    · next fits =>
      rw [rules, active]
      exact ⟨Nat.not_lt.mp fits, (Except.ok.inj reported).symm⟩
  obtain ⟨ended, sparing, same, entries⟩ :=
    synchronize_of_supplies (Performs.of_perform (synchronize config mode) again) there rules room
      stillThen stores served
  exact ⟨ended, sparing, same, fun key => (entries key).trans (held key)⟩

def offline : Environment where
  refusal := fun _ call =>
    match call with
    | .fetchList => some "offline"
    | _ => none

/-- Without the list, high can be applied again, and nothing changes. -/
theorem synchronize_high_again :
    let first := Host.perform (synchronize {} .high) Session.servedHost
    let again := first.2.inWorld .served offline
    let second := Host.perform (synchronize {} .high) again
    second.1 = .ok ⟨.high, 1, 1⟩ ∧
      (∀ moment ∈ (synchronize {} .high).moments again, moment.call.IsSparing) ∧
      second.2.surface.rules = first.2.surface.rules ∧
      ∀ key, second.2.entry key = first.2.entry key := by
  have memory : Session.servedHost.InMemory := ⟨[], rfl⟩
  have performs := Performs.of_perform (synchronize {} .high) Session.servedHost
  obtain ⟨sound, -⟩ := Program.Runs.isSound_of_inMemory performs memory
  have succeeds : (Host.perform (synchronize {} .high) Session.servedHost).1 = .ok ⟨.high, 0, 1⟩ :=
    Performs.eq_ok_of_toOption (by decide +kernel)
  have valid : ({} : Config).validate = .ok () := rfl
  have stores : offline.ServesStore := fun _ _ => ⟨rfl, fun _ => rfl⟩
  have surface : offline.ServesSurface := fun _ => ⟨rfl, fun _ _ => rfl⟩
  obtain ⟨repeats, -, -⟩ := synchronize_repeats_and_forgets valid .high Session.servedHost
  exact repeats 0 ⟨.high, 0, 1⟩ .served offline (fun _ => rfl) sound succeeds (fun _ => rfl) stores
    surface

end Engine

end Blocklist
