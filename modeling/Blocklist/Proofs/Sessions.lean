import Blocklist.Proofs.ModeChanges

/-!
# Sessions of one controller

A session is a row of events: operations of the controller, one after the other, and requests that
the surface matches between them. The environment of the host decides for every single call what the
clock shows, which list is served and whether the call is refused, so a session meets any pattern of
failures, within operations and between them. Effects compose along a session. As long as the mode
can always be stored, the active rules stay in step with the stored mode; and a change of mode that
succeeds is enforced, unless the rules were left out of step with the very mode that is asked for.
-/

namespace Blocklist

/-- An action as a program, whatever comes of it. -/
def Action.settle (action : Action α) : Program Unit := action.run.bind fun _ => .done ()

theorem Action.runs_settle_iff {action : Action α} {host later : Host} {moments : List Moment} :
    action.settle.Runs host moments () later ↔
      ∃ outcome, action.Performs host moments outcome later := by
  constructor
  · intro runs
    obtain ⟨outcome, middle, first, second, performs, done, rfl⟩ := Program.Runs.bind_iff.mp runs
    obtain ⟨rfl, -, rfl⟩ := Program.Runs.done_iff.mp done
    rw [List.append_nil]
    exact ⟨outcome, performs⟩
  · rintro ⟨outcome, performs⟩
    exact Program.Runs.bind_iff.mpr
      ⟨outcome, later, moments, [], performs, .done _ _, (List.append_nil _).symm⟩

theorem Action.Uses.settle {allowed : Call → Prop} {action : Action α}
    (uses : action.Uses allowed) : action.settle.Uses allowed :=
  Program.Uses.bind uses fun _ => trivial

/-- What can be asked of a controller, of its cache and of its statistics. -/
inductive Operation where
  | command (command : Command)
  | message (message : Json)
  | setMode (mode : Mode)
  | installed
  | startup
  | refresh
  | refreshCache
  | currentDomains
  | rollSession

def Operation.program (config : Config) : Operation → Program Unit
  | .command asked => (Engine.handle config asked).settle
  | .message value => (Engine.handleMessage config value).bind fun _ => .done ()
  | .setMode mode => (Engine.setMode config mode).settle
  | .installed => (Engine.installed config).settle
  | .startup => (Engine.startup config).settle
  | .refresh => (Engine.refresh config).settle
  | .refreshCache => Engine.refreshCache.settle
  | .currentDomains => (Engine.currentDomains config).settle
  | .rollSession => (Engine.rollSession config).settle

/-- A message makes no call, or it is the command that it holds. -/
theorem Operation.message_cases {config : Config} {value : Json} {host later : Host}
    {moments : List Moment}
    (runs : ((Operation.message value).program config).Runs host moments () later) :
    (Command.ofMessage? value = none ∧ moments = [] ∧ later = host) ∨
      ∃ command, Command.ofMessage? value = some command ∧
        ((Operation.command command).program config).Runs host moments () later := by
  obtain ⟨reply, middle, first, second, answers, done, rfl⟩ := Program.Runs.bind_iff.mp runs
  obtain ⟨rfl, -, rfl⟩ := Program.Runs.done_iff.mp done
  rw [List.append_nil]
  rcases Engine.handleMessage_cases answers with none | ⟨command, outcome, carried, performs⟩
  · exact .inl none
  · exact .inr ⟨command, carried, Action.runs_settle_iff.mpr ⟨outcome, performs⟩⟩

theorem Action.HasEffect.settle {config : Config} {action : Action α}
    (effect : action.HasEffect config) {host later : Host} {moments : List Moment}
    (runs : action.settle.Runs host moments () later) (sound : ∀ moment ∈ moments, moment.IsSound) :
    Effect config host moments later := by
  obtain ⟨outcome, performs⟩ := Action.runs_settle_iff.mp runs
  exact effect _ _ _ _ performs sound

open Engine in
/-- Every operation has one of the effects. -/
theorem Operation.effect {config : Config} {operation : Operation} {host later : Host}
    {moments : List Moment} (runs : (operation.program config).Runs host moments () later)
    (sound : ∀ moment ∈ moments, moment.IsSound) : Effect config host moments later := by
  cases operation with
  | command asked => exact (hasEffect_handle config asked).settle runs sound
  | message value =>
    rcases message_cases runs with ⟨-, rfl, rfl⟩ | ⟨asked, -, runs⟩
    · exact .idle (.refl _)
    · exact (hasEffect_handle config asked).settle runs sound
  | setMode mode => exact (hasEffect_setMode config mode).settle runs sound
  | installed => exact (hasEffect_installed config).settle runs sound
  | startup => exact (hasEffect_startup config).settle runs sound
  | refresh => exact (hasEffect_refresh config).settle runs sound
  | refreshCache => exact (hasEffect_refreshCache config).settle runs sound
  | currentDomains =>
    exact (Action.HasEffect.of_confined (isConfinedTo_currentDomains config)
      (by decide)).settle runs sound
  | rollSession => exact (hasEffect_rollSession config).settle runs sound

/-! ## Events -/

inductive Event where
  | operation (operation : Operation)
  /-- A request is matched, in a tab or outside any. -/
  | matched (tab : Option TabId)
  /-- The browser starts again, and forgets all matches. -/
  | restarted

namespace Event

def moments (config : Config) : Event → Host → List Moment
  | .operation asked, host => (asked.program config).moments host
  | .matched _, _ => []
  | .restarted, _ => []

def later (config : Config) : Event → Host → Host
  | .operation asked, host => (Host.run (asked.program config) host).2
  | .matched tab, host => { host with surface := host.surface.recordMatch tab }
  | .restarted, host => { host with surface := host.surface.resetMatches }

theorem effect {config : Config} (event : Event) {host : Host}
    (sound : ∀ moment ∈ event.moments config host, moment.IsSound) :
    Effect config host (event.moments config host) (event.later config host) := by
  cases event with
  | operation asked =>
    exact asked.effect (Program.Runs.of_run (asked.program config) host) sound
  | matched tab =>
    exact .idle ⟨nofun, rfl, Host.storedMode_congr (host.entry_with_surface _ stateKey)⟩
  | restarted =>
    exact .idle ⟨nofun, rfl, Host.storedMode_congr (host.entry_with_surface _ stateKey)⟩

section

variable {kind : Host → Prop} {allowed : Call → Prop} {config : Config} {host : Host}

/-- An event on a host of a kind that has a sound store meets a sound store, and leaves a host of
that kind. -/
theorem isSound (stays : Host.StaysSound kind allowed)
    (uses : ∀ asked : Operation, (asked.program config).Uses allowed) (event : Event)
    (start : kind host) :
    (∀ moment ∈ event.moments config host, moment.IsSound) ∧ kind (event.later config host) := by
  cases event with
  | operation asked =>
    have runs := Program.Runs.of_run (asked.program config) host
    exact runs.isSound stays (runs.forall_of_uses (uses asked)) start
  | matched tab => exact ⟨nofun, stays.surface _ start⟩
  | restarted => exact ⟨nofun, stays.surface _ start⟩

end

end Event

namespace Session

variable {config : Config}

/-- The moments of a session, in order. -/
def history (config : Config) : List Event → Host → List Moment
  | [], _ => []
  | event :: events, host =>
    event.moments config host ++ history config events (event.later config host)

/-- The host after a session. -/
def ending (config : Config) : List Event → Host → Host
  | [], host => host
  | event :: events, host => ending config events (event.later config host)

theorem history_append (first second : List Event) (host : Host) :
    history config (first ++ second) host =
      history config first host ++ history config second (ending config first host) := by
  induction first generalizing host with
  | nil => rfl
  | cons event events ih => rw [List.cons_append, history, history, ending, ih, List.append_assoc]

theorem ending_append (first second : List Event) (host : Host) :
    ending config (first ++ second) host = ending config second (ending config first host) := by
  induction first generalizing host with
  | nil => rfl
  | cons event events ih => exact ih (event.later config host)

/-- A whole session has one of the effects. -/
theorem effect (events : List Event) {host : Host}
    (sound : ∀ moment ∈ history config events host, moment.IsSound) :
    Effect config host (history config events host) (ending config events host) := by
  induction events generalizing host with
  | nil => exact .idle (.refl host)
  | cons event events ih =>
    obtain ⟨soundEvent, soundRest⟩ := List.forall_mem_append.mp sound
    exact (event.effect soundEvent).trans (ih soundRest)

/-- A session on a host of a kind that has a sound store meets a sound store throughout, and leaves
a host of that kind. -/
theorem isSound {kind : Host → Prop} {allowed : Call → Prop} {host : Host}
    (stays : Host.StaysSound kind allowed)
    (uses : ∀ asked : Operation, (asked.program config).Uses allowed) (events : List Event)
    (start : kind host) :
    (∀ moment ∈ history config events host, moment.IsSound) ∧
      kind (ending config events host) := by
  induction events generalizing host with
  | nil => exact ⟨nofun, start⟩
  | cons event events ih =>
    obtain ⟨sound, kept⟩ := event.isSound stays uses start
    obtain ⟨soundRest, ended⟩ := ih kept
    exact ⟨List.forall_mem_append.mpr ⟨sound, soundRest⟩, ended⟩

/-- A session on a host with its store in memory meets a sound store throughout. -/
theorem isSound_of_inMemory (config : Config) (events : List Event) {host : Host}
    (memory : host.InMemory) : ∀ moment ∈ history config events host, moment.IsSound :=
  (isSound Host.InMemory.staysSound (fun _ => .any _) events memory).1

theorem inMemory_ending (config : Config) (events : List Event) {host : Host}
    (memory : host.InMemory) : (ending config events host).InMemory :=
  (isSound Host.InMemory.staysSound (fun _ => .any _) events memory).2

/-! ## Rules in step -/

/-- As long as the mode can always be stored, the active rules follow the stored mode. Until a
synchronization has replaced any rules they are those that the session began with; from then on they
are those of the mode that is stored now, from the domains that the last synchronization got. The
store has to be sound, as one in memory (`isSound_of_inMemory`) and one in a file
(`isSound_of_inFile`) always are. -/
theorem rules_follow_storedMode (config : Config) (host : Host) (events : List Event)
    (sound : ∀ moment ∈ history config events host, moment.IsSound)
    (storable : ∀ moment ∈ history config events host,
      ∀ value, ¬ moment.RefusesEntry stateKey value) :
    ((∀ moment ∈ history config events host, ¬ moment.Replaces) ∧
        (ending config events host).surface.rules = host.surface.rules) ∨
      ∃ mode domains, (ending config events host).storedMode = some mode ∧
        LastSynchronized config mode domains (history config events host) ∧
        (ending config events host).surface.rules = config.compiler.rulesFor mode domains := by
  cases effect events sound with
  | idle idle => exact .inl ⟨idle.replaces, idle.rules⟩
  | inStep mode inStep =>
    obtain ⟨domains, last, rules, stored⟩ := inStep
    exact .inr ⟨mode, domains, stored, last, rules⟩
  | outOfStep stored outOfStep =>
    obtain ⟨mode, domains, -, stranded, -, -⟩ := outOfStep
    obtain ⟨moment, member, refused⟩ := stranded.refusesEntry
    exact absurd refused (storable moment member _)

/-- A host that is served a list of one domain, with nothing stored yet and nothing refused. -/
def servedHost : Host where
  environment := { list := fun _ => "||a.example^" }

/-- Whether an entry that is to be written is written. -/
def writesEntry : Moment → Bool
  | ⟨host, .writeEntry key value⟩ => (Moment.reply ⟨host, .writeEntry key value⟩).isOk
  | _ => true

theorem not_refusesEntry {moment : Moment} (writes : writesEntry moment = true) (key : String)
    (value : Json) : ¬ moment.RefusesEntry key value := by
  rintro ⟨refused⟩
  simp only [writesEntry, refused] at writes
  contradiction

def installedHigh : List Event := [.operation .installed, .operation (.setMode .high)]

/-- After an installation and a change to high, the one rule of the list is active under high. -/
theorem rules_follow_storedMode_installedHigh :
    ∃ mode domains, (ending {} installedHigh servedHost).storedMode = some mode ∧
      LastSynchronized {} mode domains (history {} installedHigh servedHost) ∧
      (ending {} installedHigh servedHost).surface.rules =
        ({} : Config).compiler.rulesFor mode domains := by
  have memory : servedHost.InMemory := ⟨[], rfl⟩
  have sound := isSound_of_inMemory {} installedHigh memory
  have writes : (history {} installedHigh servedHost).all writesEntry = true := by decide +kernel
  have one : (ending {} installedHigh servedHost).surface.rules.length = 1 := by decide +kernel
  have storable := fun moment member =>
    not_refusesEntry (List.all_eq_true.mp writes moment member) stateKey
  refine (rules_follow_storedMode {} servedHost installedHigh sound storable).resolve_left ?_
  rintro ⟨-, unchanged⟩
  exact absurd (one.symm.trans (congrArg List.length unchanged)) (by decide)

/-! ## Enforced changes -/

/-- A change of mode that succeeds leaves the rules of that mode, from domains that the cache handed
out in the session, which begins with a hook that succeeded. There is one exception: the mode was
stored already, and the last synchronization was that of a change to another mode, which could
neither be stored nor undone. Then the rules are still those of the other mode. -/
theorem setMode_enforced_unless_stranded {config : Config} {host begun after : Host}
    {start : Action SyncReport} {report : SyncReport} {opening changing : List Moment}
    {events : List Event} {mode : Mode} {state : State}
    (hook : start = Engine.installed config ∨ start = Engine.startup config)
    (opens : start.Performs host opening (.ok report) begun)
    (changes : (Engine.setMode config mode).Performs (ending config events begun) changing
      (.ok state) after)
    (sound : ∀ moment ∈ opening ++ history config events begun ++ changing, moment.IsSound) :
    (∃ domains,
        (Engine.domainsFor config mode).PerformedIn (.ok domains)
          (opening ++ history config events begun ++ changing) ∧
        after.surface.rules = config.compiler.rulesFor mode domains) ∨
      ((ending config events begun).storedMode = some mode ∧
        ∃ other domains, other ≠ mode ∧
          Stranded config other mode domains (opening ++ history config events begun) ∧
          after.surface.rules = config.compiler.rulesFor other domains) := by
  obtain ⟨soundBefore, soundChanging⟩ := List.forall_mem_append.mp sound
  obtain ⟨soundOpening, soundSession⟩ := List.forall_mem_append.mp soundBefore
  obtain ⟨first, inStep⟩ : ∃ first, InStep config first opening begun := by
    rcases hook with rfl | rfl
    · exact Engine.inStep_of_bind_applyStored opens soundOpening
    · exact Engine.inStep_of_bind_applyStored opens soundOpening
  have before := inStep.append_effect (effect events soundSession)
  cases Engine.setMode_cases changes soundChanging with
  | changed changed =>
    obtain ⟨domains, last, rules, -⟩ := changed
    exact .inl ⟨domains, last.append_left.domains_performedIn, rules⟩
  | kept stored idle =>
    rcases before with ⟨other, domains, last, rules, found⟩ |
      ⟨other, applied, domains, differs, stranded, rules, found⟩
    · obtain rfl := Option.some.inj (found.symm.trans stored)
      exact .inl ⟨domains, (last.append_right idle.replaces).domains_performedIn,
        idle.rules.trans rules⟩
    · obtain rfl := Option.some.inj (found.symm.trans stored)
      exact .inr ⟨found, applied, domains, differs, stranded, idle.rules.trans rules⟩

def installedOn (host : Host) : Host := (Host.perform (Engine.installed {}) host).2

/-- A change to high after an installation is enforced. -/
theorem setMode_high_enforced :
    ∃ domains, (Engine.domainsFor {} .high).PerformedIn (.ok domains)
        ((Engine.installed {}).moments servedHost ++ history {} [] (installedOn servedHost) ++
          (Engine.setMode {} .high).moments (ending {} [] (installedOn servedHost))) ∧
      (Host.perform (Engine.setMode {} .high)
          (ending {} [] (installedOn servedHost))).2.surface.rules =
        ({} : Config).compiler.rulesFor .high domains := by
  have memory : servedHost.InMemory := ⟨[], rfl⟩
  have opens : (Engine.installed {}).Performs servedHost ((Engine.installed {}).moments servedHost)
      (.ok ⟨.low, 0, 1⟩) (installedOn servedHost) := .of_toOption (by decide +kernel)
  have changes : (Engine.setMode {} .high).Performs (ending {} [] (installedOn servedHost))
      ((Engine.setMode {} .high).moments (ending {} [] (installedOn servedHost))) (.ok ⟨.high⟩)
      (Host.perform (Engine.setMode {} .high) (ending {} [] (installedOn servedHost))).2 :=
    .of_toOption (by decide +kernel)
  obtain ⟨soundOpening, kept⟩ := Program.Runs.isSound_of_inMemory opens memory
  obtain ⟨soundChanging, -⟩ := Program.Runs.isSound_of_inMemory changes kept
  have sound := List.forall_mem_append.mpr
    ⟨List.forall_mem_append.mpr ⟨soundOpening, isSound_of_inMemory {} [] kept⟩, soundChanging⟩
  have low : (ending {} [] (installedOn servedHost)).storedMode ≠ some .high := by decide +kernel
  rcases setMode_enforced_unless_stranded (.inl rfl) opens changes sound with enforced | stranded
  · exact enforced
  · exact absurd stranded.1 low

/-- A host that is offline and read-only after twelve calls, when its cached list is stale. -/
def offlineHost : Host where
  environment :=
    { clock := fun number => if number < 12 then 0 else 604800000
      list := fun _ => "||a.example^"
      refusal := fun number call =>
        if number < 12 then none
        else match call with
          | .fetchList => some "offline"
          | .writeEntry _ _ => some "read-only"
          | _ => none }

/-- The host after an installation and a change to off that can be neither stored nor undone. -/
def strandedHost : Host := ending {} [.operation (.setMode .off)] (installedOn offlineHost)

/-- The moments up to the end of a change back to low. -/
def strandedHistory : List Moment :=
  (Engine.installed {}).moments offlineHost ++
    history {} [.operation (.setMode .off)] (installedOn offlineHost) ++
    (Engine.setMode {} .low).moments strandedHost

/-- Whether the cache, if it is read at a moment, hands out no domains or some that low makes a rule
of. -/
def handsOutRules : Moment → Bool
  | ⟨host, .readEntry _⟩ =>
    match (Host.perform (Engine.currentDomains {}) host).1 with
    | .ok domains => !(({} : Config).compiler.rulesFor .low domains).isEmpty
    | .error _ => true
  | _ => true

/-- Domains are handed out by a run that begins with reading the cache, so it is enough to look at
the moments of reading. -/
theorem rulesFor_low_ne_nil {domains : List Domain} {stretch : List Moment}
    (handed : stretch.all handsOutRules = true)
    (given : (Engine.currentDomains {}).PerformedIn (.ok domains) stretch) :
    ({} : Config).compiler.rulesFor .low domains ≠ [] := by
  obtain ⟨moments, ⟨host, later, performs⟩, within⟩ := given
  have answered : (Host.perform (Engine.currentDomains {}) host).1 = .ok domains :=
    congrArg Prod.fst performs.run_eq
  obtain ⟨others, rfl, -⟩ := Program.Runs.ask_iff.mp performs
  have nonempty := List.all_eq_true.mp handed _ (within.subset List.mem_cons_self)
  simp only [handsOutRules, answered] at nonempty
  intro empty
  rw [empty] at nonempty
  contradiction

/-- A change to off that is neither stored nor undone leaves no rules behind. The change back to low
succeeds at once, since low is still the mode, and there are no rules afterwards either, although
low makes a rule of any domains that were handed out. -/
theorem setMode_low_unenforced :
    offlineHost.InMemory ∧
      (Host.perform (Engine.installed {}) offlineHost).1.toOption = some ⟨.low, 0, 1⟩ ∧
      (Host.perform (Engine.setMode {} .low) strandedHost).1.toOption = some ⟨.low⟩ ∧
      ¬ ∃ domains, (Engine.domainsFor {} .low).PerformedIn (.ok domains) strandedHistory ∧
        (Host.perform (Engine.setMode {} .low) strandedHost).2.surface.rules =
          ({} : Config).compiler.rulesFor .low domains := by
  refine ⟨⟨[], rfl⟩, by decide +kernel, by decide +kernel, ?_⟩
  rintro ⟨domains, given, enforced⟩
  have empty : (Host.perform (Engine.setMode {} .low) strandedHost).2.surface.rules = [] := by
    decide +kernel
  have handed : strandedHistory.all handsOutRules = true := by decide +kernel
  rw [show Engine.domainsFor {} .low = Engine.currentDomains {} from if_pos rfl] at given
  exact rulesFor_low_ne_nil handed given (enforced.symm.trans empty)

end Session

end Blocklist
