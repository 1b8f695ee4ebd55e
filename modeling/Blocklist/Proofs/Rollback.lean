import Blocklist.Proofs.Sessions
import Blocklist.Proofs.Supplies

/-!
# Mode changes that fail

A change of mode that fails undoes what it did, and does so by computing the old rules again: there
is no copy of them. As long as the cached list can be used, both the change and its undoing get
their domains from it without a fetch, and compiling is a function, so what comes out are the rules
that were there, in the same order and with the same ids; and they fit, because they did before.
Undoing is not certain for all that: it asks for the cached list and calls the surface once more,
and a host can refuse that. Then the rules of the other mode stay.
-/

namespace Blocklist

/-- The rules on a surface are within its quota, and they are those of the stored mode, from a
cached list that can be used at a time. -/
structure Settled (config : Config) (previous : Mode) (cache : FilterCache) (time : Int64)
    (host : Host) : Prop where
  stored : host.storedMode = some previous
  usable : host.freshCache? config time = .ok (some cache)
  rules : host.surface.rules = config.compiler.rulesFor previous cache.domains
  room : host.surface.rules.length ≤ host.surface.quota

theorem Host.freshCache?_noting {config : Config} {time : Int64} (call : Call) (host : Host) :
    (host.noting call).freshCache? config time = host.freshCache? config time :=
  Host.freshCache?_congr (Host.noting_entry call host filterCacheKey) config time

theorem Settled.noting {config : Config} {previous : Mode} {cache : FilterCache} {time : Int64}
    {host : Host} (settled : Settled config previous cache time host) (call : Call) :
    Settled config previous cache time (host.noting call) where
  stored := (Host.storedMode_congr (Host.noting_entry call host stateKey)).trans settled.stored
  usable := (Host.freshCache?_noting call host).trans settled.usable
  rules := settled.rules
  room := settled.room

namespace Engine

open Blocklist.Action

variable {config : Config} {mode previous : Mode} {host later : Host} {moments : List Moment}
variable {time : Int64} {cache : FilterCache}

/-! ## Undoing a change -/

/-- A change of mode that failed is undone. It fetched nothing and left every entry. It left the
rules as well, unless putting them back was hindered after the mode could not be stored; then the
rules are those of the mode that was asked for. -/
structure Undone (config : Config) (mode : Mode) (cache : FilterCache) (host : Host)
    (moments : List Moment) (later : Host) : Prop where
  unfetched : fetches moments = []
  entries : ∀ key, later.entry key = host.entry key
  rules : later.surface.rules = host.surface.rules ∨
    ∃ front write back, moments = front ++ write :: back ∧
      write.RefusesEntry stateKey (State.mk mode).toJson ∧ Hindered back ∧
      later.surface.rules = config.compiler.rulesFor mode cache.domains

namespace Undone

theorem of_sparing {program : Program α} {value : α}
    (runs : program.Runs host moments value later)
    (sparing : ∀ moment ∈ moments, moment.call.IsSparing) (surface : later.surface = host.surface) :
    Undone config mode cache host moments later :=
  ⟨fetches_eq_nil sparing, Program.Runs.entry_eq_of_isSparing runs sparing,
    .inl (congrArg Surface.rules surface)⟩

theorem after (call : Call) (sparing : call.IsSparing)
    (other : ∀ removed added, call ≠ .replaceRules removed added)
    (undone : Undone config mode cache (Moment.later ⟨host, call⟩) moments later) :
    Undone config mode cache host (⟨host, call⟩ :: moments) later := by
  have surface : (Moment.later ⟨host, call⟩).surface = host.surface := Moment.later_surface other
  refine ⟨?_, fun key => ?_, ?_⟩
  · rw [← List.singleton_append, fetches_append, undone.unfetched, List.append_nil]
    exact fetches_eq_nil (List.forall_mem_singleton.mpr sparing)
  · exact (undone.entries key).trans (Moment.later_entry_of_isSparing sparing key)
  · rcases undone.rules with same | ⟨front, write, back, rfl, unstored⟩
    · exact .inl (same.trans (congrArg Surface.rules surface))
    · exact .inr ⟨⟨host, call⟩ :: front, write, back, rfl, unstored⟩

theorem before (call : Call) (sparing : call.IsSparing)
    (other : ∀ removed added, call ≠ .replaceRules removed added)
    (undone : Undone config mode cache host moments later) :
    Undone config mode cache host (moments ++ [⟨later, call⟩]) (Moment.later ⟨later, call⟩) := by
  have surface : (Moment.later ⟨later, call⟩).surface = later.surface := Moment.later_surface other
  refine ⟨?_, fun key => ?_, ?_⟩
  · rw [fetches_append, undone.unfetched, List.nil_append]
    exact fetches_eq_nil (List.forall_mem_singleton.mpr sparing)
  · exact (Moment.later_entry_of_isSparing sparing key).trans (undone.entries key)
  · rw [surface]
    rcases undone.rules with same | ⟨front, write, back, rfl, refused, hindered, rules⟩
    · exact .inl same
    · exact .inr ⟨front, write, back ++ [⟨later, call⟩], by simp, refused,
        hindered.mono (List.subset_append_left _ _), rules⟩

end Undone

/-- A mode that cannot be stored leaves every entry and the surface. -/
theorem saveState_error {error : EngineError}
    (saves : (saveState ⟨mode⟩).Performs host moments (.error error) later)
    (sound : ∀ moment ∈ moments, moment.IsSound) :
    moments = [⟨host, .writeEntry stateKey (State.mk mode).toJson⟩] ∧
      (Moment.mk host (.writeEntry stateKey (State.mk mode).toJson)).RefusesEntry stateKey
        (State.mk mode).toJson ∧
      (∀ key, later.entry key = host.entry key) ∧ later.surface = host.surface := by
  obtain ⟨rfl, refused, rfl⟩ := Performs.call_iff.mp saves
  obtain ⟨-, kept, others⟩ := List.forall_mem_singleton.mp sound
  refine ⟨rfl, .intro refused.symm, fun key => ?_, Moment.later_surface nofun⟩
  by_cases same : key = stateKey
  · subst same
    exact kept error refused.symm
  · exact others key same

theorem Change.undone {error : EngineError}
    (change : Change config previous mode host moments (.error error) later)
    (settled : Settled config previous cache time host)
    (clock : ∀ moment ∈ moments, moment.Shows time) (sound : ∀ moment ∈ moments, moment.IsSound) :
    Undone config mode cache host moments later := by
  obtain ⟨domains, supplies, same⟩ := supplies_of_usable settled.usable mode
  cases change with
  | unapplied applies =>
    obtain ⟨sparing, ends⟩ := fromSupply_of_synchronize applies supplies clock
    cases ends with
    | unapplied surface _ => exact .of_sparing applies sparing surface
  | @unstored applying saving rolling report _ rolled applied unsaved _ applies saves rolls =>
    obtain ⟨clockApplying, clock⟩ := List.forall_mem_append.mp clock
    obtain ⟨-, clockRolling⟩ := List.forall_mem_append.mp clock
    obtain ⟨-, sound⟩ := List.forall_mem_append.mp sound
    obtain ⟨soundSaving, -⟩ := List.forall_mem_append.mp sound
    obtain ⟨sparing, ends⟩ := fromSupply_of_synchronize applies supplies clockApplying
    obtain ⟨rfl, refused, kept, unsavedSurface⟩ := saveState_error saves soundSaving
    cases ends with
    | applied surface =>
      rw [same] at surface
      have left : unsaved.surface =
          host.surface.withRules (config.compiler.rulesFor mode cache.domains) :=
        unsavedSurface.trans surface
      have entries (key : String) : unsaved.entry key = host.entry key :=
        (kept key).trans (Program.Runs.entry_eq_of_isSparing applies sparing key)
      obtain ⟨before, suppliesBefore, sameBefore⟩ := supplies_of_usable settled.usable previous
      have there := suppliesBefore.of_entry (entries filterCacheKey)
      obtain ⟨sparingRolling, ends⟩ := fromSupply_of_synchronize rolls there clockRolling
      refine ⟨?_, fun key => ?_, ?_⟩
      · rw [fetches_append, fetches_append, fetches_eq_nil sparing, fetches_eq_nil sparingRolling]
        rfl
      · exact (Program.Runs.entry_eq_of_isSparing rolls sparingRolling key).trans (entries key)
      · cases ends with
        | applied surface =>
          refine .inl ?_
          rw [surface, sameBefore, settled.rules]
          rfl
        | unapplied surface cause =>
          -- The old rules fit, so only a refusal keeps them out.
          rw [sameBefore, ← settled.rules, left] at cause
          have hindered := cause.resolve_left (Nat.not_lt.mpr settled.room)
          refine .inr ⟨applying, _, rolling, rfl, refused, hindered, ?_⟩
          rw [surface, left]
          rfl

/-- The stored mode is the one that a change finds. -/
theorem Course.undone {error : EngineError}
    (course : Course config mode host moments (.error error) later)
    (settled : Settled config previous cache time host)
    (clock : ∀ moment ∈ moments, moment.Shows time) (sound : ∀ moment ∈ moments, moment.IsSound) :
    Undone config mode cache host moments later := by
  have noted : Moment.later ⟨host, .readEntry stateKey⟩ = host.noting (.readEntry stateKey) :=
    Moment.later_of_quiet (show Call.IsQuiet (.readEntry stateKey) from trivial)
  cases course with
  | unread reads =>
    obtain ⟨rfl, -, same⟩ := currentState_iff.mp reads
    refine .of_sparing reads (List.forall_mem_singleton.mpr trivial) ?_
    rw [same, noted, Host.noting_surface]
  | changed _ reads changes =>
    obtain rfl := Option.some.inj ((storedMode_of_currentState reads).symm.trans settled.stored)
    obtain ⟨rfl, -, rfl⟩ := currentState_iff.mp reads
    obtain ⟨-, clock⟩ := List.forall_mem_append.mp clock
    obtain ⟨-, sound⟩ := List.forall_mem_append.mp sound
    refine Undone.after (.readEntry stateKey) trivial nofun ?_
    rw [noted] at changes ⊢
    exact changes.undone (settled.noting _) clock sound

theorem undone_of_setMode {error : EngineError}
    (performs : (setMode config mode).Performs host moments (.error error) later)
    (settled : Settled config previous cache time host)
    (clock : ∀ moment ∈ moments, moment.Shows time) (sound : ∀ moment ∈ moments, moment.IsSound) :
    Undone config mode cache host moments later := by
  obtain ⟨held, finish, course, rfl, rfl⟩ := course_of_setMode performs
  have within : held ⊆ ⟨host, .acquire .mode⟩ :: held ++ [⟨finish, .release .mode⟩] := by simp
  have entered : Moment.later ⟨host, .acquire .mode⟩ = host.noting (.acquire .mode) :=
    Moment.later_of_quiet (show Call.IsQuiet (.acquire .mode) from trivial)
  refine Undone.before (.release .mode) trivial nofun ?_
  refine Undone.after (.acquire .mode) trivial nofun ?_
  rw [entered] at course ⊢
  exact course.undone (settled.noting _) (fun moment member => clock moment (within member))
    fun moment member => sound moment (within member)

/-- The rules on a surface are within its quota and those of the stored mode, from a cached list
that can be used while the clock stands still. Then a change of mode that fails, for whatever
reason, makes no fetch and leaves every entry as it was; and it leaves the rules as they were, with
one exception. That is a change whose mode could not be stored, when the host went on to refuse a
call that putting the old rules back cannot do without; the rules are then those of the mode that
was asked for. -/
theorem setMode_error_restores {config : Config} {host : Host} {previous : Mode} {time : Int64}
    {cache : FilterCache} (still : ∀ number, host.environment.clock number = time)
    (settled : Settled config previous cache time host) (mode : Mode)
    (sound : ∀ moment ∈ (setMode config mode).moments host, moment.IsSound) :
    let moments := (setMode config mode).moments host
    let later := (Host.perform (setMode config mode) host).2
    ∀ error, (Host.perform (setMode config mode) host).1 = .error error →
      fetches moments = [] ∧ (∀ key, later.entry key = host.entry key) ∧
        (later.surface.rules = host.surface.rules ∨
          ∃ front write back, moments = front ++ write :: back ∧
            write.RefusesEntry stateKey (State.mk mode).toJson ∧ Hindered back ∧
            later.surface.rules = config.compiler.rulesFor mode cache.domains) := by
  intro moments later error failed
  have performs := Performs.of_perform (setMode config mode) host
  rw [failed] at performs
  have clock : ∀ moment ∈ moments, moment.Shows time := Program.Runs.shows performs still
  have undone := undone_of_setMode performs settled clock sound
  exact ⟨undone.unfetched, undone.entries, undone.rules⟩

/-- A host on which a list was installed, and which refuses some calls from then on. -/
def installedRefusing (refused : Call → Bool) : Host :=
  Session.installedOn
    { environment :=
        { list := fun _ => "||a.example^"
          refusal := fun number call =>
            if 12 ≤ number ∧ refused call then some "refused" else none } }

def installedCache : FilterCache := ⟨0, FilterList.domains "||a.example^"⟩

theorem still_installedRefusing (refused : Call → Bool) (number : Nat) :
    (installedRefusing refused).environment.clock number = 0 := by
  rw [installedRefusing, Session.installedOn,
    Program.Runs.environment_eq (Performs.of_perform (installed {}) _)]

theorem inMemory_installedRefusing (refused : Call → Bool) :
    (installedRefusing refused).InMemory :=
  (Program.Runs.isSound_of_inMemory (Performs.of_perform (installed {}) _) ⟨[], rfl⟩).2

/-- Fetching the list and storing a mode. -/
def unstorable : Call → Bool
  | .fetchList => true
  | .writeEntry key _ => key = stateKey
  | _ => false

theorem settled_unstorable :
    Settled {} .low installedCache 0 (installedRefusing unstorable) where
  stored := by decide +kernel
  usable := Performs.eq_ok_of_toOption (by decide +kernel)
  rules := by decide +kernel
  room := by decide +kernel

/-- A change to off that cannot be stored puts the rule of low back. -/
theorem setMode_error_restores_off :
    (∃ error, (Host.perform (setMode {} .off) (installedRefusing unstorable)).1 = .error error) ∧
      fetches ((setMode {} .off).moments (installedRefusing unstorable)) = [] ∧
      (∀ key, (Host.perform (setMode {} .off) (installedRefusing unstorable)).2.entry key =
        (installedRefusing unstorable).entry key) ∧
      (Host.perform (setMode {} .off) (installedRefusing unstorable)).2.surface.rules =
        (installedRefusing unstorable).surface.rules := by
  have performs := Performs.of_perform (setMode {} .off) (installedRefusing unstorable)
  obtain ⟨sound, -⟩ := Program.Runs.isSound_of_inMemory performs
    (inMemory_installedRefusing unstorable)
  have restores := setMode_error_restores (still_installedRefusing unstorable) settled_unstorable
    .off sound
  obtain ⟨error, failed⟩ : ∃ error,
      (Host.perform (setMode {} .off) (installedRefusing unstorable)).1 = .error error :=
    Performs.exists_eq_error_of_toOption (by decide +kernel)
  obtain ⟨unfetched, entries, rules⟩ := restores error failed
  refine ⟨⟨error, failed⟩, unfetched, entries, rules.resolve_right ?_⟩
  rintro ⟨front, write, back, -, -, -, off⟩
  have one : (Host.perform (setMode {} .off)
      (installedRefusing unstorable)).2.surface.rules.length = 1 := by decide +kernel
  exact absurd ((congrArg List.length off).symm.trans one) (by decide)

/-- Reading the cached list and storing a mode. -/
def unreadable : Call → Bool
  | .readEntry key => key = filterCacheKey
  | .writeEntry key _ => key = stateKey
  | _ => false

theorem settled_unreadable :
    Settled {} .low installedCache 0 (installedRefusing unreadable) where
  stored := by decide +kernel
  usable := Performs.eq_ok_of_toOption (by decide +kernel)
  rules := by decide +kernel
  room := by decide +kernel

/-- When the cached list cannot be read any more, a change to off that cannot be stored leaves no
rules behind. -/
theorem setMode_off_unrestored :
    (installedRefusing unreadable).InMemory ∧
      (∀ number, (installedRefusing unreadable).environment.clock number = 0) ∧
      Settled {} .low installedCache 0 (installedRefusing unreadable) ∧
      (∃ error, (Host.perform (setMode {} .off) (installedRefusing unreadable)).1 = .error error) ∧
      (∃ write ∈ (setMode {} .off).moments (installedRefusing unreadable),
        write.RefusesEntry stateKey (State.mk .off).toJson) ∧
      (Host.perform (setMode {} .off) (installedRefusing unreadable)).2.surface.rules ≠
        (installedRefusing unreadable).surface.rules := by
  have memory := inMemory_installedRefusing unreadable
  have still := still_installedRefusing unreadable
  have changed : (Host.perform (setMode {} .off) (installedRefusing unreadable)).2.surface.rules ≠
      (installedRefusing unreadable).surface.rules := by decide +kernel
  obtain ⟨error, failed⟩ : ∃ error,
      (Host.perform (setMode {} .off) (installedRefusing unreadable)).1 = .error error :=
    Performs.exists_eq_error_of_toOption (by decide +kernel)
  have performs := Performs.of_perform (setMode {} .off) (installedRefusing unreadable)
  obtain ⟨sound, -⟩ := Program.Runs.isSound_of_inMemory performs memory
  rw [failed] at performs
  have undone := undone_of_setMode performs settled_unreadable (Program.Runs.shows performs still)
    sound
  obtain ⟨front, write, back, spans, refused, -, -⟩ := undone.rules.resolve_left changed
  refine ⟨memory, still, settled_unreadable, ⟨error, failed⟩, ⟨write, ?_, refused⟩, changed⟩
  rw [spans]
  simp

end Engine

end Blocklist
