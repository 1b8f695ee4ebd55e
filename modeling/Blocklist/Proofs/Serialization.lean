import Blocklist.Proofs.Sessions
import Blocklist.Proofs.Standings
import Mathlib.Data.List.Nodup

/-!
# Overlapping triggers

Changes of the mode, installations, starts of the browser and refreshes of the list may overlap in
any way that respects the locks. As long as the mode can always be stored, they serialize. What
carries the proof is that every task follows the protocol of the mode lock from where it stands, and
that the scene is settled whenever the lock is free (`Crowd.InOrder`). A call of one task keeps this
for all of them, so every schedule does.
-/

namespace Blocklist

/-- A replacement, if this is one, removes exactly the active ids, and adds no id that is taken. -/
def Moment.RemovesActive : Moment → Prop
  | ⟨host, .replaceRules removed added⟩ =>
    removed = host.surface.activeIds ∧
      ∀ id, host.surface.replace removed added ≠ .error (.repeatedId id)
  | _ => True

variable {ι : Type}

/-- A complete list of domains: one that was cached at the start, or the domains of a list that was
fetched since then. -/
inductive CompleteSince (start : Host) (history : List (ι × Moment)) : List Domain → Prop where
  | cached {value : Json} {cache : FilterCache}
      (held : start.entry filterCacheKey = .ok (some value))
      (decoded : FilterCache.ofJson value = .ok cache) : CompleteSince start history cache.domains
  | fetched {entry : ι × Moment} {text : String} (member : entry ∈ history)
      (fetches : entry.2.Fetches text) : CompleteSince start history (FilterList.domains text)

/-- A switch that its task was asked for, away from the mode that it had found. -/
def Switch.IsAsked (trigger : ι → Trigger) (switch : Switch ι) : Prop :=
  trigger switch.task = .setMode switch.next ∧
    ∃ previous, switch.previous = some previous ∧ previous ≠ switch.next

theorem Trigger.eq_setMode {trigger : Trigger} {mode : Mode} (asked : trigger.mode? = some mode) :
    trigger = .setMode mode := by
  cases trigger with
  | setMode other => exact congrArg setMode (Option.some.inj asked)
  | _ => contradiction

variable [DecidableEq ι]

namespace Crowd

/-- The tasks of some triggers that are set off at a time. -/
def start (config : Config) (trigger : ι → Trigger) (host : Host) :
    Crowd ι (Except EngineError Answer) where
  host := host
  task i := ((trigger i).action config).run

section

variable {α : Type} {crowd : Crowd ι α} {i : ι} {call : Call} {next : call.Reply → Program α}
variable {config : Config} {complete : List Domain → Prop} {asked : Option Mode}

/-! ## What a call keeps -/

/-- When the mode lock is free after a call, the scene is settled. -/
theorem isSettled_after (allows : (crowd.standing i).Allows config complete asked call)
    (fair : (Moment.mk crowd.host call).IsFair complete)
    (settled : crowd.holder .mode = none → crowd.scene.IsSettled config complete)
    (free : (crowd.after i call next).holder .mode = none) :
    (crowd.after i call next).scene.IsSettled config complete := by
  by_cases release : call = .release .mode
  · subst release
    obtain ⟨scene, held, restored⟩ := allows
    obtain ⟨-, rfl⟩ := holds_of_scene_standing held
    have plain : Call.IsPlain (.release .mode) := ⟨nofun, nofun⟩
    rwa [scene_after_of_isPlain plain fair.sound]
  have acquire : call ≠ .acquire .mode := by
    rintro rfl
    exact absurd ((holder_after_acquire .mode next).symm.trans free) nofun
  rw [holder_after_of_ne acquire release] at free
  -- Nobody held the lock before either, so the call is one that leaves the scene alone.
  have outside : (crowd.standing i).scene = none := by
    refine scene_standing_of_not_holds ?_
    rw [free]
    exact nofun
  rw [scene_after_of_isPlain (allows.isPlain_of_outside outside).1 fair.sound]
  exact settled free

/-- Only a complete list is cached. -/
theorem cachesOnly_after (allows : (crowd.standing i).Allows config complete asked call)
    (fair : (Moment.mk crowd.host call).IsFair complete) (cached : crowd.host.CachesOnly complete) :
    (crowd.after i call next).host.CachesOnly complete := by
  intro value cache held decoded
  change (Moment.later ⟨crowd.host, call⟩).entry filterCacheKey = _ at held
  by_cases writes : ∃ value, call = .writeEntry filterCacheKey value
  · obtain ⟨written, rfl⟩ := writes
    cases reply : Moment.reply ⟨crowd.host, .writeEntry filterCacheKey written⟩ with
    | ok _ =>
      rw [fair.sound.1 reply] at held
      obtain rfl := Option.some.inj (Except.ok.inj held)
      exact allows.1 rfl cache decoded
    | error error =>
      rw [fair.sound.2.1 error reply] at held
      exact cached value cache held decoded
  · rw [Moment.later_entry fair.sound fun value same => writes ⟨value, same⟩] at held
    exact cached value cache held decoded

/-- A replacement that the protocol allows removes exactly the active ids. -/
theorem removesActive (allows : (crowd.standing i).Allows config complete asked call) :
    (Moment.mk crowd.host call).RemovesActive := by
  cases call with
  | replaceRules removed added =>
    obtain ⟨scene, mode, domains, held, all, -, rfl⟩ := allows
    obtain ⟨-, rfl⟩ := holds_of_scene_standing held
    obtain rfl : removed = crowd.host.surface.activeIds := all
    refine ⟨rfl, ?_⟩
    intro id refused
    have outcome := crowd.host.surface.replace_activeIds_rulesFor config.compiler mode domains
    rw [refused] at outcome
    split at outcome
    · exact absurd (Except.error.inj outcome) nofun
    · contradiction
  | _ => trivial

/-- A call leaves the stored mode and the switches alone, or is the one switch of a task that was
asked for a mode, away from the stored one. -/
theorem switches_after_cases (next : call.Reply → Program α)
    (allows : (crowd.standing i).Allows config complete asked call)
    (fair : (Moment.mk crowd.host call).IsFair complete) :
    ((crowd.after i call next).host.storedMode = crowd.host.storedMode ∧
      (crowd.after i call next).ledger.switches = crowd.ledger.switches) ∨
    ∃ previous mode, crowd.host.storedMode = some previous ∧ asked = some mode ∧
      previous ≠ mode ∧ ¬ (crowd.standing i).changed ∧
      (crowd.after i call next).host.storedMode = some mode ∧
      (crowd.after i call next).ledger.switches =
        crowd.ledger.switches ++ [⟨i, some previous, mode⟩] := by
  by_cases writes : ∃ value, call = .writeEntry stateKey value
  · obtain ⟨value, rfl⟩ := writes
    obtain ⟨scene, previous, mode, held, found, stored, wanted, differs, unchanged, rfl⟩ :=
      allows.2 rfl
    obtain ⟨-, rfl⟩ := holds_of_scene_standing held
    refine .inr ⟨previous, mode, stored, wanted, differs, unchanged, ?_, ?_⟩
    · exact Host.storedMode_of_entry (fair.sound.1 fair.stores)
    · rw [← found]
      exact switches_after_of_stored (Moment.modeStored?_stateKey fair.stores)
  · have keeps : call.KeepsMode := fun value same => writes ⟨value, same⟩
    refine .inl ⟨Moment.storedMode_of_keepsMode keeps fair.sound, ?_⟩
    exact switches_after_of_unstored (Moment.modeStored?_of_keepsMode keeps)

/-- Tasks that share a host of a kind, make allowed calls only, and have met a sound store so far. -/
structure MeetsSound (kind : Host → Prop) (allowed : Call → Prop) (crowd : Crowd ι α) : Prop where
  host : kind crowd.host
  uses : ∀ i, (crowd.task i).Uses allowed
  sound : ∀ entry ∈ crowd.history, entry.2.IsSound

theorem MeetsSound.after {kind : Host → Prop} {allowed : Call → Prop}
    (stays : Host.StaysSound kind allowed) (meets : crowd.MeetsSound kind allowed)
    (task : crowd.task i = .ask call next) : (crowd.after i call next).MeetsSound kind allowed := by
  have uses := meets.uses i
  rw [task] at uses
  obtain ⟨may, goesOn⟩ := uses
  constructor
  case host => exact stays.later meets.host may
  case uses =>
    intro j
    by_cases other : j = i
    · subst other
      rw [task_after_self]
      exact goesOn _
    · rw [task_after_of_ne other]
      exact meets.uses j
  case sound =>
    refine List.forall_mem_append.mpr ⟨meets.sound, List.forall_mem_singleton.mpr ?_⟩
    exact stays.sound meets.host may

end

/-! ## Schedules -/

variable {config : Config} {complete : List Domain → Prop} {trigger : ι → Trigger}
variable {first : Option Mode} {crowd : Crowd ι (Except EngineError Answer)}

/-- The modes are stored one after the other: each task that stores one was asked for it, stores it
once, and has found before what the one before it has stored. -/
structure SwitchesInTurn (trigger : ι → Trigger) (first : Option Mode)
    (crowd : Crowd ι (Except EngineError Answer)) : Prop where
  chain : Chain first crowd.ledger.switches crowd.host.storedMode
  once : (crowd.ledger.switches.map (·.task)).Nodup
  asked : ∀ switch ∈ crowd.ledger.switches, switch.IsAsked trigger

structure InOrder (config : Config) (complete : List Domain → Prop) (trigger : ι → Trigger)
    (first : Option Mode) (crowd : Crowd ι (Except EngineError Answer)) : Prop where
  follows : ∀ i, (crowd.task i).Follows (modeProtocol config complete (trigger i).mode?)
    (trigger i).Concludes (crowd.standing i)
  settled : crowd.holder .mode = none → crowd.scene.IsSettled config complete
  cached : crowd.host.CachesOnly complete
  removes : ∀ entry ∈ crowd.history, entry.2.RemovesActive
  switches : crowd.SwitchesInTurn trigger first

theorem SwitchesInTurn.after {i : ι} {call : Call}
    {next : call.Reply → Program (Except EngineError Answer)}
    (inTurn : crowd.SwitchesInTurn trigger first)
    (allows : (crowd.standing i).Allows config complete (trigger i).mode? call)
    (fair : (Moment.mk crowd.host call).IsFair complete) :
    (crowd.after i call next).SwitchesInTurn trigger first := by
  obtain ⟨chain, once, asked⟩ := inTurn
  rcases switches_after_cases next allows fair with ⟨stored, same⟩ |
    ⟨previous, mode, before, wanted, differs, unchanged, stored, added⟩
  · constructor <;> simpa only [stored, same]
  · have other : i ∉ crowd.ledger.switches.map (·.task) := by
      intro member
      exact unchanged (List.mem_map.mp member)
    constructor
    · rw [stored, added, ← before]
      exact chain.snoc i mode
    · rw [added, List.map_append]
      exact List.Nodup.append once (List.nodup_singleton i) (List.disjoint_singleton.mpr other)
    · rw [added]
      refine List.forall_mem_append.mpr ⟨asked, List.forall_mem_singleton.mpr ?_⟩
      exact ⟨Trigger.eq_setMode wanted, previous, rfl, differs⟩

/-- A call of a task keeps all tasks in order. -/
theorem InOrder.after {i : ι} {call : Call}
    {next : call.Reply → Program (Except EngineError Answer)}
    (inOrder : crowd.InOrder config complete trigger first) (task : crowd.task i = .ask call next)
    (free : crowd.isBlocked call = false) (fair : (Moment.mk crowd.host call).IsFair complete) :
    (crowd.after i call next).InOrder config complete trigger first := by
  have follows := inOrder.follows i
  rw [task] at follows
  obtain ⟨allows, goesOn⟩ := follows
  constructor
  case follows =>
    -- The task that calls makes a move of the protocol, and all others stand where they stood.
    intro j
    by_cases other : j = i
    · subst other
      rw [task_after_self]
      exact goesOn _ _ (moves_after allows free fair inOrder.settled inOrder.cached)
    · rw [task_after_of_ne other, standing_after_of_ne other allows free fair.sound]
      exact inOrder.follows j
  case settled => exact isSettled_after allows fair inOrder.settled
  case cached => exact cachesOnly_after allows fair inOrder.cached
  case removes =>
    refine List.forall_mem_append.mpr ⟨inOrder.removes, List.forall_mem_singleton.mpr ?_⟩
    exact removesActive allows
  case switches => exact inOrder.switches.after allows fair

/-- The tasks of some triggers are in order when they are set off. -/
theorem inOrder_start (config : Config) (trigger : ι → Trigger) {host : Host}
    (cached : host.CachesOnly complete) :
    (start config trigger host).InOrder config complete trigger host.storedMode where
  follows i := by
    have outside : ((start config trigger host).standing i).scene = none :=
      scene_standing_of_not_holds nofun
    have unchanged : ¬ ((start config trigger host).standing i).changed := nofun
    exact Engine.follows_trigger (trigger i) outside unchanged
  settled _ := nofun
  cached := cached
  removes := nofun
  switches := ⟨.nil, List.nodup_nil, nofun⟩

/-- Whatever the schedule, the tasks of some triggers stay in order, as long as the store is sound
and the mode can be stored. -/
theorem inOrder_play (config : Config) (trigger : ι → Trigger) (host : Host) (schedule : List ι)
    (sound : ∀ entry ∈ ((start config trigger host).play schedule).history, entry.2.IsSound)
    (storable : ∀ entry ∈ ((start config trigger host).play schedule).history,
      ∀ value, ¬ entry.2.RefusesEntry stateKey value) :
    ((start config trigger host).play schedule).InOrder config
      (CompleteSince host ((start config trigger host).play schedule).history) trigger
      host.storedMode := by
  have fair : ∀ entry ∈ ((start config trigger host).play schedule).history,
      entry.2.IsFair (CompleteSince host ((start config trigger host).play schedule).history) :=
    fun entry member =>
      ⟨sound entry member, storable entry member, fun text fetches => .fetched member fetches⟩
  refine play_keeps (fun inOrder task free fair => InOrder.after inOrder task free fair) schedule
    ?_ fair
  exact inOrder_start config trigger fun value cache held decoded => .cached held decoded

/-- On a host of a kind that has a sound store every schedule meets a sound store. -/
theorem isSound {kind : Host → Prop} {allowed : Call → Prop} {host : Host}
    (stays : Host.StaysSound kind allowed)
    (uses : ∀ i, ((trigger i).action config).Uses allowed) (start : kind host)
    (schedule : List ι) :
    ∀ entry ∈ ((Crowd.start config trigger host).play schedule).history, entry.2.IsSound := by
  have started : (Crowd.start config trigger host).MeetsSound kind allowed := ⟨start, uses, nofun⟩
  have each : ∀ entry ∈ ((Crowd.start config trigger host).play schedule).history, True :=
    fun _ _ => trivial
  exact (play_keeps (fun meets task _ _ => meets.after stays task) schedule started each).sound

/-- On a host with its store in memory every schedule meets a sound store. -/
theorem isSound_of_inMemory (config : Config) (trigger : ι → Trigger) {host : Host}
    (memory : host.InMemory) (schedule : List ι) :
    ∀ entry ∈ ((start config trigger host).play schedule).history, entry.2.IsSound :=
  isSound Host.InMemory.staysSound (fun _ => Program.Uses.any _) memory schedule

/-- Overlapping triggers serialize. Any number of mode changes, installations, starts and refreshes
may be suspended at every call, in any order that respects the two locks. As long as the mode can
always be stored, every replacement removes exactly the rules that are active then, and is never
refused for an id that is taken. The modes are stored one after the other, by the changes that
succeed; such a change stores its mode unless it has found it stored. Once all tasks have ended, and
any rules were replaced, the active rules are those of the stored mode from one complete list. -/
theorem triggers_serialize (config : Config) (trigger : ι → Trigger) (host : Host)
    (schedule : List ι)
    (sound : ∀ entry ∈ ((start config trigger host).play schedule).history, entry.2.IsSound)
    (storable : ∀ entry ∈ ((start config trigger host).play schedule).history,
      ∀ value, ¬ entry.2.RefusesEntry stateKey value) :
    let crowd := (start config trigger host).play schedule
    (∀ entry ∈ crowd.history, entry.2.RemovesActive) ∧
      crowd.SwitchesInTurn trigger host.storedMode ∧
      (∀ i mode outcome, trigger i = .setMode mode → crowd.task i = .done outcome →
        (∃ error, outcome = .error error ∧ ∀ switch ∈ crowd.ledger.switches, switch.task ≠ i) ∨
          outcome = .ok (.state ⟨mode⟩) ∧
            ((∃ switch ∈ crowd.ledger.switches, switch.task = i) ∨
              crowd.ledger.found i = some mode)) ∧
      (crowd.Ended → (∃ entry ∈ crowd.history, entry.2.Replaces) →
        Enforced config (CompleteSince host crowd.history) crowd.host.storedMode
          crowd.host.surface.rules) := by
  intro crowd
  have inOrder := inOrder_play config trigger host schedule sound storable
  have concludes {i : ι} {outcome : Except EngineError Answer}
      (ended : crowd.task i = .done outcome) :
      (trigger i).Concludes outcome (crowd.standing i) := by
    have follows := inOrder.follows i
    rwa [ended] at follows
  refine ⟨inOrder.removes, inOrder.switches, ?_, ?_⟩
  · intro i mode outcome asked ended
    obtain ⟨-, concluded⟩ := concludes ended
    rw [asked] at concluded
    rcases concluded with ⟨error, failed, unchanged⟩ | succeeded
    · exact .inl ⟨error, failed, fun switch member same => unchanged ⟨switch, member, same⟩⟩
    · exact .inr succeeded
  · intro ended replaced
    -- A task that still holds the mode lock cannot have ended.
    have free : crowd.holder .mode = none := by
      cases holds : crowd.holder .mode with
      | none => rfl
      | some i =>
        obtain ⟨outcome, done⟩ := ended i
        obtain ⟨outside, -⟩ := concludes done
        exact absurd ((scene_standing_of_holds holds).symm.trans outside) nofun
    exact inOrder.settled free replaced

def installedBesideHigh : Bool → Trigger
  | false => .installed
  | true => .setMode .high

/-- Both at once, turn by turn. -/
def interleaved : Crowd Bool (Except EngineError Answer) :=
  (start {} installedBesideHigh Session.servedHost).play
    (List.replicate 25 [false, true]).flatten

/-- An installation and a change to high that take turns leave the rules of high. -/
theorem triggers_serialize_interleaved :
    interleaved.Ended ∧ interleaved.host.storedMode = some .high ∧
      Enforced {} (CompleteSince Session.servedHost interleaved.history)
        interleaved.host.storedMode interleaved.host.surface.rules := by
  have ended : interleaved.Ended := by
    show ∀ i, (interleaved.task i).HasEnded
    decide +kernel
  have replaced : ∃ entry ∈ interleaved.history, entry.2.Replaces := by decide +kernel
  have writes : interleaved.history.all (Session.writesEntry ·.2) = true := by decide +kernel
  have memory : Session.servedHost.InMemory := ⟨[], rfl⟩
  have sound := isSound_of_inMemory {} installedBesideHigh memory
    (List.replicate 25 [false, true]).flatten
  have storable := fun entry member =>
    Session.not_refusesEntry (List.all_eq_true.mp writes entry member) stateKey
  obtain ⟨-, -, -, enforced⟩ := triggers_serialize {} installedBesideHigh Session.servedHost
    (List.replicate 25 [false, true]).flatten sound storable
  exact ⟨ended, by decide +kernel, enforced ended replaced⟩

end Crowd

end Blocklist
