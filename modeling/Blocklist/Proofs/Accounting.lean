import Blocklist.Proofs.StoredMode
import Mathlib.Algebra.Ring.Nat

/-!
# All-time accounting

The all-time figures are stored, and nothing but a checkpoint stores them: it adds the matches of
the session, as they stand then, to what is stored. Two figures are kept, the requests and the bytes
that they would have cost, and each stops at the greatest number by itself. They still agree as a
pair, since a product that stops distributes over a sum that stops. So along a session the figures
are those of one count, the sum over the checkpoints that were stored.
-/

namespace Blocklist

/-! ## Sums that stop -/

/-- A product that stops distributes over a sum that stops. Where the sum has stopped and the factor
is not zero, both sides have. -/
theorem saturatingMul_saturatingAdd (a b c : UInt64) :
    saturatingMul (saturatingAdd a b) c =
      saturatingAdd (saturatingMul a c) (saturatingMul b c) := by
  apply UInt64.toNat_inj.mp
  simp only [toNat_saturatingMul, toNat_saturatingAdd]
  rcases Nat.eq_zero_or_pos c.toNat with zero | positive
  · simp [zero]
  rcases Nat.le_total (a.toNat + b.toNat) maxCount with fits | stops
  · rw [Nat.min_eq_left fits, Nat.add_mul]
    omega
  · have large : maxCount ≤ (a.toNat + b.toNat) * c.toNat :=
      Nat.le_trans stops (Nat.le_mul_of_pos_right _ positive)
    rw [Nat.min_eq_right stops, Nat.min_eq_right (Nat.le_mul_of_pos_right maxCount positive)]
    rw [Nat.add_mul] at large
    omega

/-- A sum of counts that stops at the greatest 64-bit number. -/
def total (counts : List UInt64) : UInt64 := .ofNat (min (counts.map UInt64.toNat).sum maxCount)

theorem toNat_total (counts : List UInt64) :
    (total counts).toNat = min (counts.map UInt64.toNat).sum maxCount := toNat_ofNat_min_maxCount _

theorem total_append (first second : List UInt64) :
    total (first ++ second) = saturatingAdd (total first) (total second) := by
  apply UInt64.toNat_inj.mp
  rw [toNat_saturatingAdd, toNat_total, toNat_total, toNat_total, List.map_append, List.sum_append]
  omega

theorem total_singleton (count : UInt64) : total [count] = count := by
  apply UInt64.toNat_inj.mp
  rw [toNat_total, List.map_singleton, List.sum_singleton]
  exact Nat.min_eq_left (toNat_le_maxCount count)

theorem saturatingAdd_zero (count : UInt64) : saturatingAdd count 0 = count := by
  apply UInt64.toNat_inj.mp
  rw [toNat_saturatingAdd]
  exact Nat.min_eq_left (toNat_le_maxCount count)

theorem zero_saturatingAdd (count : UInt64) : saturatingAdd 0 count = count := by
  apply UInt64.toNat_inj.mp
  rw [toNat_saturatingAdd, UInt64.toNat_zero, Nat.zero_add]
  exact Nat.min_eq_left (toNat_le_maxCount count)

theorem saturatingAdd_assoc (a b c : UInt64) :
    saturatingAdd (saturatingAdd a b) c = saturatingAdd a (saturatingAdd b c) := by
  apply UInt64.toNat_inj.mp
  simp only [toNat_saturatingAdd]
  have := toNat_le_maxCount a
  have := toNat_le_maxCount c
  omega

theorem le_saturatingAdd (count more : UInt64) : count ≤ saturatingAdd count more := by
  rw [UInt64.le_iff_toNat_le, toNat_saturatingAdd]
  have := toNat_le_maxCount count
  omega

namespace Stats

/-- The figures of two periods together are those of all their requests. -/
theorem add_ofCount (first second average : UInt64) :
    (ofCount first average).add (ofCount second average) =
      ofCount (saturatingAdd first second) average := by
  rw [add, ofCount, ofCount, ofCount, saturatingMul_saturatingAdd]

theorem ofCount_zero (average : UInt64) : ofCount 0 average = zero := by
  have none : saturatingMul 0 average = 0 := by
    apply UInt64.toNat_inj.mp
    simp [toNat_saturatingMul]
  rw [ofCount, none]
  rfl

/-- More requests mean no smaller figure. -/
theorem ofCount_le {first second : UInt64} (fewer : first ≤ second) (average : UInt64) :
    (ofCount first average).blockedRequests ≤ (ofCount second average).blockedRequests ∧
      (ofCount first average).estimatedBytesSaved ≤
        (ofCount second average).estimatedBytesSaved := by
  refine ⟨fewer, ?_⟩
  simp only [ofCount, UInt64.le_iff_toNat_le, toNat_saturatingMul]
  have := Nat.mul_le_mul_right average.toNat (UInt64.le_iff_toNat_le.mp fewer)
  omega

end Stats

/-! ## The stored figures -/

namespace Engine

/-- The all-time figures that a stored value stands for; nothing stands for zero. -/
def figuresOf : Option Json → Except EngineError Stats
  | none => .ok .zero
  | some value =>
    ((StoredStats.ofJson value).mapError fun cause => .storage cause.message).map (·.allTime)

/-- The all-time figures take one call, and are what the reply to it stands for. -/
theorem allTimeStats_eq :
    allTimeStats = .mk (.ask (.readEntry statsKey) fun reply => .done (reply.bind figuresOf)) := by
  refine congrArg (Program.ask (.readEntry statsKey)) (funext fun reply => ?_)
  rcases reply with error | (_ | value)
  · rfl
  · rfl
  · change ((Action.stored (StoredStats.ofJson value) >>= fun stored =>
      pure (some stored.allTime)).run.bind _ : Program _) = _
    simp only [Except.bind, figuresOf]
    cases StoredStats.ofJson value <;> rfl

end Engine

def Host.allTime (host : Host) : Except EngineError Stats :=
  (host.entry statsKey).bind Engine.figuresOf

theorem Host.allTime_congr {a b : Host} (same : a.entry statsKey = b.entry statsKey) :
    a.allTime = b.allTime := by
  unfold allTime
  rw [same]

theorem Host.allTime_of_entry {host : Host} {stats : Stats}
    (held : host.entry statsKey = .ok (some (StoredStats.mk stats).toJson)) :
    host.allTime = .ok stats := by
  rw [allTime, held, Except.bind, Engine.figuresOf, StoredStats.ofJson_toJson]
  rfl

namespace Engine

open Blocklist.Action

variable {config : Config} {host later : Host} {moments : List Moment}

/-- What is read is what is stored, unless reading is refused. -/
theorem allTimeStats_cases {outcome : Except EngineError Stats}
    (performs : allTimeStats.Performs host moments outcome later) :
    moments = [⟨host, .readEntry statsKey⟩] ∧ later = host.noting (.readEntry statsKey) ∧
      (outcome = host.allTime ∨ ∃ error, outcome = .error error) := by
  rw [allTimeStats_eq] at performs
  obtain ⟨rfl, rfl, rfl⟩ := Performs.call_iff.mp performs
  refine ⟨rfl, Moment.later_of_quiet (show Call.IsQuiet (.readEntry statsKey) from trivial), ?_⟩
  rcases Moment.reply_readEntry host statsKey with answered | ⟨error, refused⟩
  · exact .inl (congrArg (·.bind figuresOf) answered)
  · exact .inr ⟨error, congrArg (·.bind figuresOf) refused⟩

end Engine

/-- The figures of the session. -/
def Host.sessionFigures (config : Config) (host : Host) : Stats :=
  .ofCount host.surface.sessionMatches config.avgBytesPerRequest

/-- The count that is given is that of the surface, unless counting is refused. -/
theorem Moment.reply_matchCount (host : Host) (scope : MatchScope) :
    (Moment.mk host (.matchCount scope)).reply = .ok (host.surface.matchCount scope) ∨
      ∃ error, (Moment.mk host (.matchCount scope)).reply = .error error := by
  rcases answer_cases host (.matchCount scope) with ⟨detail, refused, -⟩ | ⟨reply, -⟩
  · exact .inr ⟨.enforcement detail, (Option.some.inj refused).symm⟩
  · exact .inl reply

namespace Engine

open Blocklist.Action

variable {config : Config} {host later : Host} {moments : List Moment}

/-- What is given for a scope is what the surface counts there, unless counting is refused. -/
theorem scopeStats_cases {scope : MatchScope} {outcome : Except EngineError Stats}
    (performs : (scopeStats config scope).Performs host moments outcome later) :
    moments = [⟨host, .matchCount scope⟩] ∧ later = host.noting (.matchCount scope) ∧
      (outcome = .ok (.ofCount (host.surface.matchCount scope) config.avgBytesPerRequest) ∨
        ∃ error, outcome = .error error) := by
  have noted : (Moment.mk host (.matchCount scope)).later = host.noting (.matchCount scope) :=
    Moment.later_of_quiet (show Call.IsQuiet (.matchCount scope) from trivial)
  rcases Performs.bind_iff.mp performs with
    ⟨error, counts, rfl⟩ | ⟨count, middle, first, second, counts, returns, rfl⟩
  · obtain ⟨rfl, -, rfl⟩ := Performs.call_iff.mp counts
    exact ⟨rfl, noted, .inr ⟨error, rfl⟩⟩
  · obtain ⟨rfl, counted, rfl⟩ := Performs.call_iff.mp counts
    obtain ⟨rfl, rfl, rfl⟩ := Performs.pure_iff.mp returns
    refine ⟨rfl, noted, .inl ?_⟩
    rcases Moment.reply_matchCount host scope with answered | ⟨error, refused⟩
    · obtain rfl := Except.ok.inj (counted.trans answered)
      rfl
    · exact absurd (counted.trans refused) nofun

theorem sessionStats_cases {outcome : Except EngineError Stats}
    (performs : (sessionStats config).Performs host moments outcome later) :
    moments = [⟨host, .matchCount .session⟩] ∧ later = host.noting (.matchCount .session) ∧
      (outcome = .ok (host.sessionFigures config) ∨ ∃ error, outcome = .error error) :=
  scopeStats_cases performs

/-! ## Checkpoints -/

/-- What a checkpoint comes to: it stores nothing, or its last call stores the figures of the
session on top of what was stored. -/
inductive Checkpoint (config : Config) (host : Host) :
    List Moment → Except EngineError Stats → Host → Prop where
  | refused {moments : List Moment} {later : Host} (error : EngineError)
      (unwritten : ∀ moment ∈ moments, ¬ moment.StoresEntry statsKey) :
      Checkpoint config host moments (.error error) later
  | stored {before : Stats} {front : List Moment} {writing : Host}
      (held : host.allTime = .ok before) (surface : writing.surface = host.surface)
      (quiet : ∀ moment ∈ front, ¬ moment.StoresEntry statsKey)
      (accepted : Moment.reply ⟨writing, .writeEntry statsKey
        (StoredStats.mk (before.add (host.sessionFigures config))).toJson⟩ = .ok ()) :
      Checkpoint config host
        (front ++ [⟨writing, .writeEntry statsKey
          (StoredStats.mk (before.add (host.sessionFigures config))).toJson⟩])
        (.ok (before.add (host.sessionFigures config)))
        (Moment.later ⟨writing, .writeEntry statsKey
          (StoredStats.mk (before.add (host.sessionFigures config))).toJson⟩)

theorem checkpoint_of_rollSession {outcome : Except EngineError Stats}
    (performs : (rollSession config).Performs host moments outcome later) :
    Checkpoint config host moments outcome later := by
  rcases Performs.bind_iff.mp performs with
    ⟨error, counts, rfl⟩ | ⟨session, counted, counting, _, counts, goesOn, rfl⟩
  · obtain ⟨rfl, -, -⟩ := sessionStats_cases counts
    exact .refused error (List.forall_mem_singleton.mpr nofun)
  obtain ⟨rfl, rfl, given⟩ := sessionStats_cases counts
  obtain rfl : session = host.sessionFigures config := by
    rcases given with same | ⟨error, refused⟩
    · exact Except.ok.inj same
    · exact absurd refused nofun
  have counting : ∀ moment ∈ [Moment.mk host (.matchCount .session)],
      ¬ moment.StoresEntry statsKey := List.forall_mem_singleton.mpr nofun
  rcases Performs.bind_iff.mp goesOn with
    ⟨error, reads, rfl⟩ | ⟨before, read, reading, _, reads, goesOn, rfl⟩
  · obtain ⟨rfl, -, -⟩ := allTimeStats_cases reads
    exact .refused error
      (List.forall_mem_append.mpr ⟨counting, List.forall_mem_singleton.mpr nofun⟩)
  obtain ⟨rfl, rfl, found⟩ := allTimeStats_cases reads
  have held : host.allTime = .ok before := by
    rcases found with same | ⟨error, refused⟩
    · rw [same]
      exact Host.allTime_congr (Host.noting_entry _ host statsKey).symm
    · exact absurd refused nofun
  have quiet := List.forall_mem_append.mpr ⟨counting, List.forall_mem_singleton.mpr
    (show ¬ Moment.StoresEntry statsKey
      ⟨host.noting (.matchCount .session), .readEntry statsKey⟩ from nofun)⟩
  rcases Performs.bind_iff.mp goesOn with
    ⟨error, saves, rfl⟩ | ⟨_, saved, saving, _, saves, returns, rfl⟩
  · obtain ⟨rfl, refused, rfl⟩ := Performs.call_iff.mp saves
    rw [← List.append_assoc]
    refine .refused error (List.forall_mem_append.mpr ⟨quiet, List.forall_mem_singleton.mpr ?_⟩)
    rintro ⟨accepted⟩
    exact absurd (refused.trans accepted) nofun
  · obtain ⟨rfl, accepted, rfl⟩ := Performs.call_iff.mp saves
    obtain ⟨rfl, rfl, rfl⟩ := Performs.pure_iff.mp returns
    rw [List.append_nil, ← List.append_assoc]
    exact .stored held rfl quiet accepted.symm

end Engine

/-- The matches of the session when the all-time figures are stored. -/
def Moment.counted? : Moment → Option UInt64
  | ⟨host, .writeEntry key value⟩ =>
    if key = statsKey ∧ (Moment.reply ⟨host, .writeEntry key value⟩).isOk then
      some host.surface.sessionMatches
    else none
  | _ => none

/-- The matches that were counted by the checkpoints among some moments. -/
def checkpoints (moments : List Moment) : List UInt64 := moments.filterMap Moment.counted?

theorem checkpoints_append (first second : List Moment) :
    checkpoints (first ++ second) = checkpoints first ++ checkpoints second :=
  List.filterMap_append

theorem checkpoints_eq_nil {moments : List Moment}
    (unwritten : ∀ moment ∈ moments, ¬ moment.StoresEntry statsKey) : checkpoints moments = [] := by
  refine List.filterMap_eq_nil_iff.mpr ?_
  rintro ⟨host, call⟩ member
  cases call with
  | writeEntry key value =>
    refine if_neg ?_
    rintro ⟨rfl, accepted⟩
    cases reply : (Moment.mk host (.writeEntry statsKey value)).reply with
    | ok _ => exact unwritten _ member (.intro reply)
    | error error => simp [reply, Except.isOk, Except.toBool] at accepted
  | _ => rfl

/-- Some moments add to the all-time figures what their checkpoints counted. -/
def Accrues (config : Config) (host : Host) (moments : List Moment) (later : Host) : Prop :=
  ∀ count, host.allTime = .ok (.ofCount count config.avgBytesPerRequest) →
    later.allTime =
      .ok (.ofCount (saturatingAdd count (total (checkpoints moments))) config.avgBytesPerRequest)

namespace Accrues

variable {config : Config} {host middle later : Host} {first second moments : List Moment}

theorem of_unwritten (same : later.entry statsKey = host.entry statsKey)
    (unwritten : ∀ moment ∈ moments, ¬ moment.StoresEntry statsKey) :
    Accrues config host moments later := by
  intro count held
  have none : total [] = 0 := rfl
  rw [checkpoints_eq_nil unwritten, Host.allTime_congr same, held, none, saturatingAdd_zero]

theorem trans (front : Accrues config host first middle)
    (back : Accrues config middle second later) : Accrues config host (first ++ second) later := by
  intro count held
  rw [back _ (front count held), checkpoints_append, total_append, saturatingAdd_assoc]

end Accrues

section

open Engine Blocklist.Action

variable {config : Config} {host later : Host} {moments : List Moment}

theorem checkpoints_of_checkpoint {stats : Stats}
    (checkpoint : Checkpoint config host moments (.ok stats) later) :
    checkpoints moments = [host.surface.sessionMatches] := by
  cases checkpoint with
  | @stored before front writing held surface quiet accepted =>
    rw [checkpoints_append, checkpoints_eq_nil quiet, List.nil_append, ← surface]
    refine List.filterMap_cons_some (if_pos ⟨rfl, ?_⟩)
    rw [accepted]
    rfl

theorem Engine.Checkpoint.accrues {outcome : Except EngineError Stats}
    (checkpoint : Checkpoint config host moments outcome later)
    (performs : (rollSession config).Performs host moments outcome later)
    (sound : ∀ moment ∈ moments, moment.IsSound) : Accrues config host moments later := by
  cases checkpoint with
  | refused error unwritten =>
    refine .of_unwritten ?_ unwritten
    refine Program.Runs.entry_eq performs ?_
    intro moment member
    exact Moment.later_entry_of_not_storesEntry (sound moment member) (unwritten moment member)
  | @stored before front writing held surface quiet accepted =>
    intro count old
    have counted := checkpoints_of_checkpoint (.stored held surface quiet accepted)
    obtain rfl := Except.ok.inj (held.symm.trans old)
    obtain ⟨-, soundWriting⟩ := List.forall_mem_append.mp sound
    obtain ⟨written, -, -⟩ := List.forall_mem_singleton.mp soundWriting
    rw [counted, total_singleton, ← Stats.add_ofCount]
    exact Host.allTime_of_entry (written accepted)

/-- A checkpoint that fails touches neither the surface nor any entry. -/
theorem Engine.untouched_of_rollSession_error {error : EngineError}
    (performs : (rollSession config).Performs host moments (.error error) later)
    (sound : ∀ moment ∈ moments, moment.IsSound) :
    later.surface = host.surface ∧ ∀ key, later.entry key = host.entry key := by
  refine ⟨performs.surface_eq (isConfinedTo_rollSession config), ?_⟩
  intro key
  by_cases figures : key = statsKey
  · subst figures
    cases checkpoint_of_rollSession performs with
    | refused _ unwritten =>
      refine Program.Runs.entry_eq performs ?_
      intro moment member
      exact Moment.later_entry_of_not_storesEntry (sound moment member) (unwritten moment member)
  · have writes := (isConfinedTo_rollSession config).mono fun _ confined => confined.writesOnly
    exact performs.entry_eq writes sound (by simpa using figures)

end

/-! ## What the other operations write -/

namespace Call

theorem WritesOnly.mono {keys more : List String} (subset : keys ⊆ more) {call : Call}
    (writes : call.WritesOnly keys) : call.WritesOnly more := by
  cases call with
  | writeEntry key value => exact subset writes
  | _ => trivial

end Call

namespace Engine

open Blocklist.Action

variable (config : Config)

theorem writesOnly_currentState (keys : List String) :
    currentState.Uses (Call.WritesOnly keys) :=
  (isConfinedTo_currentState keys).mono fun _ => Call.IsConfinedTo.writesOnly

theorem writesOnly_applyStored : (applyStored config).Uses (Call.WritesOnly [filterCacheKey]) :=
  Uses.holding trivial trivial
    ((writesOnly_currentState _).bind fun state => writesOnly_synchronize config state.mode)

theorem writesOnly_setMode (mode : Mode) :
    (setMode config mode).Uses (Call.WritesOnly [filterCacheKey, stateKey]) := by
  have synchronizes (mode : Mode) :
      (synchronize config mode).Uses (Call.WritesOnly [filterCacheKey, stateKey]) :=
    (writesOnly_synchronize config mode).mono fun _ => Call.WritesOnly.mono (by simp)
  have changes (previous : Mode) :
      (changeMode config previous mode).Uses (Call.WritesOnly [filterCacheKey, stateKey]) := by
    refine (synchronizes mode).map.bind fun _ => ?_
    refine (Uses.outcome (Uses.call (by simp [Call.WritesOnly]))).bind ?_
    rintro (error | _)
    · exact (synchronizes previous).outcome.map.bind fun _ => Uses.throw error
    · exact Uses.bind (Uses.call trivial) fun _ => Uses.pure _
  rw [setMode_eq]
  refine Uses.holding trivial trivial ((writesOnly_currentState _).bind fun current => ?_)
  split
  · exact Uses.pure current
  · exact changes current.mode

theorem writesOnly_handle (command : Command) :
    (handle config command).Uses (Call.WritesOnly [filterCacheKey, stateKey]) := by
  cases command with
  | getState => exact (writesOnly_currentState _).map
  | setMode mode => exact (writesOnly_setMode config mode).map
  | applyToTab tab =>
    refine (writesOnly_currentState _).bind fun state => ?_
    exact Uses.bind (Uses.call trivial) fun _ => Uses.pure _
  | getStats tab =>
    exact ((isConfinedTo_statsReport config _ tab).mono fun _ =>
      Call.IsConfinedTo.writesOnly).map

end Engine

/-- The moments of an action stay the same when its outcome is not waited for. -/
theorem Action.moments_settle (action : Action α) (host : Host) :
    action.settle.moments host = action.moments host := by
  obtain ⟨outcome, performs⟩ := runs_settle_iff.mp (Program.Runs.of_run action.settle host)
  exact performs.moments_eq.symm

/-! ## Operations -/

/-- The operations that begin with a checkpoint. -/
def Operation.hasCheckpoint : Operation → Bool
  | startup | rollSession => true
  | _ => false

def Event.hasCheckpoint : Event → Bool
  | operation asked => asked.hasCheckpoint
  | _ => false

section

open Engine Blocklist.Action

variable {config : Config} {host later : Host} {moments : List Moment}

/-- An operation without a checkpoint writes no figures. -/
theorem Operation.writesOnly {operation : Operation} (without : operation.hasCheckpoint = false)
    (runs : (operation.program config).Runs host moments () later) :
    ∀ moment ∈ moments, moment.call.WritesOnly [filterCacheKey, stateKey] := by
  have settled {α : Type} {action : Action α} {keys : List String}
      (uses : action.Uses (Call.WritesOnly keys)) (subset : keys ⊆ [filterCacheKey, stateKey])
      (runs : action.settle.Runs host moments () later) :
      ∀ moment ∈ moments, moment.call.WritesOnly [filterCacheKey, stateKey] := by
    intro moment member
    exact (runs.forall_of_uses uses.settle moment member).mono subset
  have fetches : Engine.refreshCache.Uses (Call.WritesOnly [filterCacheKey]) :=
    isConfinedTo_refreshCache.mono fun _ => Call.IsConfinedTo.writesOnly
  have maintains : (Engine.refresh config).Uses (Call.WritesOnly [filterCacheKey]) :=
    fetches.map.bind fun _ => writesOnly_applyStored config
  cases operation with
  | command asked => exact settled (writesOnly_handle config asked) (fun _ => id) runs
  | message value =>
    rcases message_cases runs with ⟨-, rfl, -⟩ | ⟨asked, -, runs⟩
    · exact nofun
    · exact settled (writesOnly_handle config asked) (fun _ => id) runs
  | setMode mode => exact settled (writesOnly_setMode config mode) (fun _ => id) runs
  | installed => exact settled maintains (by simp) runs
  | refresh => exact settled maintains (by simp) runs
  | refreshCache => exact settled fetches (by simp) runs
  | currentDomains =>
    exact settled ((isConfinedTo_currentDomains config).mono fun _ => Call.IsConfinedTo.writesOnly)
      (by simp) runs
  | startup | rollSession => contradiction

/-- Moments that write other entries only neither store figures nor change them. -/
theorem unwritten_of_writesOnly
    (writes : ∀ moment ∈ moments, moment.call.WritesOnly [filterCacheKey, stateKey]) :
    ∀ moment ∈ moments, ¬ moment.StoresEntry statsKey := by
  rintro moment member ⟨accepted⟩
  have written := writes _ member
  exact absurd written (show statsKey ∉ [filterCacheKey, stateKey] by decide)

/-- Applying the stored mode after a checkpoint stores no figures. -/
theorem Engine.unwritten_of_applyStored {outcome : Except EngineError SyncReport}
    (performs : (applyStored config).Performs host moments outcome later) :
    ∀ moment ∈ moments, ¬ moment.StoresEntry statsKey := by
  apply unwritten_of_writesOnly
  intro moment member
  exact (performs.forall_of_uses (writesOnly_applyStored config) moment member).mono (by simp)

theorem Accrues.of_rollSession {outcome : Except EngineError Stats}
    (performs : (rollSession config).Performs host moments outcome later)
    (sound : ∀ moment ∈ moments, moment.IsSound) : Accrues config host moments later :=
  (checkpoint_of_rollSession performs).accrues performs sound

theorem Accrues.of_startup {outcome : Except EngineError SyncReport}
    (performs : (startup config).Performs host moments outcome later)
    (sound : ∀ moment ∈ moments, moment.IsSound) : Accrues config host moments later := by
  unfold startup at performs
  rw [discard_bind] at performs
  rcases Performs.bind_iff.mp performs with
    ⟨error, rolls, rfl⟩ | ⟨stats, middle, first, second, rolls, applies, rfl⟩
  · exact .of_rollSession rolls sound
  · obtain ⟨soundFirst, soundSecond⟩ := List.forall_mem_append.mp sound
    refine (Accrues.of_rollSession rolls soundFirst).trans (.of_unwritten ?_ ?_)
    · exact applies.entry_eq (writesOnly_applyStored config) soundSecond (by decide)
    · exact unwritten_of_applyStored applies

/-! ## Starts of the browser -/

/-- A start whose checkpoint fails ends with the checkpoint. -/
theorem Engine.startup_of_refused {error : EngineError}
    (rolls : (rollSession config).Performs host moments (.error error) later) :
    (startup config).Performs host moments (.error error) later := by
  unfold startup
  rw [discard_bind]
  exact Performs.bind_iff.mpr (.inl ⟨error, rolls, rfl⟩)

/-- A start whose checkpoint is stored goes on to apply the stored mode. -/
theorem Engine.startup_of_stored {stats : Stats}
    (rolls : (rollSession config).Performs host moments (.ok stats) later) :
    ∃ applying outcome finish, (applyStored config).Performs later applying outcome finish ∧
      (startup config).Performs host (moments ++ applying) outcome finish := by
  have applies := Performs.of_perform (applyStored config) later
  refine ⟨_, _, _, applies, ?_⟩
  unfold startup
  rw [discard_bind]
  exact Performs.bind rolls applies

/-- A start whose checkpoint is stored counts the session once, whatever comes of the rest. -/
theorem Engine.checkpoints_of_startup {stats : Stats}
    (rolls : (Host.perform (rollSession config) host).1 = .ok stats) :
    checkpoints ((startup config).moments host) = [host.surface.sessionMatches] := by
  have performs := Performs.of_perform (rollSession config) host
  rw [rolls] at performs
  obtain ⟨applying, outcome, finish, applies, starts⟩ := startup_of_stored performs
  have moments : (startup config).moments host = (rollSession config).moments host ++ applying :=
    starts.moments_eq
  rw [moments, checkpoints_append, checkpoints_eq_nil (unwritten_of_applyStored applies),
    checkpoints_of_checkpoint (checkpoint_of_rollSession performs), List.append_nil]

/-- A start whose checkpoint fails returns its error, and nothing is touched. -/
theorem Engine.startup_untouched {error : EngineError}
    (rolls : (Host.perform (rollSession config) host).1 = .error error)
    (sound : ∀ moment ∈ (startup config).moments host, moment.IsSound) :
    (Host.perform (startup config) host).1 = .error error ∧
      (Host.perform (startup config) host).2.surface = host.surface ∧
      ∀ key, (Host.perform (startup config) host).2.entry key = host.entry key := by
  have performs := Performs.of_perform (rollSession config) host
  rw [rolls] at performs
  have starts := startup_of_refused performs
  have moments : (startup config).moments host = (rollSession config).moments host :=
    starts.moments_eq
  have reached : Host.perform (startup config) host =
      (.error error, (Host.perform (rollSession config) host).2) := starts.run_eq
  rw [reached]
  rw [moments] at sound
  exact ⟨rfl, untouched_of_rollSession_error performs sound⟩

/-! ## Events -/

/-- An event without a checkpoint leaves the figures alone. -/
theorem Event.unwritten (event : Event) (without : event.hasCheckpoint = false) :
    ∀ moment ∈ event.moments config host, ¬ moment.StoresEntry statsKey := by
  cases event with
  | matched tab | restarted => exact nofun
  | operation asked =>
    have runs := Program.Runs.of_run (asked.program config) host
    exact unwritten_of_writesOnly (asked.writesOnly without runs)

theorem Event.entry_statsKey_later (event : Event) (without : event.hasCheckpoint = false)
    (sound : ∀ moment ∈ event.moments config host, moment.IsSound) :
    (event.later config host).entry statsKey = host.entry statsKey := by
  cases event with
  | matched tab => exact host.entry_with_surface _ statsKey
  | restarted => exact host.entry_with_surface _ statsKey
  | operation asked =>
    have runs := Program.Runs.of_run (asked.program config) host
    refine runs.entry_eq ?_
    intro moment member
    exact Moment.later_entry_of_not_storesEntry (sound moment member)
      (unwritten (.operation asked) without moment member)

/-- Every event adds to the figures what its checkpoint counted. -/
theorem Event.accrues (event : Event)
    (sound : ∀ moment ∈ event.moments config host, moment.IsSound) :
    Accrues config host (event.moments config host) (event.later config host) := by
  cases without : event.hasCheckpoint with
  | false =>
    exact .of_unwritten (event.entry_statsKey_later without sound) (event.unwritten without)
  | true =>
    cases event with
    | matched tab | restarted => contradiction
    | operation asked =>
      have runs := Program.Runs.of_run (asked.program config) host
      cases asked with
      | startup =>
        obtain ⟨outcome, performs⟩ := runs_settle_iff.mp runs
        exact .of_startup performs sound
      | rollSession =>
        obtain ⟨outcome, performs⟩ := runs_settle_iff.mp runs
        exact .of_rollSession performs sound
      | _ => contradiction

end

/-! ## Sessions -/

namespace Session

variable {config : Config} {host : Host}

theorem accrues (events : List Event)
    (sound : ∀ moment ∈ history config events host, moment.IsSound) :
    Accrues config host (history config events host) (ending config events host) := by
  induction events generalizing host with
  | nil => exact .of_unwritten rfl nofun
  | cons event events ih =>
    obtain ⟨soundEvent, soundRest⟩ := List.forall_mem_append.mp sound
    exact (event.accrues soundEvent).trans (ih soundRest)

/-- Along a session that begins without stored figures, the all-time figures are always those of one
count: the matches that the checkpoints counted when they were stored, added up as far as a count
goes. What is read of them, when reading is not refused, is just that, and neither figure ever
shrinks. An event without a checkpoint leaves the stored figures alone. A start of the browser whose
checkpoint fails returns that error and leaves the surface and every entry as they were; one whose
checkpoint is stored has counted the session once, whatever comes of applying the rules. -/
theorem allTime_counts_checkpoints (config : Config) (host : Host) (events : List Event)
    (fresh : host.entry statsKey = .ok none)
    (sound : ∀ moment ∈ history config events host, moment.IsSound) :
    (∀ first second average, (Stats.ofCount first average).add (.ofCount second average) =
        .ofCount (saturatingAdd first second) average) ∧
      ∀ earlier rest, events = earlier ++ rest →
        let now := ending config earlier host
        let counted := total (checkpoints (history config earlier host))
        let figures := Stats.ofCount counted config.avgBytesPerRequest
        now.allTime = .ok figures ∧
          (∀ stats, (Host.perform Engine.allTimeStats now).1 = .ok stats → stats = figures) ∧
          (∀ final, (ending config events host).allTime = .ok final →
            figures.blockedRequests ≤ final.blockedRequests ∧
              figures.estimatedBytesSaved ≤ final.estimatedBytesSaved) ∧
          ∀ event others, rest = event :: others →
            (event.hasCheckpoint = false →
              checkpoints (event.moments config now) = [] ∧
                (event.later config now).entry statsKey = now.entry statsKey) ∧
            (event = .operation .startup →
              let started := Host.perform (Engine.startup config) now
              (∀ error, (Host.perform (Engine.rollSession config) now).1 = .error error →
                started.1 = .error error ∧ started.2.surface = now.surface ∧
                  ∀ key, started.2.entry key = now.entry key) ∧
              ∀ stats, (Host.perform (Engine.rollSession config) now).1 = .ok stats →
                checkpoints ((Engine.startup config).moments now) =
                    [now.surface.sessionMatches] ∧
                  started.2.allTime = .ok (.ofCount
                    (saturatingAdd counted now.surface.sessionMatches)
                    config.avgBytesPerRequest)) := by
  refine ⟨Stats.add_ofCount, ?_⟩
  rintro earlier rest rfl now counted figures
  have zero : host.allTime = .ok (.ofCount 0 config.avgBytesPerRequest) := by
    rw [Host.allTime, fresh, Stats.ofCount_zero]
    rfl
  rw [history_append] at sound
  obtain ⟨soundEarlier, soundRest⟩ := List.forall_mem_append.mp sound
  have held : now.allTime = .ok figures := by
    rw [accrues earlier soundEarlier 0 zero, zero_saturatingAdd]
  refine ⟨held, ?_, ?_, ?_⟩
  · intro stats read
    have performs := Action.Performs.of_perform Engine.allTimeStats now
    rw [read] at performs
    obtain ⟨-, -, same | ⟨error, refused⟩⟩ := Engine.allTimeStats_cases performs
    · exact Except.ok.inj (same.trans held)
    · contradiction
  · intro final reached
    rw [ending_append, accrues rest soundRest counted held] at reached
    obtain rfl := Except.ok.inj reached
    exact Stats.ofCount_le (le_saturatingAdd _ _) _
  · rintro event others rfl
    obtain ⟨soundEvent, -⟩ := List.forall_mem_append.mp soundRest
    constructor
    · intro without
      exact ⟨checkpoints_eq_nil (event.unwritten without),
        event.entry_statsKey_later without soundEvent⟩
    · rintro rfl started
      have same : Event.moments config (.operation .startup) now =
          (Engine.startup config).moments now := (Engine.startup config).moments_settle now
      rw [same] at soundEvent
      constructor
      · intro error rolls
        exact Engine.startup_untouched rolls soundEvent
      · intro stats rolls
        have performs := Action.Performs.of_perform (Engine.startup config) now
        have once := Engine.checkpoints_of_startup rolls
        refine ⟨once, ?_⟩
        rw [Accrues.of_startup performs soundEvent counted held, once, total_singleton]

/-- A host that is read-only during its first three calls. -/
def readOnlyHost : Host where
  environment :=
    { refusal := fun number call => match call with
        | .writeEntry _ _ => if number < 3 then some "read-only" else none
        | _ => none }

/-- Two matches and a checkpoint that fails, the same checkpoint again, and one more match after the
browser has started again. -/
def threeMatches : List Event :=
  [.matched none, .matched (some 3), .operation .rollSession, .operation .rollSession, .restarted,
    .matched none, .operation .startup]

/-- Three matches are counted, in two checkpoints. -/
theorem allTime_counts_checkpoints_threeMatches :
    checkpoints (history {} threeMatches readOnlyHost) = [2, 1] ∧
      (ending {} threeMatches readOnlyHost).allTime = .ok (.ofCount 3 30000) := by
  have memory : readOnlyHost.InMemory := ⟨[], rfl⟩
  have fresh := Host.entry_of_memory (show readOnlyHost.store = .memory [] from rfl) statsKey
  have counted : checkpoints (history {} threeMatches readOnlyHost) = [2, 1] := by decide +kernel
  have accounts := (allTime_counts_checkpoints {} readOnlyHost threeMatches fresh
    (isSound_of_inMemory {} threeMatches memory)).2 threeMatches [] (List.append_nil _).symm
  refine ⟨counted, ?_⟩
  rw [accounts.1, counted]
  decide +kernel

end Session

end Blocklist
