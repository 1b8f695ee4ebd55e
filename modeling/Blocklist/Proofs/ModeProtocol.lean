import Blocklist.Proofs.Protocol
import Blocklist.Proofs.ModeCourse
import Blocklist.Proofs.Synchronization

/-!
# The protocol of the mode lock

Whoever holds the mode lock has the active rules and the stored mode to itself. What it finds when
it takes the lock is settled: if any rules were replaced so far, they are those of the stored mode,
from a complete list. It may replace them, and store the mode that it was asked for, as long as they
are settled again when it gives the lock back. Without the lock, a task may do neither. The triggers
of a controller, a change of the mode and the hooks, all follow this protocol.
-/

namespace Blocklist

/-! ## Triggers -/

/-- What sets a controller to work on the rules. -/
inductive Trigger where
  | setMode (mode : Mode)
  | installed
  | startup
  | refresh

inductive Answer where
  | state (state : State)
  | report (report : SyncReport)

namespace Trigger

def action (config : Config) : Trigger → Action Answer
  | setMode mode => .state <$> Engine.setMode config mode
  | installed => .report <$> Engine.installed config
  | startup => .report <$> Engine.startup config
  | refresh => .report <$> Engine.refresh config

def mode? : Trigger → Option Mode
  | setMode mode => some mode
  | _ => none

end Trigger

/-! ## What a task knows -/

/-- A call that neither replaces rules nor stores a mode. -/
structure Call.IsPlain (call : Call) : Prop where
  keepsRules : ∀ removed added, call ≠ .replaceRules removed added
  keepsMode : call.KeepsMode

/-- What the mode lock protects: the stored mode and the active rules, and whether these have been
replaced so far. -/
@[ext]
structure Scene where
  stored : Option Mode
  rules : List Rule
  replaced : Prop

/-- Rules that are those of a stored mode, from a complete list where the mode uses one. -/
def Enforced (config : Config) (complete : List Domain → Prop) (stored : Option Mode)
    (rules : List Rule) : Prop :=
  ∃ mode domains, stored = some mode ∧ (mode.usesFilterList = true → complete domains) ∧
    rules = config.compiler.rulesFor mode domains

/-- Rules that have been replaced are those of the stored mode. -/
def Scene.IsSettled (config : Config) (complete : List Domain → Prop) (scene : Scene) : Prop :=
  scene.replaced → Enforced config complete scene.stored scene.rules

/-- Where a task stands: what it has to itself if it holds the mode lock, the mode that it has found
stored last, and whether it has stored one. -/
@[ext]
structure Standing where
  scene : Option Scene
  found : Option Mode
  changed : Prop

namespace Standing

variable (config : Config) (complete : List Domain → Prop) (asked : Option Mode)

/-- The calls that a task may make. -/
def Allows (standing : Standing) : Call → Prop
  | .acquire .mode => standing.scene = none
  | .release .mode => ∃ scene, standing.scene = some scene ∧ scene.IsSettled config complete
  | .writeEntry key value =>
    (key = filterCacheKey →
      ∀ cache, FilterCache.ofJson value = .ok cache → complete cache.domains) ∧
    (key = stateKey → ∃ scene previous mode, standing.scene = some scene ∧
      standing.found = some previous ∧ scene.stored = some previous ∧ asked = some mode ∧
      previous ≠ mode ∧ ¬ standing.changed ∧ value = (State.mk mode).toJson)
  | .replaceRules removed added => ∃ scene mode domains, standing.scene = some scene ∧
    removed = scene.rules.map (·.id) ∧ (mode.usesFilterList = true → complete domains) ∧
    added = config.compiler.rulesFor mode domains
  | _ => True

variable {config complete asked} in
/-- Without the mode lock, the rules and the stored mode are not touched. -/
theorem Allows.isPlain_of_outside {standing : Standing} {call : Call}
    (allows : standing.Allows config complete asked call) (outside : standing.scene = none) :
    call.IsPlain ∧ call ≠ .release .mode := by
  have inside {scene : Scene} (held : standing.scene = some scene) : False :=
    absurd (outside.symm.trans held) nofun
  cases call with
  | replaceRules removed added =>
    obtain ⟨scene, _, _, held, -⟩ := allows
    exact (inside held).elim
  | writeEntry key value =>
    refine ⟨⟨nofun, ?_⟩, nofun⟩
    rintro _ ⟨⟩
    obtain ⟨scene, _, _, held, -⟩ := allows.2 rfl
    exact inside held
  | release lock =>
    refine ⟨⟨nofun, nofun⟩, ?_⟩
    rintro ⟨⟩
    obtain ⟨scene, held, -⟩ := allows
    exact inside held
  | _ => exact ⟨⟨nofun, nofun⟩, nofun⟩

def reading (standing : Standing) (state : Except EngineError State) : Standing :=
  match state with
  | .ok state => { standing with found := some state.mode }
  | .error _ => standing

def replacing (standing : Standing) (rules : List Rule) : Standing :=
  { standing with
    scene := standing.scene.map fun scene => { scene with rules, replaced := True } }

def storing (standing : Standing) (state : Option State) : Standing :=
  { standing with
    scene := standing.scene.map fun scene => { scene with stored := state.map (·.mode) }
    changed := True }

/-- What can come of a call. The stored mode can always be written. -/
def Moves (standing : Standing) : (call : Call) → call.Reply → Standing → Prop
  | .acquire .mode, _, after =>
    ∃ scene, scene.IsSettled config complete ∧ after = { standing with scene := some scene }
  | .release .mode, _, after => after = { standing with scene := none }
  | .fetchList, reply, after =>
    after = standing ∧ ∀ text, reply = .ok text → complete (FilterList.domains text)
  | .activeIds, reply, after =>
    after = standing ∧ ∀ ids scene, reply = .ok ids → standing.scene = some scene →
      ids = scene.rules.map (·.id)
  | .readEntry key, reply, after =>
    if key = stateKey then
      after = standing.reading (reply.bind Engine.stateOf) ∧
        ∀ state scene, reply.bind Engine.stateOf = .ok state → standing.scene = some scene →
          scene.stored = some state.mode
    else
      after = standing ∧ (key = filterCacheKey → ∀ value cache, reply = .ok (some value) →
        FilterCache.ofJson value = .ok cache → complete cache.domains)
  | .writeEntry key value, reply, after =>
    if key = stateKey then
      reply = .ok () ∧ after = standing.storing (State.ofJson value).toOption
    else after = standing
  | .replaceRules _ added, reply, after =>
    (reply = .ok () ∧ after = standing.replacing added) ∨
      ((∃ error, reply = .error error) ∧ after = standing)
  | _, _, after => after = standing

end Standing

/-- The protocol of a task that was asked for a mode, or for none. -/
def modeProtocol (config : Config) (complete : List Domain → Prop) (asked : Option Mode) :
    Protocol Standing where
  Allows := Standing.Allows config complete asked
  Moves := Standing.Moves config complete

namespace modeProtocol

variable {config : Config} {complete : List Domain → Prop} {asked : Option Mode}
variable {standing after : Standing} {key : String} {value : Json}

theorem moves_readEntry_stateKey {reply : Except EngineError (Option Json)} :
    (modeProtocol config complete asked).Moves standing (.readEntry stateKey) reply after ↔
      after = standing.reading (reply.bind Engine.stateOf) ∧
        ∀ state scene, reply.bind Engine.stateOf = .ok state → standing.scene = some scene →
          scene.stored = some state.mode := by
  exact Iff.rfl

theorem moves_readEntry_of_ne (other : key ≠ stateKey) {reply : Except EngineError (Option Json)} :
    (modeProtocol config complete asked).Moves standing (.readEntry key) reply after ↔
      after = standing ∧ (key = filterCacheKey → ∀ value cache, reply = .ok (some value) →
        FilterCache.ofJson value = .ok cache → complete cache.domains) := by
  exact iff_of_eq (if_neg other)

theorem moves_writeEntry_stateKey {reply : Except EngineError Unit} :
    (modeProtocol config complete asked).Moves standing (.writeEntry stateKey value) reply after ↔
      reply = .ok () ∧ after = standing.storing (State.ofJson value).toOption := by
  exact Iff.rfl

theorem moves_writeEntry_of_ne (other : key ≠ stateKey) {reply : Except EngineError Unit} :
    (modeProtocol config complete asked).Moves standing (.writeEntry key value) reply after ↔
      after = standing := by
  exact iff_of_eq (if_neg other)

end modeProtocol

theorem filterCacheKey_ne_stateKey : filterCacheKey ≠ stateKey := by decide

theorem statsKey_ne_stateKey : statsKey ≠ stateKey := by decide

/-- How a trigger ends: without the mode lock, and with a mode stored only by a change that
succeeds. One that succeeds without storing its mode has found it stored. -/
def Trigger.Concludes (trigger : Trigger) (outcome : Except EngineError Answer)
    (standing : Standing) : Prop :=
  standing.scene = none ∧
    match trigger with
    | .setMode mode =>
      (∃ error, outcome = .error error ∧ ¬ standing.changed) ∨
        outcome = .ok (.state ⟨mode⟩) ∧ (standing.changed ∨ standing.found = some mode)
    | _ => ¬ standing.changed

namespace Engine

open Blocklist.Action

variable {config : Config} {complete : List Domain → Prop} {asked : Option Mode}
variable {standing : Standing} {scene : Scene} {mode : Mode}

/-! ## The list and the figures -/

theorem returns_now :
    Action.now.Returns (modeProtocol config complete asked) standing fun _ => True :=
  Returns.call trivial fun _ _ moves => ⟨moves, fun _ _ => trivial⟩

theorem returns_readCache : readCache.Returns (modeProtocol config complete asked) standing
    fun cache => ∀ found, cache = some found → complete found.domains := by
  have read : (Action.readEntry filterCacheKey).Returns (modeProtocol config complete asked)
      standing fun value => ∀ entry cache, value = some entry →
        FilterCache.ofJson entry = .ok cache → complete cache.domains := by
    refine Returns.call (by exact trivial) fun reply after moves => ?_
    obtain ⟨same, decodes⟩ :=
      (modeProtocol.moves_readEntry_of_ne filterCacheKey_ne_stateKey).mp moves
    refine ⟨same, ?_⟩
    rintro value rfl entry cache rfl
    exact decodes rfl entry cache rfl
  refine read.bind ?_
  rintro (_ | entry) decodes
  · exact Returns.pure nofun
  · refine Returns.pure fun found decoded => decodes entry found rfl ?_
    exact Performs.eq_ok_of_toOption decoded

theorem returns_refreshCache : refreshCache.Returns (modeProtocol config complete asked) standing
    fun cache => complete cache.domains := by
  have fetched : Action.fetchList.Returns (modeProtocol config complete asked) standing
      fun text => complete (FilterList.domains text) :=
    Returns.call trivial fun reply after moves => moves
  refine fetched.bind fun text given => ?_
  refine returns_now.bind fun now _ => ?_
  have written : (Action.writeEntry filterCacheKey
      (FilterCache.mk now (FilterList.domains text)).toJson).Returns
      (modeProtocol config complete asked) standing fun _ => True := by
    refine Returns.call ⟨?_, nofun⟩ fun reply after moves => ?_
    · rintro - cache decoded
      rw [FilterCache.ofJson_toJson] at decoded
      rw [← Except.ok.inj decoded]
      exact given
    · have same := (modeProtocol.moves_writeEntry_of_ne filterCacheKey_ne_stateKey).mp moves
      exact ⟨same, fun _ _ => trivial⟩
  exact written.bind fun _ _ => Returns.pure given

theorem returns_currentDomains (config' : Config) :
    (currentDomains config').Returns (modeProtocol config complete asked) standing complete := by
  have refreshed : Returns (modeProtocol config complete asked) standing complete
      (do return (← refreshCache).domains) :=
    returns_refreshCache.bind fun cache given => Returns.pure given
  refine returns_readCache.bind ?_
  rintro (_ | cache) given
  · exact refreshed
  · have fresh : (cacheIsFresh config' cache).Returns (modeProtocol config complete asked) standing
        fun _ => True :=
      returns_now.bind fun _ _ => Returns.pure trivial
    refine fresh.bind ?_
    rintro (_ | _) -
    · exact refreshed
    · exact Returns.pure (given cache rfl)

theorem returns_domainsFor (config' : Config) (mode : Mode) :
    (domainsFor config' mode).Returns (modeProtocol config complete asked) standing
      fun domains => mode.usesFilterList = true → complete domains := by
  unfold domainsFor
  split
  · refine (returns_currentDomains config').mono fun outcome after ⟨same, given⟩ => ?_
    exact ⟨same, fun domains returned _ => given domains returned⟩
  · next unused => exact Returns.pure fun used => absurd used unused

theorem returns_rollSession (config' : Config) :
    (rollSession config').Returns (modeProtocol config complete asked) standing fun _ => True := by
  refine Returns.of_uses (uses_rollSession config') fun call concerns => ?_
  cases concerns with
  | write value =>
    refine ⟨⟨nofun, fun same => absurd same statsKey_ne_stateKey⟩, fun reply after moves => ?_⟩
    exact (modeProtocol.moves_writeEntry_of_ne statsKey_ne_stateKey).mp moves
  | reads reads =>
    cases reads with
    | count scope => exact ⟨trivial, fun reply after moves => moves⟩
    | read =>
      refine ⟨trivial, fun reply after moves => ?_⟩
      exact ((modeProtocol.moves_readEntry_of_ne statsKey_ne_stateKey).mp moves).1

/-! ## Under the mode lock -/

/-- The state that is read under the mode lock is the stored one. -/
theorem follows_currentState (held : standing.scene = some scene) :
    currentState.Follows (modeProtocol config complete asked) (fun outcome after =>
      (∃ error, outcome = .error error ∧ after = standing) ∨
        ∃ mode, outcome = .ok ⟨mode⟩ ∧ scene.stored = some mode ∧
          after = { standing with found := some mode }) standing := by
  rw [currentState_eq]
  refine Follows.call trivial fun reply after moves => ?_
  obtain ⟨rfl, stored⟩ := modeProtocol.moves_readEntry_stateKey.mp moves
  cases found : reply.bind stateOf with
  | error error => exact .inl ⟨error, rfl, rfl⟩
  | ok state => exact .inr ⟨state.mode, rfl, stored state scene found held, rfl⟩

/-- A synchronization under the mode lock removes exactly the active rules. -/
theorem follows_replaceActive (mode : Mode) (held : standing.scene = some scene) :
    (replaceActive config mode).Follows (modeProtocol config complete asked) (fun outcome after =>
      (∃ error, outcome = .error error ∧ after = standing) ∨
        ∃ report domains, outcome = .ok report ∧ (mode.usesFilterList = true → complete domains) ∧
          after = standing.replacing (config.compiler.rulesFor mode domains)) standing := by
  have ids : Action.activeIds.Returns (modeProtocol config complete asked) standing
      fun ids => ids = scene.rules.map (·.id) :=
    Returns.call trivial fun reply after ⟨same, active⟩ =>
      ⟨same, fun ids given => active ids scene given held⟩
  refine ids.bind_follows (fun error => .inl ⟨error, rfl, rfl⟩) ?_
  rintro _ rfl
  have compiled : (config.compiler.rulesFor mode <$> domainsFor config mode).Returns
      (modeProtocol config complete asked) standing fun rules =>
        ∃ domains, (mode.usesFilterList = true → complete domains) ∧
          rules = config.compiler.rulesFor mode domains := by
    rw [map_eq_pure_bind]
    exact (returns_domainsFor config mode).bind fun domains given =>
      Returns.pure ⟨domains, given, rfl⟩
  refine compiled.bind_follows (fun error => .inl ⟨error, rfl, rfl⟩) ?_
  rintro _ ⟨domains, given, rfl⟩
  have replaced : (Action.replaceRules (scene.rules.map (·.id))
      (config.compiler.rulesFor mode domains)).Follows (modeProtocol config complete asked)
      (fun outcome after => (∃ error, outcome = .error error ∧ after = standing) ∨
        outcome = .ok () ∧ after = standing.replacing (config.compiler.rulesFor mode domains))
      standing := by
    refine Follows.call ⟨scene, mode, domains, held, rfl, given, rfl⟩ fun reply after moves => ?_
    rcases moves with accepted | ⟨⟨error, refused⟩, same⟩
    · exact .inr accepted
    · exact .inl ⟨error, refused, same⟩
  refine replaced.bind ?_ ?_
  · rintro error after (⟨_, failed, same⟩ | ⟨succeeded, -⟩)
    · exact .inl ⟨error, rfl, same⟩
    · exact absurd succeeded nofun
  · rintro _ after (⟨_, failed, -⟩ | ⟨-, same⟩)
    · exact absurd failed nofun
    · exact Follows.pure (.inr ⟨_, domains, rfl, given, same⟩)

theorem follows_synchronize (mode : Mode) (held : standing.scene = some scene) :
    (synchronize config mode).Follows (modeProtocol config complete asked) (fun outcome after =>
      (∃ error, outcome = .error error ∧ after = standing) ∨
        ∃ report domains, outcome = .ok report ∧ (mode.usesFilterList = true → complete domains) ∧
          after = standing.replacing (config.compiler.rulesFor mode domains)) standing := by
  rw [synchronize_eq]
  refine Follows.holding trivial fun entered moves => ?_
  obtain rfl : entered = standing := moves
  refine (follows_replaceActive mode held).mono fun outcome left holds => ⟨trivial, ?_⟩
  intro after moves
  obtain rfl : after = left := moves
  exact holds

/-- The mode lock may be given back when the rules are settled. -/
theorem releases {post : Standing → Prop} (held : standing.scene = some scene)
    (settled : scene.IsSettled config complete) (holds : post { standing with scene := none }) :
    (modeProtocol config complete asked).Allows standing (.release .mode) ∧
      ∀ after, (modeProtocol config complete asked).Moves standing (.release .mode) () after →
        post after := by
  refine ⟨⟨scene, held, settled⟩, fun after moves => ?_⟩
  obtain rfl : after = { standing with scene := none } := moves
  exact holds

/-- The mode that was asked for may be stored in place of another one, once. -/
theorem follows_saveState {previous mode : Mode} (held : standing.scene = some scene)
    (stored : scene.stored = some previous) (found : standing.found = some previous)
    (unchanged : ¬ standing.changed) (differs : previous ≠ mode) :
    (saveState ⟨mode⟩).Follows (modeProtocol config complete (some mode))
      (fun outcome after => outcome = .ok () ∧ after = standing.storing (some ⟨mode⟩))
      standing := by
  refine Follows.call ⟨fun same => absurd same.symm filterCacheKey_ne_stateKey, fun _ => ?_⟩
    fun reply after moves => ?_
  · exact ⟨scene, previous, mode, held, found, stored, rfl, differs, unchanged, rfl⟩
  · have written := modeProtocol.moves_writeEntry_stateKey.mp moves
    rwa [State.ofJson_toJson] at written

theorem follows_announce (state : State) :
    Action.Follows (modeProtocol config complete asked)
      (fun outcome after => outcome = .ok state ∧ after = standing)
      (do Action.notifyActiveTab state; return state) standing := by
  have told : (Action.notifyActiveTab state).Follows (modeProtocol config complete asked)
      (fun outcome after => outcome = .ok () ∧ after = standing) standing :=
    Follows.call trivial fun reply after moves => ⟨rfl, moves⟩
  exact told.bind (fun _ _ ⟨failed, _⟩ => absurd failed nofun) fun _ _ ⟨_, same⟩ =>
    Follows.pure ⟨rfl, same⟩

/-- A change from the stored mode to another one leaves everything as it was, or ends with the
other mode stored and its rules active. -/
theorem follows_changeMode {previous mode : Mode} (held : standing.scene = some scene)
    (stored : scene.stored = some previous) (found : standing.found = some previous)
    (unchanged : ¬ standing.changed) (differs : previous ≠ mode) :
    (changeMode config previous mode).Follows (modeProtocol config complete (some mode))
      (fun outcome after => (∃ error, outcome = .error error ∧ after = standing) ∨
        outcome = .ok ⟨mode⟩ ∧ after.changed ∧ ∃ scene, after.scene = some scene ∧
          scene.IsSettled config complete) standing := by
  unfold changeMode
  rw [discard_bind]
  refine (follows_synchronize mode held).bind ?_ ?_
  · rintro error after (⟨_, failed, same⟩ | ⟨_, _, succeeded, -⟩)
    · exact .inl ⟨error, rfl, same⟩
    · exact absurd succeeded nofun
  rintro report applied (⟨_, failed, -⟩ | ⟨_, domains, -, given, rfl⟩)
  · exact absurd failed nofun
  have applied : (standing.replacing (config.compiler.rulesFor mode domains)).scene =
      some ⟨some previous, config.compiler.rulesFor mode domains, True⟩ := by
    simp only [Standing.replacing, held, stored, Option.map_some]
  have tried : (Action.outcome (saveState ⟨mode⟩)).Follows
      (modeProtocol config complete (some mode)) (fun outcome after => outcome = .ok (.ok ()) ∧
        after = (standing.replacing (config.compiler.rulesFor mode domains)).storing (some ⟨mode⟩))
      (standing.replacing (config.compiler.rulesFor mode domains)) := by
    apply Follows.outcome
    apply (follows_saveState applied rfl found unchanged differs).mono
    rintro outcome after ⟨rfl, rfl⟩
    exact ⟨rfl, rfl⟩
  refine tried.bind (fun _ _ ⟨failed, _⟩ => absurd failed nofun) ?_
  rintro written after ⟨succeeded, rfl⟩
  obtain rfl := Except.ok.inj succeeded
  refine (follows_announce ⟨mode⟩).mono ?_
  rintro outcome after ⟨rfl, rfl⟩
  refine .inr ⟨rfl, trivial, ⟨some mode, config.compiler.rulesFor mode domains, True⟩, ?_, ?_⟩
  · simp only [Standing.storing, applied, Option.map_some]
  · exact fun _ => ⟨mode, domains, rfl, given, rfl⟩

/-! ## The triggers -/

/-- What is done under the mode lock with the mode that is read there is done with the stored mode,
while the rules are settled. -/
theorem follows_holding_currentState {α : Type} {next : State → Action α}
    {post : Except EngineError α → Standing → Prop} (outside : standing.scene = none)
    (failed : ∀ error, post (.error error) { standing with scene := none })
    (each : ∀ scene mode, scene.IsSettled config complete → scene.stored = some mode →
      (next ⟨mode⟩).Follows (modeProtocol config complete asked) (fun outcome left =>
        (modeProtocol config complete asked).Allows left (.release .mode) ∧ ∀ after,
          (modeProtocol config complete asked).Moves left (.release .mode) () after →
            post outcome after)
        { standing with scene := some scene, found := some mode }) :
    (Action.holding .mode (currentState >>= next)).Follows (modeProtocol config complete asked) post
      standing := by
  refine Follows.holding outside ?_
  rintro entered ⟨scene, settled, rfl⟩
  refine Follows.bind (follows_currentState rfl) ?_ ?_
  · rintro error after (⟨_, -, rfl⟩ | ⟨_, succeeded, -⟩)
    · exact releases rfl settled (failed error)
    · exact absurd succeeded nofun
  rintro ⟨mode⟩ read (⟨_, failed, -⟩ | ⟨_, succeeded, stored, rfl⟩)
  · exact absurd failed nofun
  obtain rfl := State.mk.inj (Except.ok.inj succeeded)
  exact each scene mode settled stored

theorem follows_setMode (mode : Mode) (outside : standing.scene = none)
    (unchanged : ¬ standing.changed) :
    (setMode config mode).Follows (modeProtocol config complete (some mode))
      (fun outcome after => after.scene = none ∧
        ((∃ error, outcome = .error error ∧ ¬ after.changed) ∨
          outcome = .ok ⟨mode⟩ ∧ (after.changed ∨ after.found = some mode))) standing := by
  rw [setMode_eq]
  refine follows_holding_currentState outside (fun error => ⟨rfl, .inl ⟨error, rfl, unchanged⟩⟩) ?_
  intro scene previous settled stored
  by_cases same : previous = mode
  · subst same
    rw [if_pos rfl]
    apply Follows.pure
    apply releases rfl settled
    exact ⟨rfl, .inr ⟨rfl, .inr rfl⟩⟩
  · rw [if_neg same]
    apply Follows.mono
    · exact follows_changeMode rfl stored rfl unchanged same
    rintro outcome after (⟨error, rfl, rfl⟩ | ⟨rfl, changed, scene, held, settled⟩)
    · apply releases rfl settled
      exact ⟨rfl, .inl ⟨error, rfl, unchanged⟩⟩
    · apply releases held settled
      exact ⟨rfl, .inr ⟨rfl, .inl changed⟩⟩

theorem follows_applyStored (outside : standing.scene = none) (unchanged : ¬ standing.changed) :
    (applyStored config).Follows (modeProtocol config complete asked)
      (fun _ after => after.scene = none ∧ ¬ after.changed) standing := by
  refine follows_holding_currentState outside (fun _ => ⟨rfl, unchanged⟩) ?_
  intro scene mode settled stored
  refine (follows_synchronize mode rfl).mono ?_
  rintro outcome after (⟨error, rfl, rfl⟩ | ⟨report, domains, rfl, given, rfl⟩)
  · apply releases rfl settled
    exact ⟨rfl, unchanged⟩
  · apply releases rfl
    · exact fun _ => ⟨mode, domains, stored, given, rfl⟩
    · exact ⟨rfl, unchanged⟩

/-- Every trigger follows the protocol, as long as it has stored nothing yet. -/
theorem follows_trigger (trigger : Trigger) (outside : standing.scene = none)
    (unchanged : ¬ standing.changed) :
    (trigger.action config).Follows (modeProtocol config complete trigger.mode?) trigger.Concludes
      standing := by
  have applies {α : Type} {first : Action α} {good : α → Prop}
      (front : first.Returns (modeProtocol config complete none) standing good) :
      Action.Follows (modeProtocol config complete none)
        (fun _ after => after.scene = none ∧ ¬ after.changed)
        (discard first >>= fun _ => applyStored config) standing := by
    rw [discard_bind]
    exact front.bind_follows (fun error => ⟨outside, unchanged⟩) fun _ _ =>
      follows_applyStored outside unchanged
  cases trigger with
  | setMode mode =>
    refine Follows.map ((follows_setMode mode outside unchanged).mono ?_)
    rintro outcome after ⟨left, ⟨error, rfl, kept⟩ | ⟨rfl, done⟩⟩
    · exact ⟨left, .inl ⟨error, rfl, kept⟩⟩
    · exact ⟨left, .inr ⟨rfl, done⟩⟩
  | installed => exact Follows.map (applies returns_refreshCache)
  | refresh => exact Follows.map (applies returns_refreshCache)
  | startup => exact Follows.map (applies (returns_rollSession config))

end Engine

end Blocklist
