import Blocklist.Engine.Controller
import Blocklist.Proofs.Answers

/-!
# What a program may ask for

Some facts about a program hold on every host, because they are about the calls that it can make at
all. `Uses` bounds these calls, whatever the replies. A program that is confined to some keys makes
no replacement and writes no other entry, so no run of it touches the rules or any other entry. The
operations on the cached list and on the figures ask for nothing but these.
-/

namespace Blocklist

namespace Call

/-- A call that writes an entry under one of some keys, or none. -/
def WritesOnly (keys : List String) : Call → Prop
  | writeEntry key _ => key ∈ keys
  | _ => True

/-- A call that writes under some keys only, and replaces no rules. -/
def IsConfinedTo (keys : List String) : Call → Prop
  | replaceRules _ _ => False
  | call => call.WritesOnly keys

def KeepsMode (call : Call) : Prop := ∀ value, call ≠ .writeEntry stateKey value

theorem IsConfinedTo.writesOnly {keys : List String} {call : Call}
    (confined : call.IsConfinedTo keys) : call.WritesOnly keys := by
  cases call with
  | replaceRules => exact confined.elim
  | _ => exact confined

theorem IsConfinedTo.ne_replaceRules {keys : List String} {call : Call}
    (confined : call.IsConfinedTo keys) (removed : List RuleId) (added : List Rule) :
    call ≠ .replaceRules removed added := by
  rintro rfl
  exact confined

end Call

namespace Moment

/-- A replacement that goes through. -/
inductive Replaces : Moment → Prop where
  | intro {host : Host} {removed : List RuleId} {added : List Rule}
      (accepted : (Moment.mk host (.replaceRules removed added)).reply = .ok ()) :
      Replaces ⟨host, .replaceRules removed added⟩

instance decidableReplaces : (moment : Moment) → Decidable moment.Replaces
  | ⟨host, .replaceRules removed added⟩ =>
    match reply : (Moment.mk host (.replaceRules removed added)).reply with
    | .ok () => isTrue ⟨reply⟩
    | .error _ => isFalse fun ⟨accepted⟩ => absurd (reply.symm.trans accepted) nofun
  | ⟨_, .fetchList⟩ | ⟨_, .readEntry _⟩ | ⟨_, .writeEntry _ _⟩ | ⟨_, .activeIds⟩
  | ⟨_, .matchCount _⟩ | ⟨_, .notifyTab _ _⟩ | ⟨_, .notifyActiveTab _⟩ | ⟨_, .now⟩
  | ⟨_, .acquire _⟩ | ⟨_, .release _⟩ => isFalse nofun

theorem not_replaces {keys : List String} {moment : Moment}
    (confined : moment.call.IsConfinedTo keys) : ¬ moment.Replaces := by
  rintro ⟨accepted⟩
  exact confined

end Moment

/-! ## Bounds on the calls of a program -/

namespace Program

variable {allowed more : Call → Prop} {program : Program α} {next : α → Program β}

/-- Every call that a program can make satisfies a condition. -/
def Uses (allowed : Call → Prop) : Program α → Prop
  | done _ => True
  | ask call next => allowed call ∧ ∀ reply, (next reply).Uses allowed

theorem Uses.bind (front : program.Uses allowed) (back : ∀ value, (next value).Uses allowed) :
    (program.bind next).Uses allowed := by
  induction program with
  | done value => exact back value
  | ask call rest ih => exact ⟨front.1, fun reply => ih reply (front.2 reply)⟩

theorem Uses.mono (uses : program.Uses allowed) (implies : ∀ call, allowed call → more call) :
    program.Uses more := by
  induction program with
  | done value => trivial
  | ask call rest ih => exact ⟨implies call uses.1, fun reply => ih reply (uses.2 reply)⟩

theorem Uses.any (program : Program α) : program.Uses fun _ => True := by
  induction program with
  | done value => trivial
  | ask call rest ih => exact ⟨trivial, ih⟩

/-- A run makes no other calls. -/
theorem Runs.forall_of_uses {host later : Host} {moments : List Moment} {value : α}
    (runs : program.Runs host moments value later) (uses : program.Uses allowed) :
    ∀ moment ∈ moments, allowed moment.call := by
  induction runs with
  | done => simp
  | ask _ ih => exact List.forall_mem_cons.mpr ⟨uses.1, ih (uses.2 _)⟩

end Program

namespace Action

variable {allowed more : Call → Prop} {action : Action α} {next : α → Action β}

def Uses (allowed : Call → Prop) (action : Action α) : Prop := Program.Uses allowed action.run

namespace Uses

theorem pure (value : α) : Uses allowed (pure value) := trivial

theorem throw (error : EngineError) : Uses allowed (throw error : Action α) := trivial

theorem call {call : Call} {finish : call.Reply → Except EngineError α} (may : allowed call) :
    Uses allowed (.mk (.ask call fun reply => .done (finish reply))) :=
  ⟨may, fun _ => trivial⟩

theorem bind (front : action.Uses allowed) (back : ∀ value, (next value).Uses allowed) :
    (action >>= next).Uses allowed := by
  refine Program.Uses.bind front ?_
  rintro (error | value)
  · trivial
  · exact back value

theorem map {f : α → β} (uses : action.Uses allowed) : (f <$> action).Uses allowed := by
  rw [map_eq_pure_bind]
  exact uses.bind fun value => pure (f value)

theorem outcome (uses : action.Uses allowed) : (Action.outcome action).Uses allowed :=
  Program.Uses.bind uses fun _ => trivial

theorem holding {lock : Lock} (acquire : allowed (.acquire lock))
    (release : allowed (.release lock)) (uses : action.Uses allowed) :
    (Action.holding lock action).Uses allowed :=
  ⟨acquire, fun _ => Program.Uses.bind uses fun _ => ⟨release, fun _ => trivial⟩⟩

theorem mono (uses : action.Uses allowed) (implies : ∀ call, allowed call → more call) :
    action.Uses more :=
  Program.Uses.mono uses implies

/-- A value that decodes or does not takes no call. -/
theorem stored (answer : Json.Decoded α) : Uses allowed (Action.stored answer) := by
  cases answer with
  | ok value => exact pure value
  | error cause => exact throw _

end Uses

def IsConfinedTo (keys : List String) (action : Action α) : Prop :=
  action.Uses (Call.IsConfinedTo keys)

namespace Performs

variable {keys : List String} {host later : Host} {moments : List Moment}
variable {outcome : Except EngineError α}

theorem forall_of_uses (performs : action.Performs host moments outcome later)
    (uses : action.Uses allowed) : ∀ moment ∈ moments, allowed moment.call :=
  Program.Runs.forall_of_uses performs uses

/-- An action without a replacement leaves the surface as it was. -/
theorem surface_eq (performs : action.Performs host moments outcome later)
    (confined : action.IsConfinedTo keys) : later.surface = host.surface := by
  have each := performs.forall_of_uses confined
  refine Program.Runs.keeps (fun before after => after.surface = before.surface) (fun _ => rfl)
    (fun first second => second.trans first) performs ?_
  intro moment member
  exact Moment.later_surface (each moment member).ne_replaceRules

theorem not_replaces (performs : action.Performs host moments outcome later)
    (confined : action.IsConfinedTo keys) : ∀ moment ∈ moments, ¬ moment.Replaces :=
  fun moment member => Moment.not_replaces (performs.forall_of_uses confined moment member)

/-- An action keeps the entries under all keys that it never writes. -/
theorem entry_eq (performs : action.Performs host moments outcome later)
    (writes : action.Uses (Call.WritesOnly keys)) (sound : ∀ moment ∈ moments, moment.IsSound)
    {key : String} (other : key ∉ keys) : later.entry key = host.entry key := by
  have each := performs.forall_of_uses writes
  refine Program.Runs.entry_eq performs ?_
  intro moment member
  refine Moment.later_entry (sound moment member) ?_
  intro value same
  have written := each moment member
  rw [same] at written
  exact other written

end Performs

end Action

/-! ## What the operations ask for -/

namespace Call

inductive ConcernsList : Call → Prop where
  | read : ConcernsList (.readEntry filterCacheKey)
  | write (cache : FilterCache) : ConcernsList (.writeEntry filterCacheKey cache.toJson)
  | fetch : ConcernsList .fetchList
  | time : ConcernsList .now

inductive ReadsFigures : Call → Prop where
  | count (scope : MatchScope) : ReadsFigures (.matchCount scope)
  | read : ReadsFigures (.readEntry statsKey)

/-- A call that reads a figure or stores the all-time ones. -/
inductive ConcernsFigures : Call → Prop where
  | reads {call : Call} (reads : call.ReadsFigures) : ConcernsFigures call
  | write (stats : Stats) : ConcernsFigures (.writeEntry statsKey (StoredStats.mk stats).toJson)

variable {call : Call}

theorem ConcernsList.isConfinedTo (concerns : call.ConcernsList) :
    call.IsConfinedTo [filterCacheKey] := by
  cases concerns with
  | write cache => exact List.mem_cons_self
  | _ => trivial

theorem ReadsFigures.isConfinedTo (reads : call.ReadsFigures) (keys : List String) :
    call.IsConfinedTo keys := by
  cases reads <;> trivial

theorem ConcernsFigures.isConfinedTo (concerns : call.ConcernsFigures) :
    call.IsConfinedTo [statsKey] := by
  cases concerns with
  | reads reads => exact reads.isConfinedTo _
  | write stats => exact List.mem_cons_self

end Call

namespace Engine

open Blocklist.Action

variable (config : Config) (keys : List String)

theorem uses_currentState : currentState.Uses (· = .readEntry stateKey) := by
  refine Uses.bind (Uses.bind (Uses.call rfl) ?_) fun _ => Uses.pure _
  rintro (_ | value)
  · exact Uses.pure none
  · exact (Uses.stored _).map

theorem uses_readCache : readCache.Uses Call.ConcernsList := by
  refine Uses.bind (Uses.call .read) ?_
  rintro (_ | value)
  · exact Uses.pure none
  · exact Uses.pure _

theorem uses_refreshCache : refreshCache.Uses Call.ConcernsList := by
  refine Uses.bind (Uses.call .fetch) fun text => ?_
  refine Uses.bind (Uses.call .time) fun time => ?_
  exact Uses.bind (Uses.call (.write _)) fun _ => Uses.pure _

theorem uses_currentDomains : (currentDomains config).Uses Call.ConcernsList := by
  have refreshed : Uses Call.ConcernsList (do return (← refreshCache).domains) :=
    uses_refreshCache.bind fun _ => Uses.pure _
  refine Uses.bind uses_readCache ?_
  rintro (_ | cache)
  · exact refreshed
  · refine Uses.bind (Uses.bind (Uses.call .time) fun _ => Uses.pure _) ?_
    rintro (_ | _)
    · exact refreshed
    · exact Uses.pure _

theorem uses_scopeStats (scope : MatchScope) :
    (scopeStats config scope).Uses Call.ReadsFigures :=
  Uses.bind (Uses.call (.count scope)) fun _ => Uses.pure _

theorem uses_allTimeStats : allTimeStats.Uses Call.ReadsFigures := by
  refine Uses.bind (Uses.bind (Uses.call .read) ?_) fun _ => Uses.pure _
  rintro (_ | value)
  · exact Uses.pure none
  · exact Uses.bind (Uses.stored _) fun _ => Uses.pure _

theorem uses_statsReport (tab : Option TabId) :
    (statsReport config tab).Uses Call.ReadsFigures := by
  have rest (currentTab : Stats) : Uses Call.ReadsFigures (do
      let session ← sessionStats config
      return (⟨currentTab, session, ← allTimeStats⟩ : StatsReport)) :=
    Uses.bind (uses_scopeStats config .session) fun session =>
      Uses.bind uses_allTimeStats fun _ => Uses.pure _
  unfold statsReport
  split
  · exact Uses.bind (uses_scopeStats config _) rest
  · exact rest .zero

theorem uses_rollSession : (rollSession config).Uses Call.ConcernsFigures := by
  refine Uses.bind ((uses_scopeStats config .session).mono fun _ => .reads) fun session => ?_
  refine Uses.bind (uses_allTimeStats.mono fun _ => .reads) fun before => ?_
  exact Uses.bind (Uses.call (.write _)) fun _ => Uses.pure _

theorem isConfinedTo_currentState : currentState.IsConfinedTo keys :=
  uses_currentState.mono fun _ read => read ▸ trivial

theorem isConfinedTo_notifyActiveTab (state : State) :
    (Action.notifyActiveTab state).IsConfinedTo keys :=
  Uses.call trivial

theorem isConfinedTo_saveState (state : State) : (saveState state).IsConfinedTo [stateKey] :=
  Uses.call List.mem_cons_self

theorem isConfinedTo_refreshCache : refreshCache.IsConfinedTo [filterCacheKey] :=
  uses_refreshCache.mono fun _ => Call.ConcernsList.isConfinedTo

theorem isConfinedTo_currentDomains : (currentDomains config).IsConfinedTo [filterCacheKey] :=
  (uses_currentDomains config).mono fun _ => Call.ConcernsList.isConfinedTo

theorem isConfinedTo_rollSession : (rollSession config).IsConfinedTo [statsKey] :=
  (uses_rollSession config).mono fun _ => Call.ConcernsFigures.isConfinedTo

theorem isConfinedTo_statsReport (tab : Option TabId) :
    (statsReport config tab).IsConfinedTo keys :=
  (uses_statsReport config tab).mono fun _ reads => reads.isConfinedTo keys

end Engine

end Blocklist
