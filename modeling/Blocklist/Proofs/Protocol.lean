import Blocklist.Proofs.Confinement

/-!
# Programs that keep to a protocol

A task that is suspended at its calls cannot tell what others do meanwhile. A protocol says what it
may rely on: in each state, which calls it may make, and which replies and states can follow. A
program that follows a protocol makes only calls that are allowed, whatever replies the protocol
admits, and ends as its postcondition says. The rules below take a program apart by its own shape,
like those for runs; `Action.Returns` is the common case of an action that keeps its state.
-/

namespace Blocklist

/-- What a task may do, and what it may rely on, in each state of its own. -/
structure Protocol (σ : Type) where
  /-- The calls that may be made. -/
  Allows : σ → Call → Prop
  /-- The replies that can come, and the states that they lead to. -/
  Moves : σ → (call : Call) → call.Reply → σ → Prop

variable {σ : Type} {protocol : Protocol σ} {state : σ}

namespace Program

variable {post weaker : α → σ → Prop} {program : Program α} {next : α → Program β}

/-- From a state on, a program makes only calls that are allowed, and ends with a postcondition. -/
def Follows (protocol : Protocol σ) (post : α → σ → Prop) : Program α → σ → Prop
  | done value, state => post value state
  | ask call next, state =>
    protocol.Allows state call ∧
      ∀ reply after, protocol.Moves state call reply after →
        (next reply).Follows protocol post after

theorem Follows.mono (follows : program.Follows protocol post state)
    (implies : ∀ value after, post value after → weaker value after) :
    program.Follows protocol weaker state := by
  induction program generalizing state with
  | done value => exact implies value state follows
  | ask call next ih =>
    refine ⟨follows.1, fun reply after moves => ?_⟩
    exact ih reply (follows.2 reply after moves)

theorem Follows.bind {post : β → σ → Prop}
    (front : program.Follows protocol (fun value => (next value).Follows protocol post) state) :
    (program.bind next).Follows protocol post state := by
  induction program generalizing state with
  | done value => exact front
  | ask call rest ih =>
    refine ⟨front.1, fun reply after moves => ?_⟩
    exact ih reply (front.2 reply after moves)

end Program

namespace Action

variable {action : Action α} {next : α → Action β}

def Follows (protocol : Protocol σ) (post : Except EngineError α → σ → Prop) (action : Action α)
    (state : σ) : Prop :=
  Program.Follows protocol post action.run state

namespace Follows

variable {post weaker : Except EngineError α → σ → Prop}

theorem mono (follows : action.Follows protocol post state)
    (implies : ∀ outcome after, post outcome after → weaker outcome after) :
    action.Follows protocol weaker state :=
  Program.Follows.mono follows implies

theorem pure {value : α} (holds : post (.ok value) state) :
    Follows protocol post (pure value) state := holds

theorem call {call : Call} {finish : call.Reply → Except EngineError α}
    (allows : protocol.Allows state call)
    (holds : ∀ reply after, protocol.Moves state call reply after → post (finish reply) after) :
    Follows protocol post (.mk (.ask call fun reply => .done (finish reply))) state :=
  ⟨allows, holds⟩

/-- A bind fails where its first part fails, or goes on to its second part. -/
theorem bind {middle : Except EngineError α → σ → Prop} {post : Except EngineError β → σ → Prop}
    (front : action.Follows protocol middle state)
    (fails : ∀ error after, middle (.error error) after → post (.error error) after)
    (goesOn : ∀ value after, middle (.ok value) after → (next value).Follows protocol post after) :
    (action >>= next).Follows protocol post state := by
  refine Program.Follows.bind (Program.Follows.mono front ?_)
  rintro (error | value) after holds
  · exact fails error after holds
  · exact goesOn value after holds

theorem map {f : α → β} {post : Except EngineError β → σ → Prop}
    (follows : action.Follows protocol (fun outcome => post (outcome.map f)) state) :
    (f <$> action).Follows protocol post state := by
  rw [map_eq_pure_bind]
  exact follows.bind (fun _ _ holds => holds) fun _ _ holds => holds

theorem outcome {post : Except EngineError (Except EngineError α) → σ → Prop}
    (follows : action.Follows protocol (fun outcome => post (.ok outcome)) state) :
    (Action.outcome action).Follows protocol post state :=
  Program.Follows.bind follows

theorem holding {lock : Lock} (acquires : protocol.Allows state (.acquire lock))
    (holds : ∀ entered, protocol.Moves state (.acquire lock) () entered →
      action.Follows protocol (fun outcome left => protocol.Allows left (.release lock) ∧
        ∀ after, protocol.Moves left (.release lock) () after → post outcome after) entered) :
    (Action.holding lock action).Follows protocol post state := by
  refine ⟨acquires, fun _ entered moves => Program.Follows.bind ?_⟩
  refine (holds entered moves).mono fun outcome left released => ⟨released.1, ?_⟩
  exact fun _ after moves => released.2 after moves

end Follows

/-- An action that keeps the state it starts from, and returns only values of some kind. -/
def Returns (protocol : Protocol σ) (state : σ) (good : α → Prop) (action : Action α) : Prop :=
  action.Follows protocol
    (fun outcome after => after = state ∧ ∀ value, outcome = .ok value → good value) state

namespace Returns

variable {good : α → Prop} {better : β → Prop}

theorem pure {value : α} (holds : good value) :
    Returns protocol state good (pure value) :=
  ⟨rfl, fun _ same => Except.ok.inj same ▸ holds⟩

theorem bind (front : action.Returns protocol state good)
    (back : ∀ value, good value → (next value).Returns protocol state better) :
    (action >>= next).Returns protocol state better := by
  refine Follows.bind front ?_ ?_
  · rintro error after ⟨rfl, -⟩
    exact ⟨rfl, nofun⟩
  · rintro value after ⟨rfl, holds⟩
    exact back value (holds value rfl)

theorem bind_follows {post : Except EngineError β → σ → Prop}
    (front : action.Returns protocol state good) (fails : ∀ error, post (.error error) state)
    (goesOn : ∀ value, good value → (next value).Follows protocol post state) :
    (action >>= next).Follows protocol post state := by
  refine Follows.bind front ?_ ?_
  · rintro error after ⟨rfl, -⟩
    exact fails error
  · rintro value after ⟨rfl, holds⟩
    exact goesOn value (holds value rfl)

/-- A single call that keeps the state. -/
theorem call {call : Call} {finish : call.Reply → Except EngineError α}
    (allows : protocol.Allows state call)
    (holds : ∀ reply after, protocol.Moves state call reply after →
      after = state ∧ ∀ value, finish reply = .ok value → good value) :
    Returns protocol state good (.mk (.ask call fun reply => .done (finish reply))) :=
  Follows.call allows holds

/-- An action all of whose calls keep the state. -/
theorem of_uses {allowed : Call → Prop} (uses : action.Uses allowed)
    (keeps : ∀ call, allowed call → protocol.Allows state call ∧
      ∀ reply after, protocol.Moves state call reply after → after = state) :
    action.Returns protocol state fun _ => True := by
  have program {β : Type} (program : Program β) (uses : program.Uses allowed) :
      program.Follows protocol (fun _ after => after = state) state := by
    induction program with
    | done value => rfl
    | ask call next ih =>
      obtain ⟨allows, stays⟩ := keeps call uses.1
      refine ⟨allows, fun reply after moves => ?_⟩
      rw [stays reply after moves]
      exact ih reply (uses.2 reply)
  exact (program action.run uses).mono fun _ _ same => ⟨same, fun _ _ => trivial⟩

end Returns

end Action

end Blocklist
