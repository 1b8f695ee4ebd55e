import Blocklist.EngineError
import Blocklist.Message
import Blocklist.Surface

/-!
# Programs of the engine

An operation of the engine is a program: a value that either is finished, or makes one call to the
host and goes on with the reply. What a call does is the host's business; a program can be run to
its end against one host, or step by step beside other programs. `interpret` runs it in any monad
that answers calls.
-/

namespace Blocklist

/-- A lock that an operation holds from one call to a later one. -/
inductive Lock where
  /-- Held while the stored mode is compared, applied and stored again. -/
  | mode
  /-- Held while the active rules are read and replaced. -/
  | synchronization
deriving DecidableEq, Repr

/-- What the engine asks of its host. -/
inductive Call where
  | fetchList
  | readEntry (key : String)
  | writeEntry (key : String) (value : Json)
  | activeIds
  | replaceRules (removed : List RuleId) (added : List Rule)
  | matchCount (scope : MatchScope)
  | notifyTab (tab : TabId) (state : State)
  | notifyActiveTab (state : State)
  | now
  | acquire (lock : Lock)
  | release (lock : Lock)

namespace Call

/-- The type of a call's reply. A notifier's error is a text of its own. -/
@[reducible] def Reply : Call → Type
  | fetchList => Except EngineError String
  | readEntry _ => Except EngineError (Option Json)
  | writeEntry _ _ => Except EngineError Unit
  | activeIds => Except EngineError (List RuleId)
  | replaceRules _ _ => Except EngineError Unit
  | matchCount _ => Except EngineError UInt64
  | notifyTab _ _ => Except String Unit
  | notifyActiveTab _ => Except String Unit
  | now => Int64
  | acquire _ => Unit
  | release _ => Unit

end Call

/-- A computation that asks its host for what it cannot compute. -/
inductive Program (α : Type) where
  | done (value : α)
  | ask (call : Call) (next : call.Reply → Program α)

namespace Program

/-- Goes on with a further program after the first is done. -/
def bind (program : Program α) (next : α → Program β) : Program β :=
  match program with
  | done value => next value
  | ask call rest => ask call fun reply => (rest reply).bind next

instance : Monad Program where
  pure := done
  bind := bind

@[simp] theorem bind_ask (call : Call) (rest : call.Reply → Program α) (next : α → Program β) :
    (ask call rest).bind next = ask call fun reply => (rest reply).bind next := rfl

theorem bind_pure (program : Program α) : program.bind done = program := by
  induction program with
  | done value => rfl
  | ask call rest ih => simp only [bind_ask, ih]

theorem bind_assoc (program : Program α) (first : α → Program β) (second : β → Program γ) :
    (program.bind first).bind second = program.bind fun value => (first value).bind second := by
  induction program with
  | done value => rfl
  | ask call rest ih => simp only [bind_ask, ih]

instance : LawfulMonad Program :=
  LawfulMonad.mk' Program bind_pure (fun _ _ => rfl) bind_assoc

/-- Runs a program in a monad that answers its calls. -/
def interpret [Monad m] (answer : (call : Call) → m call.Reply) : Program α → m α
  | done value => pure value
  | ask call next => do
    let reply ← answer call
    (next reply).interpret answer

end Program

/-- A program that may fail with an error of the engine. -/
abbrev Action := ExceptT EngineError Program

namespace Action

def fetchList : Action String := .mk (.ask .fetchList .done)

def readEntry (key : String) : Action (Option Json) := .mk (.ask (.readEntry key) .done)

def writeEntry (key : String) (value : Json) : Action Unit :=
  .mk (.ask (.writeEntry key value) .done)

def activeIds : Action (List RuleId) := .mk (.ask .activeIds .done)

/-- Replaces rules, all or nothing. -/
def replaceRules (removed : List RuleId) (added : List Rule) : Action Unit :=
  .mk (.ask (.replaceRules removed added) .done)

def matchCount (scope : MatchScope) : Action UInt64 := .mk (.ask (.matchCount scope) .done)

/-- Tells a tab the state. Nobody waits for the tab, so its answer does not matter. -/
def notifyTab (tab : TabId) (state : State) : Action Unit :=
  .mk (.ask (.notifyTab tab state) fun _ => .done (.ok ()))

/-- Tells the active tab the state, whatever it answers. -/
def notifyActiveTab (state : State) : Action Unit :=
  .mk (.ask (.notifyActiveTab state) fun _ => .done (.ok ()))

/-- The time in milliseconds. -/
def now : Action Int64 := .mk (.ask .now fun time => .done (.ok time))

/-- A decoder's answer for a stored value; one that does not decode is a storage error. -/
def stored (answer : Json.Decoded α) : Action α :=
  match answer with
  | .ok value => pure value
  | .error cause => throw (.storage cause.message)

/-- The outcome of an action as a value, an error included. -/
def outcome (action : Action α) : Action (Except EngineError α) := .mk (.ok <$> action.run)

/-- An action with a lock held around it, whether it fails or not. -/
def holding (lock : Lock) (action : Action α) : Action α :=
  .mk <| .ask (.acquire lock) fun _ => do
    let result ← action.run
    .ask (.release lock) fun _ => .done result

end Action

end Blocklist
