import Blocklist.Cli.Arguments
import Blocklist.Mode

/-!
# Tasks

What can be asked for on the command line. Each task is a command with a form of its own; the
options for the configuration and for more output stand before the command or behind it, and the
configuration named behind it wins.
-/

namespace Blocklist.Cli

/-- What to do. Lists, rules and stores are named by their files. -/
inductive Task where
  /-- Extract the domains that a list blocks. -/
  | parse (input : String) (output : Option String)
  /-- Compile a list into the rules of a mode. -/
  | compile (input : String) (mode : Mode) (output : String)
  /-- Download the configured list. -/
  | fetch (output : Option String)
  /-- Fetch the list and store it. -/
  | refresh (store : String) (input : Option String)
  /-- Show what a store holds. -/
  | status (store : String)
  /-- Send one message to the engine. -/
  | message (store : String) (input : Option String) (message : String)
deriving DecidableEq, Repr

namespace Task

/-- The options of every command. -/
def commonFlags : List Flag := [.text "config" 'c', .switch "verbose" 'v']

def inputFlag : Flag := .text "input" 'i'

def outputFlag : Flag := .text "output" 'o'

def storeFlag : Flag := .text "store" 's'

def modeFlag : Flag := ⟨"mode", 'm', some fun name => (Mode.ofString name).isOk⟩

/-- A command: what it takes, and the task that it stands for. -/
structure Command where
  name : String
  flags : List Flag
  operands : Nat := 0
  task : Given → Except Refusal Task

/-- The mode named by an option, or the default one. -/
def modeOf (given : Given) : Except Refusal Mode :=
  match given.value? "mode" with
  | none => .ok .low
  | some name => (Mode.ofString name).mapError fun _ => .usage

def commands : List Command := [
  { name := "parse"
    flags := [inputFlag, outputFlag]
    task := fun given => do return .parse (← given.require "input") (given.value? "output") },
  { name := "compile"
    flags := [inputFlag, modeFlag, outputFlag]
    task := fun given => do
      return .compile (← given.require "input") (← modeOf given)
        ((given.value? "output").getD "rules.json") },
  { name := "fetch"
    flags := [outputFlag]
    task := fun given => return .fetch (given.value? "output") },
  { name := "refresh"
    flags := [storeFlag, inputFlag]
    task := fun given => do return .refresh (← given.require "store") (given.value? "input") },
  { name := "status"
    flags := [storeFlag]
    task := fun given => do return .status (← given.require "store") },
  { name := "message"
    flags := [storeFlag, inputFlag]
    operands := 1
    task := fun given => do
      let store ← given.require "store"
      match given.operands with
      | [text] => return .message store (given.value? "input") text
      | _ => throw .usage }]

def helpName : String := "help"

/-- The form of the arguments before the command. -/
def outerForm : Form :=
  { flags := commonFlags, commands := helpName :: commands.map (·.name) }

/-- What a request for help is answered: help about at most one command. -/
def helpRefusal : List String → Refusal
  | [] => .help
  | [name] => if outerForm.commands.contains name then .help else .usage
  | _ => .usage

end Task

/-- A task and the file of the configuration to carry it out with. -/
structure Invocation where
  config : Option String
  task : Task
deriving DecidableEq, Repr

namespace Invocation

def ofArguments (arguments : List String) : Except Refusal Invocation := do
  let (outer, met) ← Task.outerForm.scan {} none arguments
  match met with
  | none => throw .usage
  | some (name, rest) =>
    if name = Task.helpName then throw (Task.helpRefusal rest)
    match Task.commands.find? (·.name == name) with
    | none => throw .usage
    | some command =>
      let form : Form := ⟨command.flags ++ Task.commonFlags, command.operands, []⟩
      let (given, _) ← form.scan {} none rest
      let task ← command.task given
      return ⟨(given.value? "config").or (outer.value? "config"), task⟩

example : (ofArguments ["-vc", "a", "parse", "--input=x", "-c", "b"]).toOption =
    some ⟨some "b", .parse "x" none⟩ := by decide +kernel

example : (ofArguments ["compile", "-ix", "-m", "turbo"]).toOption = none := by decide +kernel

end Invocation

end Blocklist.Cli
