/-!
# Command-line arguments

An argument list is scanned against a form: the options a command understands and the number of
operands it takes. An option has a long name and a letter; switches may be written together behind
one dash, and a value follows its option after an equals sign, right after the letter, or as the
next argument, which then begins with no dash unless it is nothing but one. After two dashes all
arguments are operands. Scanning ends early at the name of a command.
-/

namespace Blocklist.Cli

structure Flag where
  name : String
  letter : Char
  /-- Which values the option accepts; without, the option is a switch. -/
  accepts : Option (String → Bool)

namespace Flag

/-- An option without a value. -/
def switch (name : String) (letter : Char) : Flag := ⟨name, letter, none⟩

/-- An option with any value. -/
def text (name : String) (letter : Char) : Flag := ⟨name, letter, some fun _ => true⟩

end Flag

/-- What a command takes. -/
structure Form where
  flags : List Flag
  /-- The greatest number of operands. -/
  operands : Nat := 0
  /-- The names of commands that take the arguments behind them. -/
  commands : List String := []

/-- Why arguments are not carried out. -/
inductive Refusal where
  /-- The arguments do not fit the form. -/
  | usage
  /-- The arguments ask for help. -/
  | help
deriving DecidableEq, Repr

structure Given where
  /-- The options given, each with its value. -/
  options : List (String × Option String) := []
  operands : List String := []
deriving DecidableEq, Repr

namespace Given

def value? (given : Given) (name : String) : Option String :=
  (given.options.lookup name).join

/-- The value of an option that must not be missing. -/
def require (given : Given) (name : String) : Except Refusal String :=
  match given.value? name with
  | some value => .ok value
  | none => .error .usage

/-- One more option. No option is given twice. -/
def addOption (given : Given) (flag : Flag) (value : Option String) : Except Refusal Given :=
  let accepted := match flag.accepts, value with
    | some accepts, some value => accepts value
    | none, none => true
    | _, _ => false
  if accepted && (given.options.lookup flag.name).isNone then
    .ok { given with options := given.options ++ [(flag.name, value)] }
  else .error .usage

/-- More operands, if the form takes that many. -/
def addOperands (given : Given) (form : Form) (operands : List String) : Except Refusal Given :=
  let operands := given.operands ++ operands
  if operands.length ≤ form.operands then .ok { given with operands } else .error .usage

end Given

namespace Form

/-- Whether an argument is read as options. A dash alone is an operand or a value. -/
def isDashed (argument : String) : Bool :=
  match argument.toList with
  | '-' :: _ :: _ => true
  | _ => false

/-- Scans the options behind one dash. The answer holds the option that the next argument is the
value of. -/
def scanLetters (form : Form) (given : Given) :
    List Char → Except Refusal (Given × Option Flag)
  | [] => .ok (given, none)
  | letter :: rest => do
    match form.flags.find? (·.letter == letter) with
    | none => throw (if letter = 'h' then .help else .usage)
    | some flag =>
      if flag.accepts.isNone then form.scanLetters (← given.addOption flag none) rest
      else match rest with
        | [] => return (given, some flag)
        | '=' :: value => return (← given.addOption flag (some (String.ofList value)), none)
        | value => return (← given.addOption flag (some (String.ofList value)), none)

/-- Scans the option behind two dashes. -/
def scanName (form : Form) (given : Given) (argument : List Char) :
    Except Refusal (Given × Option Flag) := do
  let (name, value) := argument.span (· != '=')
  let value := if value.isEmpty then none else some (String.ofList value.tail)
  match form.flags.find? (·.name == String.ofList name) with
  | none => throw (if argument = "help".toList then .help else .usage)
  | some flag =>
    if flag.accepts.isSome && value.isNone then return (given, some flag)
    else return (← given.addOption flag value, none)

/-- Scans arguments, the first as the value of `pending` if there is such an option. The answer
holds the command that was met and the arguments behind it. -/
def scan (form : Form) (given : Given) (pending : Option Flag) :
    List String → Except Refusal (Given × Option (String × List String))
  | [] => if pending.isSome then .error .usage else .ok (given, none)
  | argument :: rest => do
    match pending with
    | some flag =>
      if isDashed argument then throw .usage
      form.scan (← given.addOption flag (some argument)) none rest
    | none =>
      if form.commands.contains argument then return (given, some (argument, rest))
      match argument.toList with
      | ['-', '-'] => return (← given.addOperands form rest, none)
      | '-' :: '-' :: name =>
        let (given, pending) ← form.scanName given name
        form.scan given pending rest
      | '-' :: letter :: letters =>
        let (given, pending) ← form.scanLetters given (letter :: letters)
        form.scan given pending rest
      | _ => form.scan (← given.addOperands form [argument]) none rest

end Form

end Blocklist.Cli
