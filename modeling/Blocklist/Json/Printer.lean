import Blocklist.Json.Basic
import Blocklist.Number.Shortest

/-!
# Printing JSON

One printer with two layouts. The compact one has no white space. The indented one puts every item
and member on a line of its own, two spaces deeper than its bracket, with a space after a colon;
empty arrays and objects stay `[]` and `{}`. Members are written in the order they have.
-/

namespace Blocklist.Json

/-- How a printed value is spread over lines. -/
inductive Layout where
  | compact
  | indented
deriving DecidableEq, Repr

namespace Layout

/-- What stands before an item that is `depth` brackets deep. -/
def lineBreak : Layout → Nat → String
  | compact, _ => ""
  | indented, depth => "\n" ++ String.ofList (List.replicate (2 * depth) ' ')

def colon : Layout → String
  | compact => ":"
  | indented => ": "

end Layout

/-- A control character by its code point, in four hexadecimal digits. -/
def escapeCode (c : Char) : List Char :=
  let digits := Nat.toDigits 16 c.toNat
  ['\\', 'u'] ++ List.replicate (4 - digits.length) '0' ++ digits

def escapeChar (c : Char) : List Char :=
  match c with
  | '"' => ['\\', '"']
  | '\\' => ['\\', '\\']
  | '\n' => ['\\', 'n']
  | '\r' => ['\\', 'r']
  | '\t' => ['\\', 't']
  | '\x08' => ['\\', 'b']
  | '\x0c' => ['\\', 'f']
  | c => if c.toNat < 0x20 then escapeCode c else [c]

def quote (text : String) : String :=
  String.ofList ('"' :: text.toList.flatMap escapeChar ++ ['"'])

mutual

/-- Appends a value that stands `depth` brackets deep. -/
def write (layout : Layout) (depth : Nat) : Json → String → String
  | .null, out => out ++ "null"
  | .bool true, out => out ++ "true"
  | .bool false, out => out ++ "false"
  | .int value, out => out ++ toString value
  | .float value, out => out ++ value.text
  | .str value, out => out ++ quote value
  | .arr [], out => out ++ "[]"
  | .arr (item :: items), out =>
    let out := write layout (depth + 1) item (out ++ "[" ++ layout.lineBreak (depth + 1))
    writeItems layout (depth + 1) items out ++ layout.lineBreak depth ++ "]"
  | .obj [], out => out ++ "\x7b\x7d"
  | .obj ((name, value) :: members), out =>
    let out := out ++ "\x7b" ++ layout.lineBreak (depth + 1) ++ quote name ++ layout.colon
    let out := write layout (depth + 1) value out
    writeMembers layout (depth + 1) members out ++ layout.lineBreak depth ++ "\x7d"

/-- Appends the items of an array after the first. -/
def writeItems (layout : Layout) (depth : Nat) : List Json → String → String
  | [], out => out
  | item :: items, out =>
    writeItems layout depth items (write layout depth item (out ++ "," ++ layout.lineBreak depth))

/-- Appends the members of an object after the first. -/
def writeMembers (layout : Layout) (depth : Nat) : List (String × Json) → String → String
  | [], out => out
  | (name, value) :: members, out =>
    let out := out ++ "," ++ layout.lineBreak depth ++ quote name ++ layout.colon
    writeMembers layout depth members (write layout depth value out)

end

/-- The text of a value without white space. -/
def compress (value : Json) : String := write .compact 0 value ""

/-- The text of a value on several lines. -/
def pretty (value : Json) : String := write .indented 0 value ""

example : compress (.obj [("a", .arr [.int (-1), .null]), ("b", .obj [])]) =
    "\x7b\"a\":[-1,null],\"b\":\x7b\x7d\x7d" := by decide +kernel

example : pretty (.arr [.str "x\n", .arr []]) = "[\n  \"x\\n\",\n  []\n]" := by decide +kernel

end Blocklist.Json
