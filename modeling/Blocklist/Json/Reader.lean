import Blocklist.Json.Literal
import Blocklist.Json.Numeral

/-!
# Reading JSON

`Json.read` reads a whole text as one value. An object keeps one member per name, the last written,
and its members come out sorted by name. Brackets may be open up to 127 deep. `Reader.skipValue`
passes over a value of any depth whose content does not matter.
-/

namespace Blocklist.Json

inductive Bracket where
  | list
  | object
deriving DecidableEq, Repr

namespace Bracket

def closing : Bracket → Char
  | list => ']'
  | object => '\x7d'

/-- What is missing when the text ends inside the bracket. -/
def atEnd : Bracket → Malformation
  | list => .endInList
  | object => .endInObject

/-- What is missing when a value is followed by neither a comma nor the closing bracket. -/
def expectedCommaOrEnd : Bracket → Malformation
  | list => .expectedListCommaOrEnd
  | object => .expectedObjectCommaOrEnd

end Bracket

namespace Reader

/-- Whether a list goes on with an item; if not, its closing bracket comes next. -/
def hasItem (first : Bool) : Reader Bool := do
  match ← peekToken with
  | none => failPeek .endInList
  | some ']' => pure false
  | some ',' =>
    if first then pure true
    else
      skip
      match ← peekToken with
      | none => failPeek .endInValue
      | some ']' => failPeek .trailingComma
      | some _ => pure true
  | some _ => if first then pure true else failPeek .expectedListCommaOrEnd

/-- Whether an object goes on with a member; if not, its closing bracket comes next. -/
def hasMember (first : Bool) : Reader Bool := do
  match ← peekToken with
  | none => failPeek .endInObject
  | some '\x7d' => pure false
  | some '"' => if first then pure true else failPeek .expectedObjectCommaOrEnd
  | some ',' =>
    if first then failPeek .keyNotString
    else
      skip
      match ← peekToken with
      | none => failPeek .endInValue
      | some '"' => pure true
      | some '\x7d' => failPeek .trailingComma
      | some _ => failPeek .keyNotString
  | some _ => failPeek (if first then .keyNotString else .expectedObjectCommaOrEnd)

/-- The colon between a name and its value. -/
def colon : Reader Unit := do
  match ← peekToken with
  | none => failPeek .endInObject
  | some ':' => skip
  | some _ => failPeek .expectedColon

/-- Reads a value that is neither an array nor an object, of which `c` is the first character. -/
def scalar (c : Char) : Reader Json := do
  match c with
  | 'n' => skip; literal ['u', 'l', 'l']; pure .null
  | 't' => skip; literal ['r', 'u', 'e']; pure (.bool true)
  | 'f' => skip; literal ['a', 'l', 's', 'e']; pure (.bool false)
  | '"' => .str <$> string
  | c => if c == '-' || c.isDigit then number else failPeek .expectedValue

/-- The greatest number of open brackets. -/
def depthLimit : Nat := 127

mutual

/-- Reads a value inside `depth` brackets. Of two steps in a row one reads a character, so twice
the length of the text and one more are steps enough. -/
def valueWithin : (steps : Nat) → (depth : Nat) → Reader Json
  | 0, _ => failPeek .endInValue
  | steps + 1, depth => do
    match ← peekToken with
    | none => failPeek .endInValue
    | some '[' =>
      if depth < depthLimit then skip; itemsWithin steps (depth + 1) []
      else failPeek .tooDeep
    | some '\x7b' =>
      if depth < depthLimit then skip; membersWithin steps (depth + 1) true []
      else failPeek .tooDeep
    | some c => scalar c

/-- Reads the items of an array that are left; `read` holds those before, the last first. -/
def itemsWithin : (steps : Nat) → (depth : Nat) → (read : List Json) → Reader Json
  | 0, _, _ => failPeek .endInList
  | steps + 1, depth, read => do
    if ← hasItem read.isEmpty then
      let item ← valueWithin steps depth
      itemsWithin steps depth (item :: read)
    else
      skip
      return .arr read.reverse

/-- Reads the members of an object that are left; `read` holds those before. -/
def membersWithin : (steps : Nat) → (depth : Nat) → (first : Bool) →
    (read : List (String × Json)) → Reader Json
  | 0, _, _, _ => failPeek .endInObject
  | steps + 1, depth, first, read => do
    if ← hasMember first then
      let name ← string
      colon
      let value ← valueWithin steps depth
      membersWithin steps depth false (insertMember name value read)
    else
      skip
      return .obj read

end

def value : Reader Json := fun cursor => valueWithin (2 * cursor.rest.length + 1) 0 cursor

/-- Skips a name and its colon. -/
def skipName : Reader Unit := do
  match ← peekToken with
  | none => failPeek .endInObject
  | some '"' => skipString
  | some _ => failPeek .keyNotString
  colon

/-- Skips a value that is neither an array nor an object, of which `c` is the first character. -/
def skipScalar (c : Char) : Reader Unit := do
  match c with
  | 'n' => skip; literal ['u', 'l', 'l']
  | 't' => skip; literal ['r', 'u', 'e']
  | 'f' => skip; literal ['a', 'l', 's', 'e']
  | '"' => skipString
  | c => if c == '-' || c.isDigit then discard (numeral .invalidNumber) else failPeek .expectedValue

mutual

/-- Skips a value and then the rest of the brackets around it, the innermost first. As for
`valueWithin`, twice the length of the text and one more are steps enough. -/
def skipValueIn : (steps : Nat) → List Bracket → Reader Unit
  | 0, _ => failPeek .endInValue
  | steps + 1, around => do
    match ← peekToken with
    | none => failPeek .endInValue
    | some '[' => skip; skipRest steps .list true around
    | some '\x7b' => skip; skipRest steps .object true around
    | some c =>
      skipScalar c
      match around with
      | [] => pure ()
      | bracket :: around => skipRest steps bracket false around

/-- Skips the rest of a bracket, from before its first entry or from after an entry, and then the
rest of the brackets around it. -/
def skipRest : (steps : Nat) → Bracket → (first : Bool) → List Bracket → Reader Unit
  | 0, bracket, _, _ => failPeek bracket.atEnd
  | steps + 1, bracket, first, around => do
    match ← peekToken with
    | none => failPeek bracket.atEnd
    | some c =>
      if c = bracket.closing then
        skip
        match around with
        | [] => pure ()
        | outer :: around => skipRest steps outer false around
      else if first || c = ',' then
        if !first then skip
        if bracket = .object then skipName
        skipValueIn steps (bracket :: around)
      else failPeek bracket.expectedCommaOrEnd

end

def skipValue : Reader Unit := fun cursor => skipValueIn (2 * cursor.rest.length + 1) [] cursor

end Reader

/-- The value that a text stands for. -/
def read (text : String) : Except ReadError Json := Reader.readAll Reader.value text

end Blocklist.Json
