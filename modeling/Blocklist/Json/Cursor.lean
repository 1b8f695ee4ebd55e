import Blocklist.Json.Decoding

/-!
# Reading positions

A cursor is the text still to be read and the place reached: the line, counted from one, and the
number of bytes read since the last line feed. An error is reported either at the cursor or at the
byte that comes next, and then that byte counts as read.
-/

namespace Blocklist.Json

structure Position where
  line : Nat
  column : Nat
deriving DecidableEq, Repr

namespace Position

def start : Position := ⟨1, 0⟩

def after (position : Position) (c : Char) : Position :=
  if c = '\n' then ⟨position.line + 1, 0⟩ else ⟨position.line, position.column + c.utf8Size⟩

/-- The place after a number of bytes, which may lie inside a character. -/
def afterBytes (position : Position) : Nat → List Char → Position
  | 0, _ | _, [] => position
  | n + 1, c :: rest =>
    if n + 1 < c.utf8Size then ⟨position.line, position.column + (n + 1)⟩
    else afterBytes (position.after c) (n + 1 - c.utf8Size) rest

end Position

inductive Malformation where
  | endInValue
  | endInList
  | endInObject
  | endInString
  | expectedValue
  | expectedIdent
  | expectedColon
  | expectedListCommaOrEnd
  | expectedObjectCommaOrEnd
  | keyNotString
  | trailingComma
  | trailingCharacters
  | invalidNumber
  | numberOutOfRange
  | invalidEscape
  | endOfHexEscape
  | loneSurrogate
  | controlCharacter
  | tooDeep
deriving DecidableEq, Repr

namespace Malformation

def message : Malformation → String
  | endInValue => "EOF while parsing a value"
  | endInList => "EOF while parsing a list"
  | endInObject => "EOF while parsing an object"
  | endInString => "EOF while parsing a string"
  | expectedValue => "expected value"
  | expectedIdent => "expected ident"
  | expectedColon => "expected `:`"
  | expectedListCommaOrEnd => "expected `,` or `]`"
  | expectedObjectCommaOrEnd => "expected `,` or `\x7d`"
  | keyNotString => "key must be a string"
  | trailingComma => "trailing comma"
  | trailingCharacters => "trailing characters"
  | invalidNumber => "invalid number"
  | numberOutOfRange => "number out of range"
  | invalidEscape => "invalid escape"
  | endOfHexEscape => "unexpected end of hex escape"
  | loneSurrogate => "lone leading surrogate in hex escape"
  | controlCharacter => "control character (\\u0000-\\u001F) found while parsing a string"
  | tooDeep => "recursion limit exceeded"

end Malformation

inductive ReadFault where
  | malformed (cause : Malformation)
  | undecodable (cause : DecodeError)
deriving DecidableEq, Repr

/-- A fault and the place it is reported at. -/
structure ReadError where
  fault : ReadFault
  position : Position
deriving DecidableEq, Repr

namespace ReadError

def message (error : ReadError) : String :=
  let cause := match error.fault with
    | .malformed cause => cause.message
    | .undecodable cause => cause.message
  cause ++ " at line " ++ toString error.position.line ++ " column " ++
    toString error.position.column

end ReadError

/-- The rest of a text and the place it begins at. -/
structure Cursor where
  rest : List Char
  position : Position

namespace Cursor

def start (text : String) : Cursor := ⟨text.toList, .start⟩

def advance (cursor : Cursor) : Cursor :=
  match cursor.rest with
  | [] => cursor
  | c :: rest => ⟨rest, cursor.position.after c⟩

/-- The cursor after the characters at its front for which `p` holds, and those characters. -/
def takeWhile (p : Char → Bool) (cursor : Cursor) : List Char × Cursor :=
  let taken := cursor.rest.takeWhile p
  (taken, ⟨cursor.rest.dropWhile p, taken.foldl Position.after cursor.position⟩)

def isSpace (c : Char) : Bool := c == ' ' || c == '\n' || c == '\t' || c == '\r'

def skipSpace (cursor : Cursor) : Cursor := (cursor.takeWhile isSpace).2

/-- The place with the next byte counted as read. -/
def peekPosition (cursor : Cursor) : Position := cursor.position.afterBytes 1 cursor.rest

def endPosition (cursor : Cursor) : Position := cursor.rest.foldl Position.after cursor.position

end Cursor

/-- Reads a part of a text. -/
abbrev Reader := StateT Cursor (Except ReadError)

namespace Reader

def failAt (position : Position) (cause : Malformation) : Reader α := fun _ =>
  .error ⟨.malformed cause, position⟩

def fail (cause : Malformation) : Reader α := fun cursor =>
  .error ⟨.malformed cause, cursor.position⟩

/-- Fails at the byte that comes next. -/
def failPeek (cause : Malformation) : Reader α := fun cursor =>
  .error ⟨.malformed cause, cursor.peekPosition⟩

/-- Fails at the cursor because what was read does not decode. -/
def undecodable (cause : DecodeError) : Reader α := fun cursor =>
  .error ⟨.undecodable cause, cursor.position⟩

/-- A decoder's answer as a part that has been read. -/
def decoded (answer : Decoded α) : Reader α :=
  match answer with
  | .ok value => pure value
  | .error cause => undecodable cause

/-- The next character, which stays unread. -/
def peek : Reader (Option Char) := fun cursor => .ok (cursor.rest.head?, cursor)

/-- The next character after white space, which stays unread. -/
def peekToken : Reader (Option Char) := fun cursor =>
  let cursor := cursor.skipSpace
  .ok (cursor.rest.head?, cursor)

def skip : Reader Unit := fun cursor => .ok ((), cursor.advance)

def takeWhile (p : Char → Bool) : Reader (List Char) := fun cursor => .ok (cursor.takeWhile p)

/-- The characters that a literal goes on with after its first. -/
def literal : List Char → Reader Unit
  | [] => pure ()
  | expected :: rest => do
    match ← peek with
    | none => fail .endInValue
    | some c =>
      if c = expected then skip; literal rest
      else failPeek .expectedIdent

/-- Runs a reader over a whole text, with white space allowed at the end. -/
def readAll (reader : Reader α) (text : String) : Except ReadError α := do
  let complete : Reader α := do
    let value ← reader
    match ← peekToken with
    | none => pure value
    | some _ => failPeek .trailingCharacters
  (complete (.start text)).map (·.1)

end Reader

end Blocklist.Json
