import Blocklist.Json.Cursor
import Blocklist.Number.Digits

/-!
# Strings in a text

Reading a string, from after its opening quote, and skipping one whose content does not matter.
A code point outside the basic plane is written as two escapes, a leading and a trailing surrogate.
Skipping checks the form of escapes only, and leaves a control character unread.
-/

namespace Blocklist.Json

def shortEscape? (c : Char) : Option Char :=
  match c with
  | '"' => some '"'
  | '\\' => some '\\'
  | '/' => some '/'
  | 'b' => some '\x08'
  | 'f' => some '\x0c'
  | 'n' => some '\n'
  | 'r' => some '\r'
  | 't' => some '\t'
  | _ => none

def isLeadingSurrogate (code : Nat) : Bool := 0xD800 ≤ code && code < 0xDC00

def isTrailingSurrogate (code : Nat) : Bool := 0xDC00 ≤ code && code < 0xE000

/-- The code point of two surrogates. -/
def pairValue (leading trailing : Nat) : Nat :=
  (leading - 0xD800) * 0x400 + (trailing - 0xDC00) + 0x10000

namespace Cursor

/-- The error of a code that is not four hexadecimal digits: the text is too short for it, or the
four bytes that come next are no digits. -/
def codeError (cursor : Cursor) : ReadError :=
  let bytes := cursor.rest.foldl (fun bytes c => bytes + c.utf8Size) 0
  if bytes < 4 then ⟨.malformed .endInString, cursor.endPosition⟩
  else ⟨.malformed .invalidEscape, cursor.position.afterBytes 4 cursor.rest⟩

/-- Reads the four digits of a code. -/
def code (cursor : Cursor) : Except ReadError (Nat × Cursor) :=
  let digits := cursor.rest.take 4
  match hexDigitsValue? digits with
  | some code =>
    if digits.length = 4 then
      .ok (code, ⟨cursor.rest.drop 4, digits.foldl Position.after cursor.position⟩)
    else .error cursor.codeError
  | none => .error cursor.codeError

/-- Reads one given character of an escape. -/
def expect (c : Char) (cursor : Cursor) : Except ReadError Cursor :=
  match cursor.rest with
  | [] => .error ⟨.malformed .endInString, cursor.position⟩
  | next :: _ =>
    if next = c then .ok cursor.advance
    else .error ⟨.malformed .endOfHexEscape, cursor.peekPosition⟩

/-- Reads a code point, from after `\u`: the character, and how many characters of the text it
took. -/
def codePoint (cursor : Cursor) : Except ReadError (Char × Nat) := do
  let (first, cursor) ← cursor.code
  if isTrailingSurrogate first then .error ⟨.malformed .loneSurrogate, cursor.position⟩
  else if isLeadingSurrogate first then
    let cursor ← cursor.expect '\\'
    let cursor ← cursor.expect 'u'
    let (second, cursor) ← cursor.code
    if isTrailingSurrogate second then .ok (Char.ofNat (pairValue first second), 10)
    else .error ⟨.malformed .loneSurrogate, cursor.position⟩
  else .ok (Char.ofNat first, 4)

/-- Reads an escape, from after its backslash: the character, and how many characters of the text
it took. -/
def escape (cursor : Cursor) : Except ReadError (Char × Nat) :=
  match cursor.rest with
  | [] => .error ⟨.malformed .endInString, cursor.position⟩
  | 'u' :: _ => cursor.advance.codePoint.map fun (c, length) => (c, length + 1)
  | c :: _ =>
    match shortEscape? c with
    | some meant => .ok (meant, 1)
    | none => .error ⟨.malformed .invalidEscape, cursor.peekPosition⟩

/-- How many characters an escape takes, from after its backslash. -/
def escapeLength (cursor : Cursor) : Except ReadError Nat :=
  match cursor.rest with
  | [] => .error ⟨.malformed .endInString, cursor.position⟩
  | 'u' :: _ => cursor.advance.code.map fun _ => 5
  | c :: _ =>
    if (shortEscape? c).isSome then .ok 1
    else .error ⟨.malformed .invalidEscape, cursor.peekPosition⟩

/-- Reads the characters of a string up to its closing quote. The next `taken` characters belong to
an escape that has been read already; `read` holds the string so far, its last character first. -/
def stringBody : List Char → Position → (taken : Nat) → (read : List Char) →
    Except ReadError (String × Cursor)
  | [], position, _, _ => .error ⟨.malformed .endInString, position⟩
  | c :: rest, position, taken + 1, read => stringBody rest (position.after c) taken read
  | '"' :: rest, position, 0, read =>
    .ok (String.ofList read.reverse, ⟨rest, position.after '"'⟩)
  | '\\' :: rest, position, 0, read =>
    match escape ⟨rest, position.after '\\'⟩ with
    | .ok (c, length) => stringBody rest (position.after '\\') length (c :: read)
    | .error error => .error error
  | c :: rest, position, 0, read =>
    if c.toNat < 0x20 then .error ⟨.malformed .controlCharacter, position.after c⟩
    else stringBody rest (position.after c) 0 (c :: read)

/-- Skips the characters of a string up to its closing quote, the next `taken` of them unseen. -/
def skipStringBody : List Char → Position → (taken : Nat) → Except ReadError Cursor
  | [], position, _ => .error ⟨.malformed .endInString, position⟩
  | c :: rest, position, taken + 1 => skipStringBody rest (position.after c) taken
  | '"' :: rest, position, 0 => .ok ⟨rest, position.after '"'⟩
  | '\\' :: rest, position, 0 =>
    match escapeLength ⟨rest, position.after '\\'⟩ with
    | .ok length => skipStringBody rest (position.after '\\') length
    | .error error => .error error
  | c :: rest, position, 0 =>
    if c.toNat < 0x20 then .error ⟨.malformed .controlCharacter, position⟩
    else skipStringBody rest (position.after c) 0

end Cursor

namespace Reader

/-- Reads a string from its opening quote on. -/
def string : Reader String := do
  skip
  fun cursor => Cursor.stringBody cursor.rest cursor.position 0 []

/-- Skips a string from its opening quote on. -/
def skipString : Reader Unit := do
  skip
  fun cursor => (Cursor.skipStringBody cursor.rest cursor.position 0).map ((), ·)

end Reader

end Blocklist.Json
