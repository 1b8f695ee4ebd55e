import Blocklist.Url.Host

/-!
# Reading URLs

`Url.ofText` takes a text apart. Blanks around the text are dropped, and so are tabs and line breaks
everywhere. The schemes of the web read a backslash as a slash and need a host; the host of a file
may be left out; any other scheme may go on without slashes.
-/

namespace Blocklist.Url

/-- What a scheme says about the rest of a URL. -/
inductive SchemeKind where
  | web (portNumber : Nat)
  | file
  | other
deriving DecidableEq, Repr

namespace SchemeKind

def ofScheme (scheme : String) : SchemeKind :=
  match scheme with
  | "http" | "ws" => web 80
  | "https" | "wss" => web 443
  | "ftp" => web 21
  | "file" => file
  | _ => other

/-- Whether a backslash is read as a slash. -/
def isSpecial (kind : SchemeKind) : Bool := kind ≠ other

def isSlash (kind : SchemeKind) (c : Char) : Bool := c == '/' || (kind.isSpecial && c == '\\')

/-- Whether a character ends the host and what belongs to it. -/
def endsHost (kind : SchemeKind) (c : Char) : Bool := kind.isSlash c || c == '?' || c == '#'

end SchemeKind

/-- The text without blanks around it and without tabs and line breaks. -/
def tidy (text : List Char) : List Char :=
  let isOuter (c : Char) : Bool := c.toNat ≤ 0x20
  let inner := ((text.dropWhile isOuter).reverse.dropWhile isOuter).reverse
  inner.filter fun c => c != '\t' && c != '\n' && c != '\r'

/-- The scheme in front of the first colon, in lower case, and what follows. -/
def scheme? (text : List Char) : Option (String × List Char) := do
  let isSchemeChar (c : Char) : Bool := c.isAlphanum || c == '+' || c == '-' || c == '.'
  let first ← text.head?
  guard first.isAlpha
  match text.span isSchemeChar with
  | (scheme, ':' :: rest) => some (String.ofList (scheme.map Char.toLower), rest)
  | _ => none

/-- Drops credentials, which end at the last at sign before the route. -/
def dropCredentials (kind : SchemeKind) (text : List Char) : Except Fault (List Char) :=
  let (front, rest) := text.span (!kind.endsHost ·)
  if front.contains '@' then
    let host := (front.reverse.takeWhile (· != '@')).reverse
    if host.isEmpty then .error .emptyHost else .ok (host ++ rest)
  else .ok text

/-- The length of the host at the front of a text: up to a colon that stands outside square
brackets, or to what ends the host. -/
def hostLength (kind : SchemeKind) : List Char → (inBrackets : Bool) → Nat
  | [], _ => 0
  | c :: rest, inBrackets =>
    if kind.endsHost c || (c == ':' && !inBrackets) then 0
    else hostLength kind rest ((inBrackets || c == '[') && c != ']') + 1

/-- The number behind a host, from after the colon, and what follows. A scheme's own number is not
kept. -/
def readPort (kind : SchemeKind) (text : List Char) : Except Fault (Option Nat × List Char) :=
  let (digits, rest) := text.span Char.isDigit
  let isEnd := match rest with
    | [] => true
    | c :: _ => c == '/' || c == '\\' || c == '?' || c == '#'
  if 0xFFFF < digitsValue digits || !isEnd then .error .invalidPort
  else if digits.isEmpty || kind = .web (digitsValue digits) then .ok (none, rest)
  else .ok (some (digitsValue digits), rest)

/-- The host and its number behind two slashes, and what follows. -/
def readHost (kind : SchemeKind) (text : List Char) :
    Except Fault (String × Option Nat × List Char) := do
  let text ← dropCredentials kind text
  let (name, rest) := text.splitAt (hostLength kind text false)
  if kind ≠ .other && name.isEmpty then throw .emptyHost
  let host ← if kind = .other then hostOfText name else hostOfName name
  match rest with
  | ':' :: rest =>
    if name.isEmpty then throw .emptyHost
    let (portNumber, rest) ← readPort kind rest
    return (host, portNumber, rest)
  | rest => return (host, none, rest)

/-- A drive of a file's route, such as `c:`. -/
def isDrive (segment : String) : Bool :=
  match segment.toList with
  | [letter, mark] => letter.isAlpha && (mark == ':' || mark == '|')
  | _ => false

/-- Whether a segment means the place itself. -/
def isSingleDot (segment : List Char) : Bool :=
  String.ofList (segment.map Char.toLower) ∈ [".", "%2e"]

/-- Whether a segment means the place above. -/
def isDoubleDot (segment : List Char) : Bool :=
  String.ofList (segment.map Char.toLower) ∈ ["..", ".%2e", "%2e.", "%2e%2e"]

/-- The segments without the last one; a drive alone stays. -/
def shorten (kind : SchemeKind) (segments : List String) : List String :=
  match segments with
  | [only] => if kind = .file && isDrive only then segments else []
  | segments => segments.dropLast

def addSegment (kind : SchemeKind) (segments : List String) (last : Bool) (segment : List Char) :
    List String :=
  let close (segments : List String) : List String := if last then segments ++ [""] else segments
  if isDoubleDot segment then close (shorten kind segments)
  else if isSingleDot segment then close segments
  else
    let encoded := percentEncode segmentReserved segment
    match kind, segments, encoded.toList with
    | .file, [], [letter, '|'] =>
      if letter.isAlpha then [String.ofList [letter, ':']] else [encoded]
    | _, _, _ => segments ++ [encoded]

def addSegments (kind : SchemeKind) (segments : List String) :
    List (List Char) → List String
  | [] => segments
  | [segment] => addSegment kind segments true segment
  | segment :: rest => addSegments kind (addSegment kind segments false segment) rest

/-- The segments of a text that begins after the first slash. Those of a file begin with no empty
one. -/
def readSegments (kind : SchemeKind) (text : List Char) : List String :=
  let segments := addSegments kind [] (text.splitOnP kind.isSlash)
  if kind = .file then
    match segments.dropWhile (· == "") with
    | [] => [""]
    | segments => segments
  else segments

def readRoute (kind : SchemeKind) (text : List Char) : Route :=
  match text with
  | [] => .segments (if kind.isSpecial then [""] else [])
  | c :: rest => .segments (readSegments kind (if kind.isSlash c then rest else text))

/-- The host of a file, and the text of its route. A drive in the host's place belongs to the
route. -/
def readFileHost (text : List Char) : Except Fault (String × List Char) := do
  let (name, rest) := text.span (!SchemeKind.file.endsHost ·)
  if isDrive (String.ofList name) then return ("", text)
  if name.isEmpty then return ("", rest)
  let host ← hostOfName name
  return (if host = "localhost" then "" else host, rest)

/-- The host, its number and the route of a URL with the given kind of scheme. -/
def readPlace (kind : SchemeKind) (text : List Char) :
    Except Fault (Option String × Option Nat × Route) := do
  match kind, text with
  | .web _, text =>
    let (host, portNumber, rest) ← readHost kind (text.dropWhile kind.isSlash)
    return (some host, portNumber, readRoute kind rest)
  | .file, a :: b :: rest =>
    if kind.isSlash a && kind.isSlash b then
      let (host, rest) ← readFileHost rest
      return (some host, none, readRoute kind rest)
    else return (some "", none, readRoute kind text)
  | .file, text => return (some "", none, readRoute kind text)
  | .other, '/' :: '/' :: rest =>
    let (host, portNumber, rest) ← readHost kind rest
    return (some host, portNumber, readRoute kind rest)
  | .other, '/' :: rest => return (none, none, .segments (readSegments kind rest))
  | .other, text => return (none, none, .whole (percentEncode [] text))

def ofText (text : String) : Except Fault Url := do
  match scheme? (tidy text.toList) with
  | none => throw .relative
  | some (scheme, rest) =>
    let kind := SchemeKind.ofScheme scheme
    let (rest, fragment) := rest.span (· != '#')
    let (rest, query) := rest.span (· != '?')
    let (host, portNumber, route) ← readPlace kind rest
    let queryReserved := if kind.isSpecial then '\x27' :: queryReserved else queryReserved
    return { scheme, host, portNumber, route
             query := if query.isEmpty then none else some (percentEncode queryReserved query.tail)
             fragment := if fragment.isEmpty then none
               else some (percentEncode fragmentReserved fragment.tail) }

example : (ofText "FTP://User@Example.COM:21/a b/../c?q=1#f").toOption.map text =
    some "ftp://example.com/c?q=1#f" := by decide +kernel

example : (ofText "file:list.txt").toOption.map text = some "file:///list.txt" := by
  decide +kernel

end Blocklist.Url
