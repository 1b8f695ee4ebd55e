import Blocklist.Domain
import Blocklist.Text.Blank
import Blocklist.Text.Lines

/-!
# Filter lists

A filter list is a text of one filter a line. Of its lines only those are used that block a whole
host: two bars, the host, a caret, and whatever follows. `Line.classify` says what a trimmed line
is, and reading a list is counting its lines by kind and keeping the domains in order. Nothing is
ever refused.
-/

namespace Blocklist

/-- Whether one row of characters occurs in another without gaps. -/
def occursIn (pattern : List Char) : List Char → Bool
  | [] => pattern.isEmpty
  | c :: rest => pattern.isPrefixOf (c :: rest) || occursIn pattern rest

theorem occursIn_iff {pattern text : List Char} :
    occursIn pattern text = true ↔ pattern <:+: text := by
  induction text with
  | nil => simp [occursIn]
  | cons c rest ih => simp [occursIn, List.infix_cons_iff, ih]

namespace FilterList

/-- What a trimmed line of a filter list is. -/
inductive Line where
  | blank
  | comment
  | exception
  | cosmetic
  | host (domain : Domain)
  | other
deriving DecidableEq

namespace Line

/-- The domain of a filter that blocks a whole host. A slash before the first caret makes it a
filter on an address instead. -/
def blockedHost? (line : List Char) : Option Domain :=
  match line with
  | '|' :: '|' :: rest =>
    let host := rest.takeWhile fun c => c != '^' && c != '/'
    match rest.drop host.length with
    | '^' :: _ => Domain.ofChars? host
    | _ => none
  | _ => none

/-- The kind of a trimmed line. The first kind that fits counts, so a comment or an exception never
names a host, and neither does a line that hides elements of a page. -/
def classify (line : List Char) : Line :=
  if line.isEmpty then blank
  else if ['!'].isPrefixOf line then comment
  else if ['@', '@'].isPrefixOf line then exception
  else if occursIn ['#', '#'] line || occursIn ['#', '@', '#'] line then cosmetic
  else (blockedHost? line).elim other host

def domain? : Line → Option Domain
  | host domain => some domain
  | _ => none

end Line

/-- The lines of a list, each with its kind. -/
def readLines (text : List Char) : List Line :=
  (Text.lines text).map fun line => Line.classify (Text.trim line)

/-- How many lines of each kind a list has. -/
structure Tally where
  lines : Nat := 0
  blank : Nat := 0
  comments : Nat := 0
  exceptions : Nat := 0
  cosmetic : Nat := 0
  domains : Nat := 0
  dropped : Nat := 0
deriving DecidableEq, Repr

namespace Tally

def count (tally : Tally) (line : Line) : Tally :=
  let tally := { tally with lines := tally.lines + 1 }
  match line with
  | .blank => { tally with blank := tally.blank + 1 }
  | .comment => { tally with comments := tally.comments + 1 }
  | .exception => { tally with exceptions := tally.exceptions + 1 }
  | .cosmetic => { tally with cosmetic := tally.cosmetic + 1 }
  | .host _ => { tally with domains := tally.domains + 1 }
  | .other => { tally with dropped := tally.dropped + 1 }

def ofLines (lines : List Line) : Tally := lines.foldl count {}

end Tally

def tally (text : String) : Tally := .ofLines (readLines text.toList)

/-- The domains that a list blocks, in its order and as often as it names them. -/
def domains (text : String) : List Domain := (readLines text.toList).filterMap Line.domain?

end FilterList

end Blocklist
