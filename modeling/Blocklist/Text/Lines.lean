/-!
# Lines of a text

A text is cut after every line feed. A final line feed ends the last line and opens no further
one, and a line's ending, a line feed or a carriage return with a line feed, is not part of it.
`segments` is the cut that keeps the endings; `lines` drops them.
-/

namespace Blocklist.Text

/-- The lines of a text with their endings. -/
def segments (text : List Char) : List (List Char) :=
  text.foldr (fun c after =>
    if c = '\n' then [c] :: after
    else match after with
      | [] => [[c]]
      | line :: rest => (c :: line) :: rest) []

/-- A segment without its ending: one line feed, and one carriage return right before that. -/
def dropEnding (segment : List Char) : List Char :=
  match segment.reverse with
  | '\n' :: '\r' :: before => before.reverse
  | '\n' :: before => before.reverse
  | _ => segment

def lines (text : List Char) : List (List Char) := (segments text).map dropEnding

theorem segments_cons (c : Char) (text : List Char) :
    segments (c :: text) =
      if c = '\n' then [c] :: segments text
      else match segments text with
        | [] => [[c]]
        | line :: rest => (c :: line) :: rest := rfl

end Blocklist.Text
