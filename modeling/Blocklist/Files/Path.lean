/-!
# Paths

A path is a text whose parts are separated by slashes. Empty parts and single dots say nothing,
except that a path may begin at the root or with a dot. The operations work on the text and keep
the parts they do not concern as they are written.
-/

namespace Blocklist

/-- The parts of a path as written. -/
structure Path where
  /-- What stands before the first slash; empty for a path from the root. -/
  head : String
  /-- What stands after each slash. -/
  tail : List String
deriving DecidableEq, Repr

namespace Path

def ofString (text : String) : Path :=
  match (text.toList.splitOn '/').map String.ofList with
  | [] => ⟨"", []⟩
  | head :: tail => ⟨head, tail⟩

def toString (path : Path) : String := "/".intercalate (path.head :: path.tail)

/-- A part that says nothing after a slash. -/
def isFiller (part : String) : Bool := part == "" || part == "."

/-- Parts without the fillers at their end. -/
def dropFillers (parts : List String) : List String :=
  (parts.reverse.dropWhile isFiller).reverse

def isAbsolute (path : Path) : Bool := path.head == "" && !path.tail.isEmpty

def endsInSlash (path : Path) : Bool := path.tail.getLast? == some ""

/-- Whether the last part says where a directory is instead of naming an entry of one. -/
def endsInDots (path : Path) : Bool :=
  ((path.head :: path.tail).filter (· != "")).getLast?.any fun part => part == "." || part == ".."

/-- The parts that say something, two dots among them. -/
def names (path : Path) : List String := (path.head :: path.tail).filter (!isFiller ·)

/-- Whether the path holds the character that no name of a file holds. -/
def hasNul (path : Path) : Bool := (path.head :: path.tail).any (·.contains '\x00')

def isEmpty (path : Path) : Bool := path.head == "" && path.tail.isEmpty

/-- The path of the directory that holds what a path names. A single part is held by the empty path,
which stands for the directory that relative paths begin at. -/
def parent? (path : Path) : Option Path :=
  match (dropFillers path.tail).reverse with
  | _ :: before =>
    match dropFillers before.reverse with
    | [] => some (if path.head == "" then ⟨"", [""]⟩ else ⟨path.head, []⟩)
    | tail => some ⟨path.head, tail⟩
  | [] => if path.head == "" then none else some ⟨"", []⟩

/-- The last part, if it is a name. -/
def fileName? (path : Path) : Option String :=
  match (dropFillers path.tail).reverse with
  | name :: _ => if name == ".." then none else some name
  | [] => if isFiller path.head || path.head == ".." then none else some path.head

/-- A file name without what follows its last dot; a dot at the front does not count. -/
def stem (name : String) : String :=
  match (name.toList.reverse.dropWhile (· != '.')).drop 1 with
  | [] => name
  | before => String.ofList before.reverse

/-- The path with the extension of its file name replaced, and whatever follows the name dropped. A
path without a file name stays as it is. -/
def withExtension (path : Path) (extension : String) : Path :=
  match path.fileName? with
  | none => path
  | some name =>
    let renamed := stem name ++ "." ++ extension
    match (dropFillers path.tail).reverse with
    | _ :: before => ⟨path.head, before.reverse ++ [renamed]⟩
    | [] => ⟨renamed, []⟩

instance : ToString Path := ⟨Path.toString⟩

example : (ofString "d/../s.json").withExtension "json.tmp" = ofString "d/../s.json.tmp" := by
  decide +kernel

example : ((ofString "a//b/./c/").parent?.map toString) = some "a//b" := by decide +kernel

end Path

end Blocklist
