import Blocklist.Files.Disk

/-!
# A file tree in memory

A file system as a value. Entries are found by the names that lead to them from the root, and
directories have entries of their own. A path begins at the root or at the working directory, and
the directory above the root is the root. Some directories are filled by the system, and nothing can
be made in them. A file's content is a text, or bytes that are none.
-/

namespace Blocklist

/-- What a name in a directory stands for. -/
inductive FileTree.Entry where
  | file (text : Option String)
  | directory
deriving DecidableEq, Repr

/-- The directories that are there whatever happens. -/
structure FileTree.Frame where
  /-- The working directory. Those on the way to it are there too. -/
  home : List String := []
  /-- Directories that the system fills. -/
  sealed : List (List String) := [["proc"]]
deriving DecidableEq, Repr

/-- The entries of a file system, by the names that lead to them. -/
structure FileTree where
  entries : List (List String × FileTree.Entry) := []
  frame : FileTree.Frame := {}
deriving DecidableEq, Repr

namespace FileTree

def Frame.holds (frame : Frame) (names : List String) : Bool :=
  names.isPrefixOf frame.home || frame.sealed.contains names

def lookup (tree : FileTree) (names : List String) : Option Entry :=
  if tree.frame.holds names then some .directory else tree.entries.lookup names

/-- The tree with an entry in place of the one of the same names. -/
def set (tree : FileTree) (names : List String) (entry : Entry) : FileTree :=
  { tree with entries := (names, entry) :: tree.entries.filter (·.1 != names) }

def remove (tree : FileTree) (names : List String) : FileTree :=
  { tree with entries := tree.entries.filter (·.1 != names) }

/-- Makes or replaces an entry, unless the directory that holds it is filled by the system. -/
def put (tree : FileTree) (names : List String) (entry : Entry) : Except FileError FileTree :=
  if tree.frame.sealed.contains names.dropLast then .error .notFound else .ok (tree.set names entry)

/-- The greatest number of bytes of a name. -/
def nameLimit : Nat := 255

/-- The names after one more part of a path that has to lead to a directory. -/
def descend (tree : FileTree) (directory : List String) (part : String) :
    Except FileError (List String) :=
  if part = ".." then .ok directory.dropLast
  else if nameLimit < part.utf8ByteSize then .error .nameTooLong
  else match tree.lookup (directory ++ [part]) with
    | some .directory => .ok (directory ++ [part])
    | some (.file _) => .error .notDirectory
    | none => .error .notFound

/-- The names of the directory that the parts of a path lead to. -/
def walk (tree : FileTree) (start parts : List String) : Except FileError (List String) :=
  parts.foldlM tree.descend start

def start (tree : FileTree) (path : Path) : List String :=
  if path.isAbsolute then [] else tree.frame.home

/-- The names of the directory that a path leads to. -/
def reach (tree : FileTree) (path : Path) : Except FileError (List String) :=
  tree.walk (tree.start path) path.names

/-- Where a path leads: to a directory as such, or to an entry of a directory, which the path may
require to be a directory too. -/
inductive Place where
  | directory
  | entry (names : List String) (asDirectory : Bool)
deriving DecidableEq, Repr

def locate (tree : FileTree) (path : Path) : Except FileError Place :=
  if path.hasNul then .error .nulInName
  else if path.isEmpty then .error .notFound
  else if path.endsInDots then (tree.reach path).map fun _ => .directory
  else match path.names.getLast? with
    | none => .ok .directory
    | some name => do
      let directory ← tree.walk (tree.start path) path.names.dropLast
      if nameLimit < name.utf8ByteSize then throw .nameTooLong
      return .entry (directory ++ [name]) path.endsInSlash

def readText (tree : FileTree) (path : Path) : Except FileError String := do
  match ← tree.locate path with
  | .directory => throw .isDirectory
  | .entry names asDirectory =>
    match tree.lookup names with
    | none => throw .notFound
    | some .directory => throw .isDirectory
    | some (.file text) =>
      if asDirectory then throw .notDirectory
      text.elim (throw .notText) pure

def write (tree : FileTree) (path : Path) (content : Option String) :
    Except FileError FileTree := do
  match ← tree.locate path with
  | .directory => throw .isDirectory
  | .entry names asDirectory =>
    if asDirectory then throw .isDirectory
    if tree.lookup names = some .directory then throw .isDirectory
    tree.put names (.file content)

def createDirectory (tree : FileTree) (path : Path) : Except FileError FileTree := do
  match ← tree.locate path with
  | .directory => throw .alreadyExists
  | .entry names _ =>
    if (tree.lookup names).isSome then throw .alreadyExists
    tree.put names .directory

def isDirectory (tree : FileTree) (path : Path) : Bool :=
  match tree.locate path with
  | .ok .directory => true
  | .ok (.entry names _) => tree.lookup names = some .directory
  | .error _ => false

def moveFile (tree : FileTree) (source target : Path) : Except FileError FileTree := do
  let source ← tree.locate source
  let target ← tree.locate target
  match source, target with
  | .entry old oldAsDirectory, .entry new newAsDirectory =>
    match tree.lookup old with
    | none => throw .notFound
    | some .directory => throw .isDirectory
    | some (.file content) =>
      if oldAsDirectory || newAsDirectory then throw .notDirectory
      if tree.lookup new = some .directory then throw .isDirectory
      (tree.remove old).put new (.file content)
  | _, _ => throw .busy

/-- Applies an operation that changes the tree unless it fails. -/
def change (operation : FileTree → Except FileError FileTree) :
    StateM FileTree (Except FileError Unit) := fun tree =>
  match operation tree with
  | .ok changed => (.ok (), changed)
  | .error error => (.error error, tree)

instance : Disk (StateM FileTree) where
  readText path := fun tree => (tree.readText path, tree)
  writeText path text := change (·.write path (some text))
  createDirectory path := change (·.createDirectory path)
  isDirectory path := fun tree => (tree.isDirectory path, tree)
  moveFile source target := change (·.moveFile source target)

end FileTree

end Blocklist
