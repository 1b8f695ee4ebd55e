import Blocklist.Host
import Blocklist.Proofs.FileTrees
import Blocklist.Proofs.ProperValues

/-!
# Stores in files

A store that keeps its entries in a file answers as one that keeps them in memory. Each change reads
the whole document, makes the directories that are missing, writes the new document to a draft and
renames the draft. `StoreFile.Placed` says that the file system does not stand in the way of that,
and `StoreFile.Holds` which entries the file stands for: it may be missing, blank, or an object.
A file that holds anything else is `StoreFile.Damaged`: no use of the store succeeds or changes it.
-/

namespace Blocklist

namespace StoreFile

def draftName (name : String) : String := Path.stem name ++ "." ++ "json.tmp"

/-- A store's file and its draft are names that a directory can hold, the way to that directory is
free and does not go through them, files can be made in it, and neither of them is a directory. -/
structure Placed (tree : FileTree) (directory : Path) (name : String) (place : List String) :
    Prop where
  file : FileTree.NamesEntry directory name
  short : (draftName name).utf8ByteSize ≤ FileTree.nameLimit
  leads : tree.Leads [place ++ [name], place ++ [draftName name]] (tree.start directory)
    directory.names place
  unsealed : place ∉ tree.frame.sealed
  isFile : tree.lookup (place ++ [name]) ≠ some .directory
  draftIsFile : tree.lookup (place ++ [draftName name]) ≠ some .directory

/-- The entries that a store's file stands for. -/
inductive Holds (tree : FileTree) (path : Path) : List (String × Json) → Prop where
  | missing (reads : tree.readText path = .error .notFound) : Holds tree path []
  | blank {text : String} (reads : tree.readText path = .ok text)
      (blank : Text.isBlankText text.toList) : Holds tree path []
  | document {text : String} {members : List (String × Json)}
      (reads : tree.readText path = .ok text) (stands : Json.read text = .ok (.obj members)) :
      Holds tree path members

/-- A store's file holds something that is not an object. -/
inductive Damaged (tree : FileTree) (path : Path) : Prop where
  | notText (reads : tree.readText path = .error .notText)
  | notObject {text : String} (reads : tree.readText path = .ok text)
      (filled : ¬ Text.isBlankText text.toList)
      (other : ∀ members, Json.read text ≠ .ok (.obj members))

variable {tree later : FileTree} {path directory : Path} {name : String} {place : List String}
variable {key : String} {value : Json} {old : List (String × Json)}

/-! ## The file and its draft -/

theorem Placed.names (placed : Placed tree directory name place) :
    draftPath (directory.child name) = directory.child (draftName name) :=
  Path.withExtension_child placed.file.isName placed.file.notUp "json.tmp"

/-- The characters of a stem are characters of the name. -/
theorem mem_of_mem_stem {c : Char} (among : c ∈ (Path.stem name).toList) : c ∈ name.toList := by
  rw [Path.stem] at among
  split at among
  · exact among
  · rw [String.toList_ofList, List.mem_reverse] at among
    exact List.mem_reverse.mp ((List.dropWhile_sublist _).mem (List.mem_of_mem_drop among))

theorem length_draftName (name : String) : 2 < (draftName name).length := by
  have ending : "json.tmp".length = 8 := rfl
  rw [draftName, String.length_append, ending]
  omega

/-- The draft of a file is a name in the same directory. -/
theorem Placed.draft (placed : Placed tree directory name place) :
    FileTree.NamesEntry directory (draftName name) where
  named := by
    have named := placed.file.named
    rw [Path.hasNul_child, Bool.or_eq_false_iff] at named ⊢
    refine ⟨named.1, ?_⟩
    have absent : '\x00' ∉ name.toList := by simpa using named.2
    have kept : '\x00' ∉ (Path.stem name).toList := fun among => absent (mem_of_mem_stem among)
    simp [draftName, kept]
  isName := by
    have long := length_draftName name
    refine Path.isFiller_eq_false.mpr ⟨?_, ?_⟩
    all_goals
      intro same
      rw [same] at long
      contradiction
  notUp := by
    intro same
    have long := length_draftName name
    rw [same] at long
    contradiction
  short := placed.short

/-- A path to a directory that is there, with two names in it that are no directories. -/
theorem placed_of_reach (file : FileTree.NamesEntry directory name)
    (short : (draftName name).utf8ByteSize ≤ FileTree.nameLimit)
    (reaches : tree.reach directory = .ok place) (unsealed : place ∉ tree.frame.sealed)
    (isFile : tree.lookup (place ++ [name]) ≠ some .directory)
    (draftIsFile : tree.lookup (place ++ [draftName name]) ≠ some .directory) :
    Placed tree directory name place where
  file := file
  short := short
  leads := FileTree.leads_of_walk reaches (by simp [isFile, draftIsFile])
  unsealed := unsealed
  isFile := isFile
  draftIsFile := draftIsFile

/-! ## Reading -/

theorem entries_of_text {text : String} (reads : tree.readText path = .ok text) :
    (entries path : StateM FileTree _) tree = (entriesOf path text, tree) := by
  have first : (Disk.readText path : StateM FileTree _) tree = (.ok text, tree) :=
    Prod.ext reads rfl
  exact FileTree.run_bind first

theorem entries_of_missing (reads : tree.readText path = .error .notFound) :
    (entries path : StateM FileTree _) tree = (.ok [], tree) := by
  have first : (Disk.readText path : StateM FileTree _) tree = (.error .notFound, tree) :=
    Prod.ext reads rfl
  exact FileTree.run_bind first

theorem Holds.entries (holds : Holds tree path old) :
    (StoreFile.entries path : StateM FileTree _) tree = (.ok old, tree) := by
  cases holds with
  | missing reads => exact entries_of_missing reads
  | blank reads blank => rw [entries_of_text reads, entriesOf, if_pos blank]
  | document reads stands =>
    rw [entries_of_text reads, entriesOf, if_neg (Json.not_blank_of_read stands), stands]

theorem Damaged.entries (damaged : Damaged tree path) :
    ∃ detail, (StoreFile.entries path : StateM FileTree _) tree =
      (.error (.storage detail), tree) := by
  cases damaged with
  | notText reads =>
    have first : (Disk.readText path : StateM FileTree _) tree = (.error .notText, tree) :=
      Prod.ext reads rfl
    exact ⟨_, FileTree.run_bind first⟩
  | @notObject text reads filled other =>
    rw [entries_of_text reads, entriesOf, if_neg filled]
    split
    · next members stands => exact absurd stands (other members)
    · exact ⟨_, rfl⟩
    · exact ⟨_, rfl⟩

/-- The entries that a file stands for are members of a proper object. -/
theorem Holds.proper (holds : Holds tree path old) :
    (Json.obj old).Proper Json.Reader.depthLimit := by
  have empty : (Json.obj []).Proper (126 + 1) := .obj .nil (List.forall_mem_nil _)
  cases holds with
  | missing => exact empty
  | blank => exact empty
  | document _ stands => exact Json.proper_of_read stands

/-- A store's file in its place is missing, blank, an object, or damaged. -/
theorem Placed.holds_or_damaged (placed : Placed tree directory name place) :
    (∃ members, Holds tree (directory.child name) members) ∨
      Damaged tree (directory.child name) := by
  obtain reaches | missing := placed.leads.walk
  · have reads := FileTree.readText_child placed.file reaches
    cases found : tree.lookup (place ++ [name]) with
    | none =>
      rw [found] at reads
      exact .inl ⟨[], .missing reads⟩
    | some present =>
      rw [found] at reads
      cases present with
      | directory => exact absurd found placed.isFile
      | file content =>
        cases content with
        | none => exact .inr (.notText reads)
        | some text =>
          by_cases blank : Text.isBlankText text.toList
          · exact .inl ⟨[], .blank reads blank⟩
          · by_cases stands : ∃ members, Json.read text = .ok (.obj members)
            · obtain ⟨members, stands⟩ := stands
              exact .inl ⟨members, .document reads stands⟩
            · exact .inr (.notObject reads blank fun members same => stands ⟨members, same⟩)
  · exact .inl ⟨[], .missing (FileTree.readText_of_missing placed.file missing)⟩

theorem get_eq {result : Except EngineError (List (String × Json))}
    (reads : (entries path : StateM FileTree _) tree = (result, tree)) (key : String) :
    (get path key : StateM FileTree _) tree = (result.map (·.lookup key), tree) :=
  FileTree.run_bind reads

/-! ## Writing -/

section

variable {action : ExceptT EngineError (StateM FileTree) α}
variable {next : α → ExceptT EngineError (StateM FileTree) β}

theorem run_bind_ok {answer : α} (first : action.run tree = (.ok answer, later)) :
    (action >>= next).run tree = (next answer).run later := by
  rw [ExceptT.run_bind]
  exact FileTree.run_bind first

theorem run_bind_error {error : EngineError} (first : action.run tree = (.error error, later)) :
    (action >>= next).run tree = (.error error, later) := by
  rw [ExceptT.run_bind]
  exact FileTree.run_bind first

/-- A file operation that succeeds inside a longer one. -/
theorem run_lift {operation : StateM FileTree α} {answer : α}
    (gives : operation tree = (answer, later)) :
    (liftM operation : ExceptT EngineError (StateM FileTree) α).run tree = (.ok answer, later) := by
  change (Except.ok (operation tree).1, (operation tree).2) = _
  rw [gives]

end

theorem set_of_error {error : EngineError}
    (reads : (entries path : StateM FileTree _) tree = (.error error, tree)) (key : String)
    (value : Json) : (set path key value : StateM FileTree _) tree = (.error error, tree) :=
  run_bind_error reads

/-- Each step of a change succeeds. -/
theorem set_of_steps {made drafted moved : FileTree}
    (reads : (entries path : StateM FileTree _) tree = (.ok old, tree))
    (parents : (makeParents path : ExceptT EngineError (StateM FileTree) Unit).run tree =
      (.ok (), made))
    (writes : made.write (draftPath path)
      (some (Json.obj (Json.insertMember key value old)).pretty) = .ok drafted)
    (moves : drafted.moveFile (draftPath path) path = .ok moved) :
    (set path key value : StateM FileTree _) tree = (.ok (), moved) := by
  have written : (Disk.writeText (draftPath path)
      (Json.obj (Json.insertMember key value old)).pretty : StateM FileTree _) made =
        (.ok (), drafted) := FileTree.change_of_ok writes
  have renamed : (Disk.moveFile (draftPath path) path : StateM FileTree _) drafted =
      (.ok (), moved) := FileTree.change_of_ok moves
  refine (run_bind_ok reads).trans ((run_bind_ok parents).trans ?_)
  exact (run_bind_ok (run_lift written)).trans (run_bind_ok (run_lift renamed))

/-- The directories that hold a store's file are made where the way is free. -/
theorem makeParents_of_leads {clear : List (List String)}
    (file : FileTree.NamesEntry directory name)
    (leads : tree.Leads clear (tree.start directory) directory.names place) :
    ∃ made, (makeParents (directory.child name) : ExceptT EngineError (StateM FileTree) Unit).run
        tree = (.ok (), made) ∧
      FileTree.Grown clear tree made ∧ made.reach directory = .ok place := by
  have parent : (directory.child name).parent? = some directory.trimmed :=
    Path.parent?_child file.isName
  by_cases here : directory.trimmed.isEmpty
  · have empty : directory = ⟨"", []⟩ := by
      rw [Path.isEmpty_trimmed] at here
      exact Path.isEmpty_iff.mp here
    subst empty
    cases leads
    refine ⟨tree, ?_, .refl clear tree, rfl⟩
    simp only [makeParents, parent, here]
    rfl
  · obtain ⟨made, makes, grown, reaches⟩ := FileTree.createDirectories_trimmed
      (Path.hasNul_of_child file.named) leads
    refine ⟨made, ?_, grown, reaches⟩
    simp only [makeParents, parent, here]
    exact run_bind_ok (run_lift makes)

/-- A tree after a draft was written and renamed. -/
def replaced (tree : FileTree) (draft file : List String) (document : String) : FileTree :=
  ((tree.set draft (.file (some document))).remove draft).set file (.file (some document))

section

variable {draft file : List String} {document : String}

theorem lookup_replaced_file (free : tree.lookup file ≠ some .directory) :
    (replaced tree draft file document).lookup file = some (.file (some document)) :=
  FileTree.lookup_set_self (FileTree.lookup_remove_ne (FileTree.lookup_set_file_ne free))

theorem lookup_replaced_draft (free : tree.lookup draft ≠ some .directory) :
    (replaced tree draft file document).lookup draft ≠ some .directory :=
  FileTree.lookup_set_file_ne (FileTree.lookup_remove_ne (FileTree.lookup_set_file_ne free))

theorem lookup_replaced_of_not_mem {names : List String} (apart : names ∉ [file, draft]) :
    (replaced tree draft file document).lookup names = tree.lookup names := by
  obtain ⟨notFile, notDraft⟩ : names ≠ file ∧ names ≠ draft := by simpa using apart
  rw [replaced, FileTree.lookup_set_of_ne notFile, FileTree.lookup_remove_of_ne notDraft,
    FileTree.lookup_set_of_ne notDraft]

end

/-- A change of a store's file in its place succeeds, and the file holds the new entries. -/
theorem Placed.set (placed : Placed tree directory name place)
    (holds : Holds tree (directory.child name) old)
    (proper : Json.Proper Json.Reader.depthLimit (.obj (Json.insertMember key value old)))
    (free : Json.FloatFree (.obj (Json.insertMember key value old))) :
    ∃ later, (StoreFile.set (directory.child name) key value : StateM FileTree _) tree =
        (.ok (), later) ∧
      Placed later directory name place ∧
      Holds later (directory.child name) (Json.insertMember key value old) := by
  let file := place ++ [name]
  let draft := place ++ [draftName name]
  let document := (Json.obj (Json.insertMember key value old)).pretty
  obtain ⟨made, parents, grown, reaches⟩ := makeParents_of_leads placed.file placed.leads
  have way := placed.leads.grown grown
  rw [← FileTree.start_congr grown.frame] at way
  have unsealed : place ∉ made.frame.sealed := grown.frame ▸ placed.unsealed
  have fileFree : made.lookup file ≠ some .directory :=
    grown.lookup_eq (.head _) ▸ placed.isFile
  have draftFree : made.lookup draft ≠ some .directory :=
    grown.lookup_eq (.tail _ (.head _)) ▸ placed.draftIsFile
  -- The draft is written.
  have writes := FileTree.write_child placed.draft reaches unsealed draftFree (some document)
  have drafted : (made.set draft (.file (some document))).reach directory = .ok place := by
    rw [← reaches]
    apply way.reach_congr FileTree.frame_set
    intro names apart
    apply FileTree.lookup_set_of_ne
    rintro rfl
    exact apart (.tail _ (.head _))
  -- The draft takes the place of the file.
  have moves := FileTree.moveFile_child placed.draft placed.file drafted unsealed
    (FileTree.lookup_set_self draftFree) (FileTree.lookup_set_file_ne fileFree)
  rw [← placed.names] at writes moves
  have apart (names : List String) (among : names ∉ [file, draft]) :
      (replaced made draft file document).lookup names = made.lookup names :=
    lookup_replaced_of_not_mem among
  have reached : (replaced made draft file document).reach directory = .ok place := by
    rw [← reaches]
    exact way.reach_congr rfl apart
  refine ⟨replaced made draft file document, set_of_steps holds.entries parents writes moves,
    ?_, StoreFile.Holds.document ?_ (proper.read_pretty free)⟩
  · exact {
      file := placed.file
      short := placed.short
      leads := way.mono rfl fun names among => .inl (apart names among)
      unsealed := unsealed
      isFile := by simp [file, lookup_replaced_file fileFree]
      draftIsFile := lookup_replaced_draft draftFree }
  · rw [FileTree.readText_child placed.file reached, lookup_replaced_file fileFree]
    rfl

end StoreFile

end Blocklist
