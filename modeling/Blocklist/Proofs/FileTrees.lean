import Blocklist.Files.Tree
import Blocklist.Proofs.Paths
import Mathlib.Data.List.Basic

/-!
# Files in a tree

What the operations on a file tree do to the entries that paths lead to. A path to a file is a
directory's path and a name. Where the way to the directory is free, the missing directories can be
made, and after that a file of that directory can be read, written and renamed.
-/

namespace Blocklist

namespace FileTree

variable {tree : FileTree} {names others : List String} {entry : Entry}

/-! ## Entries -/

@[simp] theorem frame_set : (tree.set names entry).frame = tree.frame := rfl

@[simp] theorem frame_remove : (tree.remove names).frame = tree.frame := rfl

/-- What is no directory is not one of those that are always there. -/
theorem holds_eq_false (free : tree.lookup names ≠ some .directory) :
    tree.frame.holds names = false := by
  by_contra held
  exact free (if_pos (by simpa using held))

theorem lookup_set_self (free : tree.lookup names ≠ some .directory) :
    (tree.set names entry).lookup names = some entry := by
  rw [lookup, frame_set, holds_eq_false free, if_neg Bool.false_ne_true, set, List.lookup_cons_self]

theorem lookup_filter_of_ne (entries : List (List String × Entry)) (differs : others ≠ names) :
    (entries.filter (·.1 != names)).lookup others = entries.lookup others := by
  induction entries with
  | nil => rfl
  | cons first entries ih =>
    obtain ⟨place, entry⟩ := first
    by_cases same : place = names
    · subst same
      have missed : (others == place) = false := beq_eq_false_iff_ne.mpr differs
      simp [List.lookup_cons, missed, ih]
    · simp [List.lookup_cons, same, ih]

theorem lookup_set_of_ne (differs : others ≠ names) :
    (tree.set names entry).lookup others = tree.lookup others := by
  have missed : (others == names) = false := beq_eq_false_iff_ne.mpr differs
  rw [lookup, lookup, frame_set, set, List.lookup_cons, missed, lookup_filter_of_ne _ differs]

theorem lookup_remove_of_ne (differs : others ≠ names) :
    (tree.remove names).lookup others = tree.lookup others := by
  rw [lookup, lookup, frame_remove, remove, lookup_filter_of_ne _ differs]

theorem lookup_remove_self (free : tree.lookup names ≠ some .directory) :
    (tree.remove names).lookup names = none := by
  rw [lookup, frame_remove, holds_eq_false free, if_neg Bool.false_ne_true, remove,
    List.lookup_eq_none_iff]
  intro entry among
  obtain ⟨-, differs⟩ := List.mem_filter.mp among
  exact bne_iff_ne.mpr (bne_iff_ne.mp differs).symm

/-- Where no directory is, writing and removing files makes none. -/
theorem lookup_set_file_ne {content : Option String} (free : tree.lookup others ≠ some .directory) :
    (tree.set names (.file content)).lookup others ≠ some .directory := by
  by_cases same : others = names
  · subst same
    rw [lookup_set_self free]
    exact nofun
  · rwa [lookup_set_of_ne same]

theorem lookup_remove_ne (free : tree.lookup others ≠ some .directory) :
    (tree.remove names).lookup others ≠ some .directory := by
  by_cases same : others = names
  · subst same
    rw [lookup_remove_self free]
    exact nofun
  · rwa [lookup_remove_of_ne same]

theorem put_eq_ok_iff {later : FileTree} : tree.put names entry = .ok later ↔
    names.dropLast ∉ tree.frame.sealed ∧ tree.set names entry = later := by
  rw [put]
  split
  · next inside => simpa using fun outside => absurd (by simpa using inside) outside
  · next outside => simpa using fun _ => by simpa using outside

/-! ## Ways to directories -/

/-- A part of a path leads up, or to a directory of that name. -/
theorem descend_eq_ok_iff {directory next : List String} {part : String} :
    tree.descend directory part = .ok next ↔
      part = ".." ∧ next = directory.dropLast ∨
      part ≠ ".." ∧ part.utf8ByteSize ≤ nameLimit ∧
        tree.lookup (directory ++ [part]) = some .directory ∧ next = directory ++ [part] := by
  rw [descend]
  by_cases up : part = ".."
  · simpa [up] using eq_comm
  · by_cases short : part.utf8ByteSize ≤ nameLimit
    · rw [if_neg up, if_neg (Nat.not_lt.mpr short)]
      rcases found : tree.lookup (directory ++ [part]) with _ | _ | _
      · simp [up]
      · simp [up]
      · simpa [up, short] using eq_comm
    · simp [up, short, Nat.not_le.mp short]

/-- A walk goes through the directory that its first part leads to. -/
theorem walk_cons_eq_ok_iff {directory target parts : List String} {part : String} :
    (part :: parts).foldlM tree.descend directory = .ok target ↔
      ∃ next, tree.descend directory part = .ok next ∧
        parts.foldlM tree.descend next = .ok target := by
  rw [List.foldlM_cons]
  cases tree.descend directory part <;> simp [bind, Except.bind]

/-- The parts of a path lead from one directory to another one, when the directories that are
missing are made: nothing on the way is a file, every name is short enough, what is missing can be
made, and the way stays clear of some places. -/
inductive Leads (tree : FileTree) (clear : List (List String)) :
    List String → List String → List String → Prop where
  | here {directory : List String} : Leads tree clear directory [] directory
  | up {directory target parts : List String}
      (rest : Leads tree clear directory.dropLast parts target) :
      Leads tree clear directory (".." :: parts) target
  | down {directory target parts : List String} {part : String} (name : part ≠ "..")
      (short : part.utf8ByteSize ≤ nameLimit)
      (free : ∀ text, tree.lookup (directory ++ [part]) ≠ some (.file text))
      (unsealed : tree.lookup (directory ++ [part]) = none → directory ∉ tree.frame.sealed)
      (apart : directory ++ [part] ∉ clear)
      (rest : Leads tree clear (directory ++ [part]) parts target) :
      Leads tree clear directory (part :: parts) target

/-- A tree has grown when directories were made where nothing was, at none of some places. -/
structure Grown (clear : List (List String)) (tree later : FileTree) : Prop where
  frame : later.frame = tree.frame
  lookup : ∀ names, later.lookup names = tree.lookup names ∨
    tree.lookup names = none ∧ later.lookup names = some .directory ∧ names ∉ clear

variable {clear : List (List String)} {later finally_ : FileTree}

theorem Grown.refl (clear : List (List String)) (tree : FileTree) : Grown clear tree tree :=
  ⟨rfl, fun _ => .inl rfl⟩

theorem Grown.trans (first : Grown clear tree later) (second : Grown clear later finally_) :
    Grown clear tree finally_ := by
  refine ⟨second.frame.trans first.frame, fun names => ?_⟩
  obtain same | ⟨missing, made, apart⟩ := first.lookup names
  · rw [← same]
    exact second.lookup names
  · obtain again | ⟨gone, -, -⟩ := second.lookup names
    · exact .inr ⟨missing, again.trans made, apart⟩
    · rw [made] at gone
      contradiction

/-- Nothing changes at the places that a growing tree stays clear of. -/
theorem Grown.lookup_eq (grown : Grown clear tree later) (among : names ∈ clear) :
    later.lookup names = tree.lookup names := by
  obtain same | ⟨-, -, apart⟩ := grown.lookup names
  · exact same
  · exact absurd among apart

/-- A directory that is made where nothing was lets the tree grow. -/
theorem grown_set (missing : tree.lookup names = none) (apart : names ∉ clear) :
    Grown clear tree (tree.set names .directory) := by
  refine ⟨rfl, fun others => ?_⟩
  by_cases same : others = names
  · subst same
    exact .inr ⟨missing, lookup_set_self (by simp [missing]), apart⟩
  · exact .inl (lookup_set_of_ne same)

/-- A way stays free while nothing but directories is made on it. -/
theorem Leads.mono {directory parts target : List String}
    (leads : Leads tree clear directory parts target) (frame : later.frame = tree.frame)
    (kept : ∀ names ∉ clear, later.lookup names = tree.lookup names ∨
      later.lookup names = some .directory) : Leads later clear directory parts target := by
  induction leads with
  | here => exact .here
  | up _ ih => exact .up ih
  | @down directory _ _ part name short free unsealed apart _ ih =>
    obtain same | made := kept _ apart
    · exact .down name short (same ▸ free) (same ▸ frame ▸ unsealed) apart ih
    · exact .down name short (by simp [made]) (by simp [made]) apart ih

theorem Leads.grown {directory parts target : List String}
    (leads : Leads tree clear directory parts target) (grown : Grown clear tree later) :
    Leads later clear directory parts target :=
  leads.mono grown.frame fun names _ => (grown.lookup names).imp_right fun made => made.2.1

/-- Walking a free way reaches its end, or finds a directory missing. -/
theorem Leads.walk {directory parts target : List String}
    (leads : Leads tree clear directory parts target) :
    parts.foldlM tree.descend directory = .ok target ∨
      parts.foldlM tree.descend directory = .error .notFound := by
  induction leads with
  | here => exact .inl rfl
  | up _ ih => exact ih
  | @down directory _ parts part name short free _ _ _ ih =>
    rw [List.foldlM_cons]
    cases found : tree.lookup (directory ++ [part]) with
    | none =>
      have stops : tree.descend directory part = .error .notFound := by
        rw [descend, if_neg name, if_neg (Nat.not_lt.mpr short), found]
      rw [stops]
      exact .inr rfl
    | some entry =>
      cases entry with
      | file text => exact absurd found (free text)
      | directory =>
        rw [descend_eq_ok_iff.mpr (.inr ⟨name, short, found, rfl⟩)]
        exact ih

/-- Walking a free way does not depend on the places that it stays clear of. -/
theorem Leads.walk_congr {directory parts target : List String}
    (leads : Leads tree clear directory parts target)
    (same : ∀ names ∉ clear, later.lookup names = tree.lookup names) :
    parts.foldlM later.descend directory = parts.foldlM tree.descend directory := by
  induction leads with
  | here => rfl
  | up _ ih => exact ih
  | @down directory _ parts part name short free _ apart _ ih =>
    have steps : later.descend directory part = tree.descend directory part := by
      rw [descend, descend, same _ apart]
    rw [List.foldlM_cons, List.foldlM_cons, steps]
    cases descends : tree.descend directory part with
    | error error => rfl
    | ok next =>
      obtain ⟨up, -⟩ | ⟨-, -, -, rfl⟩ := descend_eq_ok_iff.mp descends
      · exact absurd up name
      · exact ih

/-- The way to a directory that is there is free, and stays clear of all that is no directory. -/
theorem leads_of_walk {directory parts target : List String}
    (walks : parts.foldlM tree.descend directory = .ok target)
    (apart : ∀ names ∈ clear, tree.lookup names ≠ some .directory) :
    Leads tree clear directory parts target := by
  induction parts generalizing directory with
  | nil =>
    obtain rfl := Except.ok.inj walks
    exact .here
  | cons part parts ih =>
    obtain ⟨next, descends, walks⟩ := walk_cons_eq_ok_iff.mp walks
    have rest := ih walks
    obtain ⟨rfl, rfl⟩ | ⟨name, short, found, rfl⟩ := descend_eq_ok_iff.mp descends
    · exact .up rest
    · exact .down name short (by simp [found]) (by simp [found])
        (fun among => apart _ among found) rest

/-- The way to a name in a directory goes through that directory. -/
theorem leads_concat_iff {directory parts target : List String} {last : String} :
    Leads tree clear directory (parts ++ [last]) target ↔
      ∃ middle, Leads tree clear directory parts middle ∧
        Leads tree clear middle [last] target := by
  constructor
  · intro leads
    induction parts generalizing directory with
    | nil => exact ⟨directory, .here, leads⟩
    | cons part parts ih =>
      cases leads with
      | up rest =>
        obtain ⟨middle, front, back⟩ := ih rest
        exact ⟨middle, .up front, back⟩
      | down name short free unsealed apart rest =>
        obtain ⟨middle, front, back⟩ := ih rest
        exact ⟨middle, .down name short free unsealed apart front, back⟩
  · rintro ⟨middle, front, back⟩
    induction front with
    | here => exact back
    | up _ ih => exact .up (ih back)
    | down name short free unsealed apart _ ih =>
      exact .down name short free unsealed apart (ih back)

/-! ## Making directories -/

/-- What making a directory does where the way to it is free: it is there already, or it is made, or
a directory above it is missing. -/
inductive Making (tree : FileTree) (clear : List (List String)) (path : Path)
    (target : List String) : Prop where
  | present (reaches : tree.reach path = .ok target)
      (fails : tree.createDirectory path = .error .alreadyExists)
      (isDirectory : tree.isDirectory path)
  | made {later : FileTree} (makes : tree.createDirectory path = .ok later)
      (grown : Grown clear tree later) (reaches : later.reach path = .ok target)
  | missing (fails : tree.createDirectory path = .error .notFound)
      (above : ∀ middle, tree.walk (tree.start path) path.names.dropLast ≠ .ok middle)

section

variable {path directory : Path} {name : String} {target middle : List String}

theorem start_congr (frame : later.frame = tree.frame) (path : Path) :
    later.start path = tree.start path := by
  rw [start, start, frame]

/-- Where a path with a free way leads does not depend on the places that it stays clear of. -/
theorem Leads.reach_congr (leads : Leads tree clear (tree.start path) path.names target)
    (frame : later.frame = tree.frame)
    (same : ∀ names ∉ clear, later.lookup names = tree.lookup names) :
    later.reach path = tree.reach path := by
  rw [reach, start_congr frame]
  exact leads.walk_congr same

theorem start_child (tree : FileTree) (directory : Path) (name : String) :
    tree.start (directory.child name) = tree.start directory := by
  rw [start, start, Path.isAbsolute_child]

theorem reach_child (tree : FileTree) (directory : Path) (isName : Path.isFiller name = false) :
    tree.reach (directory.child name) = tree.reach directory >>= (tree.descend · name) := by
  rw [reach, start_child, Path.names_child isName, walk, List.foldlM_append]
  simp [reach, walk]

/-- The way to a name, the name apart, is the way to the directory. -/
theorem walk_dropLast_child (tree : FileTree) (directory : Path)
    (isName : Path.isFiller name = false) :
    tree.walk (tree.start (directory.child name)) (directory.child name).names.dropLast =
      tree.reach directory := by
  rw [start_child, Path.names_child isName, List.dropLast_concat, reach]

theorem start_trimmed (tree : FileTree) (path : Path) :
    tree.start path.trimmed = tree.start path := by
  rw [start, start, Path.isAbsolute_trimmed]

theorem reach_trimmed (tree : FileTree) (path : Path) :
    tree.reach path.trimmed = tree.reach path := by
  rw [reach, reach, start_trimmed, Path.names_trimmed]

theorem locate_of_endsInDots (named : path.hasNul = false) (given : path.isEmpty = false)
    (dots : path.endsInDots) : tree.locate path = (tree.reach path).map fun _ => .directory := by
  simp [locate, named, given, dots]

/-- A directory and a name that an entry of it can have. -/
structure NamesEntry (directory : Path) (name : String) : Prop where
  named : (directory.child name).hasNul = false
  isName : Path.isFiller name = false
  notUp : name ≠ ".."
  short : name.utf8ByteSize ≤ nameLimit

/-- A name in a directory is located where the directory is. -/
theorem locate_child (tree : FileTree) (entry : NamesEntry directory name) :
    tree.locate (directory.child name) =
      (tree.reach directory).map fun middle => .entry (middle ++ [name]) false := by
  have dots : (directory.child name).endsInDots = false := by
    simp [Path.endsInDots_child entry.isName, entry.notUp]
  have long : ¬ nameLimit < name.utf8ByteSize := Nat.not_lt.mpr entry.short
  simp only [locate, reach, entry.named, Path.isEmpty_child entry.isName, dots, start_child,
    Path.names_child entry.isName, Path.endsInSlash_child entry.isName, List.getLast?_concat,
    List.dropLast_concat, Bool.false_eq_true, if_false]
  cases tree.walk (tree.start directory) directory.names <;>
    simp [bind, Except.bind, Except.map, long, pure, Except.pure]

theorem locate_of_reach (entry : NamesEntry directory name)
    (reaches : tree.reach directory = .ok middle) :
    tree.locate (directory.child name) = .ok (.entry (middle ++ [name]) false) := by
  rw [locate_child tree entry, reaches]
  rfl

theorem locate_of_missing (entry : NamesEntry directory name)
    (missing : tree.reach directory = .error .notFound) :
    tree.locate (directory.child name) = .error .notFound := by
  rw [locate_child tree entry, missing]
  rfl

/-- A directory that cannot be located cannot be made. -/
theorem createDirectory_of_locate_error {error : FileError}
    (fails : tree.locate path = .error error) : tree.createDirectory path = .error error := by
  rw [createDirectory, fails]
  rfl

/-- A directory is made where a path leads to an entry that is missing and can be made. -/
theorem createDirectory_of_missing {names : List String} {slash : Bool}
    (located : tree.locate path = .ok (.entry names slash)) (missing : tree.lookup names = none)
    (unsealed : names.dropLast ∉ tree.frame.sealed) :
    tree.createDirectory path = .ok (tree.set names .directory) := by
  have puts : tree.put names .directory = .ok (tree.set names .directory) :=
    put_eq_ok_iff.mpr ⟨unsealed, rfl⟩
  simp [createDirectory, located, missing, bind, Except.bind, puts]

/-- A directory that is there is not made again. -/
theorem createDirectory_of_isDirectory (present : tree.isDirectory path) :
    tree.createDirectory path = .error .alreadyExists := by
  rw [isDirectory] at present
  rw [createDirectory]
  cases located : tree.locate path with
  | error error => simp [located] at present
  | ok place =>
    cases place with
    | directory => rfl
    | entry names slash =>
      have found : tree.lookup names = some .directory := by simpa [located] using present
      simp [found, bind, Except.bind, throw, throwThe, MonadExceptOf.throw]

theorem descend_directory (isName : name ≠ "..") (short : name.utf8ByteSize ≤ nameLimit)
    (found : tree.lookup (middle ++ [name]) = some .directory) :
    tree.descend middle name = .ok (middle ++ [name]) :=
  descend_eq_ok_iff.mpr (.inr ⟨isName, short, found, rfl⟩)

theorem Grown.descend {part : String} {next : List String} (grown : Grown clear tree later)
    (steps : tree.descend middle part = .ok next) : later.descend middle part = .ok next := by
  rw [descend_eq_ok_iff] at steps ⊢
  obtain up | ⟨name, short, found, target⟩ := steps
  · exact .inl up
  · refine .inr ⟨name, short, ?_, target⟩
    obtain same | ⟨nothing, -⟩ := grown.lookup (middle ++ [part])
    · exact same.trans found
    · rw [nothing] at found
      contradiction

/-- A walk that succeeds goes on to succeed in a tree that has grown. -/
theorem Grown.walk {parts : List String} (grown : Grown clear tree later)
    (walks : tree.walk middle parts = .ok target) : later.walk middle parts = .ok target := by
  unfold FileTree.walk at walks ⊢
  induction parts generalizing middle with
  | nil => exact walks
  | cons part parts ih =>
    obtain ⟨next, steps, walks⟩ := walk_cons_eq_ok_iff.mp walks
    exact walk_cons_eq_ok_iff.mpr ⟨next, grown.descend steps, ih walks⟩

theorem Grown.reach (grown : Grown clear tree later) (reaches : tree.reach path = .ok target) :
    later.reach path = .ok target := by
  rw [FileTree.reach, start_congr grown.frame]
  exact grown.walk reaches

/-- Where the way is free, making the directory that a name stands for. -/
theorem making_name (entry : NamesEntry directory name)
    (free : ∀ text, tree.lookup (middle ++ [name]) ≠ some (.file text))
    (unsealed : tree.lookup (middle ++ [name]) = none → middle ∉ tree.frame.sealed)
    (apart : middle ++ [name] ∉ clear)
    (reached : tree.reach directory = .ok middle ∨ tree.reach directory = .error .notFound) :
    Making tree clear (directory.child name) (middle ++ [name]) := by
  cases reached with
  | inl reached =>
    have located := locate_of_reach entry reached
    cases found : tree.lookup (middle ++ [name]) with
    | none =>
      have grown := grown_set found apart
      apply Making.made (createDirectory_of_missing located found ?_) grown
      · rw [reach_child _ _ entry.isName, grown.reach reached]
        exact descend_directory entry.notUp entry.short (lookup_set_self (by simp [found]))
      · rw [List.dropLast_concat]
        exact unsealed found
    | some present =>
      cases present with
      | file text => exact absurd found (free text)
      | directory =>
        have isDirectory : tree.isDirectory (directory.child name) := by
          simp [FileTree.isDirectory, located, found]
        apply Making.present _ (createDirectory_of_isDirectory isDirectory) isDirectory
        rw [reach_child _ _ entry.isName, reached]
        exact descend_directory entry.notUp entry.short found
  | inr missing =>
    apply Making.missing (createDirectory_of_locate_error (locate_of_missing entry missing))
    intro middle
    rw [walk_dropLast_child tree directory entry.isName, missing]
    exact nofun

/-- Where the way is free, making the directory above another one, which has to be there. -/
theorem making_up (named : (directory.child "..").hasNul = false)
    (reached : tree.reach directory = .ok middle ∨ tree.reach directory = .error .notFound) :
    Making tree clear (directory.child "..") middle.dropLast := by
  have isName : Path.isFiller ".." = false := by decide
  have located : tree.locate (directory.child "..") =
      (tree.reach (directory.child "..")).map fun _ => .directory :=
    locate_of_endsInDots named (Path.isEmpty_child isName) (by simp [Path.endsInDots_child isName])
  have reaches := reach_child tree directory isName
  cases reached with
  | inl reached =>
    rw [reached] at reaches
    rw [reaches] at located
    have isDirectory : tree.isDirectory (directory.child "..") := by
      rw [FileTree.isDirectory, located]
      rfl
    exact .present reaches (createDirectory_of_isDirectory isDirectory) isDirectory
  | inr missing =>
    rw [missing] at reaches
    rw [reaches] at located
    apply Making.missing (createDirectory_of_locate_error located)
    intro middle
    rw [walk_dropLast_child tree directory isName, missing]
    exact nofun

/-- Making a directory where the way is free. -/
theorem making_child (named : (directory.child name).hasNul = false)
    (isName : Path.isFiller name = false)
    (leads : Leads tree clear (tree.start directory) (directory.child name).names target) :
    Making tree clear (directory.child name) target := by
  rw [Path.names_child isName] at leads
  obtain ⟨middle, front, back⟩ := leads_concat_iff.mp leads
  cases back with
  | up rest =>
    cases rest
    exact making_up named front.walk
  | down notUp short free unsealed apart rest =>
    cases rest
    exact making_name ⟨named, isName, notUp, short⟩ free unsealed apart front.walk

end

/-! ## Making a directory with those above it -/

/-- A program on a tree goes on where its first part ends. -/
theorem run_bind {program : StateM FileTree α} {next : α → StateM FileTree β} {value : α}
    (first : program tree = (value, later)) : (program >>= next) tree = next value later := by
  change next (program tree).1 (program tree).2 = _
  rw [first]

theorem change_of_ok {operation : FileTree → Except FileError FileTree}
    (changes : operation tree = .ok later) : change operation tree = (.ok (), later) := by
  rw [change, changes]

theorem change_of_error {operation : FileTree → Except FileError FileTree} {error : FileError}
    (fails : operation tree = .error error) : change operation tree = (.error error, tree) := by
  rw [change, fails]

section

variable {path : Path} {target : List String}

theorem createDirectory_of_ok (makes : tree.createDirectory path = .ok later) :
    (Disk.createDirectory path : StateM FileTree _) tree = (.ok (), later) := change_of_ok makes

theorem createDirectory_of_error {error : FileError}
    (fails : tree.createDirectory path = .error error) :
    (Disk.createDirectory path : StateM FileTree _) tree = (.error error, tree) :=
  change_of_error fails

theorem isDirectory_of_true (holds : tree.isDirectory path) :
    (Disk.isDirectory path : StateM FileTree _) tree = (true, tree) := Prod.ext holds rfl

theorem ensureDirectory_of_making (making : Making tree clear path target)
    (above : ∃ middle, tree.walk (tree.start path) path.names.dropLast = .ok middle) :
    ∃ later, (Disk.ensureDirectory path : StateM FileTree _) tree = (.ok (), later) ∧
      Grown clear tree later ∧ later.reach path = .ok target := by
  rw [Disk.ensureDirectory]
  cases making with
  | present reaches fails isDirectory =>
    refine ⟨tree, ?_, .refl clear tree, reaches⟩
    rw [run_bind (createDirectory_of_error fails)]
    exact run_bind (isDirectory_of_true isDirectory)
  | @made later makes grown reaches =>
    refine ⟨later, ?_, grown, reaches⟩
    rw [run_bind (createDirectory_of_ok makes)]
    rfl
  | missing fails blocked =>
    obtain ⟨middle, walks⟩ := above
    exact absurd walks (blocked middle)

theorem createWithin_of_isDirectory (rounds : Nat) (given : path.isEmpty = false)
    (isDirectory : tree.isDirectory path) :
    (Disk.createWithin (rounds + 1) path : StateM FileTree _) tree = (.ok (), tree) := by
  have fails := createDirectory_of_isDirectory isDirectory
  rw [Disk.createWithin, if_neg (by simp [given]), run_bind (createDirectory_of_error fails)]
  exact run_bind (isDirectory_of_true isDirectory)

/-- The directory that a path begins at is there. -/
theorem createWithin_of_start (rounds : Nat) (given : path.isEmpty = false)
    (located : tree.locate path = .ok .directory) (nowhere : path.names = []) :
    ∃ later, (Disk.createWithin (rounds + 1) path : StateM FileTree _) tree = (.ok (), later) ∧
      Grown clear tree later ∧ later.reach path = .ok (tree.start path) := by
  have isDirectory : tree.isDirectory path := by
    rw [isDirectory, located]
  refine ⟨tree, createWithin_of_isDirectory rounds given isDirectory, .refl clear tree, ?_⟩
  rw [reach, nowhere]
  rfl

/-- Making a directory with those above it is done, unless one of those is missing. -/
theorem createWithin_of_making (rounds : Nat) (given : path.isEmpty = false)
    (making : Making tree clear path target) :
    (∃ later, (Disk.createWithin (rounds + 1) path : StateM FileTree _) tree = (.ok (), later) ∧
        Grown clear tree later ∧ later.reach path = .ok target) ∨
      tree.createDirectory path = .error .notFound := by
  cases making with
  | present reaches fails isDirectory =>
    exact .inl ⟨tree, createWithin_of_isDirectory rounds given isDirectory, .refl clear tree,
      reaches⟩
  | @made later makes grown reaches =>
    refine .inl ⟨later, ?_, grown, reaches⟩
    rw [Disk.createWithin, if_neg (by simp [given]), run_bind (createDirectory_of_ok makes)]
    rfl
  | missing fails _ => exact .inr fails

/-- A directory is made after those above it. -/
theorem createWithin_of_above {rounds : Nat} {above : Path} {name : String}
    {between : FileTree} (isName : Path.isFiller name = false)
    (fails : tree.createDirectory (above.child name) = .error .notFound)
    (makes : (Disk.createWithin rounds above.trimmed : StateM FileTree _) tree = (.ok (), between))
    (ensures : (Disk.ensureDirectory (above.child name) : StateM FileTree _) between =
      (.ok (), later)) :
    (Disk.createWithin (rounds + 1) (above.child name) : StateM FileTree _) tree =
      (.ok (), later) := by
  rw [Disk.createWithin, if_neg (by simp [Path.isEmpty_child isName]),
    run_bind (createDirectory_of_error fails)]
  simp only [Path.parent?_child isName]
  exact (run_bind makes).trans ensures

/-- A directory is made together with those that are missing above it, where the way is free. -/
theorem createWithin_of_leads {rounds : Nat} (named : path.hasNul = false)
    (full : path.trimmed = path) (enough : path.climb < rounds)
    (leads : Leads tree clear (tree.start path) path.names target) :
    ∃ later, (Disk.createWithin rounds path : StateM FileTree _) tree = (.ok (), later) ∧
      Grown clear tree later ∧ later.reach path = .ok target := by
  induction rounds generalizing path target tree with
  | zero => omega
  | succ rounds ih =>
    obtain rfl | rfl | rfl | ⟨above, name, rfl, isName⟩ := Path.trimmed_eq_self full
    · cases leads
      exact ⟨tree, rfl, .refl clear tree, rfl⟩
    · cases leads
      have located : tree.locate ⟨".", []⟩ = .ok .directory := by
        rw [locate_of_endsInDots named (by decide) (by decide)]
        rfl
      exact createWithin_of_start rounds (by decide) located rfl
    · cases leads
      have located : tree.locate ⟨"", [""]⟩ = .ok .directory := by
        rw [locate, named]
        rfl
      exact createWithin_of_start rounds (by decide) located rfl
    · rw [start_child] at leads
      have making := making_child named isName leads
      obtain done | fails := createWithin_of_making rounds (Path.isEmpty_child isName) making
      · exact done
      · have way := leads
        rw [Path.names_child isName] at way
        obtain ⟨middle, front, -⟩ := leads_concat_iff.mp way
        rw [← Path.names_trimmed, ← start_trimmed] at front
        have lower : above.climb < (above.child name).climb := Path.climb_lt_child isName
        rw [← Path.climb_trimmed] at lower
        obtain ⟨between, makes, grown, reaches⟩ := ih
          (Path.hasNul_trimmed (Path.hasNul_of_child named)) (Path.trimmed_trimmed above)
          (by omega) front
        rw [reach_trimmed] at reaches
        have goesOn := leads.grown grown
        rw [← start_congr grown.frame] at goesOn
        have parent := (walk_dropLast_child between above isName).trans reaches
        obtain ⟨later, ensures, more, reached⟩ :=
          ensureDirectory_of_making (making_child named isName goesOn) ⟨middle, parent⟩
        exact ⟨later, createWithin_of_above isName fails makes ensures, grown.trans more, reached⟩

/-- A directory that a free way leads to is made together with those that are missing above it. -/
theorem createDirectories_trimmed {directory : Path} (named : directory.hasNul = false)
    (leads : Leads tree clear (tree.start directory) directory.names target) :
    ∃ later, (Disk.createDirectories directory.trimmed : StateM FileTree _) tree =
        (.ok (), later) ∧
      Grown clear tree later ∧ later.reach directory = .ok target := by
  rw [← Path.names_trimmed, ← start_trimmed] at leads
  obtain ⟨later, makes, grown, reaches⟩ := createWithin_of_leads (Path.hasNul_trimmed named)
    (Path.trimmed_trimmed directory) (Path.climb_lt directory.trimmed) leads
  exact ⟨later, makes, grown, reach_trimmed later directory ▸ reaches⟩

end

/-! ## Files -/

section

variable {directory : Path} {name other : String} {place : List String} {content : Option String}

theorem readText_of_missing (entry : NamesEntry directory name)
    (missing : tree.reach directory = .error .notFound) :
    tree.readText (directory.child name) = .error .notFound := by
  rw [readText, locate_of_missing entry missing]
  rfl

def textOf : Option Entry → Except FileError String
  | none => .error .notFound
  | some .directory => .error .isDirectory
  | some (.file text) => text.elim (.error .notText) .ok

/-- Reading an entry of a directory that is there. -/
theorem readText_child (entry : NamesEntry directory name)
    (reaches : tree.reach directory = .ok place) :
    tree.readText (directory.child name) = textOf (tree.lookup (place ++ [name])) := by
  simp only [readText, locate_of_reach entry reaches, bind, Except.bind]
  cases tree.lookup (place ++ [name]) with
  | none => rfl
  | some present => cases present <;> rfl

/-- Writing succeeds where a path leads to an entry that is no directory and need not be one, and
that the system does not provide. -/
theorem write_eq_ok_iff {path : Path} : tree.write path content = .ok later ↔
    ∃ names, tree.locate path = .ok (.entry names false) ∧ tree.lookup names ≠ some .directory ∧
      names.dropLast ∉ tree.frame.sealed ∧ tree.set names (.file content) = later := by
  rw [write]
  cases located : tree.locate path with
  | error error => simp [bind, Except.bind]
  | ok found =>
    cases found with
    | directory => simp [bind, Except.bind, throw, throwThe, MonadExceptOf.throw]
    | entry names slash =>
      cases slash with
      | true => simp [bind, Except.bind, throw, throwThe, MonadExceptOf.throw]
      | false =>
        by_cases isFile : tree.lookup names = some .directory
        · simp [bind, Except.bind, isFile, throw, throwThe, MonadExceptOf.throw]
        · simp [bind, Except.bind, isFile, put_eq_ok_iff]

/-- Writing an entry of a directory that is there. -/
theorem write_child (entry : NamesEntry directory name)
    (reaches : tree.reach directory = .ok place) (unsealed : place ∉ tree.frame.sealed)
    (isFile : tree.lookup (place ++ [name]) ≠ some .directory) (content : Option String) :
    tree.write (directory.child name) content =
      .ok (tree.set (place ++ [name]) (.file content)) :=
  write_eq_ok_iff.mpr ⟨_, locate_of_reach entry reaches, isFile, by rwa [List.dropLast_concat], rfl⟩

/-- Renaming a file inside a directory. -/
theorem moveFile_child (source : NamesEntry directory other) (target : NamesEntry directory name)
    (reaches : tree.reach directory = .ok place) (unsealed : place ∉ tree.frame.sealed)
    (present : tree.lookup (place ++ [other]) = some (.file content))
    (isFile : tree.lookup (place ++ [name]) ≠ some .directory) :
    tree.moveFile (directory.child other) (directory.child name) =
      .ok ((tree.remove (place ++ [other])).set (place ++ [name]) (.file content)) := by
  have puts : (tree.remove (place ++ [other])).put (place ++ [name]) (.file content) =
      .ok ((tree.remove (place ++ [other])).set (place ++ [name]) (.file content)) :=
    put_eq_ok_iff.mpr ⟨by rwa [List.dropLast_concat], rfl⟩
  simp [moveFile, locate_of_reach source reaches, locate_of_reach target reaches, bind, Except.bind,
    present, isFile, puts]

/-! ## Written files -/

/-- A walk goes on to succeed when a file is written. -/
theorem walk_set_file {start parts directory : List String}
    (walks : tree.walk start parts = .ok directory)
    (isFile : tree.lookup place ≠ some .directory) :
    (tree.set place (.file content)).walk start parts = .ok directory := by
  have leads : Leads tree [place] start parts directory :=
    leads_of_walk walks (by simpa using isFile)
  refine (leads.walk_congr fun names apart => lookup_set_of_ne ?_).trans walks
  simpa using apart

/-- A path that leads to an entry of a directory ends in a name, and the way to the directory is
there. -/
theorem locate_eq_entry_iff {path : Path} {names : List String} {slash : Bool} :
    tree.locate path = .ok (.entry names slash) ↔
      path.hasNul = false ∧ path.isEmpty = false ∧ path.endsInDots = false ∧
      path.endsInSlash = slash ∧ ∃ name directory, path.names.getLast? = some name ∧
        tree.walk (tree.start path) path.names.dropLast = .ok directory ∧
        name.utf8ByteSize ≤ nameLimit ∧ directory ++ [name] = names := by
  rw [locate]
  cases nul : path.hasNul
  case true => simp
  cases empty : path.isEmpty
  case true => simp
  cases dots : path.endsInDots
  case true => cases reached : tree.reach path <;> simp [Except.map]
  cases last : path.names.getLast? with
  | none => simp
  | some name =>
    cases walked : tree.walk (tree.start path) path.names.dropLast with
    | error error => simp [bind, Except.bind]
    | ok directory =>
      by_cases short : name.utf8ByteSize ≤ nameLimit
      · simp [bind, Except.bind, short, Nat.not_lt.mpr short, pure, Except.pure, and_comm]
      · simp [bind, Except.bind, short, Nat.not_le.mp short, throw, throwThe, MonadExceptOf.throw]

/-- Where one content can be written, so can any other. -/
theorem exists_write_of_isOk {path : Path} {other : Option String}
    (writable : (tree.write path other).isOk) (content : Option String) :
    ∃ later, tree.write path content = .ok later := by
  cases written : tree.write path other with
  | error error =>
    rw [written] at writable
    contradiction
  | ok blank =>
    obtain ⟨names, located, isFile, unsealed, -⟩ := write_eq_ok_iff.mp written
    exact ⟨_, write_eq_ok_iff.mpr ⟨names, located, isFile, unsealed, rfl⟩⟩

/-- What was written is what is read. -/
theorem readText_of_write {path : Path} {text : String}
    (writes : tree.write path (some text) = .ok later) : later.readText path = .ok text := by
  obtain ⟨names, located, isFile, -, rfl⟩ := write_eq_ok_iff.mp writes
  have relocated : (tree.set names (.file (some text))).locate path = .ok (.entry names false) := by
    rw [locate_eq_entry_iff] at located ⊢
    obtain ⟨nul, empty, dots, slash, name, directory, last, walks, short, same⟩ := located
    exact ⟨nul, empty, dots, slash, name, directory, last, walk_set_file walks isFile, short, same⟩
  rw [readText, relocated]
  simp [bind, Except.bind, lookup_set_self isFile, pure, Except.pure]

end

end FileTree

end Blocklist
