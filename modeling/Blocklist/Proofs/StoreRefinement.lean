import Blocklist.Proofs.StoreFiles

/-!
# A store in a file refines one in memory

Values are put into a store and asked for in any order, and a store in a file is reopened at any
point. `Host.Mirrors` ties a host with a file to one in memory: the file is in its place and stands
for the same entries. A use keeps that and gets the same answer from both, so whole runs agree. Over
a file that holds something else every use fails with a storage error, and nothing is written.
-/

namespace Blocklist

inductive StoreUse where
  | get (key : String)
  | set (key : String) (value : Json)
  | reopen

namespace StoreUse

/-- The values that a use puts into a store are read back from their text: they hold no floating
point numbers and nest below the limit of the reader, so that one more bracket around them does not
exceed it. -/
def Storable : StoreUse → Prop
  | .set _ value => value.Proper (Json.Reader.depthLimit - 1) ∧ value.FloatFree
  | _ => True

/-- What a use gets from the entries of a store. -/
def answer : StoreUse → List (String × Json) → Option Json
  | .get key, entries => entries.lookup key
  | _, _ => none

/-- The entries of a store after a use. -/
def effect : StoreUse → List (String × Json) → List (String × Json)
  | .set key value, entries => Json.insertMember key value entries
  | _, entries => entries

end StoreUse

namespace Host

/-- Carries out a use of the host's store. A host that reopens its store keeps nothing else than
what is stored. The answer is the value under a key, and nothing for the other uses. -/
def useStore : StoreUse → StateM Host (Except EngineError (Option Json))
  | .get key => readEntry key
  | .set key value => do return (← writeEntry key value).map fun () => none
  | .reopen => fun host => (.ok none, { store := host.store, files := host.files })

def useStoreAll : List StoreUse → StateM Host (List (Except EngineError (Option Json)))
  | [] => pure []
  | use :: uses => do return (← useStore use) :: (← useStoreAll uses)

variable {host file memory : Host} {entries old : List (String × Json)} {path : Path}
variable {key : String} {value : Json} {use : StoreUse} {uses : List StoreUse}

/-! ## Uses of either store -/

theorem useStoreAll_cons (use : StoreUse) (uses : List StoreUse) (host : Host) :
    useStoreAll (use :: uses) host =
      ((useStore use host).1 :: (useStoreAll uses (useStore use host).2).1,
        (useStoreAll uses (useStore use host).2).2) := rfl

theorem readEntry_memory (stored : host.store = .memory entries) (key : String) :
    readEntry key host = (.ok (entries.lookup key), host) := by
  simp only [readEntry, bind, StateT.bind, get, getThe, MonadStateOf.get, StateT.get, pure, stored]
  rfl

theorem writeEntry_memory (stored : host.store = .memory entries) (key : String) (value : Json) :
    writeEntry key value host =
      (.ok (), { host with store := .memory (Json.insertMember key value entries) }) := by
  simp only [writeEntry, bind, StateT.bind, get, getThe, MonadStateOf.get, StateT.get, pure, stored]
  rfl

theorem readEntry_file (stored : host.store = .file path) (key : String) :
    readEntry key host = onFiles (StoreFile.get path key) host := by
  simp only [readEntry, bind, StateT.bind, get, getThe, MonadStateOf.get, StateT.get, pure, stored]

theorem writeEntry_file (stored : host.store = .file path) (key : String) (value : Json) :
    writeEntry key value host = onFiles (StoreFile.set path key value) host := by
  simp only [writeEntry, bind, StateT.bind, get, getThe, MonadStateOf.get, StateT.get, pure, stored]

theorem onFiles_of_eq {operation : StateM FileTree α} {result : α} {files : FileTree}
    (gives : operation host.files = (result, files)) :
    onFiles operation host = (result, { host with files }) := by
  simp only [onFiles, gives]

theorem useStore_set {result : Except EngineError Unit} {later : Host}
    (writes : writeEntry key value host = (result, later)) :
    useStore (.set key value) host = (result.map fun () => none, later) := by
  change ((writeEntry key value host).1.map fun () => none, (writeEntry key value host).2) = _
  rw [writes]

def SameEntries (first second : List (String × Json)) : Prop :=
  ∀ key, first.lookup key = second.lookup key

theorem SameEntries.insertMember (same : SameEntries entries old) (key : String) (value : Json) :
    SameEntries (Json.insertMember key value entries) (Json.insertMember key value old) := by
  intro other
  by_cases equal : other = key
  · subst equal
    rw [Json.lookup_insertMember_self, Json.lookup_insertMember_self]
  · rw [Json.lookup_insertMember_of_ne equal, Json.lookup_insertMember_of_ne equal]
    exact same other

/-! ## The file and the memory together -/

/-- A host keeps its entries in a file. It is in its place and stands for `old`, which has no
floating point numbers. -/
structure KeepsFile (directory : Path) (name : String) (place : List String)
    (old : List (String × Json)) (host : Host) : Prop where
  stored : host.store = .file (directory.child name)
  placed : StoreFile.Placed host.files directory name place
  holds : StoreFile.Holds host.files (directory.child name) old
  free : (Json.obj old).FloatFree

/-- One host keeps its entries in a file, another one keeps the same entries in memory. -/
structure Mirrors (directory : Path) (name : String) (place : List String)
    (old : List (String × Json)) (file memory : Host) : Prop where
  keeps : KeepsFile directory name place old file
  remembered : ∃ entries, memory.store = .memory entries ∧ SameEntries entries old

variable {directory : Path} {name : String} {place : List String}

namespace KeepsFile

theorem readEntry (keeps : KeepsFile directory name place old host) (key : String) :
    Host.readEntry key host = (.ok (old.lookup key), host) :=
  (readEntry_file keeps.stored key).trans
    (onFiles_of_eq (StoreFile.get_eq keeps.holds.entries key))

/-- A value that is read back from its text can always be written. -/
theorem writeEntry (keeps : KeepsFile directory name place old host)
    (storable : StoreUse.Storable (.set key value)) :
    ∃ later, Host.writeEntry key value host = (.ok (), later) ∧
      KeepsFile directory name place (Json.insertMember key value old) later := by
  obtain ⟨proper, free⟩ := storable
  have fits := keeps.free.insertMember key free
  obtain ⟨files, sets, placed, holds⟩ :=
    keeps.placed.set keeps.holds (keeps.holds.proper.insertMember key proper) fits
  refine ⟨{ host with files }, ?_, keeps.stored, placed, holds, fits⟩
  exact (writeEntry_file keeps.stored key value).trans (onFiles_of_eq sets)

end KeepsFile

/-- A use gets the same from the file and from the memory, and has the same effect on both. -/
theorem Mirrors.step (mirrors : Mirrors directory name place old file memory) (use : StoreUse)
    (storable : use.Storable) :
    (useStore use file).1 = .ok (use.answer old) ∧
      (useStore use memory).1 = .ok (use.answer old) ∧
      Mirrors directory name place (use.effect old) (useStore use file).2
        (useStore use memory).2 := by
  obtain ⟨keeps, entries, inMemory, same⟩ := mirrors
  cases use with
  | get key =>
    simp only [useStore, keeps.readEntry key, readEntry_memory inMemory key, same key]
    exact ⟨rfl, rfl, keeps, entries, inMemory, same⟩
  | set key value =>
    obtain ⟨later, writes, kept⟩ := keeps.writeEntry storable
    rw [useStore_set writes, useStore_set (writeEntry_memory inMemory key value)]
    exact ⟨rfl, rfl, kept, _, rfl, same.insertMember key value⟩
  | reopen =>
    have reopened : KeepsFile directory name place old (useStore .reopen file).2 :=
      ⟨keeps.stored, keeps.placed, keeps.holds, keeps.free⟩
    exact ⟨rfl, rfl, reopened, entries, inMemory, same⟩

/-- Uses one after the other get the same from the file and from the memory. -/
theorem Mirrors.run (mirrors : Mirrors directory name place old file memory)
    (storable : ∀ use ∈ uses, use.Storable) :
    (useStoreAll uses file).1 = (useStoreAll uses memory).1 ∧
      (∀ answer ∈ (useStoreAll uses file).1, answer.isOk) ∧
      ∃ new, Mirrors directory name place new (useStoreAll uses file).2
        (useStoreAll uses memory).2 := by
  induction uses generalizing old file memory with
  | nil => exact ⟨rfl, List.forall_mem_nil _, old, mirrors⟩
  | cons use uses ih =>
    obtain ⟨first, others⟩ := List.forall_mem_cons.mp storable
    obtain ⟨fromFile, fromMemory, next⟩ := mirrors.step use first
    obtain ⟨same, succeed, new, later⟩ := ih next others
    rw [useStoreAll_cons, useStoreAll_cons, fromFile, fromMemory, same]
    exact ⟨rfl, List.forall_mem_cons.mpr ⟨rfl, same ▸ succeed⟩, new, later⟩

/-- A change leaves the other keys alone. -/
theorem Mirrors.get_after_set (mirrors : Mirrors directory name place old file memory)
    (storable : StoreUse.Storable (.set key value)) {other : String} (differs : other ≠ key) :
    (useStore (.get other) (useStore (.set key value) file).2).1 =
      (useStore (.get other) file).1 := by
  obtain ⟨-, -, changed⟩ := mirrors.step _ storable
  have after := (changed.step (.get other) trivial).1
  have before := (mirrors.step (.get other) trivial).1
  rw [after, before]
  exact congrArg Except.ok (Json.lookup_insertMember_of_ne differs value old)

/-! ## A damaged file -/

/-- A use of a damaged file fails, unless it only reopens the store, and changes no file. -/
theorem useStore_damaged (stored : host.store = .file path)
    (damaged : StoreFile.Damaged host.files path) (use : StoreUse) :
    (use ≠ .reopen → ∃ detail, (useStore use host).1 = .error (.storage detail)) ∧
      (useStore use host).2.store = .file path ∧ (useStore use host).2.files = host.files := by
  obtain ⟨detail, fails⟩ := damaged.entries
  cases use with
  | get key =>
    have gets := (readEntry_file stored key).trans (onFiles_of_eq (StoreFile.get_eq fails key))
    rw [useStore, gets]
    exact ⟨fun _ => ⟨detail, rfl⟩, stored, rfl⟩
  | set key value =>
    have sets := useStore_set ((writeEntry_file stored key value).trans
      (onFiles_of_eq (StoreFile.set_of_error fails key value)))
    rw [sets]
    exact ⟨fun _ => ⟨detail, rfl⟩, stored, rfl⟩
  | reopen => exact ⟨fun differs => absurd rfl differs, stored, rfl⟩

theorem useStoreAll_damaged (stored : host.store = .file path)
    (damaged : StoreFile.Damaged host.files path) (uses : List StoreUse) :
    List.Forall₂ (fun use answer => use ≠ .reopen → ∃ detail, answer = .error (.storage detail))
        uses (useStoreAll uses host).1 ∧
      (useStoreAll uses host).2.files = host.files := by
  induction uses generalizing host with
  | nil => exact ⟨.nil, rfl⟩
  | cons use uses ih =>
    obtain ⟨fails, keeps, same⟩ := useStore_damaged stored damaged use
    obtain ⟨others, unchanged⟩ := ih keeps (same ▸ damaged)
    rw [useStoreAll_cons]
    exact ⟨.cons fails others, unchanged.trans same⟩

/-! ## The refinement -/

/-- A store in a file refines one in memory. The file is in its place. It may be missing, blank, or
hold an object: then any uses of storable values get from it what they get from a memory with the
same entries, all of them succeed, and a change leaves the other keys alone. Over a file that holds
anything else every use but reopening fails with a storage error, and no file changes. -/
theorem fileStore_refines_memoryStore (file memory : Host) (uses : List StoreUse)
    (stored : file.store = .file (directory.child name))
    (placed : StoreFile.Placed file.files directory name place) :
    ((∃ members, StoreFile.Holds file.files (directory.child name) members) ∨
        StoreFile.Damaged file.files (directory.child name)) ∧
      (∀ members entries, StoreFile.Holds file.files (directory.child name) members →
        (Json.obj members).FloatFree → memory.store = .memory entries →
        SameEntries entries members → (∀ use ∈ uses, use.Storable) →
        (useStoreAll uses file).1 = (useStoreAll uses memory).1 ∧
          (∀ answer ∈ (useStoreAll uses file).1, answer.isOk) ∧
          ∀ key value, StoreUse.Storable (.set key value) → ∀ other, other ≠ key →
            (useStore (.get other)
                (useStore (.set key value) (useStoreAll uses file).2).2).1 =
              (useStore (.get other) (useStoreAll uses file).2).1) ∧
      (StoreFile.Damaged file.files (directory.child name) →
        List.Forall₂ (fun use answer => use ≠ .reopen → ∃ detail, answer = .error (.storage detail))
            uses (useStoreAll uses file).1 ∧
          (useStoreAll uses file).2.files = file.files) := by
  refine ⟨placed.holds_or_damaged, ?_, fun damaged => useStoreAll_damaged stored damaged uses⟩
  intro members entries holds free inMemory same storable
  have mirrors : Mirrors directory name place members file memory :=
    ⟨⟨stored, placed, holds, free⟩, entries, inMemory, same⟩
  obtain ⟨agree, succeed, new, later⟩ := mirrors.run storable
  exact ⟨agree, succeed, fun key value fits other differs => later.get_after_set fits differs⟩

def nestedStore (directory : Path) (files : FileTree) : Host :=
  { store := .file (directory.child "store.json"), files }

/-- Two keys are set, one of them again, and read after the store is reopened. -/
def nestedUses : List StoreUse :=
  [.set "a" (.obj [("mode", .str "high")]), .set "b" (.int 7),
    .set "a" (.obj [("mode", .str "off")]), .reopen, .get "a", .get "b"]

/-- A file that holds a list, in a directory that is reached from the root. -/
def listFiles : FileTree where
  entries := [(["nested"], .directory), (["nested", "store.json"], .file (some "[1, 2]"))]
  frame := { home := ["home"] }

theorem nested_entry {directory : Path} (named : directory.hasNul = false) :
    FileTree.NamesEntry directory "store.json" where
  named := (Path.hasNul_child _ _).trans (by simp [named])
  isName := by decide
  notUp := by decide
  short := by decide

theorem short_draftName : (StoreFile.draftName "store.json").utf8ByteSize ≤ FileTree.nameLimit := by
  decide +kernel

/-- Nothing is there yet where the store is to be. -/
theorem placed_nested : StoreFile.Placed {} ⟨"nested", []⟩ "store.json" ["nested"] where
  file := nested_entry (by simp [Path.hasNul])
  short := short_draftName
  leads := by
    have nothing : FileTree.lookup {} ["nested"] = none := by decide
    have free (text : Option String) : FileTree.lookup {} ["nested"] ≠ some (.file text) := by
      simp [nothing]
    exact .down (by decide) (by decide) free (by decide) (by decide) .here
  unsealed := by decide
  isFile := by decide
  draftIsFile := by decide

theorem missing_nested :
    FileTree.readText {} (Path.child ⟨"nested", []⟩ "store.json") = .error .notFound :=
  FileTree.readText_of_missing placed_nested.file rfl

theorem fileStore_refines_memoryStore_nested :
    (useStoreAll nestedUses (nestedStore ⟨"nested", []⟩ {})).1 = (useStoreAll nestedUses {}).1 ∧
      (useStoreAll nestedUses (nestedStore ⟨"", ["nested"]⟩ listFiles)).2.files = listFiles := by
  constructor
  · have mode (key mode : String) : StoreUse.Storable (.set key (.obj [("mode", .str mode)])) :=
      ⟨.obj (List.pairwise_singleton _ _) (by simpa using .str mode),
        .obj (by simpa using .str mode)⟩
    have number : StoreUse.Storable (.set "b" (.int 7)) :=
      ⟨.int (by decide) (by decide), .int 7⟩
    have storable : ∀ use ∈ nestedUses, use.Storable := by
      simp only [nestedUses, List.forall_mem_cons]
      exact ⟨mode _ _, number, mode _ _, trivial, trivial, trivial, List.forall_mem_nil _⟩
    exact ((fileStore_refines_memoryStore (nestedStore ⟨"nested", []⟩ {}) {} nestedUses rfl
      placed_nested).2.1 [] [] (.missing missing_nested) (.obj (List.forall_mem_nil _)) rfl
        (fun _ => rfl) storable).1
  · have entry : FileTree.NamesEntry ⟨"", ["nested"]⟩ "store.json" :=
      nested_entry (by simp [Path.hasNul])
    have reaches : listFiles.reach ⟨"", ["nested"]⟩ = .ok ["nested"] := rfl
    have placed : StoreFile.Placed listFiles ⟨"", ["nested"]⟩ "store.json" ["nested"] :=
      StoreFile.placed_of_reach entry short_draftName reaches (by decide) (by decide)
        (by decide +kernel)
    have damaged : StoreFile.Damaged listFiles (Path.child ⟨"", ["nested"]⟩ "store.json") := by
      have text : listFiles.readText (Path.child ⟨"", ["nested"]⟩ "store.json") = .ok "[1, 2]" :=
        (FileTree.readText_child entry reaches).trans rfl
      have kind : (Json.read "[1, 2]").map Json.kind = .ok .arr := by decide +kernel
      refine .notObject text (by decide +kernel) fun members same => ?_
      rw [same] at kind
      have clash : Json.Kind.obj = .arr := Except.ok.inj kind
      contradiction
    exact ((fileStore_refines_memoryStore (nestedStore ⟨"", ["nested"]⟩ listFiles) {} nestedUses rfl
      placed).2.2 damaged).2

end Host

end Blocklist
