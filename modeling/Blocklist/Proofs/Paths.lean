import Blocklist.Files.Path
import Mathlib.Data.List.DropRight

/-!
# Directories and the names in them

A path that ends in a name is taken apart into the path of a directory and that name. The operations
on paths, which work on the parts as they are written, are said here in those terms.
-/

namespace Blocklist

namespace Path

/-- The path of a name in a directory, behind a slash unless the directory ends in one. The empty
path is the directory that relative paths begin at. -/
def child (directory : Path) (name : String) : Path :=
  if directory.isEmpty then ⟨name, []⟩
  else if directory.endsInSlash then ⟨directory.head, directory.tail.dropLast ++ [name]⟩
  else ⟨directory.head, directory.tail ++ [name]⟩

/-- A path without the parts at its end that say nothing. The root keeps its slash. -/
def trimmed (path : Path) : Path :=
  if path.isAbsolute && (dropFillers path.tail).isEmpty then ⟨"", [""]⟩
  else ⟨path.head, dropFillers path.tail⟩

/-- The ways in which a name stands behind a directory. -/
inductive Behind (name : String) : (directory path : Path) → Prop where
  | alone : Behind name ⟨"", []⟩ ⟨name, []⟩
  | slashed {head : String} {front : List String} :
      Behind name ⟨head, front ++ [""]⟩ ⟨head, front ++ [name]⟩
  | unslashed {head : String} {front : List String} (given : head ≠ "" ∨ front ≠ [])
      (named : front.getLast? ≠ some "") : Behind name ⟨head, front⟩ ⟨head, front ++ [name]⟩

theorem isEmpty_iff {path : Path} : path.isEmpty ↔ path = ⟨"", []⟩ := by
  obtain ⟨head, tail⟩ := path
  simp [isEmpty]

theorem isFiller_eq_false {part : String} : isFiller part = false ↔ part ≠ "" ∧ part ≠ "." := by
  simp [isFiller]

variable {directory : Path} {name : String}

theorem behind_iff {path : Path} : Behind name directory path ↔ directory.child name = path := by
  constructor
  · intro behind
    cases behind with
    | alone => rfl
    | slashed => simp [child, isEmpty, endsInSlash]
    | @unslashed head front given named =>
      have ends : (Path.mk head front).endsInSlash = false := by simpa [endsInSlash] using named
      have nonempty : ¬ (Path.mk head front).isEmpty := by
        rw [isEmpty_iff]
        rintro ⟨⟩
        cases given <;> contradiction
      rw [child, if_neg nonempty, ends, if_neg Bool.false_ne_true]
  · rintro rfl
    rw [child]
    split
    · next empty =>
      rw [isEmpty_iff.mp empty]
      exact .alone
    · next nonempty =>
      obtain ⟨head, tail⟩ := directory
      split
      · next ends =>
        have last : tail.getLast? = some "" := by simpa [endsInSlash] using ends
        obtain ⟨front, rfl⟩ := List.getLast?_eq_some_iff.mp last
        rw [List.dropLast_concat]
        exact .slashed
      · next named =>
        apply Behind.unslashed
        · by_contra neither
          obtain ⟨rfl, rfl⟩ : head = "" ∧ tail = [] := by simpa using neither
          exact nonempty rfl
        · simpa [endsInSlash] using named

theorem behind_child (directory : Path) (name : String) :
    Behind name directory (directory.child name) := behind_iff.mpr rfl

theorem names_child (isName : isFiller name = false) :
    (directory.child name).names = directory.names ++ [name] := by
  have single : [name].filter (!isFiller ·) = [name] := by simp [isName]
  have behind := behind_child directory name
  generalize directory.child name = path at behind ⊢
  cases behind with
  | alone => exact single
  | slashed =>
    simp only [names, ← List.cons_append, List.filter_append, single]
    simp [isFiller]
  | unslashed _ _ => simp only [names, ← List.cons_append, List.filter_append, single]

theorem isAbsolute_iff {path : Path} : path.isAbsolute ↔ path.head = "" ∧ path.tail ≠ [] := by
  simp [isAbsolute]

theorem isAbsolute_child (directory : Path) (name : String) :
    (directory.child name).isAbsolute = directory.isAbsolute := by
  have behind := behind_child directory name
  generalize directory.child name = path at behind ⊢
  rw [Bool.eq_iff_iff, isAbsolute_iff, isAbsolute_iff]
  cases behind with
  | alone => simp
  | slashed => simp
  | unslashed given _ =>
    cases given with
    | inl head => simp [head]
    | inr front => simp [front]

theorem isEmpty_child (isName : isFiller name = false) :
    (directory.child name).isEmpty = false := by
  have behind := behind_child directory name
  generalize directory.child name = path at behind ⊢
  cases behind with
  | alone => simp [isEmpty, (isFiller_eq_false.mp isName).1]
  | slashed => simp [isEmpty]
  | unslashed _ _ => simp [isEmpty]

theorem endsInSlash_child (isName : isFiller name = false) :
    (directory.child name).endsInSlash = false := by
  have given := (isFiller_eq_false.mp isName).1
  have behind := behind_child directory name
  generalize directory.child name = path at behind ⊢
  cases behind with
  | alone => simp [endsInSlash]
  | slashed => simp [endsInSlash, given]
  | unslashed _ _ => simp [endsInSlash, given]

theorem endsInDots_child (isName : isFiller name = false) :
    (directory.child name).endsInDots = (name == "..") := by
  have given := isFiller_eq_false.mp isName
  have last (parts : List String) : ((parts ++ [name]).filter (· != "")).getLast? = some name := by
    simp [List.filter_append, given]
  have dots : (some name).any (fun part => part == "." || part == "..") = (name == "..") := by
    simp [given]
  have behind := behind_child directory name
  generalize directory.child name = path at behind ⊢
  cases behind with
  | alone => exact (congrArg _ (last [])).trans dots
  | @slashed head front => exact (congrArg _ (last (head :: front))).trans dots
  | @unslashed head front _ _ => exact (congrArg _ (last (head :: front))).trans dots

theorem dropFillers_concat (isName : isFiller name = false) (parts : List String) :
    dropFillers (parts ++ [name]) = parts ++ [name] :=
  List.rdropWhile_concat_neg isFiller parts name (by rw [isName]; exact Bool.false_ne_true)

theorem dropFillers_concat_empty (parts : List String) :
    dropFillers (parts ++ [""]) = dropFillers parts :=
  List.rdropWhile_concat_pos isFiller parts "" rfl

theorem parent?_concat (isName : isFiller name = false) (head : String) (front : List String) :
    (Path.mk head (front ++ [name])).parent? =
      some (if head = "" ∧ dropFillers front = [] then ⟨"", [""]⟩ else ⟨head, dropFillers front⟩) := by
  simp only [parent?, dropFillers_concat isName, List.reverse_append, List.reverse_singleton,
    List.singleton_append, List.reverse_reverse]
  cases dropFillers front with
  | nil => by_cases root : head = "" <;> simp [root]
  | cons part parts => simp

theorem parent?_child (isName : isFiller name = false) :
    (directory.child name).parent? = some directory.trimmed := by
  have behind := behind_child directory name
  generalize directory.child name = path at behind ⊢
  cases behind with
  | alone => simp [parent?, (isFiller_eq_false.mp isName).1, dropFillers, trimmed, isAbsolute]
  | slashed =>
    rw [parent?_concat isName, trimmed, dropFillers_concat_empty]
    simp [isAbsolute]
  | @unslashed head front given _ =>
    rw [parent?_concat isName, trimmed]
    cases given with
    | inl head => simp [isAbsolute, head]
    | inr front => simp [isAbsolute, front]

theorem fileName?_child (isName : isFiller name = false) (notUp : name ≠ "..") :
    (directory.child name).fileName? = some name := by
  have behind := behind_child directory name
  generalize directory.child name = path at behind ⊢
  cases behind with
  | alone => simp [fileName?, dropFillers, isName, notUp]
  | slashed => simp [fileName?, dropFillers_concat isName, notUp]
  | unslashed _ _ => simp [fileName?, dropFillers_concat isName, notUp]

theorem withExtension_child (isName : isFiller name = false) (notUp : name ≠ "..")
    (extension : String) : (directory.child name).withExtension extension =
      directory.child (stem name ++ "." ++ extension) := by
  have same : (directory.child name).fileName? = some name := fileName?_child isName notUp
  have behind := behind_child directory name
  generalize directory.child name = path at same behind ⊢
  rw [withExtension, same]
  apply Eq.symm
  apply behind_iff.mp
  cases behind with
  | alone => exact .alone
  | slashed =>
    simp only [dropFillers_concat isName, List.reverse_append, List.reverse_singleton,
      List.singleton_append, List.reverse_reverse]
    exact .slashed
  | unslashed given named =>
    simp only [dropFillers_concat isName, List.reverse_append, List.reverse_singleton,
      List.singleton_append, List.reverse_reverse]
    exact .unslashed given named

theorem filter_dropFillers (parts : List String) :
    (dropFillers parts).filter (!isFiller ·) = parts.filter (!isFiller ·) := by
  have dropped (parts : List String) :
      (parts.dropWhile isFiller).filter (!isFiller ·) = parts.filter (!isFiller ·) := by
    induction parts with
    | nil => rfl
    | cons part parts ih => cases filler : isFiller part <;> simp [filler, ih]
  rw [dropFillers, List.filter_reverse, dropped, ← List.filter_reverse, List.reverse_reverse]

/-! ## Trimmed paths -/

/-- Trimming leaves the root, or drops fillers. -/
theorem trimmed_cases (path : Path) :
    path.isAbsolute ∧ dropFillers path.tail = [] ∧ path.trimmed = ⟨"", [""]⟩ ∨
      (path.isAbsolute → dropFillers path.tail ≠ []) ∧
        path.trimmed = ⟨path.head, dropFillers path.tail⟩ := by
  rw [trimmed]
  split
  · next root => exact .inl (by simpa using root)
  · next other => exact .inr (by simpa using other)

theorem names_trimmed (path : Path) : path.trimmed.names = path.names := by
  have dropped := filter_dropFillers path.tail
  obtain ⟨absolute, nothing, same⟩ | ⟨-, same⟩ := trimmed_cases path
  · have nowhere : path.names = [] := by
      rw [names, (isAbsolute_iff.mp absolute).1, List.filter_cons, ← dropped, nothing]
      rfl
    rw [same, nowhere]
    rfl
  · rw [same, names, names, List.filter_cons, List.filter_cons, dropped]

theorem isAbsolute_trimmed (path : Path) : path.trimmed.isAbsolute = path.isAbsolute := by
  obtain ⟨absolute, -, same⟩ | ⟨given, same⟩ := trimmed_cases path
  · rw [same, absolute]
    rfl
  · rw [same, Bool.eq_iff_iff, isAbsolute_iff, isAbsolute_iff]
    rw [isAbsolute_iff] at given
    refine ⟨fun ⟨head, tail⟩ => ⟨head, ?_⟩, fun absolute => ⟨absolute.1, given absolute⟩⟩
    rintro none
    exact tail (by rw [none]; rfl)

theorem isEmpty_trimmed (path : Path) : path.trimmed.isEmpty = path.isEmpty := by
  rw [Bool.eq_iff_iff, isEmpty_iff, isEmpty_iff]
  obtain ⟨absolute, -, same⟩ | ⟨given, same⟩ := trimmed_cases path
  · rw [same]
    refine iff_of_false nofun ?_
    rintro rfl
    contradiction
  · rw [same]
    obtain ⟨head, tail⟩ := path
    rw [isAbsolute_iff] at given
    constructor
    · intro empty
      obtain ⟨rfl, nothing⟩ := Path.mk.inj empty
      have none : tail = [] := by
        by_contra some
        exact given ⟨rfl, some⟩ nothing
      rw [none]
    · rintro ⟨⟩
      rfl

theorem dropFillers_dropFillers (parts : List String) :
    dropFillers (dropFillers parts) = dropFillers parts :=
  List.rdropWhile_idempotent isFiller parts

theorem length_dropFillers_le (parts : List String) :
    (dropFillers parts).length ≤ parts.length :=
  (List.rdropWhile_prefix isFiller parts).length_le

theorem dropFillers_tail_trimmed (path : Path) :
    dropFillers path.trimmed.tail = dropFillers path.tail := by
  obtain ⟨-, nothing, same⟩ | ⟨-, same⟩ := trimmed_cases path
  · rw [same, nothing]
    rfl
  · rw [same]
    exact dropFillers_dropFillers path.tail

theorem trimmed_trimmed (path : Path) : path.trimmed.trimmed = path.trimmed := by
  obtain ⟨-, -, same⟩ | ⟨given, same⟩ := trimmed_cases path
  · rw [same]
    rfl
  · obtain ⟨absolute, nothing, -⟩ | ⟨-, again⟩ := trimmed_cases path.trimmed
    · rw [isAbsolute_trimmed] at absolute
      rw [dropFillers_tail_trimmed] at nothing
      exact absurd nothing (given absolute)
    · rw [again, dropFillers_tail_trimmed, same]

/-- How many rounds it takes at most to go up from a path. -/
def climb (path : Path) : Nat := if path.isEmpty then 0 else (dropFillers path.tail).length + 1

theorem climb_trimmed (path : Path) : climb path.trimmed = climb path := by
  rw [climb, climb, isEmpty_trimmed, dropFillers_tail_trimmed]

theorem climb_lt (path : Path) : climb path < path.tail.length + 2 := by
  have fewer := length_dropFillers_le path.tail
  rw [climb]
  split <;> omega

theorem climb_lt_child (isName : isFiller name = false) :
    climb directory < climb (directory.child name) := by
  have nonempty : (directory.child name).isEmpty = false := isEmpty_child isName
  rw [climb, climb, nonempty]
  have behind := behind_child directory name
  generalize directory.child name = path at behind ⊢
  cases behind with
  | alone => simp [isEmpty]
  | @slashed head front =>
    have fewer := length_dropFillers_le front
    simp only [dropFillers_concat isName, dropFillers_concat_empty, List.length_append,
      List.length_singleton, Bool.false_eq_true, if_false]
    split <;> omega
  | @unslashed head front _ _ =>
    have fewer := length_dropFillers_le front
    simp only [dropFillers_concat isName, List.length_append, List.length_singleton,
      Bool.false_eq_true, if_false]
    split <;> omega

/-- Where nothing can be dropped, there is nothing, or the last part says something. -/
theorem eq_nil_or_concat_of_full {parts : List String} (full : dropFillers parts = parts) :
    parts = [] ∨ ∃ front name, parts = front ++ [name] ∧ isFiller name = false := by
  by_cases none : parts = []
  · exact .inl none
  · have last := List.rdropWhile_eq_self_iff.mp full none
    exact .inr ⟨_, _, (List.dropLast_append_getLast none).symm, Bool.eq_false_iff.mpr last⟩

/-- A trimmed path is one of the three that name no entry, or it ends in a name. -/
theorem trimmed_eq_self {path : Path} (full : path.trimmed = path) :
    path = ⟨"", []⟩ ∨ path = ⟨".", []⟩ ∨ path = ⟨"", [""]⟩ ∨
      ∃ directory name, path = child directory name ∧ isFiller name = false := by
  obtain ⟨-, -, root⟩ | ⟨-, same⟩ := trimmed_cases path
  · exact .inr (.inr (.inl (full.symm.trans root)))
  · obtain ⟨head, tail⟩ := path
    obtain ⟨-, kept⟩ := Path.mk.inj (same.symm.trans full)
    obtain rfl | ⟨front, name, rfl, isName⟩ := eq_nil_or_concat_of_full kept
    · by_cases empty : head = ""
      · exact .inl (by rw [empty])
      · by_cases dot : head = "."
        · exact .inr (.inl (by rw [dot]))
        · have isName : isFiller head = false := isFiller_eq_false.mpr ⟨empty, dot⟩
          exact .inr (.inr (.inr ⟨⟨"", []⟩, head, rfl, isName⟩))
    · have stands : child ⟨head, front ++ [""]⟩ name = ⟨head, front ++ [name]⟩ :=
        behind_iff.mp .slashed
      exact .inr (.inr (.inr ⟨_, name, stands.symm, isName⟩))

theorem hasNul_child (directory : Path) (name : String) :
    (directory.child name).hasNul = (directory.hasNul || name.contains '\x00') := by
  have behind := behind_child directory name
  generalize directory.child name = path at behind ⊢
  cases behind with
  | alone => simp [hasNul]
  | slashed => simp [hasNul, List.any_append, Bool.or_assoc]
  | unslashed _ _ => simp [hasNul, List.any_append, Bool.or_assoc]

theorem hasNul_of_child (named : (directory.child name).hasNul = false) :
    directory.hasNul = false := by
  rw [hasNul_child, Bool.or_eq_false_iff] at named
  exact named.1

theorem hasNul_trimmed (named : directory.hasNul = false) : directory.trimmed.hasNul = false := by
  obtain ⟨-, -, same⟩ | ⟨-, same⟩ := trimmed_cases directory
  · rw [same]
    simp [hasNul]
  · have fewer : ∀ part ∈ dropFillers directory.tail, part ∈ directory.tail := fun _ member =>
      (List.rdropWhile_prefix isFiller _).mem member
    simp only [same, hasNul, List.any_cons, Bool.or_eq_false_iff, List.any_eq_false] at named ⊢
    exact ⟨named.1, fun part member => named.2 part (fewer part member)⟩

end Path

end Blocklist
