import Blocklist.Proofs.ListTallies

/-!
# The layout of a list

The kind of a line is told from what trimming leaves of it, and so are the domains and the tally of
a list. Blanks around its lines, and the kind of its line endings, are layout: texts that have the
same trimmed lines are read alike. `Relaid` says which texts differ in the blanks around their lines
alone; a list with another kind of line endings is one of them.
-/

namespace Blocklist

namespace Text

/-- Characters that can stand at either end of a line without changing what it says. -/
def IsPadding (padding : List Char) : Prop := ∀ c ∈ padding, isBlank c = true ∧ c ≠ '\n'

/-- A text with padding put in at the start and the end of its lines. The end of a line is before
its ending. -/
inductive Relaid : List Char → List Char → Prop where
  | empty : Relaid [] []
  | last {before line after : List Char} (nonempty : line ≠ []) (unbroken : '\n' ∉ line)
      (opens : IsPadding before) (closes : IsPadding after) :
      Relaid line (before ++ line ++ after)
  | lineFeed {before line after text relaid : List Char} (unbroken : '\n' ∉ line)
      (opens : IsPadding before) (closes : IsPadding after) (rest : Relaid text relaid) :
      Relaid (line ++ '\n' :: text) (before ++ line ++ after ++ '\n' :: relaid)
  | carriageReturn {before line after text relaid : List Char} (unbroken : '\n' ∉ line)
      (opens : IsPadding before) (closes : IsPadding after) (rest : Relaid text relaid) :
      Relaid (line ++ '\r' :: '\n' :: text) (before ++ line ++ after ++ '\r' :: '\n' :: relaid)

def withCarriageReturns (text : List Char) : List Char :=
  text.flatMap fun c => if c = '\n' then ['\r', '\n'] else [c]

section

variable {before line after text relaid : List Char}

theorem unbroken_padded (unbroken : '\n' ∉ line) (opens : IsPadding before)
    (closes : IsPadding after) : '\n' ∉ before ++ line ++ after := by
  simp only [List.mem_append, not_or]
  exact ⟨⟨fun feed => (opens _ feed).2 rfl, unbroken⟩, fun feed => (closes _ feed).2 rfl⟩

theorem trim_padded (line : List Char) (opens : IsPadding before) (closes : IsPadding after) :
    trim (before ++ line ++ after) = trim line :=
  trim_between line (fun c member => (opens c member).1) fun c member => (closes c member).1

theorem Relaid.trimmedLines_eq (again : Relaid text relaid) :
    trimmedLines relaid = trimmedLines text := by
  induction again with
  | empty => rfl
  | @last before line after nonempty unbroken opens closes =>
    have still := unbroken_padded unbroken opens closes
    have filled : before ++ line ++ after ≠ [] := by simp [nonempty]
    rw [trimmedLines_of_unbroken filled still, trimmedLines_of_unbroken nonempty unbroken,
      trim_padded _ opens closes]
  | lineFeed unbroken opens closes _ ih =>
    rw [trimmedLines_line (unbroken_padded unbroken opens closes), trimmedLines_line unbroken, ih,
      trim_padded _ opens closes]
  | @carriageReturn before line after text relaid unbroken opens closes _ ih =>
    -- The carriage return is trimmed away with the padding, and can count as part of the line.
    have kept : '\n' ∉ line ++ ['\r'] := by simp [unbroken]
    have still : '\n' ∉ before ++ line ++ after ++ ['\r'] := by
      simpa using unbroken_padded unbroken opens closes
    have whole := trimmedLines_line kept text
    have padded := trimmedLines_line still relaid
    rw [List.append_assoc, List.singleton_append, trim_carriageReturn] at whole padded
    rw [padded, whole, ih, trim_padded _ opens closes]

theorem withCarriageReturns_of_unbroken (unbroken : '\n' ∉ line) :
    withCarriageReturns line = line := by
  induction line with
  | nil => rfl
  | cons c rest ih =>
    rw [List.mem_cons, not_or] at unbroken
    rw [withCarriageReturns, List.flatMap_cons, if_neg (Ne.symm unbroken.1)]
    exact congrArg (c :: ·) (ih unbroken.2)

theorem withCarriageReturns_line (unbroken : '\n' ∉ line) (text : List Char) :
    withCarriageReturns (line ++ '\n' :: text) =
      line ++ ['\r'] ++ '\n' :: withCarriageReturns text := by
  have kept := withCarriageReturns_of_unbroken unbroken
  rw [withCarriageReturns] at kept
  rw [withCarriageReturns, List.flatMap_append, kept, List.flatMap_cons, List.append_assoc]
  rfl

/-- Another kind of line endings is a matter of padding. -/
theorem relaid_withCarriageReturns (text : List Char) : Relaid text (withCarriageReturns text) := by
  have bare : IsPadding [] := nofun
  have returns : IsPadding ['\r'] := List.forall_mem_singleton.mpr ⟨rfl, by decide⟩
  induction text using induction_on_lines with
  | empty => exact .empty
  | last line nonempty unbroken =>
    rw [withCarriageReturns_of_unbroken unbroken]
    simpa using Relaid.last nonempty unbroken bare bare
  | line line text unbroken ih =>
    rw [withCarriageReturns_line unbroken]
    exact .lineFeed unbroken bare returns ih

end

end Text

namespace FilterList

/-- The domains and the tally of a list are those of its trimmed lines. -/
theorem reading_congr {a b : String}
    (same : Text.trimmedLines b.toList = Text.trimmedLines a.toList) :
    domains b = domains a ∧ tally b = tally a := by
  simp only [domains, tally, readLines_eq, same, and_self]

/-- Texts whose lines trim to the same cores name the same domains and have the same tally. So
padding that is put in around lines changes neither, and neither does a carriage return that is put
before every line feed. -/
theorem reading_ignores_layout :
    (∀ (a b : String) (cores : List (List Char)), Text.HasTrimmedLines a.toList cores →
        Text.HasTrimmedLines b.toList cores → domains b = domains a ∧ tally b = tally a) ∧
      (∀ a b : String, Text.Relaid a.toList b.toList →
        domains b = domains a ∧ tally b = tally a) ∧
      ∀ text : String,
        let returned := String.ofList (Text.withCarriageReturns text.toList)
        domains returned = domains text ∧ tally returned = tally text := by
  refine ⟨?_, ?_, ?_⟩
  · intro a b cores first second
    rw [Text.hasTrimmedLines_iff] at first second
    exact reading_congr (second.trans first.symm)
  · intro a b again
    exact reading_congr again.trimmedLines_eq
  · intro text returned
    refine reading_congr ?_
    rw [String.toList_ofList]
    exact (Text.relaid_withCarriageReturns text.toList).trimmedLines_eq

end FilterList

end Blocklist
