import Blocklist.Text.Blank
import Blocklist.Text.Lines
import Mathlib.Data.List.Forall2

/-!
# What the lines of a text are

`HasLines` says which lines a text has, without saying how to find them: it is put together line by
line, and each line but possibly the last ends in a line feed, with one carriage return before it or
none. Every text has exactly one row of lines, the one that is computed (`hasLines_iff`). In the
same way `TrimsTo` says what is left of a line without the blanks around it (`trimsTo_iff`). Once
lines are trimmed their endings no longer matter, so that a text is its trimmed lines one by one
(`trimmedLines_line`), and `induction_on_lines` goes through a text in this way.
-/

namespace Blocklist.Text

/-! ## Lines -/

inductive HasLines : List Char → List (List Char) → Prop where
  | empty : HasLines [] []
  /-- The last line may do without a line feed; then it is all that is left, a carriage return at
  its end included. -/
  | last {line : List Char} (nonempty : line ≠ []) (unbroken : '\n' ∉ line) : HasLines line [line]
  | lineFeed {line text : List Char} {lines : List (List Char)} (unbroken : '\n' ∉ line)
      (bare : line.getLast? ≠ some '\r') (rest : HasLines text lines) :
      HasLines (line ++ '\n' :: text) (line :: lines)
  | carriageReturn {line text : List Char} {lines : List (List Char)} (unbroken : '\n' ∉ line)
      (rest : HasLines text lines) : HasLines (line ++ '\r' :: '\n' :: text) (line :: lines)

theorem segments_of_unbroken {line : List Char} (nonempty : line ≠ []) (unbroken : '\n' ∉ line) :
    segments line = [line] := by
  induction line with
  | nil => exact absurd rfl nonempty
  | cons c rest ih =>
    rw [List.mem_cons, not_or] at unbroken
    rw [segments_cons, if_neg (Ne.symm unbroken.1)]
    cases rest with
    | nil => rfl
    | cons d rest => rw [ih (List.cons_ne_nil d rest) unbroken.2]

theorem segments_append_newline {line : List Char} (unbroken : '\n' ∉ line) (text : List Char) :
    segments (line ++ '\n' :: text) = (line ++ ['\n']) :: segments text := by
  induction line with
  | nil => rw [List.nil_append, segments_cons, if_pos rfl, List.nil_append]
  | cons c rest ih =>
    rw [List.mem_cons, not_or] at unbroken
    rw [List.cons_append, segments_cons, if_neg (Ne.symm unbroken.1), ih unbroken.2]
    rfl

theorem dropEnding_of_unbroken {line : List Char} (unbroken : '\n' ∉ line) :
    dropEnding line = line := by
  have still : '\n' ∉ line.reverse := by rwa [List.mem_reverse]
  unfold dropEnding
  split
  · next reversed => rw [reversed] at still; exact absurd List.mem_cons_self still
  · next reversed => rw [reversed] at still; exact absurd List.mem_cons_self still
  · rfl

theorem dropEnding_lineFeed {line : List Char} (bare : line.getLast? ≠ some '\r') :
    dropEnding (line ++ ['\n']) = line := by
  have reversed : (line ++ ['\n']).reverse = '\n' :: line.reverse := by simp
  unfold dropEnding
  split
  · next before twoEndings =>
    rw [reversed, List.cons.injEq] at twoEndings
    rw [List.getLast?_eq_head?_reverse, twoEndings.2] at bare
    exact absurd rfl bare
  · next before ending =>
    rw [reversed, List.cons.injEq] at ending
    rw [← ending.2, List.reverse_reverse]
  · next other => exact absurd reversed (other _)

theorem dropEnding_carriageReturn (line : List Char) :
    dropEnding (line ++ ['\r', '\n']) = line := by
  have reversed : (line ++ ['\r', '\n']).reverse = '\n' :: '\r' :: line.reverse := by simp
  simp only [dropEnding, reversed, List.reverse_reverse]

/-- The lines that a text has are the ones that are computed. -/
theorem HasLines.lines_eq {text : List Char} {rows : List (List Char)} (has : HasLines text rows) :
    lines text = rows := by
  induction has with
  | empty => rfl
  | last nonempty unbroken =>
    rw [lines, segments_of_unbroken nonempty unbroken, List.map_singleton,
      dropEnding_of_unbroken unbroken]
  | @lineFeed line text rows unbroken bare _ ih =>
    rw [lines, segments_append_newline unbroken, List.map_cons, dropEnding_lineFeed bare, ← ih,
      lines]
  | @carriageReturn line text rows unbroken _ ih =>
    have whole : '\n' ∉ line ++ ['\r'] := by simp [unbroken]
    have cut := segments_append_newline whole text
    simp only [List.append_assoc, List.cons_append, List.nil_append] at cut
    rw [lines, cut, List.map_cons, dropEnding_carriageReturn, ← ih, lines]

/-- One more character at the front of a text belongs to its first line, or is a line feed and makes
a line of its own. A carriage return before an empty first line becomes part of its ending. -/
theorem HasLines.cons (c : Char) {text : List Char} {rows : List (List Char)}
    (has : HasLines text rows) : ∃ more, HasLines (c :: text) more := by
  by_cases feed : c = '\n'
  · subst feed
    exact ⟨[] :: rows, .lineFeed List.not_mem_nil nofun has⟩
  have unbrokenCons {line : List Char} (unbroken : '\n' ∉ line) : '\n' ∉ c :: line := by
    rw [List.mem_cons, not_or]
    exact ⟨Ne.symm feed, unbroken⟩
  cases has with
  | empty => exact ⟨[[c]], .last (List.cons_ne_nil c []) (unbrokenCons List.not_mem_nil)⟩
  | @last line _ unbroken =>
    exact ⟨[c :: text], .last (List.cons_ne_nil c text) (unbrokenCons unbroken)⟩
  | @carriageReturn line text rows unbroken rest =>
    exact ⟨(c :: line) :: rows, .carriageReturn (unbrokenCons unbroken) rest⟩
  | @lineFeed line text rows unbroken bare rest =>
    by_cases ending : (c :: line).getLast? = some '\r'
    · cases line with
      | nil =>
        obtain rfl : c = '\r' := Option.some.inj ending
        exact ⟨[] :: rows, .carriageReturn List.not_mem_nil rest⟩
      | cons d line => exact absurd ((List.getLast?_cons_cons).symm.trans ending) bare
    · exact ⟨(c :: line) :: rows, .lineFeed (unbrokenCons unbroken) ending rest⟩

theorem exists_hasLines (text : List Char) : ∃ rows, HasLines text rows := by
  induction text with
  | nil => exact ⟨[], .empty⟩
  | cons c text ih =>
    obtain ⟨rows, has⟩ := ih
    exact has.cons c

/-- Every text has exactly one row of lines, the one that is computed. -/
theorem hasLines_iff {text : List Char} {rows : List (List Char)} :
    HasLines text rows ↔ lines text = rows := by
  constructor
  · exact HasLines.lines_eq
  · rintro rfl
    obtain ⟨rows, has⟩ := exists_hasLines text
    rwa [has.lines_eq]

/-! ## Trimming -/

/-- A line is a core with blanks around it; the core itself has none at its ends. -/
def TrimsTo (line core : List Char) : Prop :=
  ∃ before after, line = before ++ core ++ after ∧
    (∀ c ∈ before, isBlank c = true) ∧ (∀ c ∈ after, isBlank c = true) ∧
    (∀ c ∈ core.head?, isBlank c = false) ∧ ∀ c ∈ core.getLast?, isBlank c = false

theorem isBlank_of_mem_takeWhile {line : List Char} {c : Char}
    (member : c ∈ line.takeWhile isBlank) : isBlank c = true :=
  List.all_eq_true.mp List.all_takeWhile c member

/-- What is left after dropping blanks at the front starts with another character. -/
theorem isBlank_head?_trimStart {line : List Char} {c : Char}
    (first : c ∈ (trimStart line).head?) : isBlank c = false := by
  have dropped := List.head?_dropWhile_not isBlank line
  rw [show (line.dropWhile isBlank).head? = some c from first] at dropped
  exact dropped

theorem trimStart_append {before line : List Char} (blank : ∀ c ∈ before, isBlank c = true)
    (first : ∀ c ∈ line.head?, isBlank c = false) : trimStart (before ++ line) = line := by
  rw [trimStart, List.dropWhile_append_of_pos blank]
  cases line with
  | nil => rfl
  | cons c line => exact List.dropWhile_cons_of_neg (by simp [first c rfl])

/-- Trimming at the end is trimming the reversed line at the start. -/
theorem trimEnd_eq (line : List Char) : trimEnd line = (trimStart line.reverse).reverse := rfl

theorem TrimsTo.trim_eq {line core : List Char} (trims : TrimsTo line core) : trim line = core := by
  obtain ⟨before, after, rfl, blankBefore, blankAfter, first, last⟩ := trims
  cases core with
  | nil =>
    -- A line of blanks alone is used up from the front.
    have blank : ∀ c ∈ before ++ after, isBlank c = true :=
      List.forall_mem_append.mpr ⟨blankBefore, blankAfter⟩
    have nothing : trimStart (before ++ after) = [] := by
      rw [← List.append_nil (before ++ after)]
      exact trimStart_append blank nofun
    rw [trim, List.append_nil, nothing, trimEnd_nil]
  | cons c core =>
    have start : trimStart (before ++ (c :: core ++ after)) = c :: core ++ after :=
      trimStart_append blankBefore first
    have ending : trimStart (after.reverse ++ (c :: core).reverse) = (c :: core).reverse := by
      refine trimStart_append (fun d member => blankAfter d (List.mem_reverse.mp member)) ?_
      rw [List.head?_reverse]
      exact last
    rw [trim, List.append_assoc, start, trimEnd_eq, List.reverse_append, ending,
      List.reverse_reverse]

/-- Trimming leaves a core and takes only blanks away. -/
theorem trimsTo_trim (line : List Char) : TrimsTo line (trim line) := by
  have split : line = line.takeWhile isBlank ++ trimStart line :=
    List.takeWhile_append_dropWhile.symm
  have splitEnd : trimStart line =
      trim line ++ ((trimStart line).reverse.takeWhile isBlank).reverse := by
    have whole := congrArg List.reverse
      (List.takeWhile_append_dropWhile (p := isBlank) (l := (trimStart line).reverse))
    rw [List.reverse_append, List.reverse_reverse] at whole
    exact whole.symm
  refine ⟨line.takeWhile isBlank, ((trimStart line).reverse.takeWhile isBlank).reverse, ?_, ?_, ?_,
    ?_, ?_⟩
  · rw [List.append_assoc, ← splitEnd]
    exact split
  · exact fun c => isBlank_of_mem_takeWhile
  · exact fun c member => isBlank_of_mem_takeWhile (List.mem_reverse.mp member)
  · intro c first
    have start : c ∈ (trimStart line).head? := by
      rw [splitEnd, List.head?_append, Option.mem_def.mp first]
      exact rfl
    exact isBlank_head?_trimStart start
  · intro c last
    have start : c ∈ (trimStart (trimStart line).reverse).head? := by
      rwa [← List.getLast?_reverse]
    exact isBlank_head?_trimStart start

/-- Every line trims to exactly one core, the one that is computed. -/
theorem trimsTo_iff {line core : List Char} : TrimsTo line core ↔ trim line = core := by
  constructor
  · exact TrimsTo.trim_eq
  · rintro rfl
    exact trimsTo_trim line

/-- More blanks around a line change nothing about its core. -/
theorem TrimsTo.between {before line after core : List Char} (trims : TrimsTo line core)
    (opens : ∀ c ∈ before, isBlank c = true) (closes : ∀ c ∈ after, isBlank c = true) :
    TrimsTo (before ++ line ++ after) core := by
  obtain ⟨front, back, rfl, blankFront, blankBack, first, last⟩ := trims
  exact ⟨before ++ front, back ++ after, by simp, List.forall_mem_append.mpr ⟨opens, blankFront⟩,
    List.forall_mem_append.mpr ⟨blankBack, closes⟩, first, last⟩

theorem trim_between {before after : List Char} (line : List Char)
    (opens : ∀ c ∈ before, isBlank c = true) (closes : ∀ c ∈ after, isBlank c = true) :
    trim (before ++ line ++ after) = trim line :=
  ((trimsTo_trim line).between opens closes).trim_eq

/-- A carriage return at the end of a line is trimmed away. -/
theorem trim_carriageReturn (line : List Char) : trim (line ++ ['\r']) = trim line := by
  have opens : ∀ c ∈ ([] : List Char), isBlank c = true := nofun
  exact trim_between line opens (List.forall_mem_singleton.mpr rfl)

/-! ## Trimmed lines -/

/-- A text has a row of lines that trim to a row of cores. -/
def HasTrimmedLines (text : List Char) (cores : List (List Char)) : Prop :=
  ∃ rows, HasLines text rows ∧ List.Forall₂ TrimsTo rows cores

def trimmedLines (text : List Char) : List (List Char) := (lines text).map trim

theorem forall₂_trimsTo_iff {rows cores : List (List Char)} :
    List.Forall₂ TrimsTo rows cores ↔ rows.map trim = cores := by
  rw [← List.forall₂_eq_eq_eq, List.forall₂_map_left_iff]
  exact ⟨.imp fun _ _ => trimsTo_iff.mp, .imp fun _ _ => trimsTo_iff.mpr⟩

theorem hasTrimmedLines_iff {text : List Char} {cores : List (List Char)} :
    HasTrimmedLines text cores ↔ trimmedLines text = cores := by
  simp only [HasTrimmedLines, hasLines_iff, exists_eq_left', forall₂_trimsTo_iff, trimmedLines]

@[simp] theorem trimmedLines_nil : trimmedLines [] = [] := rfl

/-- What ends in no line feed is one line. -/
theorem trimmedLines_of_unbroken {line : List Char} (nonempty : line ≠ [])
    (unbroken : '\n' ∉ line) : trimmedLines line = [trim line] := by
  rw [trimmedLines, (HasLines.last nonempty unbroken).lines_eq, List.map_singleton]

/-- A line that ends in a line feed stands before the others. What is trimmed away includes a
carriage return before the line feed, so the two endings need not be told apart. -/
theorem trimmedLines_line {line : List Char} (unbroken : '\n' ∉ line) (text : List Char) :
    trimmedLines (line ++ '\n' :: text) = trim line :: trimmedLines text := by
  obtain ⟨rows, has⟩ := exists_hasLines text
  rw [trimmedLines, trimmedLines, has.lines_eq]
  by_cases ending : line.getLast? = some '\r'
  · obtain ⟨bare, rfl⟩ := List.getLast?_eq_some_iff.mp ending
    have bareUnbroken : '\n' ∉ bare := fun feed => unbroken (List.mem_append_left _ feed)
    have cut := (HasLines.carriageReturn bareUnbroken has).lines_eq
    rw [List.append_assoc, List.singleton_append, cut, List.map_cons, trim_carriageReturn]
  · rw [(HasLines.lineFeed unbroken ending has).lines_eq, List.map_cons]

/-- Every text is empty, or a last line without a line feed, or a line before a text. -/
@[elab_as_elim]
theorem induction_on_lines {motive : List Char → Prop} (text : List Char) (empty : motive [])
    (last : ∀ line, line ≠ [] → '\n' ∉ line → motive line)
    (line : ∀ line text, '\n' ∉ line → motive text → motive (line ++ '\n' :: text)) :
    motive text := by
  obtain ⟨rows, has⟩ := exists_hasLines text
  induction has with
  | empty => exact empty
  | last nonempty unbroken => exact last _ nonempty unbroken
  | lineFeed unbroken _ _ ih => exact line _ _ unbroken ih
  | @carriageReturn bare text _ unbroken _ ih =>
    have whole := line (bare ++ ['\r']) text (by simp [unbroken]) ih
    rwa [List.append_assoc] at whole

/-- A line feed is a place to cut a text at. -/
theorem trimmedLines_append_newline (front back : List Char) :
    trimmedLines (front ++ '\n' :: back) =
      trimmedLines (front ++ ['\n']) ++ trimmedLines back := by
  induction front using induction_on_lines with
  | empty =>
    have unbroken : '\n' ∉ ([] : List Char) := List.not_mem_nil
    exact trimmedLines_line unbroken back
  | last line _ unbroken =>
    rw [trimmedLines_line unbroken, trimmedLines_line unbroken, trimmedLines_nil]
    rfl
  | line line text unbroken ih =>
    simp only [List.append_assoc, List.cons_append, trimmedLines_line unbroken, ih]

end Blocklist.Text
