import Blocklist.Proofs.ListGrammar
import Mathlib.Data.List.Induction

/-!
# Tallies of lists

A list is read line by line, and each line is counted once, under its kind. So the kinds of a tally
add up to its lines, and the tally of two rows of lines is the sum of their tallies. Texts add up in
the same way when they are cut after a line feed. A line feed that is added at the end of a text can
make one more line, but that line is blank and names no domain.
-/

namespace Blocklist.FilterList

/-- The lines of a list by what is left of them after trimming. -/
theorem readLines_eq (text : List Char) :
    readLines text = (Text.trimmedLines text).map Line.classify := by
  rw [readLines, Text.trimmedLines, List.map_map]
  rfl

/-! ## Adding tallies -/

namespace Tally

/-- The tallies of two lists together, kind by kind. -/
instance : Add Tally where
  add a b :=
    { lines := a.lines + b.lines
      blank := a.blank + b.blank
      comments := a.comments + b.comments
      exceptions := a.exceptions + b.exceptions
      cosmetic := a.cosmetic + b.cosmetic
      domains := a.domains + b.domains
      dropped := a.dropped + b.dropped }

/-- The number of lines that a tally has counted under some kind. -/
def kinds (tally : Tally) : Nat :=
  tally.blank + tally.comments + tally.exceptions + tally.cosmetic + tally.domains + tally.dropped

theorem add_count (a b : Tally) (line : Line) : a + b.count line = (a + b).count line := by
  cases line <;> rfl

/-- A line is counted under one kind. -/
theorem kinds_count (tally : Tally) (line : Line) : (tally.count line).kinds = tally.kinds + 1 := by
  cases line <;> simp only [count, kinds] <;> omega

theorem lines_count (tally : Tally) (line : Line) : (tally.count line).lines = tally.lines + 1 := by
  cases line <;> rfl

theorem domains_count (tally : Tally) (line : Line) :
    (tally.count line).domains = tally.domains + line.domain?.toList.length := by
  cases line <;> rfl

theorem ofLines_concat (front : List Line) (last : Line) :
    ofLines (front ++ [last]) = (ofLines front).count last := by
  rw [ofLines, List.foldl_append]
  rfl

/-- Counting lines on top of a tally adds their tally to it. -/
theorem foldl_count (tally : Tally) (lines : List Line) :
    lines.foldl count tally = tally + ofLines lines := by
  induction lines using List.reverseRecOn with
  | nil => rfl
  | append_singleton front last ih =>
    rw [List.foldl_append, List.foldl_cons, List.foldl_nil, ih, ofLines_concat, add_count]

theorem ofLines_append (first second : List Line) :
    ofLines (first ++ second) = ofLines first + ofLines second := by
  rw [ofLines, List.foldl_append, foldl_count]
  rfl

/-- Every line is counted, and under one kind. -/
theorem kinds_ofLines (lines : List Line) : (ofLines lines).kinds = lines.length := by
  induction lines using List.reverseRecOn with
  | nil => rfl
  | append_singleton front last ih =>
    rw [ofLines_concat, kinds_count, ih, List.length_append, List.length_singleton]

theorem lines_ofLines (lines : List Line) : (ofLines lines).lines = lines.length := by
  induction lines using List.reverseRecOn with
  | nil => rfl
  | append_singleton front last ih =>
    rw [ofLines_concat, lines_count, ih, List.length_append, List.length_singleton]

/-- The lines that are counted as hosts are those that contribute a domain. -/
theorem domains_ofLines (lines : List Line) :
    (ofLines lines).domains = (lines.filterMap Line.domain?).length := by
  induction lines using List.reverseRecOn with
  | nil => rfl
  | append_singleton front last ih =>
    rw [ofLines_concat, domains_count, ih, List.filterMap_append, List.length_append]
    cases last <;> rfl

end Tally

/-! ## Cutting a list -/

/-- A text that is empty, or ends in a line feed. -/
def IsClosed (text : String) : Prop := text = "" ∨ ∃ front, text = front ++ "\n"

theorem readLines_append {front : String} (closed : IsClosed front) (back : String) :
    readLines (front ++ back).toList = readLines front.toList ++ readLines back.toList := by
  rw [String.toList_append]
  rcases closed with rfl | ⟨front, rfl⟩
  · rfl
  · rw [String.toList_append]
    change readLines (front.toList ++ ['\n'] ++ back.toList) =
      readLines (front.toList ++ ['\n']) ++ readLines back.toList
    rw [List.append_assoc, List.singleton_append, readLines_eq, readLines_eq, readLines_eq,
      Text.trimmedLines_append_newline, List.map_append]

theorem domains_append {front : String} (closed : IsClosed front) (back : String) :
    domains (front ++ back) = domains front ++ domains back := by
  rw [domains, readLines_append closed, List.filterMap_append]
  rfl

theorem tally_append {front : String} (closed : IsClosed front) (back : String) :
    tally (front ++ back) = tally front + tally back := by
  rw [tally, readLines_append closed, Tally.ofLines_append]
  rfl

/-- A blank line names no domain. -/
theorem filterMap_domain?_append_newline (text : List Char) :
    (readLines (text ++ ['\n'])).filterMap Line.domain? =
      (readLines text).filterMap Line.domain? := by
  simp only [readLines_eq]
  induction text using Text.induction_on_lines with
  | empty => rfl
  | last line nonempty unbroken =>
    rw [Text.trimmedLines_line unbroken, Text.trimmedLines_of_unbroken nonempty unbroken,
      Text.trimmedLines_nil]
  | line line text unbroken ih =>
    rw [List.append_assoc, List.cons_append, Text.trimmedLines_line unbroken,
      Text.trimmedLines_line unbroken, List.map_cons, List.map_cons, List.filterMap_cons,
      List.filterMap_cons, ih]

/-- A line feed at the end of a list changes nothing about its domains. -/
theorem domains_append_newline (text : String) : domains (text ++ "\n") = domains text := by
  rw [domains, String.toList_append]
  exact filterMap_domain?_append_newline text.toList

/-- Reading a list accounts for every line of the text, under one kind each, and for every domain.
A text that is cut after a line feed is read in two parts: their domains follow one another, and
their tallies add up kind by kind. Where two texts are joined by a line feed, whatever they are, the
domains of the one are followed by those of the other. -/
theorem tally_accounts_for_lines :
    (∀ text : String,
        let counted := tally text
        counted.lines = counted.blank + counted.comments + counted.exceptions + counted.cosmetic +
          counted.domains + counted.dropped ∧
        counted.domains = (domains text).length ∧
        ∃ rows, Text.HasLines text.toList rows ∧ counted.lines = rows.length) ∧
      (∀ front back : String, front = "" ∨ (∃ before, front = before ++ "\n") →
        domains (front ++ back) = domains front ++ domains back ∧
          tally (front ++ back) = tally front + tally back) ∧
      ∀ front back : String, domains (front ++ "\n" ++ back) = domains front ++ domains back := by
  refine ⟨?_, ?_, ?_⟩
  · intro text counted
    have lines : counted.lines = (readLines text.toList).length := Tally.lines_ofLines _
    have kinds : counted.kinds = (readLines text.toList).length := Tally.kinds_ofLines _
    refine ⟨lines.trans kinds.symm, Tally.domains_ofLines _, _, Text.hasLines_iff.mpr rfl, ?_⟩
    rw [lines, readLines, List.length_map]
  · intro front back closed
    exact ⟨domains_append closed back, tally_append closed back⟩
  · intro front back
    rw [domains_append (.inr ⟨front, rfl⟩), domains_append_newline]

end Blocklist.FilterList
