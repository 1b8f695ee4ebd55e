import Blocklist.FilterList
import Blocklist.Proofs.Lines
import Mathlib.Data.List.Forall2

/-!
# The grammar of filter lists

A trimmed line blocks a host when it can be written as two bars, the host, a caret and anything
more, and none of the marks of a cosmetic filter occurs in it. A list denotes the domains that its
lines contribute, line by line: a line that blocks a host contributes that host, and any other line
nothing. The grammar only says what may be written; it does not say how to look for it. Reading a
list gives exactly the domains that it denotes (`domains_eq_iff_denotes`), so every text denotes one
list of domains.
-/

namespace Blocklist

namespace Domain

theorem ofChars?_eq_some_iff {chars : List Char} {domain : Domain} :
    ofChars? chars = some domain ↔ domain.text.toList = chars := by
  constructor
  · intro made
    rw [text_of_ofString? made, String.toList_ofList]
  · rintro rfl
    rw [ofChars?, String.ofList_toList, ofString?_text]

end Domain

namespace FilterList

/-! ## Lines that block a host -/

namespace Line

/-- A line starts with two bars, a host and a caret. -/
def Anchors (line : List Char) (domain : Domain) : Prop :=
  ∃ rest, line = '|' :: '|' :: (domain.text.toList ++ '^' :: rest)

/-- A line holds one of the marks of a cosmetic filter. -/
def IsMarked (line : List Char) : Prop := ['#', '#'] <:+: line ∨ ['#', '@', '#'] <:+: line

def Blocks (line : List Char) (domain : Domain) : Prop := Anchors line domain ∧ ¬ IsMarked line

private def inHost (c : Char) : Bool := c != '^' && c != '/'

private theorem takeWhile_inHost (domain : Domain) (rest : List Char) :
    (domain.text.toList ++ '^' :: rest).takeWhile inHost = domain.text.toList := by
  obtain ⟨-, noSlash, noCaret⟩ := domain.isHost
  have all : ∀ c ∈ domain.text.toList, inHost c = true := by
    intro c member
    have caret : c ≠ '^' := fun same => noCaret (same ▸ member)
    have slash : c ≠ '/' := fun same => noSlash (same ▸ member)
    simp [inHost, caret, slash]
  rw [List.takeWhile_append_of_pos all, List.takeWhile_cons_of_neg (by decide), List.append_nil]

private theorem blockedHost?_bars (rest : List Char) :
    blockedHost? ('|' :: '|' :: rest) =
      match rest.drop (rest.takeWhile inHost).length with
      | '^' :: _ => Domain.ofChars? (rest.takeWhile inHost)
      | _ => none := rfl

/-- Looking for the end of the host finds the host of a line exactly when it starts with one. -/
theorem blockedHost?_eq_some_iff {line : List Char} {domain : Domain} :
    blockedHost? line = some domain ↔ Anchors line domain := by
  constructor
  · intro found
    obtain ⟨rest, rfl⟩ : ∃ rest, line = '|' :: '|' :: rest := by
      unfold blockedHost? at found
      split at found
      · exact ⟨_, rfl⟩
      · contradiction
    rw [blockedHost?_bars] at found
    have whole := List.prefix_iff_eq_append.mp (List.takeWhile_prefix (l := rest) inHost)
    split at found
    · next after closes =>
      rw [closes] at whole
      exact ⟨after, by rw [Domain.ofChars?_eq_some_iff.mp found, whole]⟩
    · contradiction
  · rintro ⟨rest, rfl⟩
    rw [blockedHost?_bars, takeWhile_inHost, List.drop_left]
    exact Domain.ofChars?_eq_some_iff.mpr rfl

theorem Anchors.not_comment {line : List Char} {domain : Domain} (anchors : Anchors line domain) :
    ¬ ['!'] <+: line := by
  obtain ⟨rest, rfl⟩ := anchors
  rintro ⟨after, impossible⟩
  exact absurd (List.cons.inj impossible).1 (by decide)

theorem Anchors.not_exception {line : List Char} {domain : Domain}
    (anchors : Anchors line domain) : ¬ ['@', '@'] <+: line := by
  obtain ⟨rest, rfl⟩ := anchors
  rintro ⟨after, impossible⟩
  exact absurd (List.cons.inj impossible).1 (by decide)

theorem isMarked_iff {line : List Char} :
    (occursIn ['#', '#'] line || occursIn ['#', '@', '#'] line) = true ↔ IsMarked line := by
  rw [Bool.or_eq_true, occursIn_iff, occursIn_iff, IsMarked]

/-- A trimmed line has the kind of a host exactly when it blocks that host: the kinds that are tried
before it are those of lines without an anchor, and of marked ones. -/
theorem domain?_classify_eq_some_iff {line : List Char} {domain : Domain} :
    (classify line).domain? = some domain ↔ Blocks line domain := by
  constructor
  · intro contributes
    unfold classify at contributes
    split at contributes
    · contradiction
    split at contributes
    · contradiction
    split at contributes
    · contradiction
    split at contributes
    · contradiction
    next unmarked =>
    cases found : blockedHost? line with
    | none =>
      rw [found] at contributes
      contradiction
    | some host =>
      rw [found] at contributes
      obtain rfl : host = domain := Option.some.inj contributes
      exact ⟨blockedHost?_eq_some_iff.mp found, fun marked => unmarked (isMarked_iff.mpr marked)⟩
  · rintro ⟨anchors, unmarked⟩
    have nonempty : line.isEmpty = false := by
      obtain ⟨rest, rfl⟩ := anchors
      rfl
    have comment : ¬ ['!'].isPrefixOf line = true :=
      fun starts => anchors.not_comment (List.isPrefixOf_iff_prefix.mp starts)
    have exception : ¬ ['@', '@'].isPrefixOf line = true :=
      fun starts => anchors.not_exception (List.isPrefixOf_iff_prefix.mp starts)
    unfold classify
    rw [nonempty, if_neg Bool.false_ne_true, if_neg comment, if_neg exception,
      if_neg fun marked => unmarked (isMarked_iff.mp marked), blockedHost?_eq_some_iff.mpr anchors]
    rfl

end Line

/-! ## What a list denotes -/

inductive Contributes (line : List Char) : List Domain → Prop where
  | host {core : List Char} {domain : Domain} (trims : Text.TrimsTo line core)
      (blocks : Line.Blocks core domain) : Contributes line [domain]
  | nothing {core : List Char} (trims : Text.TrimsTo line core)
      (other : ∀ domain, ¬ Line.Blocks core domain) : Contributes line []

/-- A text denotes the domains that its lines contribute, in the order of the lines. -/
def Denotes (text : List Char) (domains : List Domain) : Prop :=
  ∃ lines parts, Text.HasLines text lines ∧ List.Forall₂ Contributes lines parts ∧
    domains = parts.flatten

/-- The kind of a line tells what it contributes. -/
theorem contributes_iff {line : List Char} {part : List Domain} :
    Contributes line part ↔ (Line.classify (Text.trim line)).domain?.toList = part := by
  constructor
  · intro contributes
    cases contributes with
    | host trims blocks =>
      rw [trims.trim_eq, Line.domain?_classify_eq_some_iff.mpr blocks]
      rfl
    | nothing trims other =>
      have none : (Line.classify (Text.trim line)).domain? = none := by
        refine Option.eq_none_iff_forall_ne_some.mpr ?_
        intro domain found
        rw [trims.trim_eq] at found
        exact other domain (Line.domain?_classify_eq_some_iff.mp found)
      rw [none]
      rfl
  · rintro rfl
    cases found : (Line.classify (Text.trim line)).domain? with
    | none =>
      refine .nothing (Text.trimsTo_trim line) ?_
      intro domain blocks
      rw [Line.domain?_classify_eq_some_iff.mpr blocks] at found
      contradiction
    | some domain =>
      exact .host (Text.trimsTo_trim line) (Line.domain?_classify_eq_some_iff.mp found)

theorem forall₂_contributes_iff {lines : List (List Char)} {parts : List (List Domain)} :
    List.Forall₂ Contributes lines parts ↔
      (lines.map fun line => (Line.classify (Text.trim line)).domain?.toList) = parts := by
  constructor
  · intro contribute
    induction contribute with
    | nil => rfl
    | cons first _ ih => rw [List.map_cons, contributes_iff.mp first, ih]
  · rintro rfl
    induction lines with
    | nil => exact .nil
    | cons line lines ih => exact .cons (contributes_iff.mpr rfl) ih

theorem denotes_iff {text : List Char} {domains : List Domain} :
    Denotes text domains ↔ (readLines text).filterMap Line.domain? = domains := by
  have computed (lines : List (List Char)) :
      (lines.map fun line => (Line.classify (Text.trim line)).domain?.toList).flatten =
        (lines.map fun line => Line.classify (Text.trim line)).filterMap Line.domain? := by
    rw [List.filterMap_map, List.filterMap_eq_flatMap_toList, List.flatMap_def]
    rfl
  constructor
  · rintro ⟨lines, parts, has, contribute, rfl⟩
    rw [← forall₂_contributes_iff.mp contribute, computed, readLines, has.lines_eq]
  · rintro rfl
    exact ⟨_, _, Text.hasLines_iff.mpr rfl, forall₂_contributes_iff.mpr rfl, (computed _).symm⟩

/-- A line that blocks a host is neither a comment nor an exception. -/
theorem contributes_nil_of_comment_or_exception {line core : List Char}
    (trims : Text.TrimsTo line core) (starts : ['!'] <+: core ∨ ['@', '@'] <+: core) :
    Contributes line [] := by
  refine .nothing trims ?_
  rintro domain ⟨anchors, -⟩
  rcases starts with comment | exception
  · exact anchors.not_comment comment
  · exact anchors.not_exception exception

/-- Reading a list gives the domains that it denotes and no others, in order and as often as they
are named. In particular a comment or an exception contributes nothing, whatever else it holds. -/
theorem domains_eq_iff_denotes (text : String) (found : List Domain) :
    (domains text = found ↔ Denotes text.toList found) ∧
      ∀ line core, Text.TrimsTo line core → ['!'] <+: core ∨ ['@', '@'] <+: core →
        Contributes line [] :=
  ⟨denotes_iff.symm, fun _ _ => contributes_nil_of_comment_or_exception⟩

end FilterList

end Blocklist
