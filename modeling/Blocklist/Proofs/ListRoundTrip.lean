import Blocklist.Compiler
import Blocklist.Proofs.ListGrammar

/-!
# Compiled filters read back

The filters of compiled domain rules, written one a line, are a filter list again, and reading it
gives the domains that the rules were compiled from. Not every domain allows that: a line feed in it
would break its line, and a mark of a cosmetic filter would hide it. The domains that a list names
are of the kind that does (`Domain.IsListable`), because each of them stood on a line of its own.
-/

namespace Blocklist

open FilterList

namespace Domain

theorem toList_urlFilter (domain : Domain) :
    domain.urlFilter.toList = '|' :: '|' :: (domain.text.toList ++ ['^']) := by
  rw [urlFilter, String.toList_append, String.toList_append]
  rfl

/-- A domain whose filter fits on a line and is read as a filter that blocks it. -/
structure IsListable (domain : Domain) : Prop where
  unbroken : '\n' ∉ domain.urlFilter.toList
  unmarked : ¬ Line.IsMarked domain.urlFilter.toList

theorem urlFilter_ne_nil (domain : Domain) : domain.urlFilter.toList ≠ [] := by
  rw [toList_urlFilter]
  exact List.cons_ne_nil _ _

theorem getLast?_urlFilter (domain : Domain) : domain.urlFilter.toList.getLast? = some '^' := by
  rw [toList_urlFilter, List.getLast?_cons_cons, List.getLast?_cons, List.getLast?_append]
  rfl

theorem anchors_urlFilter (domain : Domain) : Line.Anchors domain.urlFilter.toList domain :=
  ⟨[], domain.toList_urlFilter⟩

/-- A filter has no blanks around it: it starts with a bar and ends in a caret. -/
theorem trimsTo_urlFilter (domain : Domain) :
    Text.TrimsTo domain.urlFilter.toList domain.urlFilter.toList := by
  refine ⟨[], [], by simp, nofun, nofun, ?_, ?_⟩
  · intro c first
    rw [toList_urlFilter] at first
    obtain rfl : '|' = c := Option.some.inj first
    rfl
  · intro c last
    rw [getLast?_urlFilter] at last
    obtain rfl : '^' = c := Option.some.inj last
    rfl

theorem IsListable.contributes {domain : Domain} (listable : domain.IsListable) :
    Contributes domain.urlFilter.toList [domain] :=
  .host domain.trimsTo_urlFilter ⟨domain.anchors_urlFilter, listable.unmarked⟩

end Domain

namespace FilterList

/-! ## The domains that a list names -/

theorem Line.IsMarked.of_infix {part line : List Char} (marked : IsMarked part)
    (within : part <:+: line) : IsMarked line :=
  marked.imp (fun mark => mark.trans within) fun mark => mark.trans within

theorem unbroken_of_hasLines {text line : List Char} {lines : List (List Char)}
    (has : Text.HasLines text lines) (member : line ∈ lines) : '\n' ∉ line := by
  induction has with
  | empty => exact absurd member List.not_mem_nil
  | last _ unbroken =>
    obtain rfl := List.mem_singleton.mp member
    exact unbroken
  | lineFeed unbroken _ _ ih =>
    rcases List.mem_cons.mp member with rfl | member
    · exact unbroken
    · exact ih member
  | carriageReturn unbroken _ ih =>
    rcases List.mem_cons.mp member with rfl | member
    · exact unbroken
    · exact ih member

/-- The filter of a domain that a line contributes is a part of that line. -/
theorem isListable_of_contributes {line : List Char} {part : List Domain} {domain : Domain}
    (contributes : Contributes line part) (member : domain ∈ part) (unbroken : '\n' ∉ line) :
    domain.IsListable := by
  cases contributes with
  | nothing => exact absurd member List.not_mem_nil
  | @host core host trims blocks =>
    obtain rfl := List.mem_singleton.mp member
    obtain ⟨before, after, rfl, -⟩ := trims
    obtain ⟨⟨rest, rfl⟩, unmarked⟩ := blocks
    have front : domain.urlFilter.toList <+: '|' :: '|' :: (domain.text.toList ++ '^' :: rest) :=
      ⟨rest, by simp [Domain.toList_urlFilter]⟩
    refine ⟨?_, fun marked => unmarked (marked.of_infix front.isInfix)⟩
    intro feed
    exact unbroken (List.mem_append_left _ (List.mem_append_right _ (front.subset feed)))

theorem isListable_of_mem_domains {text : String} {domain : Domain}
    (member : domain ∈ domains text) : domain.IsListable := by
  obtain ⟨lines, parts, has, contribute, same⟩ := denotes_iff.mpr (rfl : _ = domains text)
  rw [same] at member
  obtain ⟨part, memberPart, member⟩ := List.mem_flatten.mp member
  obtain ⟨index, inRange, rfl⟩ := List.getElem_of_mem memberPart
  have lengths := contribute.length_eq
  have contributes := contribute.get (lengths ▸ inRange) inRange
  exact isListable_of_contributes contributes member
    (unbroken_of_hasLines has (List.getElem_mem _))

/-! ## Reading filters back -/

/-- The list of the filters that rules have, one a line. -/
def ofRules (rules : List Rule) : String :=
  "\n".intercalate (rules.filterMap (·.condition.urlFilter))

/-- Lines that are joined by line feeds are the lines of the joined text. -/
theorem hasLines_intercalate {lines : List (List Char)}
    (each : ∀ line ∈ lines, line ≠ [] ∧ '\n' ∉ line ∧ line.getLast? ≠ some '\r') :
    Text.HasLines (['\n'].intercalate lines) lines := by
  induction lines with
  | nil => exact .empty
  | cons line lines ih =>
    obtain ⟨⟨nonempty, unbroken, bare⟩, others⟩ := List.forall_mem_cons.mp each
    cases lines with
    | nil =>
      rw [List.intercalate_singleton]
      exact .last nonempty unbroken
    | cons next lines =>
      rw [List.intercalate_cons_cons, List.append_assoc, List.singleton_append]
      exact .lineFeed unbroken bare (ih others)

/-- Filters of listable domains are read as just these domains. -/
theorem domains_intercalate_urlFilter {found : List Domain}
    (listable : ∀ domain ∈ found, domain.IsListable) :
    domains ("\n".intercalate (found.map Domain.urlFilter)) = found := by
  refine denotes_iff.mp ⟨found.map fun domain => domain.urlFilter.toList,
    found.map fun domain => [domain], ?_, ?_, ?_⟩
  · rw [String.toList_intercalate, List.map_map]
    refine hasLines_intercalate ?_
    intro line member
    obtain ⟨domain, named, rfl⟩ := List.mem_map.mp member
    refine ⟨domain.urlFilter_ne_nil, (listable domain named).unbroken, ?_⟩
    rw [Function.comp_apply, domain.getLast?_urlFilter]
    decide
  · rw [List.forall₂_map_left_iff, List.forall₂_map_right_iff, List.forall₂_same]
    exact fun domain member => (listable domain member).contributes
  · rw [← List.flatMap_def, List.flatMap_singleton']

end FilterList

namespace Compiler

/-- How many domains have a rule at most. -/
def room (compiler : Compiler) : Nat :=
  min compiler.maxDomainRules.toNat (idBound - compiler.baseId.toNat)

theorem domainRules_take (compiler : Compiler) (found : List Domain) :
    compiler.domainRules (found.take compiler.room) = compiler.domainRules found := by
  simp only [domainRules, room, List.take_take, Nat.min_self]

theorem urlFilters_domainRules (compiler : Compiler) (found : List Domain) :
    (compiler.domainRules found).filterMap (·.condition.urlFilter) =
      (found.take compiler.room).map Domain.urlFilter := by
  have filters (entries : List (Domain × Nat)) :
      entries.filterMap (fun entry => some entry.1.urlFilter) =
        (entries.map Prod.fst).map Domain.urlFilter := by
    rw [List.map_map, ← List.filterMap_eq_map]
    rfl
  rw [domainRules, List.mapIdx_eq_zipIdx_map, List.filterMap_map]
  refine (filters _).trans ?_
  rw [List.zipIdx_map_fst]
  rfl

/-- The filters of the rules that a list is compiled to are a list of the domains that have a rule:
the first ones, as far as the cap and the ids go, in the same order and as often. Compiling these
again gives the same rules. -/
theorem domains_ofRules_domainRules (compiler : Compiler) (text : String) :
    let found := FilterList.domains text
    let kept := found.take (min found.length
      (min compiler.maxDomainRules.toNat (idBound - compiler.baseId.toNat)))
    FilterList.domains (FilterList.ofRules (compiler.domainRules found)) = kept ∧
      compiler.domainRules kept = compiler.domainRules found := by
  intro found kept
  have firstOnes : kept = found.take compiler.room := by
    rw [show kept = found.take (min found.length compiler.room) from rfl, ← List.take_take]
    exact List.take_of_length_le (List.length_take_le' _ _)
  rw [firstOnes]
  refine ⟨?_, compiler.domainRules_take found⟩
  rw [FilterList.ofRules, urlFilters_domainRules]
  refine domains_intercalate_urlFilter ?_
  intro domain member
  exact isListable_of_mem_domains (List.mem_of_mem_take member)

end Compiler

end Blocklist
