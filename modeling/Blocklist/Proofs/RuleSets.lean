import Blocklist.Compiler

/-!
# Compiled rule sets

What every mode's rule set has in common, whatever the limits of the compiler and whatever the
domains. The ids grow strictly along the list: the domain rules count up from the base, and the
resource rules of extreme mode lie above the greatest id in use, as far as there are ids. Every rule
either names one domain together with the nine types of a domain rule, or one type alone.
-/

namespace Blocklist

/-- The ids of a row of rules grow strictly, so none of them occurs twice. -/
def StrictlyOrdered (rules : List Rule) : Prop := rules.Pairwise fun a b => a.id < b.id

theorem StrictlyOrdered.nodup_ids {rules : List Rule} (ordered : StrictlyOrdered rules) :
    (rules.map (·.id)).Nodup := by
  refine List.pairwise_map.mpr (ordered.imp ?_)
  intro a b below same
  rw [same] at below
  exact UInt32.lt_irrefl _ below

/-- The two shapes of a compiled rule. -/
inductive Rule.IsCompiled : Rule → Prop where
  /-- A rule for a host, which is not empty and holds neither a slash nor a caret. -/
  | domain (id : RuleId) (host : String) (isHost : IsHost host.toList) :
      IsCompiled (.block id
        { urlFilter := some ("||" ++ host ++ "^"), resourceTypes := some domainRuleTypes })
  /-- A rule for a single resource type. -/
  | resource (id : RuleId) (type : ResourceType) :
      IsCompiled (.block id { urlFilter := none, resourceTypes := some [type] })

theorem Rule.IsCompiled.isEmpty_eq_false {rule : Rule} (compiled : rule.IsCompiled) :
    rule.condition.isEmpty = false := by
  cases compiled <;> rfl

theorem toNat_ofNat_of_lt_idBound {n : Nat} (h : n < idBound) : (UInt32.ofNat n).toNat = n :=
  UInt32.toNat_ofNat_of_lt' h

/-- An id above another one is a proper sum: it never wraps. -/
theorem toNat_of_idAbove? {id above : RuleId} {distance : Nat}
    (h : idAbove? id distance = some above) : above.toNat = id.toNat + distance := by
  unfold idAbove? at h
  split at h
  · next inRange =>
    obtain rfl := Option.some.inj h
    exact toNat_ofNat_of_lt_idBound inRange
  · contradiction

/-! ## The greatest id -/

private theorem le_max_id (a b : RuleId) : a ≤ max a b ∧ b ≤ max a b := by
  change a ≤ (if a ≤ b then b else a) ∧ b ≤ (if a ≤ b then b else a)
  split
  · next below => exact ⟨below, UInt32.le_refl b⟩
  · next above => exact ⟨UInt32.le_refl a, UInt32.le_of_lt (UInt32.not_le.mp above)⟩

/-- Folding with `max` never falls below its start or below any id on the way. -/
private theorem le_foldl_max (rules : List Rule) (start : RuleId) :
    start ≤ rules.foldl (fun greatest rule => max greatest rule.id) start ∧
      ∀ rule ∈ rules, rule.id ≤ rules.foldl (fun greatest rule => max greatest rule.id) start := by
  induction rules generalizing start with
  | nil => exact ⟨UInt32.le_refl start, by simp⟩
  | cons first rest ih =>
    obtain ⟨startBelow, restBelow⟩ := ih (max start first.id)
    obtain ⟨startLeMax, firstLeMax⟩ := le_max_id start first.id
    refine ⟨UInt32.le_trans startLeMax startBelow, ?_⟩
    intro rule member
    rcases List.mem_cons.mp member with rfl | member
    · exact UInt32.le_trans firstLeMax startBelow
    · exact restBelow rule member

theorem le_greatestId {rules : List Rule} {rule : Rule} (member : rule ∈ rules) :
    rule.id ≤ greatestId rules :=
  (le_foldl_max rules 0).2 rule member

namespace Compiler

variable (compiler : Compiler) (domains : List Domain)

/-- The ids of domain rules are the base plus the position, without wrapping. -/
theorem toNat_id_domainRules (index : Nat)
    (inRange : index < (compiler.domainRules domains).length) :
    (compiler.domainRules domains)[index].id.toNat = compiler.baseId.toNat + index := by
  simp only [domainRules, List.length_mapIdx, List.length_take] at inRange
  simp only [domainRules, List.getElem_mapIdx, Domain.toRule, Rule.id_block]
  exact toNat_ofNat_of_lt_idBound (by omega)

theorem strictlyOrdered_domainRules : StrictlyOrdered (compiler.domainRules domains) := by
  refine List.pairwise_iff_getElem.mpr ?_
  intro i j hi hj smaller
  rw [UInt32.lt_iff_toNat_lt, toNat_id_domainRules, toNat_id_domainRules]
  omega

theorem isCompiled_domainRules {rule : Rule} (member : rule ∈ compiler.domainRules domains) :
    rule.IsCompiled := by
  simp only [domainRules, List.mem_mapIdx] at member
  obtain ⟨index, inRange, rfl⟩ := member
  exact .domain _ _ (Domain.isHost _)

end Compiler

namespace Mode

/-- The rules that extreme mode adds above a greatest id. -/
def extremeRules (greatest : RuleId) : List Rule :=
  (extremeTypes.zipIdx 1).filterMap fun (type, distance) =>
    (idAbove? greatest distance).map type.toRule

theorem apply_extreme (rules : List Rule) :
    extreme.apply rules = rules ++ extremeRules (greatestId rules) := rfl

/-- A rule that extreme mode adds has one type, and its id lies above the greatest one by the place
of the type. -/
theorem mem_extremeRules {greatest : RuleId} {rule : Rule}
    (member : rule ∈ extremeRules greatest) :
    ∃ type distance, (type, distance) ∈ extremeTypes.zipIdx 1 ∧
      rule = type.toRule rule.id ∧ rule.id.toNat = greatest.toNat + distance := by
  obtain ⟨⟨type, distance⟩, place, made⟩ := List.mem_filterMap.mp member
  obtain ⟨id, above, rfl⟩ := Option.map_eq_some_iff.mp made
  exact ⟨type, distance, place, rfl, toNat_of_idAbove? above⟩

theorem strictlyOrdered_extremeRules (greatest : RuleId) :
    StrictlyOrdered (extremeRules greatest) := by
  refine List.pairwise_filterMap.mpr ?_
  have places : (extremeTypes.zipIdx 1).Pairwise fun a b => a.2 < b.2 := by decide
  refine places.imp ?_
  intro first second nearer rule made rule' made'
  obtain ⟨id, above, rfl⟩ := Option.map_eq_some_iff.mp made
  obtain ⟨id', above', rfl⟩ := Option.map_eq_some_iff.mp made'
  simp only [ResourceType.toRule, Rule.id_block, UInt32.lt_iff_toNat_lt,
    toNat_of_idAbove? above, toNat_of_idAbove? above']
  omega

theorem greatest_lt_of_mem_extremeRules {greatest : RuleId} {rule : Rule}
    (member : rule ∈ extremeRules greatest) : greatest < rule.id := by
  obtain ⟨type, distance, place, -, above⟩ := mem_extremeRules member
  have positive : ∀ entry ∈ extremeTypes.zipIdx 1, 0 < entry.2 := by decide
  have := positive _ place
  rw [UInt32.lt_iff_toNat_lt, above]
  omega

/-- A mode keeps ids in order: what extreme mode adds lies above everything it is added to. -/
theorem strictlyOrdered_apply (mode : Mode) {rules : List Rule} (ordered : StrictlyOrdered rules) :
    StrictlyOrdered (mode.apply rules) := by
  cases mode with
  | off => exact List.Pairwise.nil
  | low => exact ordered
  | medium => exact ordered
  | high => exact ordered
  | extreme =>
    rw [apply_extreme]
    refine List.pairwise_append.mpr ⟨ordered, strictlyOrdered_extremeRules _, ?_⟩
    intro rule member added memberAdded
    exact UInt32.lt_of_le_of_lt (le_greatestId member)
      (greatest_lt_of_mem_extremeRules memberAdded)

theorem isCompiled_apply (mode : Mode) {rules : List Rule}
    (compiled : ∀ rule ∈ rules, rule.IsCompiled) :
    ∀ rule ∈ mode.apply rules, rule.IsCompiled := by
  cases mode with
  | off => exact fun _ member => nomatch member
  | low => exact compiled
  | medium => exact compiled
  | high => exact compiled
  | extreme =>
    rw [apply_extreme]
    intro rule member
    rcases List.mem_append.mp member with member | added
    · exact compiled rule member
    · obtain ⟨type, -, -, shape, -⟩ := mem_extremeRules added
      rw [shape]
      exact .resource _ type

end Mode

namespace Compiler

variable (compiler : Compiler) (mode : Mode) (domains : List Domain)

@[simp] theorem rulesFor_off : compiler.rulesFor .off domains = [] := rfl

theorem strictlyOrdered_rulesFor : StrictlyOrdered (compiler.rulesFor mode domains) := by
  unfold rulesFor
  split
  · exact mode.strictlyOrdered_apply (compiler.strictlyOrdered_domainRules domains)
  · exact List.Pairwise.nil

theorem isCompiled_rulesFor : ∀ rule ∈ compiler.rulesFor mode domains, rule.IsCompiled := by
  unfold rulesFor
  split
  · exact mode.isCompiled_apply fun _ member => compiler.isCompiled_domainRules domains member
  · exact fun _ member => nomatch member

end Compiler

end Blocklist
