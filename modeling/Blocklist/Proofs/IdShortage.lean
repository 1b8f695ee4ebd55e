import Blocklist.Proofs.RuleLayout

/-!
# Running out of ids

Extreme mode puts its three rules above the greatest id in use, whatever the rules are and in
whatever order they stand, and leaves out those for which there is no id. No rule of its own and no
domain rule is ever left out for want of an id if the cap is zero, or if the base, the cap and three
add up to no more than the number of ids: the row of ids begins with the base itself. The check of a
configuration asks for a sum that is an id, which is one less, and asks for it with a cap of zero
too. So it accepts no configuration that runs out of ids, but refuses some that do not.
-/

namespace Blocklist

/-! ## Extreme mode on any rules -/

/-- The greatest id is the largest of the ids as numbers, and zero for no rules. -/
theorem toNat_greatestId (rules : List Rule) :
    (greatestId rules).toNat = (rules.map (·.id.toNat)).max?.getD 0 := by
  have folded (start : RuleId) :
      (rules.foldl (fun greatest rule => max greatest rule.id) start).toNat =
        (rules.map (·.id.toNat)).foldl max start.toNat := by
    induction rules generalizing start with
    | nil => rfl
    | cons rule rules ih =>
      rw [List.foldl_cons, ih, UInt32.toNat_max, List.map_cons, List.foldl_cons]
  rw [greatestId, folded, List.foldl_max]
  exact Nat.zero_max _

/-- Of a row of numbers with companions, those up to a bound are the first ones. -/
private theorem filter_zip_range' (companions : List α) (count start bound : Nat) :
    ((List.range' start count).zip companions).filter (·.1 ≤ bound) =
      ((List.range' start count).zip companions).take (bound + 1 - start) := by
  induction count generalizing start companions with
  | zero => simp
  | succ count ih =>
    cases companions with
    | nil => simp
    | cons companion companions =>
      rw [List.range'_succ, List.zip_cons_cons, List.filter_cons, ih]
      by_cases within : start ≤ bound
      · have longer : bound + 1 - start = bound + 1 - (start + 1) + 1 := by omega
        rw [longer, List.take_succ_cons, if_pos (decide_eq_true within)]
      · have none : bound + 1 - start = 0 ∧ bound + 1 - (start + 1) = 0 := by omega
        rw [none.1, none.2, List.take_zero, List.take_zero, if_neg (by simpa using within)]

namespace Mode

/-- The extra ids are the next three numbers, cut off at the greatest id there is. -/
theorem extraIds_eq_take (last : Nat) :
    extraIds last = ((List.range' (last + 1) 3).zip extremeTypes).take (2 ^ 32 - 1 - last) := by
  have cut : 2 ^ 32 - 1 + 1 - (last + 1) = 2 ^ 32 - 1 - last := Nat.add_sub_add_right _ _ _
  rw [← cut]
  exact filter_zip_range' extremeTypes 3 (last + 1) (2 ^ 32 - 1)

private theorem length_numbers (last : Nat) :
    (List.range' (last + 1) 3).length = extremeTypes.length := List.length_range'

theorem map_fst_extraIds (last : Nat) :
    (extraIds last).map Prod.fst = List.range' (last + 1) (min 3 (2 ^ 32 - 1 - last)) := by
  rw [extraIds_eq_take, List.map_take, List.map_fst_zip (Nat.le_of_eq (length_numbers last))]
  rcases Nat.le_total 3 (2 ^ 32 - 1 - last) with enough | few
  · rw [List.take_range'_of_length_le enough, Nat.min_eq_left enough]
  · rw [List.take_range'_of_length_ge few, Nat.min_eq_right few]

theorem map_snd_extraIds (last : Nat) :
    (extraIds last).map Prod.snd = extremeTypes.take (min 3 (2 ^ 32 - 1 - last)) := by
  rw [extraIds_eq_take, List.map_take, List.map_snd_zip (Nat.le_of_eq (length_numbers last).symm),
    Nat.min_comm, ← List.take_take]
  rfl

theorem map_id_extremeRules (last : RuleId) :
    (extremeRules last).map (·.id.toNat) =
      List.range' (last.toNat + 1) (min 3 (2 ^ 32 - 1 - last.toNat)) := by
  rw [extremeRules_eq, List.map_map, ← map_fst_extraIds]
  exact List.map_congr_left fun entry member => toNat_of_mem_extraIds member

theorem map_condition_extremeRules (last : RuleId) :
    (extremeRules last).map (·.condition) =
      (extremeTypes.take (min 3 (2 ^ 32 - 1 - last.toNat))).map fun type =>
        { urlFilter := none, resourceTypes := some [type] } := by
  rw [extremeRules_eq, List.map_map, ← map_snd_extraIds, List.map_map]
  rfl

/-- Extreme mode on any rules whatever, in any order and with any ids. The rules stay as they are,
and after them come as many new ones as there are ids above the greatest one, three at most. They
have the next ids, none of which wraps, and block images, media and fonts in this order. So their
ids lie above all others and differ, and where no id was repeated none is repeated now. -/
theorem extreme_appends_above (rules : List Rule) :
    let greatest := (rules.map (·.id.toNat)).max?.getD 0
    let count := min 3 (2 ^ 32 - 1 - greatest)
    ∃ extra, extreme.apply rules = rules ++ extra ∧ extra.length = count ∧
      extra.map (·.id.toNat) = List.range' (greatest + 1) count ∧
      extra.map (·.condition) = ([.image, .media, .font].take count).map (fun type =>
        { urlFilter := none, resourceTypes := some [type] }) ∧
      (∀ new ∈ extra, ∀ rule ∈ rules, rule.id < new.id) ∧
      (extra.map (·.id)).Nodup ∧
      ((rules.map (·.id)).Nodup → ((extreme.apply rules).map (·.id)).Nodup) := by
  intro greatest count
  have same : (greatestId rules).toNat = greatest := toNat_greatestId rules
  have ids := map_id_extremeRules (greatestId rules)
  have conditions := map_condition_extremeRules (greatestId rules)
  rw [same] at ids conditions
  have above (new) (added : new ∈ extremeRules (greatestId rules)) (rule) (member : rule ∈ rules) :
      rule.id < new.id :=
    UInt32.lt_of_le_of_lt (le_greatestId member) (greatest_lt_of_mem_extremeRules added)
  have distinct := (strictlyOrdered_extremeRules (greatestId rules)).nodup_ids
  refine ⟨_, apply_extreme rules, ?_, ids, conditions, above, distinct, ?_⟩
  · have counted := congrArg List.length ids
    rwa [List.length_map, List.length_range'] at counted
  · intro unrepeated
    rw [apply_extreme, List.map_append]
    refine List.nodup_append.mpr ⟨unrepeated, distinct, ?_⟩
    intro old among id among' repeated
    obtain ⟨rule, member, rfl⟩ := List.mem_map.mp among
    obtain ⟨new, added, rfl⟩ := List.mem_map.mp among'
    have smaller := above new added rule member
    rw [repeated] at smaller
    exact UInt32.lt_irrefl _ smaller

/-- Of three extra rules two find an id, though the greatest id is not the last one. -/
example : (extreme.apply [.block 4294967293 {}, .block 7 {}]).map (·.id) =
    [4294967293, 7, 4294967294, 4294967295] := by decide +kernel

end Mode

/-! ## Configurations that never run out -/

/-- The conditions of a rule set's resource rules, those without a filter on addresses. -/
def resourceConditions (rules : List Rule) : List (Option (List ResourceType)) :=
  (rules.filter (·.condition.urlFilter.isNone)).map (·.condition.resourceTypes)

/-- Under a configuration no rule is ever left out for want of an id. In every mode but off, a list
gets as many domain rules as it has domains, up to the cap, and in extreme mode all three resource
rules are there. -/
structure Config.KeepsEveryRule (config : Config) : Prop where
  domainRules (domains : List Domain) {mode : Mode} (notOff : mode ≠ .off) :
    ((config.compiler.rulesFor mode domains).filterMap (·.condition.urlFilter)).length =
      min domains.length config.maxDomainRules.toNat
  resourceRules (domains : List Domain) :
    resourceConditions (config.compiler.rulesFor .extreme domains) =
      [some [.image], some [.media], some [.font]]

namespace Compiler

variable (compiler : Compiler) (domains : List Domain)

/-- As many domains have a rule as there is room for, in every mode but off. -/
theorem length_urlFilters_rulesFor {mode : Mode} (notOff : mode ≠ .off) :
    ((compiler.rulesFor mode domains).filterMap (·.condition.urlFilter)).length =
      min domains.length compiler.room := by
  have uses : mode.usesFilterList = true := bne_iff_ne.mpr notOff
  rw [rulesFor, if_pos uses, urlFilters_apply notOff, urlFilters_domainRules, List.length_map,
    List.length_take, Nat.min_comm]

/-- The resource rules of extreme mode are those for which there is an id. -/
theorem resourceConditions_rulesFor :
    resourceConditions (compiler.rulesFor .extreme domains) =
      (extremeTypes.take (min 3 (2 ^ 32 - 1 -
        (lastId (compiler.domainRules domains)).toNat))).map fun type => some [type] := by
  have ofDomains : (compiler.domainRules domains).filter (·.condition.urlFilter.isNone) = [] := by
    refine List.filter_eq_nil_iff.mpr fun rule member => ?_
    simp only [domainRules, List.mem_mapIdx] at member
    obtain ⟨index, inRange, rfl⟩ := member
    exact Bool.false_ne_true
  have ofTypes (last : RuleId) : (Mode.extremeRules last).filter (·.condition.urlFilter.isNone) =
      Mode.extremeRules last := by
    refine List.filter_eq_self.mpr fun rule member => ?_
    obtain ⟨type, -, -, shape, -⟩ := Mode.mem_extremeRules member
    rw [shape]
    rfl
  have conditions := Mode.map_condition_extremeRules (lastId (compiler.domainRules domains))
  rw [resourceConditions, rulesFor_extreme, List.filter_append, ofDomains, ofTypes, List.nil_append]
  have types := congrArg (List.map RuleCondition.resourceTypes) conditions
  rwa [List.map_map, List.map_map] at types

end Compiler

/-- A configuration never runs out of ids exactly when its ids are enough for as many domain rules
as the cap allows and for three rules above them. -/
theorem Config.keepsEveryRule_iff {config : Config} :
    config.KeepsEveryRule ↔ config.IdsFit := by
  constructor
  · intro keeps
    by_cases noCap : config.maxDomainRules.toNat = 0
    · exact .inl noCap
    · -- A list that is as long as the cap uses every id that can come up.
      let domains := List.replicate config.maxDomainRules.toNat (⟨"a", by decide⟩ : Domain)
      have long : domains.length = config.maxDomainRules.toNat := List.length_replicate
      have count := config.compiler.length_domainRules domains
      have low : Mode.low ≠ .off := nofun
      have each := keeps.domainRules domains low
      rw [config.compiler.length_urlFilters_rulesFor domains low, long, Nat.min_self] at each
      rw [long, each] at count
      have kept : config.compiler.domainRules domains ≠ [] :=
        List.ne_nil_of_length_pos (by omega)
      have last := config.compiler.toNat_lastId_domainRules domains kept
      have three := congrArg List.length
        ((config.compiler.resourceConditions_rulesFor domains).symm.trans
          (keeps.resourceRules domains))
      rw [List.length_map, List.length_take] at three
      have types : extremeTypes.length = 3 := rfl
      have listed : [some [ResourceType.image], some [.media], some [.font]].length = 3 := rfl
      change _ = config.domainRuleBaseId.toNat + _ at last
      refine .inr ?_
      omega
  · intro fits
    refine ⟨fun domains {mode} notOff => ?_, fun domains => ?_⟩
    · rw [config.compiler.length_urlFilters_rulesFor domains notOff, Compiler.room_of_idsFit fits]
    · have far := Compiler.lastId_of_idsFit fits domains
      rw [config.compiler.resourceConditions_rulesFor domains, Nat.min_eq_left (by omega)]
      rfl

namespace Config

/-- With periods that are not zero, the check depends on the sum of base, cap and three alone. -/
theorem validate_eq {config : Config} (refreshes : config.refreshIntervalSecs ≠ 0)
    (caches : config.cacheTtlMs ≠ 0) :
    config.validate =
      if config.domainRuleBaseId.toNat + config.maxDomainRules.toNat + 3 < 2 ^ 32 then .ok ()
      else .error (.idsOverflow config.domainRuleBaseId config.maxDomainRules) := by
  unfold validate
  rw [if_neg refreshes, if_neg caches]
  rfl

/-- What the check of the ids is worth, where the periods are not zero. A configuration is accepted
when base, cap and three add up to an id, and refused for its ids otherwise. None that is accepted
ever runs out of ids. Those that are refused although they never run out either are those without
any domain rules and those that would use the last id of all. -/
theorem keepsEveryRule_iff_accepted_or_tight {config : Config}
    (refreshes : config.refreshIntervalSecs ≠ 0) (caches : config.cacheTtlMs ≠ 0) :
    let sum := config.domainRuleBaseId.toNat + config.maxDomainRules.toNat + 3
    (config.validate = .ok () ↔ sum < 2 ^ 32) ∧
      (config.validate = .error (.idsOverflow config.domainRuleBaseId config.maxDomainRules) ↔
        2 ^ 32 ≤ sum) ∧
      (config.KeepsEveryRule ↔
        config.validate = .ok () ∨ config.maxDomainRules.toNat = 0 ∨ sum = 2 ^ 32) := by
  intro sum
  have checked := validate_eq refreshes caches
  have accepted : config.validate = .ok () ↔ sum < 2 ^ 32 := by
    rw [checked]
    split
    · next fits => exact iff_of_true rfl fits
    · next above => exact iff_of_false nofun above
  have refused : config.validate =
      .error (.idsOverflow config.domainRuleBaseId config.maxDomainRules) ↔ 2 ^ 32 ≤ sum := by
    rw [checked]
    split
    · next fits => exact iff_of_false nofun (Nat.not_le.mpr fits)
    · next above => exact iff_of_true rfl (Nat.not_lt.mp above)
  refine ⟨accepted, refused, ?_⟩
  rw [keepsEveryRule_iff, accepted, IdsFit]
  omega

/-- The greatest base that is accepted with ten domain rules. -/
theorem keepsEveryRule_belowLastId :
    ({ domainRuleBaseId := 4294967282, maxDomainRules := 10 } : Config).KeepsEveryRule := by
  obtain ⟨accepted, -, keeps⟩ := @keepsEveryRule_iff_accepted_or_tight
    { domainRuleBaseId := 4294967282, maxDomainRules := 10 } (by decide) (by decide)
  exact keeps.mpr (.inl (accepted.mpr (by decide)))

/-- With a base one greater, ten domain rules and the rules of extreme mode take the ids up to the
last one. -/
def tight : Config := { domainRuleBaseId := 4294967283, maxDomainRules := 10 }

/-- Under the tight configuration no rule is left out, but it is refused for its ids. -/
theorem tight_keepsEveryRule_but_refused :
    tight.refreshIntervalSecs ≠ 0 ∧ tight.cacheTtlMs ≠ 0 ∧ tight.KeepsEveryRule ∧
      tight.validate = .error (.idsOverflow 4294967283 10) := by
  refine ⟨by decide, by decide, ?_, by decide⟩
  exact keepsEveryRule_iff.mpr (.inr (by decide))

end Config

end Blocklist
