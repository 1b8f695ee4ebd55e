import Blocklist.Config
import Blocklist.Proofs.ListRoundTrip
import Blocklist.Proofs.RuleSets
import Mathlib.Algebra.Group.Nat.Defs

/-!
# The layout of rule sets

The ids of a rule set are numbers that count up: the domain rules from the base, one for each
domain, and the rules of extreme mode from the last of these. Three limits cut the row of domain
rules off, the length of the list, the cap and the greatest id; the rules of extreme mode are cut
off by the greatest id alone. The numbers are unbounded here and a rule is left out when its number
is no id, so no id wraps. A valid configuration has room for every number that can come up.
-/

namespace Blocklist

/-! ## The last id -/

/-- Folding with `max` stays below a bound on its start and on all ids on the way. -/
private theorem foldl_max_le {rules : List Rule} {start bound : RuleId} (first : start ≤ bound)
    (below : ∀ rule ∈ rules, rule.id ≤ bound) :
    rules.foldl (fun greatest rule => max greatest rule.id) start ≤ bound := by
  induction rules generalizing start with
  | nil => exact first
  | cons rule rules ih =>
    obtain ⟨second, others⟩ := List.forall_mem_cons.mp below
    refine ih ?_ others
    change (if start ≤ rule.id then rule.id else start) ≤ bound
    split
    · exact second
    · exact first

theorem greatestId_le {rules : List Rule} {bound : RuleId}
    (below : ∀ rule ∈ rules, rule.id ≤ bound) : greatestId rules ≤ bound :=
  foldl_max_le UInt32.zero_le below

/-- The last id of a row of rules, and zero for no rules. -/
def lastId (rules : List Rule) : RuleId := (rules.getLast?.map (·.id)).getD 0

/-- In a row of rules whose ids grow, the greatest id is the last one. -/
theorem StrictlyOrdered.greatestId_eq {rules : List Rule} (ordered : StrictlyOrdered rules) :
    greatestId rules = lastId rules := by
  cases ends : rules.getLast? with
  | none =>
    obtain rfl := List.getLast?_eq_none_iff.mp ends
    rfl
  | some last =>
    obtain ⟨others, rfl⟩ := List.getLast?_eq_some_iff.mp ends
    obtain ⟨-, -, across⟩ := List.pairwise_append.mp ordered
    have below : ∀ rule ∈ others ++ [last], rule.id ≤ last.id := by
      refine List.forall_mem_append.mpr ⟨fun rule member => ?_, ?_⟩
      · exact UInt32.le_of_lt (across rule member last List.mem_cons_self)
      · exact List.forall_mem_singleton.mpr (UInt32.le_refl _)
    rw [lastId, ends, Option.map_some, Option.getD_some]
    exact UInt32.le_antisymm (greatestId_le below) (le_greatestId (by simp))

/-! ## Rules above the last id -/

namespace Mode

/-- The numbers above a last id that are ids themselves, with the types that extreme mode blocks
under them. -/
def extraIds (last : Nat) : List (Nat × ResourceType) :=
  [(last + 1, .image), (last + 2, .media), (last + 3, .font)].filter (·.1 ≤ 2 ^ 32 - 1)

/-- Rules above an id are there as far as their numbers are ids. -/
private theorem filterMap_idAbove? (last : RuleId) (entries : List (ResourceType × Nat)) :
    (entries.filterMap fun (type, distance) => (idAbove? last distance).map type.toRule) =
      ((entries.map fun (type, distance) => (last.toNat + distance, type)).filter
        (·.1 ≤ 2 ^ 32 - 1)).map fun (id, type) => type.toRule (.ofNat id) := by
  have bound : idBound = 2 ^ 32 := rfl
  induction entries with
  | nil => rfl
  | cons entry entries ih =>
    obtain ⟨type, distance⟩ := entry
    by_cases inRange : last.toNat + distance ≤ 2 ^ 32 - 1
    · have above : idAbove? last distance = some (.ofNat (last.toNat + distance)) :=
        if_pos (by omega)
      simp only [List.filterMap_cons, List.map_cons, above, Option.map_some, ih,
        List.filter_cons, inRange, decide_true, if_true]
    · have none : idAbove? last distance = none := if_neg (by omega)
      simp only [List.filterMap_cons, List.map_cons, none, Option.map_none, ih,
        List.filter_cons, inRange, decide_false, Bool.false_eq_true, if_false]

/-- The rules that extreme mode adds have the numbers above the last id, as far as these are ids. -/
theorem extremeRules_eq (last : RuleId) :
    extremeRules last = (extraIds last.toNat).map fun (id, type) => type.toRule (.ofNat id) :=
  filterMap_idAbove? last (extremeTypes.zipIdx 1)

theorem toNat_of_mem_extraIds {last : Nat} {entry : Nat × ResourceType}
    (member : entry ∈ extraIds last) : (UInt32.ofNat entry.1).toNat = entry.1 := by
  obtain ⟨-, inRange⟩ := List.mem_filter.mp member
  have : entry.1 ≤ 2 ^ 32 - 1 := of_decide_eq_true inRange
  exact toNat_ofNat_of_lt_idBound (Nat.lt_of_le_pred (by decide) this)

/-- Far enough below the greatest id all three rules are there. -/
theorem extraIds_of_le {last : Nat} (far : last + 3 ≤ 2 ^ 32 - 1) :
    extraIds last = [(last + 1, .image), (last + 2, .media), (last + 3, .font)] := by
  refine List.filter_eq_self.mpr ?_
  simp only [List.forall_mem_cons, decide_eq_true_eq]
  exact ⟨by omega, by omega, far, nofun⟩

end Mode

namespace Compiler

variable (compiler : Compiler) (domains : List Domain)

theorem length_domainRules :
    (compiler.domainRules domains).length = min domains.length compiler.room := by
  simp only [domainRules, room, List.length_mapIdx, List.length_take, Nat.min_comm]

/-- The rule at a place is that of the domain there, with the id that many places above the base. -/
theorem getElem?_domainRules {index : Nat} (inRange : index < compiler.room) :
    (compiler.domainRules domains)[index]? =
      domains[index]?.map (Domain.toRule (.ofNat (compiler.baseId.toNat + index))) := by
  change ((domains.take compiler.room).mapIdx _)[index]? = _
  rw [List.getElem?_mapIdx, List.getElem?_take_of_lt inRange]

/-- The last id of domain rules lies as far above the base as there are others. -/
theorem toNat_lastId_domainRules (kept : compiler.domainRules domains ≠ []) :
    (lastId (compiler.domainRules domains)).toNat + 1 =
      compiler.baseId.toNat + (compiler.domainRules domains).length := by
  have inRange := Nat.sub_lt (List.length_pos_iff.mpr kept) Nat.one_pos
  have last := toNat_id_domainRules compiler domains _ inRange
  rw [lastId, List.getLast?_eq_getElem?, List.getElem?_eq_getElem inRange, Option.map_some,
    Option.getD_some, last]
  omega

/-- Extreme mode adds its rules above the last domain rule. -/
theorem rulesFor_extreme :
    compiler.rulesFor .extreme domains = compiler.domainRules domains ++
      Mode.extremeRules (lastId (compiler.domainRules domains)) := by
  rw [← (compiler.strictlyOrdered_domainRules domains).greatestId_eq]
  rfl

theorem urlFilters_extremeRules (greatest : RuleId) :
    (Mode.extremeRules greatest).filterMap (·.condition.urlFilter) = [] := by
  refine List.filterMap_eq_nil_iff.mpr fun rule member => ?_
  obtain ⟨type, distance, -, same, -⟩ := Mode.mem_extremeRules member
  rw [same]
  rfl

/-- A mode leaves the rules of domains as they are, unless it is off. -/
theorem urlFilters_apply {mode : Mode} (notOff : mode ≠ .off) (rules : List Rule) :
    (mode.apply rules).filterMap (·.condition.urlFilter) =
      rules.filterMap (·.condition.urlFilter) := by
  cases mode with
  | off => contradiction
  | extreme =>
    rw [Mode.apply_extreme, List.filterMap_append, urlFilters_extremeRules, List.append_nil]
  | _ => rfl

end Compiler

/-! ## Room for every rule -/

section

variable {config : Config}

theorem Config.ids_fit (valid : config.validate = .ok ()) :
    config.domainRuleBaseId.toNat + config.maxDomainRules.toNat + 3 < 2 ^ 32 := by
  unfold validate at valid
  split at valid
  · contradiction
  · split at valid
    · contradiction
    · split at valid
      · next fits => exact fits
      · contradiction

/-- The ids are enough for as many domain rules as the cap allows and for three rules above them.
Where there are no domain rules at all, the three need no more than the first ids. -/
def Config.IdsFit (config : Config) : Prop :=
  config.maxDomainRules.toNat = 0 ∨
    config.domainRuleBaseId.toNat + config.maxDomainRules.toNat + 3 ≤ 2 ^ 32

theorem Config.idsFit_of_validate (valid : config.validate = .ok ()) : config.IdsFit :=
  .inr (Nat.le_of_lt (ids_fit valid))

namespace Compiler

/-- Where the ids are enough, the cap alone decides how many domains have a rule. -/
theorem room_of_idsFit (fits : config.IdsFit) :
    config.compiler.room = config.maxDomainRules.toNat := by
  have bound : idBound = 2 ^ 32 := rfl
  change min config.maxDomainRules.toNat (idBound - config.domainRuleBaseId.toNat) = _
  rcases fits with none | fits
  · rw [none, Nat.zero_min]
  · omega

/-- Where the ids are enough, three are left above the last domain rule. -/
theorem lastId_of_idsFit (fits : config.IdsFit) (domains : List Domain) :
    (lastId (config.compiler.domainRules domains)).toNat + 3 ≤ 2 ^ 32 - 1 := by
  have length := config.compiler.length_domainRules domains
  rw [room_of_idsFit fits] at length
  by_cases none : config.compiler.domainRules domains = []
  · rw [none]
    decide
  · have last := config.compiler.toNat_lastId_domainRules domains none
    have some := List.length_pos_iff.mpr none
    change _ = config.domainRuleBaseId.toNat + _ at last
    rcases fits with noCap | fits
    · omega
    · omega

/-- Where a configuration is valid, the cap alone decides how many domains have a rule. -/
theorem room_of_validate (valid : config.validate = .ok ()) :
    config.compiler.room = config.maxDomainRules.toNat :=
  room_of_idsFit (Config.idsFit_of_validate valid)

/-- Where a configuration is valid, three ids are left above the last domain rule. -/
theorem lastId_of_validate (valid : config.validate = .ok ()) (domains : List Domain) :
    (lastId (config.compiler.domainRules domains)).toNat + 3 ≤ 2 ^ 32 - 1 :=
  lastId_of_idsFit (Config.idsFit_of_validate valid) domains

end Compiler

end

/-! ## The layout -/

namespace Compiler

/-- The rule set of every mode. The domain rules are those of the first domains, as many as the
list, the cap and the ids from the base on allow, and each has the id that many places above the
base and the filter of its domain. Off has no rules, low, medium and high have these, and extreme
adds rules for images, media and fonts under the next three numbers, leaving out those that are no
ids. Each of these matches the one type at every address. Where a configuration is valid, the ids allow whatever the list and the cap allow, and all
three rules are there. -/
theorem rulesFor_layout (compiler : Compiler) (domains : List Domain) :
    let count := min domains.length
      (min compiler.maxDomainRules.toNat (2 ^ 32 - compiler.baseId.toNat))
    let rules := compiler.domainRules domains
    let last := if count = 0 then 0 else compiler.baseId.toNat + (count - 1)
    rules.length = count ∧
      (∀ index domain, index < count → domains[index]? = some domain →
        ∃ id, rules[index]? = some (domain.toRule id) ∧
          id.toNat = compiler.baseId.toNat + index ∧
          (domain.toRule id).id = id ∧
          (domain.toRule id).condition.urlFilter = some ("||" ++ domain.text ++ "^")) ∧
      compiler.rulesFor .off domains = [] ∧
      (∀ mode, mode = .low ∨ mode = .medium ∨ mode = .high →
        compiler.rulesFor mode domains = rules) ∧
      (∃ extra, compiler.rulesFor .extreme domains = rules ++ extra ∧
        extra.map (fun rule => (rule.id.toNat, rule)) =
          ((Mode.extraIds last).map fun (id, type) => (id, type.toRule (.ofNat id))) ∧
        extra.map (fun rule => (rule.id.toNat, rule.condition)) =
          (Mode.extraIds last).map fun (id, type) =>
            (id, { urlFilter := none, resourceTypes := some [type] })) ∧
      ∀ config : Config, config.compiler = compiler → config.validate = .ok () →
        count = min domains.length config.maxDomainRules.toNat ∧
          Mode.extraIds last = [(last + 1, .image), (last + 2, .media), (last + 3, .font)] := by
  intro count rules last
  have length : rules.length = count := compiler.length_domainRules domains
  have lastEq : last = (lastId rules).toNat := by
    by_cases none : rules = []
    · have zero : count = 0 := by rw [← length, none, List.length_nil]
      rw [none]
      exact if_pos zero
    · have positive : count ≠ 0 := by
        rw [← length]
        exact mt List.length_eq_zero_iff.mp none
      have place := compiler.toNat_lastId_domainRules domains none
      have below : last = compiler.baseId.toNat + (count - 1) := if_neg positive
      change (lastId rules).toNat + 1 = _ + rules.length at place
      omega
  refine ⟨length, ?_, rulesFor_off _ _, ?_, ?_, ?_⟩
  · intro index domain inRange found
    have inRoom : index < compiler.room := Nat.lt_of_lt_of_le inRange (Nat.min_le_right _ _)
    refine ⟨.ofNat (compiler.baseId.toNat + index), ?_, ?_, rfl, rfl⟩
    · rw [compiler.getElem?_domainRules domains inRoom, found, Option.map_some]
    · refine toNat_ofNat_of_lt_idBound ?_
      have bound : idBound = 2 ^ 32 := rfl
      have room : index < 2 ^ 32 - compiler.baseId.toNat :=
        Nat.lt_of_lt_of_le inRoom (Nat.min_le_right _ _)
      omega
  · rintro mode (rfl | rfl | rfl)
    · rfl
    · rfl
    · rfl
  · refine ⟨_, compiler.rulesFor_extreme domains, ?_, ?_⟩
    all_goals
      rw [lastEq, Mode.extremeRules_eq, List.map_map]
      refine List.map_congr_left fun entry member => ?_
      exact congrArg (·, _) (Mode.toNat_of_mem_extraIds member)
  · rintro config rfl valid
    refine ⟨congrArg (min domains.length) (room_of_validate valid), ?_⟩
    rw [lastEq]
    exact Mode.extraIds_of_le (lastId_of_validate valid domains)

/-- Three domains from the last id but one on: two have a rule, and no id is left for extreme
mode. -/
example : (rulesFor ⟨10, 4294967294⟩ .extreme (FilterList.domains "||a^\n||b^\n||c^")).map (·.id) =
    [4294967294, 4294967295] := by decide +kernel

end Compiler

end Blocklist
