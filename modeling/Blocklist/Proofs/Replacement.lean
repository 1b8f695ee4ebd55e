import Blocklist.Proofs.RuleSets
import Blocklist.Surface

/-!
# Replacing the rules of a surface

A replacement is checked rule by rule against the ids that are taken already, and as a whole against
the quota. Rules that pass the first check are taken in full. So a replacement of everything that is
active by a compiled rule set has one reason to be refused, the quota, and otherwise leaves exactly
the compiled rules.
-/

namespace Blocklist.Surface

/-- Rules that can be added beside the ids taken already: none has an empty condition, no two share
an id, and none has an id that is taken. -/
structure Acceptable (taken : List RuleId) (rules : List Rule) : Prop where
  conditions : ∀ rule ∈ rules, rule.condition.isEmpty = false
  distinct : (rules.map (·.id)).Nodup
  free : ∀ rule ∈ rules, rule.id ∉ taken

theorem Acceptable.tail {taken : List RuleId} {rule : Rule} {rules : List Rule}
    (acceptable : Acceptable taken (rule :: rules)) : Acceptable (rule.id :: taken) rules := by
  obtain ⟨conditions, distinct, free⟩ := acceptable
  rw [List.map_cons, List.nodup_cons] at distinct
  refine ⟨fun other member => conditions other (List.mem_cons_of_mem _ member), distinct.2, ?_⟩
  intro other member
  rw [List.mem_cons, not_or]
  refine ⟨?_, free other (List.mem_cons_of_mem _ member)⟩
  intro same
  exact distinct.1 (List.mem_map.mpr ⟨other, member, same⟩)

/-- Acceptable rules pass the check, with all their ids taken in the end. -/
theorem accept_of_acceptable {taken : List RuleId} {rules : List Rule}
    (acceptable : Acceptable taken rules) :
    accept taken rules = .ok ((rules.map (·.id)).reverse ++ taken) := by
  induction rules generalizing taken with
  | nil => rfl
  | cons rule rest ih =>
    have condition := acceptable.conditions rule List.mem_cons_self
    have free := acceptable.free rule List.mem_cons_self
    simp only [accept, condition, List.contains_iff_mem, free, Bool.false_eq_true, if_false]
    rw [ih acceptable.tail]
    simp

def withRules (surface : Surface) (rules : List Rule) : Surface :=
  { surface with rules, replaceCount := surface.replaceCount + 1 }

def keptIds (surface : Surface) (removed : List RuleId) : List RuleId :=
  (surface.kept removed).map (·.id)

/-- The rules that stay together with those that are added, sorted by id. -/
def merged (surface : Surface) (removed : List RuleId) (added : List Rule) : List Rule :=
  (surface.kept removed ++ added).mergeSort fun a b => a.id ≤ b.id

/-- Rules that can be added beside those that stay are refused by the quota alone. -/
theorem replace_of_acceptable {surface : Surface} {removed : List RuleId} {added : List Rule}
    (acceptable : Acceptable (surface.keptIds removed) added) :
    surface.replace removed added =
      if surface.quota < (surface.kept removed).length + added.length then
        .error (.overQuota ((surface.kept removed).length + added.length) surface.quota)
      else .ok (surface.withRules (surface.merged removed added)) := by
  have taken := accept_of_acceptable acceptable
  have count : ((added.map (·.id)).reverse ++ surface.keptIds removed).length =
      (surface.kept removed).length + added.length := by
    simp [keptIds, Nat.add_comm]
  rw [keptIds] at taken count
  simp only [replace, taken, bind, Except.bind, count]
  split <;> rfl

/-- No rule stays when every active id is removed. -/
@[simp] theorem kept_activeIds (surface : Surface) : surface.kept surface.activeIds = [] := by
  refine List.filter_eq_nil_iff.mpr ?_
  intro rule member
  have active : rule.id ∈ surface.activeIds := List.mem_map.mpr ⟨rule, member, rfl⟩
  simp [active]

/-- Rules with strictly ordered ids are in the order in which a surface keeps its rules. -/
theorem mergeSort_of_strictlyOrdered {rules : List Rule} (ordered : StrictlyOrdered rules) :
    (rules.mergeSort fun a b => a.id ≤ b.id) = rules := by
  refine List.mergeSort_of_pairwise (ordered.imp ?_)
  intro a b below
  exact decide_eq_true (UInt32.le_of_lt below)

theorem acceptable_rulesFor (compiler : Compiler) (mode : Mode) (domains : List Domain) :
    Acceptable [] (compiler.rulesFor mode domains) where
  conditions rule member := (compiler.isCompiled_rulesFor mode domains rule member).isEmpty_eq_false
  distinct := (compiler.strictlyOrdered_rulesFor mode domains).nodup_ids
  free _ _ := List.not_mem_nil

/-- Replacing everything by a mode's rules succeeds exactly within the quota, and then leaves those
rules and nothing else. -/
theorem replace_activeIds_rulesFor (surface : Surface) (compiler : Compiler) (mode : Mode)
    (domains : List Domain) :
    surface.replace surface.activeIds (compiler.rulesFor mode domains) =
      if surface.quota < (compiler.rulesFor mode domains).length then
        .error (.overQuota (compiler.rulesFor mode domains).length surface.quota)
      else .ok { surface with
        rules := compiler.rulesFor mode domains
        replaceCount := surface.replaceCount + 1 } := by
  have none : surface.keptIds surface.activeIds = [] := by rw [keptIds, kept_activeIds, List.map_nil]
  have sorted : surface.merged surface.activeIds (compiler.rulesFor mode domains) =
      compiler.rulesFor mode domains := by
    rw [merged, kept_activeIds, List.nil_append]
    exact mergeSort_of_strictlyOrdered (compiler.strictlyOrdered_rulesFor mode domains)
  have acceptable := acceptable_rulesFor compiler mode domains
  rw [← none] at acceptable
  rw [replace_of_acceptable acceptable, sorted, kept_activeIds, List.length_nil, Nat.zero_add]
  rfl

theorem eq_withRules_of_replace {surface replaced : Surface} {compiler : Compiler} {mode : Mode}
    {domains : List Domain}
    (accepted : surface.replace surface.activeIds (compiler.rulesFor mode domains) = .ok replaced) :
    replaced = surface.withRules (compiler.rulesFor mode domains) := by
  rw [replace_activeIds_rulesFor] at accepted
  split at accepted
  · contradiction
  · exact (Except.ok.inj accepted).symm

theorem replace_activeIds_off (surface : Surface) :
    surface.replace surface.activeIds [] = .ok (surface.withRules []) := by
  have outcome := surface.replace_activeIds_rulesFor ⟨0, 0⟩ .off []
  rw [Compiler.rulesFor_off] at outcome
  exact outcome.trans (if_neg (Nat.not_lt_zero _))

end Blocklist.Surface
