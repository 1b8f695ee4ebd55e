import Blocklist.Proofs.Printing
import Blocklist.Rule.Json

/-!
# Rules as documents

A list of rules is printed with the members of each record in the order of its fields and read back
with the members sorted by name. Either way it decodes to the same rules.
-/

namespace Blocklist

open Json

/-! ## What can be printed -/

section

variable {room : Nat}

theorem RuleAction.printable_toJson (action : RuleAction) : Printable (room + 1) action.toJson := by
  cases action
  exact .obj (List.forall_mem_singleton.mpr (.str _))

theorem ResourceType.printable_toJson (type : ResourceType) : Printable room type.toJson := .str _

theorem RuleCondition.printable_toJson (condition : RuleCondition) :
    Printable (room + 2) condition.toJson := by
  refine .obj (List.forall_mem_append.mpr ⟨?_, ?_⟩)
  · intro member among
    obtain ⟨filter, -, rfl⟩ := List.mem_map.mp among
    exact .str filter
  · intro member among
    obtain ⟨types, -, rfl⟩ := List.mem_map.mp among
    exact .arr (List.forall_mem_map.mpr fun type _ => type.printable_toJson)

/-- An unsigned number of 32 bits is one of 64 bits. -/
theorem printable_toNat (n : UInt32) : Printable room (.int n.toNat) := by
  have small : n.toNat < UInt32.size := n.toNat_lt_size
  have size : UInt32.size = 0x100000000 := rfl
  have wide : UInt64.size = 0x10000000000000000 := rfl
  exact .int (by omega) (by omega)

theorem Rule.printable_toJson (rule : Rule) : Printable (room + 3) rule.toJson := by
  refine .obj ?_
  simp only [List.forall_mem_cons]
  exact ⟨printable_toNat _, printable_toNat _, rule.action.printable_toJson,
    rule.condition.printable_toJson, List.forall_mem_nil _⟩

theorem Rule.printable_listToJson (rules : List Rule) : Printable (room + 4) (listToJson rules) :=
  .arr (List.forall_mem_map.mpr fun rule _ => rule.printable_toJson)

end

/-! ## What is read back -/

theorem RuleAction.sorted_toJson (action : RuleAction) : action.toJson.sorted = action.toJson := by
  cases action
  rfl

/-- The members of a condition are written in the other order. -/
theorem object_condition (filter types : Json) :
    object [("urlFilter", filter), ("resourceTypes", types)] =
      .obj [("resourceTypes", types), ("urlFilter", filter)] := by
  have differs : ¬ "resourceTypes" = "urlFilter" := by decide
  have before : "resourceTypes" < "urlFilter" := by decide
  simp only [object, List.foldl_cons, List.foldl_nil, insertMember, if_neg differs, if_pos before]

/-- The members of a rule are written with the id and the priority first. -/
theorem object_rule (id priority action condition : Json) :
    object [("id", id), ("priority", priority), ("action", action), ("condition", condition)] =
      .obj [("action", action), ("condition", condition), ("id", id), ("priority", priority)] := by
  have priorityLast : ¬ "priority" = "id" ∧ ¬ "priority" < "id" := by decide
  have actionFirst : ¬ "action" = "id" ∧ "action" < "id" := by decide
  have conditionAfter : ¬ "condition" = "action" ∧ ¬ "condition" < "action" := by decide
  have conditionBefore : ¬ "condition" = "id" ∧ "condition" < "id" := by decide
  simp only [object, List.foldl_cons, List.foldl_nil, insertMember, if_neg priorityLast.1,
    if_neg priorityLast.2, if_neg actionFirst.1, if_pos actionFirst.2, if_neg conditionAfter.1,
    if_neg conditionAfter.2, if_neg conditionBefore.1, if_pos conditionBefore.2]

theorem RuleCondition.sorted_toJson (condition : RuleCondition) : condition.toJson.sorted =
    .obj (condition.resourceTypes.toList.map (fun types =>
        ("resourceTypes", .arr (types.map ResourceType.toJson))) ++
      condition.urlFilter.toList.map fun filter => ("urlFilter", .str filter)) := by
  obtain ⟨filter, types⟩ := condition
  have same (types : List ResourceType) :
      (types.map ResourceType.toJson).map sorted = types.map ResourceType.toJson := by
    rw [List.map_map]
    rfl
  cases filter with
  | none => cases types <;> simp [toJson, sorted, object, insertMember, same]
  | some filter =>
    cases types with
    | none => simp [toJson, sorted, object, insertMember]
    | some types =>
      simp only [toJson, Option.toList_some, List.map_cons, List.map_nil, List.cons_append,
        List.nil_append, sorted, sortedMembers_eq, sortedItems_eq, same]
      exact object_condition _ _

theorem RuleCondition.ofJson_sorted (condition : RuleCondition) :
    ofJson condition.toJson.sorted = .ok condition := by
  rw [sorted_toJson]
  obtain ⟨filter, types⟩ := condition
  cases filter <;> cases types <;>
    simp [ofJson, decodeRecord, Draft.absorb, Draft.finish, fill, ofFilterJson, ofTypesJson_map,
      decodeOption, decodeString, bind, Except.bind, pure, Except.pure, Functor.map, Except.map]

theorem Rule.sorted_toJson (rule : Rule) : rule.toJson.sorted =
    .obj [("action", rule.action.toJson), ("condition", rule.condition.toJson.sorted),
      ("id", .int rule.id.toNat), ("priority", .int rule.priority.toNat)] := by
  rw [toJson, sorted, sortedMembers_eq]
  exact (object_rule _ _ _ _).trans (by rw [RuleAction.sorted_toJson]; rfl)

theorem Rule.ofJson_sorted (rule : Rule) : ofJson rule.toJson.sorted = .ok rule := by
  simp [sorted_toJson, ofJson, decodeRecord, Draft.absorb, Draft.finish, fill, require,
    RuleCondition.ofJson_sorted, bind, Except.bind, pure, Except.pure, Functor.map, Except.map]

theorem Rule.listOfJson_sorted (rules : List Rule) :
    listOfJson (listToJson rules).sorted = .ok rules := by
  rw [listToJson, sorted, sortedItems_eq, List.map_map]
  exact decodeList_map ofJson_sorted rules

/-- A list of rules is read back from its text. -/
theorem Rule.exists_read_listToJson (rules : List Rule) :
    ∃ value, Json.read (listToJson rules).pretty = .ok value ∧ listOfJson value = .ok rules :=
  ⟨_, (printable_listToJson rules).read_pretty, listOfJson_sorted rules⟩

end Blocklist
