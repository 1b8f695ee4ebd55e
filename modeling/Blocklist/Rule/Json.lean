import Blocklist.Rule

/-!
# Rules in JSON

Encoding leaves the absent parts of a condition out; decoding takes a missing part and a null one
for absent. An action is an object whose member `type` names it, or an array that begins with the
name.
-/

namespace Blocklist

namespace Json

/-- Why an array that begins with a variant's name is too long for it. -/
def surplus (taken left : Nat) : DecodeError :=
  .wrongLength (taken + left)
    (toString taken ++ (if taken = 1 then " element" else " elements") ++ " in sequence")

def decodeTag (known : List String) (ofName? : String → Option α) : Json → Decoded α
  | .str name => (ofName? name).elim (.error (.unknownVariant name known)) .ok
  | other => .error (.wrongType other.kind "variant identifier")

/-- A variant tagged by the member `type` of an object or by the first item of an array: its name,
and the other members or items. -/
def decodeTagged (type : String) (known : List String) (ofName? : String → Option α) :
    Json → Decoded (α × (List (String × Json) ⊕ List Json))
  | .obj members =>
    match members.lookup "type" with
    | some tag => do
      let variant ← decodeTag known ofName? tag
      return (variant, .inl (members.filter (·.1 != "type")))
    | none => .error (.missingField "type")
  | .arr (tag :: items) => do
    let variant ← decodeTag known ofName? tag
    return (variant, .inr items)
  | .arr [] => .error (.missingField "type")
  | other => .error (.wrongType other.kind ("internally tagged enum " ++ type))

end Json

namespace RuleAction

def ofName? (name : String) : Option RuleAction := if name = "block" then some .block else none

def toJson : RuleAction → Json
  | .block => .obj [("type", .str "block")]

def ofJson (value : Json) : Json.Decoded RuleAction := do
  match ← Json.decodeTagged "RuleAction" ["block"] ofName? value with
  | (action, .inl _) | (action, .inr []) => return action
  | (_, .inr items) => throw (Json.surplus 0 items.length)

@[simp] theorem ofJson_toJson (action : RuleAction) : ofJson action.toJson = .ok action := by
  cases action; rfl

end RuleAction

namespace RuleCondition

def shape : Json.Shape := ⟨"struct RuleCondition", 2⟩

structure Draft where
  urlFilter : Option (Option String) := none
  resourceTypes : Option (Option (List ResourceType)) := none

def ofFilterJson (value : Json) : Json.Decoded (Option String) :=
  Json.decodeOption Json.decodeString value

def ofTypesJson (value : Json) : Json.Decoded (Option (List ResourceType)) :=
  Json.decodeOption (Json.decodeList ResourceType.ofJson) value

namespace Draft

def absorb (draft : Draft) : String × Json → Json.Decoded Draft
  | ("urlFilter", value) => do
    let urlFilter ← Json.fill "urlFilter" draft.urlFilter (ofFilterJson value)
    return { draft with urlFilter }
  | ("resourceTypes", value) => do
    let resourceTypes ← Json.fill "resourceTypes" draft.resourceTypes (ofTypesJson value)
    return { draft with resourceTypes }
  | _ => .ok draft

def finish (draft : Draft) : RuleCondition :=
  ⟨draft.urlFilter.getD none, draft.resourceTypes.getD none⟩

end Draft

def toJson (condition : RuleCondition) : Json :=
  .obj (condition.urlFilter.toList.map (fun filter => ("urlFilter", .str filter)) ++
    condition.resourceTypes.toList.map fun types =>
      ("resourceTypes", .arr (types.map ResourceType.toJson)))

def ofJson : Json → Json.Decoded RuleCondition :=
  Json.decodeRecord shape
    (fun members => Draft.finish <$> members.foldlM Draft.absorb {})
    (do
      let urlFilter ← Json.Row.nextD none ofFilterJson
      let resourceTypes ← Json.Row.nextD none ofTypesJson
      return ⟨urlFilter, resourceTypes⟩)

theorem ofTypesJson_map (types : List ResourceType) :
    ofTypesJson (.arr (types.map ResourceType.toJson)) = .ok (some types) := by
  have items := Json.decodeList_map ResourceType.ofJson_toJson types
  exact congrArg (some <$> ·) items

@[simp] theorem ofJson_toJson (condition : RuleCondition) :
    ofJson condition.toJson = .ok condition := by
  obtain ⟨filter, types⟩ := condition
  cases filter <;> cases types <;>
    simp [ofJson, toJson, Json.decodeRecord, Draft.absorb, Draft.finish, Json.fill, ofFilterJson,
      ofTypesJson_map, Json.decodeOption, Json.decodeString, bind, Except.bind, pure, Except.pure,
      Functor.map, Except.map]

end RuleCondition

namespace Rule

def shape : Json.Shape := ⟨"struct Rule", 4⟩

structure Draft where
  id : Option RuleId := none
  priority : Option UInt32 := none
  action : Option RuleAction := none
  condition : Option RuleCondition := none

namespace Draft

def absorb (draft : Draft) : String × Json → Json.Decoded Draft
  | ("id", value) => do
    return { draft with id := ← Json.fill "id" draft.id (Json.decodeUInt32 value) }
  | ("priority", value) => do
    let priority ← Json.fill "priority" draft.priority (Json.decodeUInt32 value)
    return { draft with priority }
  | ("action", value) => do
    return { draft with action := ← Json.fill "action" draft.action (RuleAction.ofJson value) }
  | ("condition", value) => do
    let condition ← Json.fill "condition" draft.condition (RuleCondition.ofJson value)
    return { draft with condition }
  | _ => .ok draft

def finish (draft : Draft) : Json.Decoded Rule := do
  let id ← Json.require "id" draft.id
  let priority ← Json.require "priority" draft.priority
  let action ← Json.require "action" draft.action
  let condition ← Json.require "condition" draft.condition
  return ⟨id, priority, action, condition⟩

end Draft

def toJson (rule : Rule) : Json :=
  .obj [("id", .int rule.id.toNat), ("priority", .int rule.priority.toNat),
    ("action", rule.action.toJson), ("condition", rule.condition.toJson)]

def ofJson : Json → Json.Decoded Rule :=
  Json.decodeRecord shape
    (fun members => do (← members.foldlM Draft.absorb {}).finish)
    (do
      let id ← Json.Row.next shape 0 Json.decodeUInt32
      let priority ← Json.Row.next shape 1 Json.decodeUInt32
      let action ← Json.Row.next shape 2 RuleAction.ofJson
      let condition ← Json.Row.next shape 3 RuleCondition.ofJson
      return ⟨id, priority, action, condition⟩)

@[simp] theorem ofJson_toJson (rule : Rule) : ofJson rule.toJson = .ok rule := by
  simp [ofJson, toJson, Json.decodeRecord, Draft.absorb, Draft.finish, Json.fill, Json.require,
    bind, Except.bind, pure, Except.pure, Functor.map, Except.map]

/-- A list of rules, the fields of each in the order of the record. -/
def listToJson (rules : List Rule) : Json := .arr (rules.map toJson)

def listOfJson (value : Json) : Json.Decoded (List Rule) := Json.decodeList ofJson value

end Rule

end Blocklist
