import Blocklist.Json.Decoding

/-!
# Blocking rules

A rule is what a host's request filter understands: an id, a priority, an action and a condition on
requests. The condition names a filter on addresses, resource types, or both; it is empty when it
names neither.
-/

namespace Blocklist

/-- A rule's id; ids are unique among the rules of a host. -/
abbrev RuleId := UInt32

/-- What a matching rule does to a request. -/
inductive RuleAction where
  | block
deriving DecidableEq, Repr

/-- What a request is for. -/
inductive ResourceType where
  | subFrame
  | stylesheet
  | script
  | image
  | font
  | xmlHttpRequest
  | ping
  | media
  | other
deriving DecidableEq, Repr

namespace ResourceType

/-- Every type, in the order in which messages list them. -/
def all : List ResourceType :=
  [subFrame, stylesheet, script, image, font, xmlHttpRequest, ping, media, other]

def name : ResourceType → String
  | subFrame => "sub_frame"
  | stylesheet => "stylesheet"
  | script => "script"
  | image => "image"
  | font => "font"
  | xmlHttpRequest => "xmlhttprequest"
  | ping => "ping"
  | media => "media"
  | other => "other"

def ofName? (name : String) : Option ResourceType := all.find? (·.name == name)

@[simp] theorem ofName?_name (type : ResourceType) : ofName? type.name = some type := by
  cases type <;> decide +kernel

def toJson (type : ResourceType) : Json := .str type.name

def ofJson (value : Json) : Json.Decoded ResourceType :=
  Json.decodeVariant (all.map name) ofName? Json.isNothing value

@[simp] theorem ofJson_toJson (type : ResourceType) : ofJson type.toJson = .ok type := by
  simp [ofJson, toJson, Json.decodeVariant]

end ResourceType

/-- Which requests a rule matches. -/
structure RuleCondition where
  urlFilter : Option String := none
  resourceTypes : Option (List ResourceType) := none
deriving DecidableEq, Repr

namespace RuleCondition

/-- A condition that names neither a filter nor a resource type. -/
def isEmpty (condition : RuleCondition) : Bool :=
  condition.urlFilter.isNone && condition.resourceTypes.all (·.isEmpty)

end RuleCondition

structure Rule where
  id : RuleId
  priority : UInt32
  action : RuleAction
  condition : RuleCondition
deriving DecidableEq, Repr

namespace Rule

/-- A rule that blocks what meets a condition, at the ordinary priority. -/
def block (id : RuleId) (condition : RuleCondition) : Rule := ⟨id, 1, .block, condition⟩

@[simp] theorem id_block (id : RuleId) (condition : RuleCondition) :
    (block id condition).id = id := rfl

end Rule

end Blocklist
