import Blocklist.Config
import Blocklist.Json.Reader

/-!
# Configurations in JSON

Members that are missing keep their default and unknown ones are ignored. A configuration is decoded
either from a value or straight from a text. From a text a repeated member is an error, the error
names the place it was met at, and the content of unknown members is only passed over.
-/

namespace Blocklist.Config

def shape : Json.Shape := ⟨"struct EngineConfig", 8⟩

/-- The members of a configuration that are known so far. -/
structure Draft where
  listUrl : Option String := none
  cacheTtlMs : Option UInt64 := none
  maxDomainRules : Option UInt64 := none
  domainRuleBaseId : Option UInt32 := none
  avgBytesPerRequest : Option UInt64 := none
  refreshIntervalSecs : Option UInt64 := none
  fetchTimeoutSecs : Option UInt64 := none
  userAgent : Option String := none

inductive Key where
  | listUrl
  | cacheTtlMs
  | maxDomainRules
  | domainRuleBaseId
  | avgBytesPerRequest
  | refreshIntervalSecs
  | fetchTimeoutSecs
  | userAgent
deriving DecidableEq, Repr

namespace Key

/-- Every member, in the order of the record. -/
def all : List Key :=
  [listUrl, cacheTtlMs, maxDomainRules, domainRuleBaseId, avgBytesPerRequest, refreshIntervalSecs,
    fetchTimeoutSecs, userAgent]

def name : Key → String
  | listUrl => "list_url"
  | cacheTtlMs => "cache_ttl_ms"
  | maxDomainRules => "max_domain_rules"
  | domainRuleBaseId => "domain_rule_base_id"
  | avgBytesPerRequest => "avg_bytes_per_request"
  | refreshIntervalSecs => "refresh_interval_secs"
  | fetchTimeoutSecs => "fetch_timeout_secs"
  | userAgent => "user_agent"

def ofName? (name : String) : Option Key := all.find? (·.name == name)

@[simp] theorem ofName?_name (key : Key) : ofName? key.name = some key := by
  cases key <;> decide +kernel

/-- The member's value in a configuration. -/
def encode (config : Config) : Key → Json
  | listUrl => .str config.listUrl
  | cacheTtlMs => .int config.cacheTtlMs.toNat
  | maxDomainRules => .int config.maxDomainRules.toNat
  | domainRuleBaseId => .int config.domainRuleBaseId.toNat
  | avgBytesPerRequest => .int config.avgBytesPerRequest.toNat
  | refreshIntervalSecs => .int config.refreshIntervalSecs.toNat
  | fetchTimeoutSecs => .int config.fetchTimeoutSecs.toNat
  | userAgent => .str config.userAgent

end Key

namespace Draft

def has (draft : Draft) : Key → Bool
  | .listUrl => draft.listUrl.isSome
  | .cacheTtlMs => draft.cacheTtlMs.isSome
  | .maxDomainRules => draft.maxDomainRules.isSome
  | .domainRuleBaseId => draft.domainRuleBaseId.isSome
  | .avgBytesPerRequest => draft.avgBytesPerRequest.isSome
  | .refreshIntervalSecs => draft.refreshIntervalSecs.isSome
  | .fetchTimeoutSecs => draft.fetchTimeoutSecs.isSome
  | .userAgent => draft.userAgent.isSome

/-- The draft with a member decoded from a value. -/
def set (draft : Draft) (key : Key) (value : Json) : Json.Decoded Draft := do
  match key with
  | .listUrl => return { draft with listUrl := ← Json.decodeString value }
  | .cacheTtlMs => return { draft with cacheTtlMs := ← Json.decodeUInt64 value }
  | .maxDomainRules => return { draft with maxDomainRules := ← Json.decodeSize value }
  | .domainRuleBaseId => return { draft with domainRuleBaseId := ← Json.decodeUInt32 value }
  | .avgBytesPerRequest => return { draft with avgBytesPerRequest := ← Json.decodeUInt64 value }
  | .refreshIntervalSecs => return { draft with refreshIntervalSecs := ← Json.decodeUInt64 value }
  | .fetchTimeoutSecs => return { draft with fetchTimeoutSecs := ← Json.decodeUInt64 value }
  | .userAgent => return { draft with userAgent := ← Json.decodeString value }

/-- The draft with one more member of an object. -/
def absorb (draft : Draft) (member : String × Json) : Json.Decoded Draft :=
  match Key.ofName? member.1 with
  | none => .ok draft
  | some key =>
    if draft.has key then .error (.duplicateField key.name) else draft.set key member.2

/-- The configuration with the known members, and defaults for the others. -/
def finish (draft : Draft) : Config :=
  let defaults : Config := {}
  { listUrl := draft.listUrl.getD defaults.listUrl
    cacheTtlMs := draft.cacheTtlMs.getD defaults.cacheTtlMs
    maxDomainRules := draft.maxDomainRules.getD defaults.maxDomainRules
    domainRuleBaseId := draft.domainRuleBaseId.getD defaults.domainRuleBaseId
    avgBytesPerRequest := draft.avgBytesPerRequest.getD defaults.avgBytesPerRequest
    refreshIntervalSecs := draft.refreshIntervalSecs.getD defaults.refreshIntervalSecs
    fetchTimeoutSecs := draft.fetchTimeoutSecs.getD defaults.fetchTimeoutSecs
    userAgent := draft.userAgent.getD defaults.userAgent }

end Draft

/-- A configuration with every member. -/
def toJson (config : Config) : Json :=
  .obj (Key.all.map fun key => (key.name, key.encode config))

/-- Members from the items of an array, in the order of the record, as far as there are items. -/
def ofItems : List Key → Draft → Json.Row Draft
  | [], draft => pure draft
  | key :: keys, draft => fun items =>
    match items with
    | [] => .ok (draft, [])
    | item :: rest => do
      let draft ← draft.set key item
      ofItems keys draft rest

def ofJson : Json → Json.Decoded Config :=
  Json.decodeRecord shape
    (fun members => Draft.finish <$> members.foldlM Draft.absorb {})
    (Draft.finish <$> ofItems Key.all {})

@[simp] theorem ofJson_toJson (config : Config) : ofJson config.toJson = .ok config := by
  simp [ofJson, toJson, Json.decodeRecord, Draft.absorb, Draft.finish, Draft.has, Draft.set,
    Key.all, Key.encode, Json.decodeString, bind, Except.bind, pure, Except.pure, Functor.map,
    Except.map]

open Json (Reader)

/-- Reads the value of a member. None is an array or an object, so a bracket is refused before it
is read. -/
def readMember (key : Key) (draft : Draft) : Reader Draft := do
  match ← Reader.peekToken with
  | none => Reader.failPeek .endInValue
  | some '[' => Reader.decoded (draft.set key (.arr []))
  | some '\x7b' => Reader.decoded (draft.set key (.obj []))
  | some c =>
    let value ← Reader.scalar c
    Reader.decoded (draft.set key value)

/-- Leaves white space and a closing brace behind. -/
def leaveObject : Reader Unit := do
  if (← Reader.peekToken) == some '\x7d' then Reader.skip

/-- Reads the members of an object that are left. Each takes at least one character of the text. -/
def readMembers : (steps : Nat) → (first : Bool) → Draft → Reader Draft
  | 0, _, _ => Reader.failPeek .endInObject
  | steps + 1, first, draft => do
    if ← Reader.hasMember first then
      let name ← Reader.string
      match Key.ofName? name with
      | none =>
        Reader.colon
        Reader.skipValue
        readMembers steps false draft
      | some key =>
        if draft.has key then
          leaveObject
          Reader.undecodable (.duplicateField key.name)
        else
          Reader.colon
          readMembers steps false (← readMember key draft)
    else
      Reader.skip
      return draft

/-- Reads members from the items of an array, in the order of the record. -/
def readItems : List Key → (first : Bool) → Draft → Reader Draft
  | [], _, draft => do
    match ← Reader.peekToken with
    | none => Reader.failPeek .endInList
    | some ']' => Reader.skip; return draft
    | some ',' =>
      Reader.skip
      match ← Reader.peekToken with
      | some ']' => Reader.failPeek .trailingComma
      | _ => Reader.failPeek .trailingCharacters
    | some _ => Reader.failPeek .trailingCharacters
  | key :: keys, first, draft => do
    if ← Reader.hasItem first then
      readItems keys false (← readMember key draft)
    else
      Reader.skip
      return draft

def reader : Reader Config := do
  match ← Reader.peekToken with
  | none => Reader.failPeek .endInValue
  | some '[' =>
    Reader.skip
    return (← readItems Key.all true {}).finish
  | some '\x7b' =>
    Reader.skip
    let steps := (← get).rest.length + 1
    return (← readMembers steps true {}).finish
  | some c =>
    let value ← Reader.scalar c
    Reader.undecodable (.wrongType value.kind shape.description)

/-- The configuration that a text holds, provided it can be worked with. -/
def ofText (text : String) : Except EngineError Config := do
  match Reader.readAll reader text with
  | .error error => throw (unusable error.message)
  | .ok config =>
    match config.validate with
    | .error reason => throw (unusable reason.message)
    | .ok () => return config

end Blocklist.Config
