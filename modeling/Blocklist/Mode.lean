import Blocklist.Json.Decoding

/-!
# Filtering modes

How much is blocked. Off blocks nothing, and only extreme goes beyond the filter list. The state
that a host keeps is the mode alone.
-/

namespace Blocklist

/-- How much is blocked. -/
inductive Mode where
  | off
  | low
  | medium
  | high
  | extreme
deriving DecidableEq, Repr

namespace Mode

/-- Every mode, from least to most. -/
def all : List Mode := [off, low, medium, high, extreme]

def name : Mode → String
  | off => "off"
  | low => "low"
  | medium => "medium"
  | high => "high"
  | extreme => "extreme"

instance : ToString Mode := ⟨Mode.name⟩

instance : Inhabited Mode := ⟨.low⟩

def usesFilterList (mode : Mode) : Bool := mode != off

def ofName? (name : String) : Option Mode := all.find? (·.name == name)

def unknownMessage (name : String) : String := "Unknown mode '" ++ name ++ "'"

def ofString (name : String) : Except String Mode :=
  (ofName? name).elim (.error (unknownMessage name)) .ok

@[simp] theorem ofName?_name (mode : Mode) : ofName? mode.name = some mode := by
  cases mode <;> decide +kernel

def toJson (mode : Mode) : Json := .str mode.name

def ofJson (value : Json) : Json.Decoded Mode :=
  Json.decodeVariant (all.map name) ofName? Json.isNothing value

/-- The mode in a tagged message, where an empty object stands for nothing as null does. -/
def ofMessageJson (value : Json) : Json.Decoded Mode :=
  Json.decodeVariant (all.map name) ofName? Json.isNothingOrEmpty value

@[simp] theorem ofMessageJson_toJson (mode : Mode) : ofMessageJson mode.toJson = .ok mode := by
  simp [ofMessageJson, toJson, Json.decodeVariant]

@[simp] theorem ofJson_toJson (mode : Mode) : ofJson mode.toJson = .ok mode := by
  simp [ofJson, toJson, Json.decodeVariant]

end Mode

/-- What a host remembers of the user's choice. -/
structure State where
  mode : Mode
deriving DecidableEq, Repr

namespace State

instance : Inhabited State := ⟨⟨default⟩⟩

def shape : Json.Shape := ⟨"struct State", 1⟩

structure Draft where
  mode : Option Mode := none

namespace Draft

def absorb (draft : Draft) : String × Json → Json.Decoded Draft
  | ("mode", value) => do
    return { draft with mode := ← Json.fill "mode" draft.mode (Mode.ofJson value) }
  | _ => .ok draft

def finish (draft : Draft) : Json.Decoded State := do
  return ⟨← Json.require "mode" draft.mode⟩

end Draft

def toJson (state : State) : Json := .obj [("mode", state.mode.toJson)]

def ofJson : Json → Json.Decoded State :=
  Json.decodeRecord shape
    (fun members => do (← members.foldlM Draft.absorb {}).finish)
    (do return ⟨← Json.Row.next shape 0 Mode.ofJson⟩)

@[simp] theorem ofJson_toJson (state : State) : ofJson state.toJson = .ok state := by
  simp [ofJson, toJson, Json.decodeRecord, Draft.absorb, Draft.finish, Json.fill, Json.require,
    bind, Except.bind, pure, Except.pure, Functor.map, Except.map]

end State

end Blocklist
