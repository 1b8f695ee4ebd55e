import Blocklist.Mode
import Blocklist.Rule.Json
import Blocklist.Stats

/-!
# Messages

What the presentation layer asks of the engine, and what it is answered. A command is tagged by its
member `type`; the answer says whether it went well, with a state, a report or an error text.
-/

namespace Blocklist

abbrev TabId := Int32

/-- A request from the presentation layer. -/
inductive Command where
  | getState
  | setMode (mode : Mode)
  | applyToTab (tab : TabId)
  | getStats (tab : Option TabId)
deriving DecidableEq, Repr

namespace Command

/-- The kinds of command, without what they carry. -/
inductive Tag where
  | getState
  | setMode
  | applyToTab
  | getStats
deriving DecidableEq, Repr

namespace Tag

def all : List Tag := [getState, setMode, applyToTab, getStats]

def name : Tag → String
  | getState => "GET_STATE"
  | setMode => "SET_MODE"
  | applyToTab => "APPLY_TO_TAB"
  | getStats => "GET_STATS"

def ofName? (name : String) : Option Tag := all.find? (·.name == name)

@[simp] theorem ofName?_name (tag : Tag) : ofName? tag.name = some tag := by
  cases tag <;> decide +kernel

/-- What an array for the tag should hold after its name. -/
def shape : Tag → Json.Shape
  | getState => ⟨"unit variant Command::GetState", 0⟩
  | setMode => ⟨"struct variant Command::SetMode", 1⟩
  | applyToTab => ⟨"struct variant Command::ApplyToTab", 1⟩
  | getStats => ⟨"struct variant Command::GetStats", 1⟩

end Tag

def decodeTab (value : Json) : Json.Decoded TabId := Json.decodeInt32 value

def decodeTab? (value : Json) : Json.Decoded (Option TabId) := Json.decodeOption decodeTab value

/-- The one field of a command, from the members beside its tag. -/
def fieldOf (name : String) (decode : Json → Json.Decoded α) (members : List (String × Json)) :
    Json.Decoded (Option α) :=
  members.foldlM (fun slot (other, value) =>
    if other = name then Json.fill name slot (decode value) else .ok slot) none

/-- A command from its tag and the members beside it. -/
def ofMembers (tag : Tag) (members : List (String × Json)) : Json.Decoded Command := do
  match tag with
  | .getState => return .getState
  | .setMode =>
    return .setMode (← Json.require "mode" (← fieldOf "mode" Mode.ofMessageJson members))
  | .applyToTab => return .applyToTab (← Json.require "tabId" (← fieldOf "tabId" decodeTab members))
  | .getStats => return .getStats ((← fieldOf "tabId" decodeTab? members).getD none)

/-- A command from its tag and the items that follow it. -/
def ofItems (tag : Tag) : Json.Row Command := do
  match tag with
  | .getState => return .getState
  | .setMode => return .setMode (← Json.Row.next tag.shape 0 Mode.ofMessageJson)
  | .applyToTab => return .applyToTab (← Json.Row.next tag.shape 0 decodeTab)
  | .getStats => return .getStats (← Json.Row.nextD none decodeTab?)

def ofJson (value : Json) : Json.Decoded Command := do
  match ← Json.decodeTagged "Command" (Tag.all.map Tag.name) Tag.ofName? value with
  | (tag, .inl members) => ofMembers tag members
  | (tag, .inr items) =>
    let (command, rest) ← ofItems tag items
    if rest.isEmpty then return command
    else throw (Json.surplus (items.length - rest.length) rest.length)

def tabToJson (tab : TabId) : Json := .int tab.toInt

/-- A command's members, sorted by name. -/
def toJson : Command → Json
  | getState => .obj [("type", .str Tag.getState.name)]
  | setMode mode => .obj [("mode", mode.toJson), ("type", .str Tag.setMode.name)]
  | applyToTab tab => .obj [("tabId", tabToJson tab), ("type", .str Tag.applyToTab.name)]
  | getStats (some tab) => .obj [("tabId", tabToJson tab), ("type", .str Tag.getStats.name)]
  | getStats none => .obj [("type", .str Tag.getStats.name)]

@[simp] theorem ofJson_toJson (command : Command) : ofJson command.toJson = .ok command := by
  rcases command with _ | mode | tab | (_ | tab) <;>
    simp [ofJson, toJson, Json.decodeTagged, Json.decodeTag, List.lookup_cons, ofMembers, fieldOf,
      Json.fill, Json.require, tabToJson, decodeTab, decodeTab?, Json.decodeOption, bind,
      Except.bind, pure, Except.pure, Functor.map, Except.map]

/-- The kind of command that a message names, if it is an object that names one. -/
def tagOf? (message : Json) : Option Tag := do
  let type ← message.get? "type"
  Tag.ofName? (← type.str?)

end Command

inductive Reply where
  | state (state : State)
  | applied
  | stats (report : StatsReport)
deriving DecidableEq, Repr

namespace Reply

def toJson : Reply → Json
  | .state current => .obj [("ok", .bool true), ("state", current.toJson)]
  | .applied => .obj [("ok", .bool true)]
  | .stats report => .obj [("ok", .bool true), ("stats", report.toJson)]

def failure (message : String) : Json := .obj [("error", .str message), ("ok", .bool false)]

end Reply

end Blocklist
