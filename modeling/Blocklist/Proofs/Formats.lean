import Blocklist.Config.Json
import Blocklist.FilterCache
import Blocklist.Message
import Blocklist.Proofs.Decoding

/-!
# Faithful formats

The formats of what a host stores and exchanges: rules and their conditions, caches, states,
figures, commands and configurations. For each, the parts of a value are first traced to the fields
of the record that it decodes to. Numbers, texts and domains have one form, so that the parts are
exactly what the fields are written as; this leaves no room for a number that was cut to its width.
-/

namespace Blocklist

namespace Rule

namespace Draft

theorem fills_id : Json.Fills absorb "id" id Json.decodeUInt32 := by
  apply Json.Fills.of (fun draft part => { draft with id := part }) (fun _ _ => rfl)
    (fun _ _ => rfl)
  intro draft other value after different absorbed
  unfold absorb at absorbed
  split at absorbed <;> grind [Json.bind_eq_ok_iff, Json.pure_eq_ok_iff]

theorem fills_priority : Json.Fills absorb "priority" priority Json.decodeUInt32 := by
  apply Json.Fills.of (fun draft part => { draft with priority := part }) (fun _ _ => rfl)
    (fun _ _ => rfl)
  intro draft other value after different absorbed
  unfold absorb at absorbed
  split at absorbed <;> grind [Json.bind_eq_ok_iff, Json.pure_eq_ok_iff]

end Draft

/-- The id and the priority of a rule are those that its value names. -/
theorem parts_of_ofJson {value : Json} {rule : Rule} (decoded : ofJson value = .ok rule) :
    value.part? "id" 0 = some (.int rule.id.toNat) ∧
      value.part? "priority" 1 = some (.int rule.priority.toNat) := by
  cases value with
  | obj members =>
    obtain ⟨draft, absorbed, finished⟩ := Json.bind_eq_ok_iff.mp decoded
    simp only [Draft.finish, Json.bind_eq_ok_iff, Json.require_eq_ok_iff] at finished
    obtain ⟨id, filledId, priority, filledPriority, _, -, _, -, done⟩ := finished
    obtain rfl := Except.ok.inj done
    exact ⟨Draft.fills_id.lookup_of_exact Json.decodeUInt32_eq_ok_iff absorbed rfl filledId,
      Draft.fills_priority.lookup_of_exact Json.decodeUInt32_eq_ok_iff absorbed rfl filledPriority⟩
  | arr items =>
    have taken := Json.decodeRecord_arr_eq_ok_iff.mp decoded
    simp only [Json.Row.bind_eq_ok_iff, Json.Row.next_eq_ok_iff, Json.Row.pure_eq_ok_iff,
      Json.decodeUInt32_eq_ok_iff, exists_eq_right] at taken
    obtain ⟨id, _, rfl, priority, _, rfl, _, _, -, _, _, -, rfl, -⟩ := taken
    exact ⟨rfl, rfl⟩
  | _ => simp [ofJson, Json.decodeRecord] at decoded

def format : Format Rule where
  encode := toJson
  decode := ofJson
  row rule := [.int rule.id.toNat, .int rule.priority.toNat, rule.action.toJson,
    rule.condition.toJson]
  names := ["id", "priority", "action", "condition"]
  integers := [.uint32 "id" 0 id, .uint32 "priority" 1 priority]

theorem format_faithful : format.Faithful := by
  refine Format.faithful_of ofJson_toJson ?_ ?_ ?_
  · intro rule
    have : Nonempty RuleAction := ⟨rule.action⟩
    simp [format, ofJson, Json.decodeRecord_arr_eq_ok_iff, Json.Row.bind_eq_ok_iff,
      Json.Row.map_eq_ok_iff, Json.Row.next_cons_eq_ok_iff, and_assoc]
  · intro name outside before after content
    have skips (draft : Draft) (value : Json) : draft.absorb (name, value) = .ok draft := by
      unfold Draft.absorb
      split <;> simp_all [format]
    simp only [format, ofJson, Json.decodeRecord, Json.foldlM_skip skips]
  · intro field mem value n rule found decoded
    obtain ⟨id, priority⟩ := parts_of_ofJson decoded
    simp only [format, List.mem_cons, List.not_mem_nil, or_false] at mem
    rcases mem with rfl | rfl <;> simp_all [Json.IntegerField.uint32]

end Rule

namespace RuleCondition

def format : Format RuleCondition where
  encode := toJson
  decode := ofJson
  row condition := [condition.urlFilter.elim .null .str,
    condition.resourceTypes.elim .null fun types => .arr (types.map ResourceType.toJson)]
  names := ["urlFilter", "resourceTypes"]
  integers := []

theorem format_faithful : format.Faithful := by
  refine Format.faithful_of ofJson_toJson ?_ ?_ ?_
  · rintro ⟨filter, types⟩
    have noFilter : ofFilterJson .null = .ok none := rfl
    have someFilter (text : String) : ofFilterJson (.str text) = .ok (some text) := rfl
    have noTypes : ofTypesJson .null = .ok none := rfl
    cases filter <;> cases types <;>
      simp [format, ofJson, Json.decodeRecord_arr_eq_ok_iff, Json.Row.bind_eq_ok_iff,
        Json.Row.map_eq_ok_iff, Json.Row.nextD_cons_eq_ok_iff, and_assoc, ofTypesJson_map,
        noFilter, someFilter, noTypes]
  · intro name outside before after content
    have skips (draft : Draft) (value : Json) : draft.absorb (name, value) = .ok draft := by
      unfold Draft.absorb
      split <;> simp_all [format]
    simp only [format, ofJson, Json.decodeRecord, Json.foldlM_skip skips]
  · intro field mem
    contradiction

end RuleCondition

namespace FilterCache

namespace Draft

theorem fills_fetchedAt : Json.Fills absorb "fetchedAt" fetchedAt Json.decodeInt64 := by
  apply Json.Fills.of (fun draft part => { draft with fetchedAt := part }) (fun _ _ => rfl)
    (fun _ _ => rfl)
  intro draft other value after different absorbed
  unfold absorb at absorbed
  split at absorbed <;> grind [Json.bind_eq_ok_iff, Json.pure_eq_ok_iff]

theorem fills_domains : Json.Fills absorb "domains" domains (Json.decodeList Domain.ofJson) := by
  apply Json.Fills.of (fun draft part => { draft with domains := part }) (fun _ _ => rfl)
    (fun _ _ => rfl)
  intro draft other value after different absorbed
  unfold absorb at absorbed
  split at absorbed <;> grind [Json.bind_eq_ok_iff, Json.pure_eq_ok_iff]

end Draft

/-- The time and the domains of a cache are those that its value names. -/
theorem parts_of_ofJson {value : Json} {cache : FilterCache} (decoded : ofJson value = .ok cache) :
    value.part? "fetchedAt" 0 = some (.int cache.fetchedAt.toInt) ∧
      value.part? "domains" 1 = some (.arr (cache.domains.map Domain.toJson)) := by
  have exact {value : Json} {domains : List Domain} :
      Json.decodeList Domain.ofJson value = .ok domains ↔
        value = .arr (domains.map Domain.toJson) :=
    Json.decodeList_eq_ok_iff Domain.ofJson_eq_ok_iff
  cases value with
  | obj members =>
    obtain ⟨draft, absorbed, finished⟩ := Json.bind_eq_ok_iff.mp decoded
    simp only [Draft.finish, Json.bind_eq_ok_iff, Json.require_eq_ok_iff] at finished
    obtain ⟨fetchedAt, filledTime, domains, filledDomains, done⟩ := finished
    obtain rfl := Except.ok.inj done
    exact ⟨Draft.fills_fetchedAt.lookup_of_exact Json.decodeInt64_eq_ok_iff absorbed rfl filledTime,
      Draft.fills_domains.lookup_of_exact exact absorbed rfl filledDomains⟩
  | arr items =>
    have taken := Json.decodeRecord_arr_eq_ok_iff.mp decoded
    simp only [Json.Row.bind_eq_ok_iff, Json.Row.next_eq_ok_iff, Json.Row.pure_eq_ok_iff,
      Json.decodeInt64_eq_ok_iff, exact, exists_eq_right] at taken
    obtain ⟨fetchedAt, _, rfl, domains, _, rfl, rfl, -⟩ := taken
    exact ⟨rfl, rfl⟩
  | _ => simp [ofJson, Json.decodeRecord] at decoded

def format : Format FilterCache where
  encode := toJson
  decode := ofJson
  row cache := [.int cache.fetchedAt.toInt, .arr (cache.domains.map Domain.toJson)]
  names := ["fetchedAt", "domains"]
  integers := [.int64 "fetchedAt" 0 fetchedAt]

theorem format_faithful : format.Faithful := by
  refine Format.faithful_of ofJson_toJson ?_ ?_ ?_
  · intro cache
    have domains : Json.decodeList Domain.ofJson (.arr (cache.domains.map Domain.toJson)) =
        .ok cache.domains := Json.decodeList_map Domain.ofJson_toJson cache.domains
    simp [format, ofJson, Json.decodeRecord_arr_eq_ok_iff, Json.Row.bind_eq_ok_iff,
      Json.Row.map_eq_ok_iff, Json.Row.next_cons_eq_ok_iff, and_assoc, domains]
  · intro name outside before after content
    have skips (draft : Draft) (value : Json) : draft.absorb (name, value) = .ok draft := by
      unfold Draft.absorb
      split <;> simp_all [format]
    simp only [format, ofJson, Json.decodeRecord, Json.foldlM_skip skips]
  · intro field mem value n cache found decoded
    obtain ⟨time, -⟩ := parts_of_ofJson decoded
    simp only [format, List.mem_singleton] at mem
    subst mem
    simp_all [Json.IntegerField.int64]

end FilterCache

namespace State

def format : Format State where
  encode := toJson
  decode := ofJson
  row state := [state.mode.toJson]
  names := ["mode"]
  integers := []

theorem format_faithful : format.Faithful := by
  refine Format.faithful_of ofJson_toJson ?_ ?_ ?_
  · intro state
    simp [format, ofJson, Json.decodeRecord_arr_eq_ok_iff, Json.Row.map_eq_ok_iff,
      Json.Row.next_cons_eq_ok_iff]
  · intro name outside before after content
    have skips (draft : Draft) (value : Json) : draft.absorb (name, value) = .ok draft := by
      unfold Draft.absorb
      split <;> simp_all [format]
    simp only [format, ofJson, Json.decodeRecord, Json.foldlM_skip skips]
  · intro field mem
    contradiction

end State

namespace Stats

namespace Draft

theorem fills_blockedRequests :
    Json.Fills absorb "blockedRequests" blockedRequests Json.decodeUInt64 := by
  apply Json.Fills.of (fun draft part => { draft with blockedRequests := part }) (fun _ _ => rfl)
    (fun _ _ => rfl)
  intro draft other value after different absorbed
  unfold absorb at absorbed
  split at absorbed <;> grind [Json.bind_eq_ok_iff, Json.pure_eq_ok_iff]

theorem fills_estimatedBytesSaved :
    Json.Fills absorb "estimatedBytesSaved" estimatedBytesSaved Json.decodeUInt64 := by
  apply Json.Fills.of (fun draft part => { draft with estimatedBytesSaved := part })
    (fun _ _ => rfl) (fun _ _ => rfl)
  intro draft other value after different absorbed
  unfold absorb at absorbed
  split at absorbed <;> grind [Json.bind_eq_ok_iff, Json.pure_eq_ok_iff]

end Draft

/-- Both figures are those that the value names. -/
theorem parts_of_ofJson {value : Json} {stats : Stats} (decoded : ofJson value = .ok stats) :
    value.part? "blockedRequests" 0 = some (.int stats.blockedRequests.toNat) ∧
      value.part? "estimatedBytesSaved" 1 = some (.int stats.estimatedBytesSaved.toNat) := by
  cases value with
  | obj members =>
    obtain ⟨draft, absorbed, finished⟩ := Json.bind_eq_ok_iff.mp decoded
    simp only [Draft.finish, Json.bind_eq_ok_iff, Json.require_eq_ok_iff] at finished
    obtain ⟨blocked, filledBlocked, saved, filledSaved, done⟩ := finished
    obtain rfl := Except.ok.inj done
    exact ⟨Draft.fills_blockedRequests.lookup_of_exact Json.decodeUInt64_eq_ok_iff absorbed rfl
        filledBlocked,
      Draft.fills_estimatedBytesSaved.lookup_of_exact Json.decodeUInt64_eq_ok_iff absorbed rfl
        filledSaved⟩
  | arr items =>
    have taken := Json.decodeRecord_arr_eq_ok_iff.mp decoded
    simp only [Json.Row.bind_eq_ok_iff, Json.Row.next_eq_ok_iff, Json.Row.pure_eq_ok_iff,
      Json.decodeUInt64_eq_ok_iff, exists_eq_right] at taken
    obtain ⟨blocked, _, rfl, saved, _, rfl, rfl, -⟩ := taken
    exact ⟨rfl, rfl⟩
  | _ => simp [ofJson, Json.decodeRecord] at decoded

def format : Format Stats where
  encode := toJson
  decode := ofJson
  row stats := [.int stats.blockedRequests.toNat, .int stats.estimatedBytesSaved.toNat]
  names := ["blockedRequests", "estimatedBytesSaved"]
  integers := [.uint64 "blockedRequests" 0 blockedRequests,
    .uint64 "estimatedBytesSaved" 1 estimatedBytesSaved]

theorem format_faithful : format.Faithful := by
  refine Format.faithful_of ofJson_toJson ?_ ?_ ?_
  · intro stats
    simp [format, ofJson, Json.decodeRecord_arr_eq_ok_iff, Json.Row.bind_eq_ok_iff,
      Json.Row.map_eq_ok_iff, Json.Row.next_cons_eq_ok_iff, and_assoc]
  · intro name outside before after content
    have skips (draft : Draft) (value : Json) : draft.absorb (name, value) = .ok draft := by
      unfold Draft.absorb
      split <;> simp_all [format]
    simp only [format, ofJson, Json.decodeRecord, Json.foldlM_skip skips]
  · intro field mem value n stats found decoded
    obtain ⟨blocked, saved⟩ := parts_of_ofJson decoded
    simp only [format, List.mem_cons, List.not_mem_nil, or_false] at mem
    rcases mem with rfl | rfl <;> simp_all [Json.IntegerField.uint64]

end Stats

namespace StoredStats

namespace Draft

theorem fills_allTime : Json.Fills absorb "alltime" allTime Stats.ofJson := by
  apply Json.Fills.of (fun draft part => { draft with allTime := part }) (fun _ _ => rfl)
    (fun _ _ => rfl)
  intro draft other value after different absorbed
  unfold absorb at absorbed
  split at absorbed <;> grind [Json.bind_eq_ok_iff, Json.pure_eq_ok_iff]

end Draft

/-- The figures are decoded from the part that the value names. -/
theorem part_of_ofJson {value : Json} {stored : StoredStats} (decoded : ofJson value = .ok stored) :
    ∃ item, value.part? "alltime" 0 = some item ∧ Stats.ofJson item = .ok stored.allTime := by
  cases value with
  | obj members =>
    obtain ⟨draft, absorbed, finished⟩ := Json.bind_eq_ok_iff.mp decoded
    simp only [Draft.finish, Json.bind_eq_ok_iff, Json.require_eq_ok_iff] at finished
    obtain ⟨allTime, filled, done⟩ := finished
    obtain rfl := Except.ok.inj done
    exact Draft.fills_allTime.lookup_of_filled absorbed rfl filled
  | arr items =>
    have taken := Json.decodeRecord_arr_eq_ok_iff.mp decoded
    simp only [Json.Row.bind_eq_ok_iff, Json.Row.next_eq_ok_iff, Json.Row.pure_eq_ok_iff] at taken
    obtain ⟨allTime, _, ⟨item, rfl, decodedItem⟩, rfl, -⟩ := taken
    exact ⟨item, rfl, decodedItem⟩
  | _ => simp [ofJson, Json.decodeRecord] at decoded

def format : Format StoredStats where
  encode := toJson
  decode := ofJson
  row stored := [stored.allTime.toJson]
  names := ["alltime"]
  integers := Stats.format.integers.map (.within "alltime" 0 allTime)

theorem format_faithful : format.Faithful := by
  refine Format.faithful_of ofJson_toJson ?_ ?_ ?_
  · intro stored
    simp [format, ofJson, Json.decodeRecord_arr_eq_ok_iff, Json.Row.map_eq_ok_iff,
      Json.Row.next_cons_eq_ok_iff]
  · intro name outside before after content
    have skips (draft : Draft) (value : Json) : draft.absorb (name, value) = .ok draft := by
      unfold Draft.absorb
      split <;> simp_all [format]
    simp only [format, ofJson, Json.decodeRecord, Json.foldlM_skip skips]
  · intro field mem value n stored found decoded
    obtain ⟨figure, figures, rfl⟩ := List.mem_map.mp mem
    obtain ⟨item, part, decodedItem⟩ := part_of_ofJson decoded
    simp only [Json.IntegerField.within, part, Option.bind_some] at found
    exact Stats.format_faithful.exact figures found decodedItem

end StoredStats

namespace Command

namespace Tag

def carriesTab : Tag → Bool
  | getState | setMode => false
  | applyToTab | getStats => true

end Tag

/-- The tab in a command's value, for the kinds of command that have one. -/
def tabPart? (value : Json) : Option Json := do
  let type ← value.part? "type" 0
  let tag ← Tag.ofName? (← type.str?)
  if tag.carriesTab then value.part? "tabId" 1 else none

def tab? : Command → Option TabId
  | getState | setMode _ => none
  | applyToTab tab => some tab
  | getStats tab => tab

theorem fills_fieldOf (name : String) (decode : Json → Json.Decoded α) :
    Json.Fills (fun slot (other, value) =>
      if other = name then Json.fill name slot (decode value) else .ok slot) name id decode where
  named {draft value after} absorbed := by
    simp only [reduceIte] at absorbed
    exact Json.fill_eq_ok_iff.mp absorbed
  others {draft other value after} different absorbed := by
    simp only [different, reduceIte] at absorbed
    exact (Except.ok.inj absorbed).symm

/-- A tab is decoded from its number. -/
theorem tab_of_ofMembers {tag : Tag} {members : List (String × Json)} {command : Command} {n : Int}
    (carries : tag.carriesTab) (found : members.lookup "tabId" = some (.int n))
    (decoded : ofMembers tag members = .ok command) :
    ∃ tab, command.tab? = some tab ∧ tab.toInt = n := by
  cases tag with
  | getState | setMode => contradiction
  | applyToTab =>
    obtain ⟨slot, gathered, required⟩ := Json.bind_eq_ok_iff.mp decoded
    obtain ⟨tab, filled, done⟩ := Json.bind_eq_ok_iff.mp required
    obtain rfl := Except.ok.inj done
    obtain rfl := Json.require_eq_ok_iff.mp filled
    obtain ⟨value, read, decodes⟩ :=
      (fills_fieldOf "tabId" decodeTab).lookup_of_filled gathered rfl rfl
    obtain rfl := Option.some.inj (found.symm.trans read)
    exact ⟨tab, rfl, (Json.int.inj (Json.decodeInt32_eq_ok_iff.mp decodes)).symm⟩
  | getStats =>
    obtain ⟨slot, gathered, done⟩ := Json.bind_eq_ok_iff.mp decoded
    obtain rfl := Except.ok.inj done
    rcases (fills_fieldOf "tabId" decodeTab?).lookup gathered with
      ⟨missing, -⟩ | ⟨value, part, read, decodes, -, filled⟩
    · simp [missing] at found
    · obtain rfl := Option.some.inj (found.symm.trans read)
      obtain ⟨tab, number, rfl⟩ := Json.map_eq_ok_iff.mp decodes
      obtain rfl : slot = some (some tab) := filled
      exact ⟨tab, rfl, (Json.int.inj (Json.decodeInt32_eq_ok_iff.mp number)).symm⟩

theorem tab_of_ofItems {tag : Tag} {items rest : List Json} {command : Command} {n : Int}
    (carries : tag.carriesTab) (found : items[0]? = some (.int n))
    (decoded : ofItems tag items = .ok (command, rest)) :
    ∃ tab, command.tab? = some tab ∧ tab.toInt = n := by
  cases items with
  | nil => contradiction
  | cons item items =>
    obtain rfl := Option.some.inj found
    cases tag with
    | getState | setMode => contradiction
    | applyToTab =>
      obtain ⟨tab, left, taken, done⟩ := Json.Row.bind_eq_ok_iff.mp decoded
      obtain ⟨value, same, number⟩ := Json.Row.next_eq_ok_iff.mp taken
      obtain ⟨rfl, -⟩ := List.cons.inj same
      obtain ⟨rfl, -⟩ := Json.Row.pure_eq_ok_iff.mp done
      exact ⟨tab, rfl, (Json.int.inj (Json.decodeInt32_eq_ok_iff.mp number)).symm⟩
    | getStats =>
      obtain ⟨part, left, taken, done⟩ := Json.Row.bind_eq_ok_iff.mp decoded
      obtain ⟨decodes, -⟩ := Json.Row.nextD_cons_eq_ok_iff.mp taken
      obtain ⟨tab, number, rfl⟩ := Json.map_eq_ok_iff.mp decodes
      obtain ⟨rfl, -⟩ := Json.Row.pure_eq_ok_iff.mp done
      exact ⟨tab, rfl, (Json.int.inj (Json.decodeInt32_eq_ok_iff.mp number)).symm⟩

theorem ofJson_arr_eq_ok_iff {name : String} {tag : Tag} (known : Tag.ofName? name = some tag)
    {items : List Json} {command : Command} :
    ofJson (.arr (.str name :: items)) = .ok command ↔
      ofItems tag items = .ok (command, []) := by
  have tagged : Json.decodeTagged "Command" (Tag.all.map Tag.name) Tag.ofName?
      (.arr (.str name :: items)) = .ok (tag, .inr items) :=
    Json.decodeTagged_arr_eq_ok_iff.mpr ⟨name, items, rfl, known, rfl⟩
  rw [ofJson, tagged]
  cases taken : ofItems tag items with
  | error cause => simp [bind, Except.bind, taken]
  | ok result =>
    obtain ⟨result, rest⟩ := result
    cases rest <;> simp [bind, Except.bind, taken, pure, Except.pure]

/-- A number where a command has its tab is the tab that it names. -/
theorem tab_of_ofJson {value : Json} {command : Command} {n : Int}
    (found : tabPart? value = some (.int n)) (decoded : ofJson value = .ok command) :
    ∃ tab, command.tab? = some tab ∧ tab.toInt = n := by
  obtain ⟨⟨tag, rest⟩, tagged, continued⟩ := Json.bind_eq_ok_iff.mp decoded
  cases value with
  | obj members =>
    obtain ⟨name, named, known, rfl⟩ := Json.decodeTagged_obj_eq_ok_iff.mp tagged
    have carries : tag.carriesTab ∧ members.lookup "tabId" = some (.int n) := by
      simpa [tabPart?, Json.part?, named, Json.str?, known] using found
    apply tab_of_ofMembers carries.1 _ continued
    rw [Json.lookup_filter (by simp)]
    exact carries.2
  | arr items =>
    obtain ⟨name, left, rfl, known, rfl⟩ := Json.decodeTagged_arr_eq_ok_iff.mp tagged
    have carries : tag.carriesTab ∧ left[0]? = some (.int n) := by
      simpa [tabPart?, Json.part?, Json.str?, known] using found
    exact tab_of_ofItems carries.1 carries.2 ((ofJson_arr_eq_ok_iff known).mp decoded)
  | _ => simp [Json.decodeTagged] at tagged

/-- The one integer of a command is its tab. -/
def tabField : Json.IntegerField Command where
  part? := tabPart?
  number? command := command.tab?.map Int32.toInt
  low := Int32.minValue.toInt
  high := Int32.maxValue.toInt
  bounded h := by
    obtain ⟨tab, -, rfl⟩ := Option.map_eq_some_iff.mp h
    exact ⟨tab.minValue_le_toInt, tab.toInt_le⟩

theorem ofMembers_skip {name : String} (outside : name ∉ ["type", "mode", "tabId"]) (tag : Tag)
    (before after : List (String × Json)) (content : Json) :
    ofMembers tag (before ++ (name, content) :: after) = ofMembers tag (before ++ after) := by
  have skip {α : Type} (field : String) (decode : Json → Json.Decoded α) (other : name ≠ field) :
      fieldOf field decode (before ++ (name, content) :: after) =
        fieldOf field decode (before ++ after) :=
    Json.foldlM_skip (fun slot value => by simp [other]) before after content none
  simp only [List.mem_cons, List.not_mem_nil, or_false, not_or] at outside
  cases tag <;> simp [ofMembers, skip, outside]

theorem ofJson_obj (members : List (String × Json)) :
    ofJson (.obj members) =
      match members.lookup "type" with
      | some type => do
        let tag ← Json.decodeTag (Tag.all.map Tag.name) Tag.ofName? type
        ofMembers tag (members.filter (·.1 != "type"))
      | none => .error (.missingField "type") := by
  cases found : members.lookup "type" with
  | none => simp [ofJson, Json.decodeTagged, found, bind, Except.bind]
  | some type => simp [ofJson, Json.decodeTagged, found]

def format : Format Command where
  encode := toJson
  decode := ofJson
  row
    | getState => [.str Tag.getState.name]
    | setMode mode => [.str Tag.setMode.name, mode.toJson]
    | applyToTab tab => [.str Tag.applyToTab.name, tabToJson tab]
    | getStats tab => [.str Tag.getStats.name, tab.elim .null tabToJson]
  names := ["type", "mode", "tabId"]
  integers := [tabField]

theorem format_faithful : format.Faithful := by
  refine Format.faithful_of ofJson_toJson ?_ ?_ ?_
  · have given (tab : TabId) : decodeTab (tabToJson tab) = .ok tab := by
      simp [decodeTab, tabToJson]
    have noTab : decodeTab? .null = .ok none := rfl
    have someTab (tab : TabId) : decodeTab? (tabToJson tab) = .ok (some tab) := by
      change some <$> decodeTab (tabToJson tab) = _
      rw [given]
      rfl
    rintro (_ | mode | tab | (_ | tab)) <;>
      simp [format, ofJson_arr_eq_ok_iff (Tag.ofName?_name _), ofItems, Json.Row.map_eq_ok_iff,
        Json.Row.pure_eq_ok_iff, Json.Row.next_cons_eq_ok_iff, Json.Row.nextD_cons_eq_ok_iff,
        given, noTab, someTab]
  · intro name outside before after content
    have beside : name ≠ "type" := fun same => outside (by simp [format, same])
    have missed : ("type" == name) = false := by simpa using Ne.symm beside
    simp only [format, ofJson_obj, List.lookup_append, List.lookup_cons, missed, List.filter_append,
      List.filter_cons, bne_iff_ne, beside, ne_eq, not_false_eq_true, if_true,
      ofMembers_skip outside]
  · intro field mem value n command found decoded
    simp only [format, List.mem_singleton] at mem
    subst mem
    obtain ⟨tab, names, rfl⟩ := tab_of_ofJson found decoded
    simp [tabField, names]

end Command

namespace Config

theorem Key.name_of_ofName? {name : String} {key : Key} (named : ofName? name = some key) :
    key.name = name := by
  simpa using List.find?_some named

namespace Draft

def encode? (draft : Draft) : Key → Option Json
  | .listUrl => draft.listUrl.map .str
  | .cacheTtlMs => draft.cacheTtlMs.map fun n => .int n.toNat
  | .maxDomainRules => draft.maxDomainRules.map fun n => .int n.toNat
  | .domainRuleBaseId => draft.domainRuleBaseId.map fun n => .int n.toNat
  | .avgBytesPerRequest => draft.avgBytesPerRequest.map fun n => .int n.toNat
  | .refreshIntervalSecs => draft.refreshIntervalSecs.map fun n => .int n.toNat
  | .fetchTimeoutSecs => draft.fetchTimeoutSecs.map fun n => .int n.toNat
  | .userAgent => draft.userAgent.map .str

theorem has_eq (draft : Draft) (key : Key) : draft.has key = (draft.encode? key).isSome := by
  cases key <;> simp [has, encode?]

/-- Setting a member makes its value known and changes no other. -/
theorem encode?_of_set {draft after : Draft} {key : Key} {value : Json}
    (done : draft.set key value = .ok after) (other : Key) :
    after.encode? other = if other = key then some value else draft.encode? other := by
  cases key <;>
    simp only [set, Json.bind_eq_ok_iff, Json.pure_eq_ok_iff, Json.decodeString_eq_ok_iff,
      Json.decodeUInt64_eq_ok_iff, Json.decodeSize_eq_ok_iff, Json.decodeUInt32_eq_ok_iff]
      at done <;>
    obtain ⟨part, rfl, rfl⟩ := done <;>
    cases other <;>
    simp [encode?]

theorem fills_encode? (key : Key) : Json.Fills absorb key.name (·.encode? key) .ok where
  named {draft value after} absorbed := by
    simp only [absorb, Key.ofName?_name, has_eq] at absorbed
    split at absorbed
    · contradiction
    · next missing =>
      exact ⟨by simpa using missing, value, rfl, by simp [encode?_of_set absorbed]⟩
  others {draft other value after} different absorbed := by
    simp only [absorb] at absorbed
    split at absorbed
    · obtain rfl := Except.ok.inj absorbed
      rfl
    · next key' named =>
      split at absorbed
      · contradiction
      · have distinct : key ≠ key' := by
          rintro rfl
          exact different (Key.name_of_ofName? named).symm
        simp [encode?_of_set absorbed, distinct]

theorem encode_finish {draft : Draft} {key : Key} {value : Json}
    (known : draft.encode? key = some value) : key.encode draft.finish = value := by
  cases key <;> simp [encode?] at known <;> obtain ⟨part, held, rfl⟩ := known <;>
    simp [Key.encode, finish, held]

end Draft

/-- Items fill the members in order, as far as there are items. -/
theorem encode?_of_ofItems {keys : List Key} {draft after : Draft} {items rest : List Json}
    (taken : ofItems keys draft items = .ok (after, rest)) (distinct : keys.Nodup) :
    (∀ key ∉ keys, after.encode? key = draft.encode? key) ∧
      ∀ (place : Nat) key item, keys[place]? = some key → items[place]? = some item →
        after.encode? key = some item := by
  induction keys generalizing draft items with
  | nil =>
    obtain ⟨rfl, -⟩ := Json.Row.pure_eq_ok_iff.mp taken
    simp
  | cons first keys ih =>
    cases items with
    | nil =>
      obtain ⟨rfl, -⟩ := Prod.mk.inj (Except.ok.inj taken)
      simp
    | cons item items =>
      obtain ⟨middle, done, others⟩ := Json.bind_eq_ok_iff.mp taken
      obtain ⟨fresh, distinct⟩ := List.nodup_cons.mp distinct
      obtain ⟨kept, filled⟩ := ih others distinct
      constructor
      · intro key outside
        rw [List.mem_cons, not_or] at outside
        obtain ⟨unlike, outside⟩ := outside
        rw [kept key outside, Draft.encode?_of_set done, if_neg unlike]
      · intro place key value named found
        cases place with
        | zero =>
          obtain rfl := Option.some.inj named
          obtain rfl := Option.some.inj found
          rw [kept first fresh, Draft.encode?_of_set done, if_pos rfl]
        | succ place => exact filled place key value named found

/-- A member that a value names is written back as it was. -/
theorem part_of_ofJson (key : Key) {value item : Json} {config : Config} {place : Nat}
    (placed : Key.all[place]? = some key) (found : value.part? key.name place = some item)
    (decoded : ofJson value = .ok config) : key.encode config = item := by
  cases value with
  | obj members =>
    obtain ⟨draft, absorbed, rfl⟩ := Json.map_eq_ok_iff.mp decoded
    apply Draft.encode_finish
    rcases (Draft.fills_encode? key).lookup absorbed with
      ⟨missing, -⟩ | ⟨_, _, read, same, -, filled⟩
    · simp [Json.part?, missing] at found
    · obtain rfl := Option.some.inj (found.symm.trans read)
      obtain rfl := Except.ok.inj same
      exact filled
  | arr items =>
    have taken := Json.decodeRecord_arr_eq_ok_iff.mp decoded
    obtain ⟨draft, filled, rfl⟩ := Json.Row.map_eq_ok_iff.mp taken
    apply Draft.encode_finish
    exact (encode?_of_ofItems filled (by decide)).2 place key item placed found
  | _ => simp [Json.part?] at found

def format : Format Config where
  encode := toJson
  decode := ofJson
  row config := Key.all.map (·.encode config)
  names := Key.all.map Key.name
  integers := [.uint64 "cache_ttl_ms" 1 cacheTtlMs, .uint64 "max_domain_rules" 2 maxDomainRules,
    .uint32 "domain_rule_base_id" 3 domainRuleBaseId,
    .uint64 "avg_bytes_per_request" 4 avgBytesPerRequest,
    .uint64 "refresh_interval_secs" 5 refreshIntervalSecs,
    .uint64 "fetch_timeout_secs" 6 fetchTimeoutSecs]

theorem format_faithful : format.Faithful := by
  refine Format.faithful_of ofJson_toJson ?_ ?_ ?_
  · intro config
    simp [format, ofJson, Json.decodeRecord_arr_eq_ok_iff, Json.Row.map_eq_ok_iff,
      Json.bind_eq_ok_iff, Json.Row.pure_eq_ok_iff, Key.all, ofItems, Key.encode, Draft.set,
      Draft.finish, Json.decodeString]
  · intro name outside before after content
    have skips (draft : Draft) (value : Json) : draft.absorb (name, value) = .ok draft := by
      unfold Draft.absorb
      split
      · rfl
      · next key named =>
        have inside := List.mem_map_of_mem (f := Key.name) (List.mem_of_find?_eq_some named)
        rw [Key.name_of_ofName? named] at inside
        contradiction
    simp only [format, ofJson, Json.decodeRecord, Json.foldlM_skip skips]
  · intro field mem value n config found decoded
    simp only [format, List.mem_cons, List.not_mem_nil, or_false] at mem
    rcases mem with rfl | rfl | rfl | rfl | rfl | rfl
    · exact congrArg some (Json.int.inj (part_of_ofJson .cacheTtlMs rfl found decoded))
    · exact congrArg some (Json.int.inj (part_of_ofJson .maxDomainRules rfl found decoded))
    · exact congrArg some (Json.int.inj (part_of_ofJson .domainRuleBaseId rfl found decoded))
    · exact congrArg some (Json.int.inj (part_of_ofJson .avgBytesPerRequest rfl found decoded))
    · exact congrArg some (Json.int.inj (part_of_ofJson .refreshIntervalSecs rfl found decoded))
    · exact congrArg some (Json.int.inj (part_of_ofJson .fetchTimeoutSecs rfl found decoded))

end Config

/-- No text but a host is among a cache's domains: one that is not is refused. -/
theorem FilterCache.refused_of_not_isHost {value : Json} {items : List Json} {text : String}
    (found : value.part? "domains" 1 = some (.arr items)) (mem : .str text ∈ items)
    (bad : ¬ IsHost text.toList) : ∃ cause, ofJson value = .error cause := by
  cases decoded : ofJson value with
  | error cause => exact ⟨cause, rfl⟩
  | ok cache =>
    obtain ⟨-, domains⟩ := parts_of_ofJson decoded
    obtain rfl := Json.arr.inj (Option.some.inj (found.symm.trans domains))
    obtain ⟨domain, -, same⟩ := List.mem_map.mp mem
    obtain rfl := Json.str.inj same
    exact absurd domain.isHost bad

/-- Every stored and exchanged record has a faithful format. A cache moreover holds exactly the
domains that its value lists, each of which is a host, and a value that lists any other text is
refused. -/
theorem formats_faithful :
    Rule.format.Faithful ∧ RuleCondition.format.Faithful ∧ FilterCache.format.Faithful ∧
      State.format.Faithful ∧ Stats.format.Faithful ∧ StoredStats.format.Faithful ∧
      Command.format.Faithful ∧ Config.format.Faithful ∧
      (∀ value cache, FilterCache.ofJson value = .ok cache →
        value.part? "domains" 1 = some (.arr (cache.domains.map fun domain => .str domain.text)) ∧
          ∀ domain ∈ cache.domains,
            domain.text ≠ "" ∧ '/' ∉ domain.text.toList ∧ '^' ∉ domain.text.toList) ∧
      ∀ (value : Json) (items : List Json) (text : String),
        value.part? "domains" 1 = some (.arr items) → .str text ∈ items →
        text = "" ∨ '/' ∈ text.toList ∨ '^' ∈ text.toList →
        ∃ cause, FilterCache.ofJson value = .error cause := by
  refine ⟨Rule.format_faithful, RuleCondition.format_faithful, FilterCache.format_faithful,
    State.format_faithful, Stats.format_faithful, StoredStats.format_faithful,
    Command.format_faithful, Config.format_faithful, ?_, ?_⟩
  · intro value cache decoded
    refine ⟨(FilterCache.parts_of_ofJson decoded).2, ?_⟩
    intro domain _
    obtain ⟨nonempty, slash, caret⟩ := domain.isHost
    exact ⟨fun empty => nonempty (by simp [empty]), slash, caret⟩
  · intro value items text found mem bad
    apply FilterCache.refused_of_not_isHost found mem
    rintro ⟨nonempty, slash, caret⟩
    rcases bad with rfl | inside | inside
    · exact nonempty rfl
    · exact slash inside
    · exact caret inside

end Blocklist
