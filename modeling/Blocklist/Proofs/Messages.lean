import Blocklist.Proofs.Formats
import Blocklist.Proofs.ModeChanges

/-!
# Answering messages

A message says a command when it is an object that names the command in its member `type` and has
the command's field beside it, once and with a value that fits. Any other member is passed over. A
message that names no command, or that names one without saying it, is answered with an error and
without a call to the host; one that says a command is answered with what the command comes to.
-/

namespace Blocklist

/-! ## What a message says -/

namespace Json

/-- The values of an object's members of a name, in order. -/
def valuesOf (name : String) : Json → List Json
  | .obj members => (members.filter (·.1 == name)).map (·.2)
  | _ => []

/-- An object that names a command in its member `type`. -/
def Names (message : Json) (tag : Command.Tag) : Prop :=
  message.get? "type" = some (.str tag.name)

end Json

/-- The values that stand for a mode in a message: its name, or an object whose one member has the
name and carries nothing. -/
inductive Mode.Denoted (mode : Mode) : Json → Prop where
  | name : Denoted mode (.str mode.name)
  | member {content : Json} (nothing : Json.isNothingOrEmpty content = true) :
      Denoted mode (.obj [(mode.name, content)])

/-- A command is put together from its tag and the values of the fields beside it. A mode is
required, and so is the tab that a command is applied to; the tab of a request for figures may be
missing or null. A tab is an integer of 32 bits. -/
inductive Command.Stated (values : String → List Json) : Command.Tag → Command → Prop where
  | getState : Stated values .getState .getState
  | setMode {mode : Mode} {value : Json} (field : values "mode" = [value])
      (denoted : mode.Denoted value) : Stated values .setMode (.setMode mode)
  | applyToTab {tab : TabId} (field : values "tabId" = [.int tab.toInt]) :
      Stated values .applyToTab (.applyToTab tab)
  | getStats {tab : TabId} (field : values "tabId" = [.int tab.toInt]) :
      Stated values .getStats (.getStats (some tab))
  | getStatsWithout (field : values "tabId" = [] ∨ values "tabId" = [.null]) :
      Stated values .getStats (.getStats none)

/-- A message says a command: it names the command and has its field. -/
def Command.Said (message : Json) (command : Command) : Prop :=
  ∃ tag, message.Names tag ∧ Stated (message.valuesOf ·) tag command

/-! ## Decoding what is said -/

namespace Mode

theorem ofName?_eq_some_iff {name : String} {mode : Mode} :
    ofName? name = some mode ↔ name = mode.name := by
  constructor
  · intro found
    have named := List.find?_some (show all.find? (·.name == name) = some mode from found)
    exact (beq_iff_eq.mp named).symm
  · rintro rfl
    exact ofName?_name mode

theorem ofMessageJson_eq_ok_iff {value : Json} {mode : Mode} :
    ofMessageJson value = .ok mode ↔ mode.Denoted value := by
  have named {name : String} :
      (ofName? name).elim (.error (.unknownVariant name (all.map Mode.name))) .ok =
        (.ok mode : Json.Decoded Mode) ↔ name = mode.name := by
    rw [← ofName?_eq_some_iff]
    cases ofName? name <;> simp
  constructor
  · intro decoded
    unfold ofMessageJson Json.decodeVariant at decoded
    split at decoded
    · obtain rfl := named.mp decoded
      exact .name
    · obtain ⟨found, known, checked⟩ := Json.bind_eq_ok_iff.mp decoded
      split at checked
      · next nothing =>
        obtain rfl := Except.ok.inj checked
        obtain rfl := named.mp known
        exact .member nothing
      · contradiction
    · contradiction
    · contradiction
  · rintro (_ | nothing)
    · exact ofMessageJson_toJson mode
    · refine Json.bind_eq_ok_iff.mpr ⟨mode, named.mpr rfl, if_pos nothing⟩

end Mode

namespace Command

theorem Tag.ofName?_eq_some_iff {name : String} {tag : Tag} :
    Tag.ofName? name = some tag ↔ name = tag.name := by
  constructor
  · intro found
    have named := List.find?_some (show Tag.all.find? (·.name == name) = some tag from found)
    exact (beq_iff_eq.mp named).symm
  · rintro rfl
    exact Tag.ofName?_name tag

/-- A message that names a command is an object. -/
theorem exists_members {message : Json} {tag : Tag} (names : message.Names tag) :
    ∃ members, message = .obj members ∧ members.lookup "type" = some (.str tag.name) := by
  cases message with
  | obj members => exact ⟨members, rfl, names⟩
  | _ => exact absurd names nofun

section

variable {α : Type} {name : String} {decode : Json → Json.Decoded α}
variable {members : List (String × Json)}

/-- A field is decoded from the members of its name alone. -/
theorem fieldOf_eq (name : String) (decode : Json → Json.Decoded α)
    (members : List (String × Json)) :
    fieldOf name decode members =
      (Json.valuesOf name (.obj members)).foldlM
        (fun slot value => Json.fill name slot (decode value)) none := by
  unfold fieldOf Json.valuesOf
  generalize (none : Option α) = slot
  induction members generalizing slot with
  | nil => rfl
  | cons member members ih =>
    obtain ⟨other, value⟩ := member
    by_cases same : other = name
    · subst same
      simp only [List.foldlM_cons, if_true, List.filter_cons, BEq.rfl, List.map_cons, ih]
    · have differs : (other == name) = false := beq_eq_false_iff_ne.mpr same
      simp only [List.foldlM_cons, same, if_false, List.filter_cons, differs, Bool.false_eq_true]
      exact ih slot

theorem fieldOf_eq_ok_iff {slot : Option α} :
    fieldOf name decode members = .ok slot ↔
      (Json.valuesOf name (.obj members) = [] ∧ slot = none) ∨
        ∃ value part, Json.valuesOf name (.obj members) = [value] ∧ decode value = .ok part ∧
          slot = some part := by
  rw [fieldOf_eq]
  rcases Json.valuesOf name (.obj members) with _ | ⟨value, _ | ⟨second, others⟩⟩
  · simp [pure, Except.pure, eq_comm]
  · simp [Json.fill_eq_ok_iff]
  · simp only [List.foldlM_cons, Json.bind_eq_ok_iff, Json.fill_eq_ok_iff]
    constructor
    · rintro ⟨_, ⟨-, part, -, rfl⟩, _, ⟨empty, -⟩, -⟩
      contradiction
    · rintro (⟨several, -⟩ | ⟨_, _, several, -⟩) <;> simp at several

/-- What is made of a required field is made of a member that is there once. -/
theorem made_eq_ok_iff {β : Type} {make : α → β} {result : β} :
    (do return make (← Json.require name (← fieldOf name decode members))) = .ok result ↔
      ∃ value part, Json.valuesOf name (.obj members) = [value] ∧ decode value = .ok part ∧
        result = make part := by
  simp only [Json.bind_eq_ok_iff, Json.require_eq_ok_iff, fieldOf_eq_ok_iff]
  constructor
  · rintro ⟨slot, ⟨-, rfl⟩ | ⟨value, part, alone, decoded, rfl⟩, _, filled, done⟩
    · contradiction
    · obtain rfl := Option.some.inj filled
      exact ⟨value, part, alone, decoded, (Except.ok.inj done).symm⟩
  · rintro ⟨value, part, alone, decoded, rfl⟩
    exact ⟨some part, .inr ⟨value, part, alone, decoded, rfl⟩, part, rfl, rfl⟩

/-- The member that names the command is no field of it. -/
theorem valuesOf_beside_type (other : name ≠ "type") (members : List (String × Json)) :
    Json.valuesOf name (.obj (members.filter (·.1 != "type"))) =
      Json.valuesOf name (.obj members) := by
  simp only [Json.valuesOf, List.filter_filter]
  congr 1
  refine List.filter_congr ?_
  rintro ⟨first, value⟩ -
  by_cases same : first = name
  · subst same
    simp [other]
  · simp [same]

end

theorem decodeTab?_eq_ok_iff {value : Json} {tab : Option TabId} :
    decodeTab? value = .ok tab ↔ value = tab.elim .null tabToJson := by
  have number {tab : TabId} : decodeTab value = .ok tab ↔ value = tabToJson tab :=
    Json.decodeInt32_eq_ok_iff
  cases value with
  | null => cases tab <;> simp [decodeTab?, Json.decodeOption, tabToJson]
  | _ => cases tab <;> simp [decodeTab?, Json.decodeOption, Json.map_eq_ok_iff, number]

/-- A command is decoded from an object by its tag. -/
theorem ofJson_eq_ofMembers {members : List (String × Json)} {tag : Tag}
    (named : members.lookup "type" = some (.str tag.name)) :
    ofJson (.obj members) = ofMembers tag (members.filter (·.1 != "type")) := by
  rw [ofJson_obj, named]
  simp [Json.decodeTag, bind, Except.bind]

theorem names_injective {message : Json} {tag other : Tag} (names : message.Names tag)
    (again : message.Names other) : other = tag := by
  have same := Option.some.inj (again.symm.trans names)
  have found := Tag.ofName?_name other
  rw [Json.str.inj same, Tag.ofName?_name] at found
  exact (Option.some.inj found).symm

/-- From the members beside it, a tag is completed to the command that they state. -/
theorem ofMembers_eq_ok_iff {members : List (String × Json)} {tag : Tag} {command : Command} :
    ofMembers tag (members.filter (·.1 != "type")) = .ok command ↔
      Stated (Json.valuesOf · (.obj members)) tag command := by
  have mode := valuesOf_beside_type (show "mode" ≠ "type" by decide) members
  have tabId := valuesOf_beside_type (show "tabId" ≠ "type" by decide) members
  cases tag with
  | getState =>
    constructor
    · rintro ⟨⟩
      exact .getState
    · rintro ⟨⟩
      rfl
  | setMode =>
    refine made_eq_ok_iff.trans ?_
    simp only [mode, Mode.ofMessageJson_eq_ok_iff]
    constructor
    · rintro ⟨value, mode, field, denoted, rfl⟩
      exact .setMode field denoted
    · rintro ⟨⟩
      next value field denoted => exact ⟨value, _, field, denoted, rfl⟩
  | applyToTab =>
    refine made_eq_ok_iff.trans ?_
    simp only [tabId, decodeTab, Json.decodeInt32_eq_ok_iff]
    constructor
    · rintro ⟨_, tab, field, rfl, rfl⟩
      exact .applyToTab field
    · rintro ⟨⟩
      next field => exact ⟨_, _, field, rfl, rfl⟩
  | getStats =>
    refine Json.bind_eq_ok_iff.trans ?_
    simp only [fieldOf_eq_ok_iff, tabId, decodeTab?_eq_ok_iff]
    constructor
    · rintro ⟨slot, ⟨missing, rfl⟩ | ⟨_, tab, field, rfl, rfl⟩, done⟩
      · obtain rfl := Except.ok.inj done
        exact .getStatsWithout (.inl missing)
      · obtain rfl := Except.ok.inj done
        cases tab with
        | none => exact .getStatsWithout (.inr field)
        | some tab => exact .getStats field
    · rintro ⟨⟩
      next tab field => exact ⟨_, .inr ⟨_, some tab, field, rfl, rfl⟩, rfl⟩
      next field =>
        obtain missing | null := field
        · exact ⟨none, .inl ⟨missing, rfl⟩, rfl⟩
        · exact ⟨_, .inr ⟨_, none, null, rfl, rfl⟩, rfl⟩

/-- A message that names a command is decoded to what it says. -/
theorem ofJson_eq_ok_iff {message : Json} {tag : Tag} {command : Command}
    (names : message.Names tag) : ofJson message = .ok command ↔ Said message command := by
  obtain ⟨members, rfl, named⟩ := exists_members names
  rw [ofJson_eq_ofMembers named, ofMembers_eq_ok_iff]
  constructor
  · intro stated
    exact ⟨tag, names, stated⟩
  · rintro ⟨other, again, stated⟩
    obtain rfl := names_injective names again
    exact stated

def Tag.fields : Tag → List String
  | getState => []
  | setMode => ["mode"]
  | applyToTab | getStats => ["tabId"]

end Command

theorem Program.Runs.map_iff {program : Program α} {f : α → β} {host later : Host}
    {moments : List Moment} {result : β} :
    (f <$> program).Runs host moments result later ↔
      ∃ value, program.Runs host moments value later ∧ result = f value := by
  constructor
  · intro runs
    obtain ⟨value, middle, first, second, front, back, rfl⟩ := bind_iff.mp runs
    obtain ⟨rfl, rfl, rfl⟩ := done_iff.mp back
    exact ⟨value, by simpa using front, rfl⟩
  · rintro ⟨value, runs, rfl⟩
    exact bind_iff.mpr ⟨value, later, moments, [], runs, .done _ _, (List.append_nil _).symm⟩

namespace Engine

def answer : Except EngineError Reply → Json
  | .ok reply => reply.toJson
  | .error error => Reply.failure error.message

/-- The ways in which a message is answered. -/
inductive Answering (config : Config) (message : Json) : Program Json → Prop where
  | unknown (unnamed : ¬ ∃ tag, message.Names tag) :
      Answering config message (.done (Reply.failure "Unknown message type"))
  | invalid {tag : Command.Tag} (names : message.Names tag)
      (unsaid : ¬ ∃ command, Command.Said message command) (cause : Json.DecodeError) :
      Answering config message (.done (Reply.failure ("Invalid message: " ++ cause.message)))
  | command {tag : Command.Tag} {command : Command} (names : message.Names tag)
      (said : Command.Said message command) :
      Answering config message (answer <$> (handle config command).run)

namespace Answering

variable {config : Config} {message answered : Json} {program : Program Json} {host later : Host}
variable {moments : List Moment}

/-- A message that says no command is answered without a call. -/
theorem idle (answering : Answering config message program)
    (runs : program.Runs host moments answered later)
    (unsaid : ¬ ∃ command, Command.Said message command) : moments = [] ∧ later = host := by
  cases answering with
  | unknown _ | invalid _ _ _ =>
    obtain ⟨rfl, -, rfl⟩ := Program.Runs.done_iff.mp runs
    exact ⟨rfl, rfl⟩
  | command names said => exact absurd ⟨_, said⟩ unsaid

end Answering

end Engine

end Blocklist
