import Blocklist.Rule.Json

/-!
# What a decoder accepts

A record is decoded from an object whose members come in any order and may include unknown ones, or
from an array of the fields in the record's order. When the decoding succeeds, what became of a
member is followed through the draft: `Fills` says which slot a name fills, and `Fills.lookup` that
the slot holds what the first member of that name decodes to. `Format.Faithful` is what a format
owes: it reads back what it writes, in either form, it passes over the members that it does not
know, and it takes an integer for what it is or not at all.
-/

namespace Blocklist

namespace Json

variable {α β δ : Type}

theorem pure_eq_ok_iff {part result : α} :
    (pure part : Decoded α) = .ok result ↔ part = result := by
  simp [pure, Except.pure]

theorem bind_eq_ok_iff {decoded : Decoded α} {next : α → Decoded β} {result : β} :
    decoded >>= next = .ok result ↔ ∃ part, decoded = .ok part ∧ next part = .ok result := by
  cases decoded <;> simp [bind, Except.bind]

theorem map_eq_ok_iff {decoded : Decoded α} {f : α → β} {result : β} :
    f <$> decoded = .ok result ↔ ∃ part, decoded = .ok part ∧ f part = result := by
  cases decoded <;> simp [Functor.map, Except.map]

theorem fill_eq_ok_iff {name : String} {slot : Option α} {value : Decoded α} {filled : Option α} :
    fill name slot value = .ok filled ↔
      slot = none ∧ ∃ part, value = .ok part ∧ filled = some part := by
  cases slot <;> cases value <;> simp [fill, Functor.map, Except.map, eq_comm]

theorem require_eq_ok_iff {name : String} {slot : Option α} {part : α} :
    require name slot = .ok part ↔ slot = some part := by
  cases slot <;> simp [require]

/-- A part of a record: the member of its name, or the item at its place. -/
def part? (name : String) (place : Nat) : Json → Option Json
  | .obj members => members.lookup name
  | .arr items => items[place]?
  | _ => none

/-- A name fills a slot of the draft: a member of that name finds the slot empty and leaves in it
what the value decodes to, and a member of another name leaves the slot alone. -/
structure Fills (absorb : δ → String × Json → Decoded δ) (name : String) (slot : δ → Option α)
    (decode : Json → Decoded α) : Prop where
  named {draft value after} : absorb draft (name, value) = .ok after →
    slot draft = none ∧ ∃ part, decode value = .ok part ∧ slot after = some part
  others {draft other value after} : other ≠ name → absorb draft (other, value) = .ok after →
    slot after = slot draft

namespace Fills

variable {absorb : δ → String × Json → Decoded δ} {name : String} {slot : δ → Option α}
variable {decode : Json → Decoded α} {members : List (String × Json)} {before after : δ}

/-- A reader that fills the slot on its name, and changes no more than the slot. -/
theorem of (change : δ → Option α → δ)
    (named : ∀ draft value, absorb draft (name, value) =
      (do let part ← fill name (slot draft) (decode value); return change draft part))
    (changed : ∀ draft part, slot (change draft part) = part)
    (others : ∀ {draft other value after}, other ≠ name → absorb draft (other, value) = .ok after →
      slot after = slot draft) : Fills absorb name slot decode where
  named {draft value after} absorbed := by
    rw [named] at absorbed
    obtain ⟨_, answer, done⟩ := bind_eq_ok_iff.mp absorbed
    obtain ⟨empty, part, decoded, rfl⟩ := fill_eq_ok_iff.mp answer
    obtain rfl := Except.ok.inj done
    exact ⟨empty, part, decoded, changed draft (some part)⟩
  others := others

/-- The slot holds what the first member of its name decodes to, and a second one is not let in. -/
theorem lookup (fills : Fills absorb name slot decode)
    (absorbed : members.foldlM absorb before = .ok after) :
    (members.lookup name = none ∧ slot after = slot before) ∨
      ∃ value part, members.lookup name = some value ∧ decode value = .ok part ∧
        slot before = none ∧ slot after = some part := by
  induction members generalizing before with
  | nil =>
    obtain rfl := Except.ok.inj absorbed
    exact .inl ⟨rfl, rfl⟩
  | cons member members ih =>
    obtain ⟨other, value⟩ := member
    rw [List.foldlM_cons] at absorbed
    obtain ⟨middle, first, rest⟩ := bind_eq_ok_iff.mp absorbed
    by_cases same : other = name
    · subst same
      obtain ⟨empty, part, decoded, filled⟩ := fills.named first
      rcases ih rest with ⟨-, kept⟩ | ⟨_, _, -, -, emptied, -⟩
      · exact .inr ⟨value, part, by simp, decoded, empty, kept.trans filled⟩
      · simp [filled] at emptied
    · have kept := fills.others same first
      have passed : List.lookup name ((other, value) :: members) = members.lookup name := by
        simp [List.lookup_cons, show (name == other) = false from by simpa using Ne.symm same]
      rw [passed, ← kept]
      exact ih rest

theorem lookup_of_filled (fills : Fills absorb name slot decode)
    (absorbed : members.foldlM absorb before = .ok after) (empty : slot before = none) {part : α}
    (filled : slot after = some part) :
    ∃ value, members.lookup name = some value ∧ decode value = .ok part := by
  rcases fills.lookup absorbed with ⟨-, kept⟩ | ⟨value, other, found, decoded, -, holds⟩
  · simp [kept, empty] at filled
  · rw [filled] at holds
    obtain rfl := Option.some.inj holds
    exact ⟨value, found, decoded⟩

/-- A part with one form only is found as it is written. -/
theorem lookup_of_exact (fills : Fills absorb name slot decode) {encode : α → Json}
    (exact : ∀ {value part}, decode value = .ok part ↔ value = encode part)
    (absorbed : members.foldlM absorb before = .ok after) (empty : slot before = none) {part : α}
    (filled : slot after = some part) : members.lookup name = some (encode part) := by
  obtain ⟨value, found, decoded⟩ := fills.lookup_of_filled absorbed empty filled
  rw [found, exact.mp decoded]

end Fills

/-- Members of a name that every draft passes over may as well be missing. -/
theorem foldlM_skip {absorb : δ → String × Json → Decoded δ} {name : String}
    (skips : ∀ draft value, absorb draft (name, value) = .ok draft)
    (before after : List (String × Json)) (value : Json) (draft : δ) :
    (before ++ (name, value) :: after).foldlM absorb draft =
      (before ++ after).foldlM absorb draft := by
  rw [List.foldlM_append, List.foldlM_append]
  congr 1
  funext middle
  rw [List.foldlM_cons, skips]
  rfl

namespace Row

theorem next_cons_eq_ok_iff {shape : Shape} {index : Nat} {decode : Json → Decoded α} {item : Json}
    {items rest : List Json} {part : α} :
    next shape index decode (item :: items) = .ok (part, rest) ↔
      decode item = .ok part ∧ items = rest := by
  cases decoded : decode item <;> simp [next, decoded, Except.map]

theorem next_eq_ok_iff {shape : Shape} {index : Nat} {decode : Json → Decoded α}
    {items rest : List Json} {part : α} :
    next shape index decode items = .ok (part, rest) ↔
      ∃ item, items = item :: rest ∧ decode item = .ok part := by
  cases items with
  | nil => simp [next]
  | cons item left => simp [next_cons_eq_ok_iff]; grind

theorem nextD_cons_eq_ok_iff {fallback : α} {decode : Json → Decoded α} {item : Json}
    {items rest : List Json} {part : α} :
    nextD fallback decode (item :: items) = .ok (part, rest) ↔
      decode item = .ok part ∧ items = rest := by
  cases decoded : decode item <;> simp [nextD, decoded, Except.map]

theorem bind_eq_ok_iff {row : Row α} {continuation : α → Row β} {items rest : List Json}
    {result : β} :
    (row >>= continuation) items = .ok (result, rest) ↔
      ∃ part left, row items = .ok (part, left) ∧ continuation part left = .ok (result, rest) := by
  change (row items >>= fun answer => continuation answer.1 answer.2) = _ ↔ _
  rw [Json.bind_eq_ok_iff]
  exact Prod.exists

theorem pure_eq_ok_iff {items rest : List Json} {part result : α} :
    (pure part : Row α) items = .ok (result, rest) ↔ part = result ∧ items = rest := by
  change Except.ok (part, items) = Except.ok (result, rest) ↔ _
  simp

theorem map_eq_ok_iff {f : α → β} {row : Row α} {items rest : List Json} {result : β} :
    (f <$> row) items = .ok (result, rest) ↔
      ∃ part, row items = .ok (part, rest) ∧ f part = result := by
  rw [← bind_pure_comp, bind_eq_ok_iff]
  simp [pure_eq_ok_iff]

end Row

theorem decodeRecord_arr_eq_ok_iff {shape : Shape}
    {ofMembers : List (String × Json) → Decoded α} {ofItems : Row α} {items : List Json}
    {record : α} :
    decodeRecord shape ofMembers ofItems (.arr items) = .ok record ↔
      ofItems items = .ok (record, []) := by
  rw [decodeRecord, bind_eq_ok_iff]
  constructor
  · rintro ⟨⟨part, rest⟩, taken, checked⟩
    cases rest with
    | nil =>
      obtain rfl := Except.ok.inj checked
      exact taken
    | cons item rest => simp at checked
  · intro taken
    exact ⟨(record, []), taken, rfl⟩

/-- Looking a name up needs no more than the members of that name. -/
theorem lookup_filter {name : String} {keep : String × Json → Bool}
    (kept : ∀ value, keep (name, value)) (members : List (String × Json)) :
    (members.filter keep).lookup name = members.lookup name := by
  induction members with
  | nil => rfl
  | cons member members ih =>
    obtain ⟨other, value⟩ := member
    by_cases same : name = other
    · subst same
      simp [kept]
    · rw [List.filter_cons]
      split <;> simp [List.lookup_cons, show (name == other) = false from by simpa using same, ih]

section Tagged

variable {type : String} {known : List String} {ofName? : String → Option α} {tag : α}
variable {rest : List (String × Json) ⊕ List Json}

theorem decodeTag_eq_ok_iff {value : Json} :
    decodeTag known ofName? value = .ok tag ↔
      ∃ name, value = .str name ∧ ofName? name = some tag := by
  cases value with
  | str name => cases found : ofName? name <;> simp [decodeTag, found]
  | _ => simp [decodeTag]

theorem decodeTagged_obj_eq_ok_iff {members : List (String × Json)} :
    decodeTagged type known ofName? (.obj members) = .ok (tag, rest) ↔
      ∃ name, members.lookup "type" = some (.str name) ∧ ofName? name = some tag ∧
        rest = .inl (members.filter (·.1 != "type")) := by
  cases named : members.lookup "type" with
  | none => simp [decodeTagged, named]
  | some value => simp [decodeTagged, named, decodeTag_eq_ok_iff, map_eq_ok_iff]; grind

theorem decodeTagged_arr_eq_ok_iff {items : List Json} :
    decodeTagged type known ofName? (.arr items) = .ok (tag, rest) ↔
      ∃ name left, items = .str name :: left ∧ ofName? name = some tag ∧ rest = .inr left := by
  cases items with
  | nil => simp [decodeTagged]
  | cons value left => simp [decodeTagged, decodeTag_eq_ok_iff, map_eq_ok_iff]; grind

end Tagged

/-- A field of a record that holds an integer: where it is found, which number a record has there,
and the range of its width. -/
structure IntegerField (α : Type) where
  part? : Json → Option Json
  number? : α → Option Int
  low : Int
  high : Int
  bounded : ∀ {record n}, number? record = some n → low ≤ n ∧ n ≤ high

namespace IntegerField

def uint64 (name : String) (place : Nat) (field : α → UInt64) : IntegerField α where
  part? := Json.part? name place
  number? record := some (field record).toNat
  low := 0
  high := UInt64.size - 1
  bounded {record n} h := by
    have := (field record).toNat_lt_size
    simp only [Option.some.injEq] at h
    omega

def uint32 (name : String) (place : Nat) (field : α → UInt32) : IntegerField α where
  part? := Json.part? name place
  number? record := some (field record).toNat
  low := 0
  high := UInt32.size - 1
  bounded {record n} h := by
    have := (field record).toNat_lt_size
    simp only [Option.some.injEq] at h
    omega

def int64 (name : String) (place : Nat) (field : α → Int64) : IntegerField α where
  part? := Json.part? name place
  number? record := some (field record).toInt
  low := Int64.minValue.toInt
  high := Int64.maxValue.toInt
  bounded {record n} h := by
    obtain rfl := Option.some.inj h
    exact ⟨(field record).minValue_le_toInt, (field record).toInt_le⟩

/-- A field of a record that is itself a field of another. -/
def within (name : String) (place : Nat) (outer : β → α) (field : IntegerField α) :
    IntegerField β where
  part? value := (Json.part? name place value).bind field.part?
  number? record := field.number? (outer record)
  low := field.low
  high := field.high
  bounded h := field.bounded h

end IntegerField

end Json

/-- How records are written and read: as an object, as an array, the names that a reader knows and
the fields that hold integers. -/
structure Format (α : Type) where
  encode : α → Json
  decode : Json → Json.Decoded α
  row : α → List Json
  names : List String
  integers : List (Json.IntegerField α)

namespace Format

/-- A format that loses and changes nothing. -/
structure Faithful (format : Format α) : Prop where
  decode_encode (record : α) : format.decode (format.encode record) = .ok record
  decode_row (record : α) : format.decode (.arr (format.row record)) = .ok record
  unknown {name : String} (outside : name ∉ format.names) (before after : List (String × Json))
    (content : Json) :
    format.decode (.obj (before ++ (name, content) :: after)) =
      format.decode (.obj (before ++ after))
  stable {value : Json} {record : α} (decoded : format.decode value = .ok record) :
    format.decode (format.encode record) = format.decode value
  exact {field : Json.IntegerField α} (mem : field ∈ format.integers) {value : Json} {n : Int}
    {record : α} (found : field.part? value = some (.int n))
    (decoded : format.decode value = .ok record) : field.number? record = some n
  refused {field : Json.IntegerField α} (mem : field ∈ format.integers) {value : Json} {n : Int}
    (found : field.part? value = some (.int n)) (outside : n < field.low ∨ field.high < n) :
    ∃ cause, format.decode value = .error cause

/-- Stability and refusal follow from the rest. -/
theorem faithful_of {format : Format α}
    (decode_encode : ∀ record, format.decode (format.encode record) = .ok record)
    (decode_row : ∀ record, format.decode (.arr (format.row record)) = .ok record)
    (unknown : ∀ {name}, name ∉ format.names → ∀ before after content,
      format.decode (.obj (before ++ (name, content) :: after)) =
        format.decode (.obj (before ++ after)))
    (exact : ∀ field ∈ format.integers, ∀ {value n record}, field.part? value = some (.int n) →
      format.decode value = .ok record → field.number? record = some n) : format.Faithful where
  decode_encode := decode_encode
  decode_row := decode_row
  unknown := unknown
  stable decoded := by rw [decode_encode, decoded]
  exact mem _ _ _ found decoded := exact _ mem found decoded
  refused {field} mem {value n} found outside := by
    cases decoded : format.decode value with
    | error cause => exact ⟨cause, rfl⟩
    | ok record =>
      have bounds := field.bounded (exact field mem found decoded)
      omega

end Format

end Blocklist
