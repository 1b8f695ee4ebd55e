import Blocklist.Json.Basic
import Blocklist.Number.Shortest
import Blocklist.Text.Quoted

/-!
# Decoding JSON values into records

The causes for which a value does not decode, their texts, and the decoders that records are put
together from. A record is decoded from an object, whose members fill a draft in the order in which
they come, or from an array, whose items fill the fields in the record's order.
-/

namespace Blocklist.Json

inductive DecodeError where
  | wrongType (found : Kind) (expected : String)
  | outOfRange (value : Int) (expected : String)
  | notOneMember
  | unknownVariant (name : String) (known : List String)
  | missingField (name : String)
  | duplicateField (name : String)
  | wrongLength (length : Nat) (expected : String)
  | invalidDomain (text : String)
deriving DecidableEq, Repr

namespace Kind

/-- How a message names what it found. -/
def describe : Kind → String
  | null => "null"
  | bool value => "boolean `" ++ (if value then "true" else "false") ++ "`"
  | int value => "integer `" ++ toString value ++ "`"
  | float value => "floating point `" ++ value.text ++ "`"
  | str value => "string " ++ Text.quoted value
  | arr => "sequence"
  | obj => "map"

end Kind

namespace DecodeError

/-- The names that a message offers in place of an unknown one. -/
def offer (known : List String) : String :=
  match known with
  | [] => "there are no variants"
  | [name] => "expected `" ++ name ++ "`"
  | [first, second] => "expected `" ++ first ++ "` or `" ++ second ++ "`"
  | names => "expected one of " ++ ", ".intercalate (names.map fun name => "`" ++ name ++ "`")

def message : DecodeError → String
  | wrongType found expected => "invalid type: " ++ found.describe ++ ", expected " ++ expected
  | outOfRange value expected =>
    "invalid value: integer `" ++ toString value ++ "`, expected " ++ expected
  | notOneMember => "invalid value: map, expected map with a single key"
  | unknownVariant name known => "unknown variant `" ++ name ++ "`, " ++ offer known
  | missingField name => "missing field `" ++ name ++ "`"
  | duplicateField name => "duplicate field `" ++ name ++ "`"
  | wrongLength length expected =>
    "invalid length " ++ toString length ++ ", expected " ++ expected
  | invalidDomain text => "invalid domain token: " ++ Text.quoted text

end DecodeError

abbrev Decoded := Except DecodeError

/-- An integer of a width, with the width's name as messages show it. -/
def decodeInt (width : String) (low high : Int) : Json → Decoded Int
  | .int value => if low ≤ value ∧ value ≤ high then .ok value else .error (.outOfRange value width)
  | other => .error (.wrongType other.kind width)

theorem decodeInt_eq_ok_iff {width : String} {low high n : Int} {value : Json} :
    decodeInt width low high value = .ok n ↔ value = .int n ∧ low ≤ n ∧ n ≤ high := by
  cases value with
  | int m =>
    simp only [decodeInt, int.injEq]
    split
    · next inRange => grind
    · next outside => grind
  | _ => simp [decodeInt]

/-- A number decoded from an integer of its width was written as that integer, when the width's
range and the numbers correspond. -/
theorem map_decodeInt_eq_ok_iff {width : String} {low high : Int} {value : Json} {number : α}
    (ofInt : Int → α) (toInt : α → Int) (inverse : ∀ number, ofInt (toInt number) = number)
    (exact : ∀ n, low ≤ n → n ≤ high → toInt (ofInt n) = n)
    (bounds : ∀ number, low ≤ toInt number ∧ toInt number ≤ high) :
    (decodeInt width low high value).map ofInt = .ok number ↔ value = .int (toInt number) := by
  constructor
  · intro decoded
    cases answer : decodeInt width low high value with
    | error cause =>
      rw [answer] at decoded
      contradiction
    | ok n =>
      obtain ⟨rfl, above, below⟩ := decodeInt_eq_ok_iff.mp answer
      rw [answer] at decoded
      obtain rfl := Except.ok.inj decoded
      rw [exact n above below]
  · rintro rfl
    rw [decodeInt_eq_ok_iff.mpr ⟨rfl, bounds number⟩]
    exact congrArg Except.ok (inverse number)

def decodeUInt64 (value : Json) : Decoded UInt64 :=
  (decodeInt "u64" 0 (UInt64.size - 1) value).map fun n => .ofNat n.toNat

/-- A count, as wide as an unsigned 64-bit integer and named for its use as a size. -/
def decodeSize (value : Json) : Decoded UInt64 :=
  (decodeInt "usize" 0 (UInt64.size - 1) value).map fun n => .ofNat n.toNat

def decodeUInt32 (value : Json) : Decoded UInt32 :=
  (decodeInt "u32" 0 (UInt32.size - 1) value).map fun n => .ofNat n.toNat

def decodeInt64 (value : Json) : Decoded Int64 :=
  (decodeInt "i64" Int64.minValue.toInt Int64.maxValue.toInt value).map .ofInt

def decodeInt32 (value : Json) : Decoded Int32 :=
  (decodeInt "i32" Int32.minValue.toInt Int32.maxValue.toInt value).map .ofInt

private theorem map_decodeInt_uint64 {width : String} {value : Json} {number : UInt64} :
    (decodeInt width 0 (UInt64.size - 1) value).map (fun n => .ofNat n.toNat) = .ok number ↔
      value = .int number.toNat := by
  refine map_decodeInt_eq_ok_iff _ (fun n : UInt64 => n.toNat) ?_ ?_ ?_
  · intro n
    exact UInt64.ofNat_toNat
  · intro n above below
    rw [UInt64.toNat_ofNat_of_lt' (by omega : n.toNat < UInt64.size)]
    exact Int.toNat_of_nonneg above
  · intro n
    have := n.toNat_lt_size
    omega

theorem decodeUInt64_eq_ok_iff {value : Json} {number : UInt64} :
    decodeUInt64 value = .ok number ↔ value = .int number.toNat := map_decodeInt_uint64

theorem decodeSize_eq_ok_iff {value : Json} {number : UInt64} :
    decodeSize value = .ok number ↔ value = .int number.toNat := map_decodeInt_uint64

theorem decodeUInt32_eq_ok_iff {value : Json} {number : UInt32} :
    decodeUInt32 value = .ok number ↔ value = .int number.toNat := by
  refine map_decodeInt_eq_ok_iff _ (fun n : UInt32 => n.toNat) ?_ ?_ ?_
  · intro n
    exact UInt32.ofNat_toNat
  · intro n above below
    rw [UInt32.toNat_ofNat_of_lt' (by omega : n.toNat < UInt32.size)]
    exact Int.toNat_of_nonneg above
  · intro n
    have := n.toNat_lt_size
    omega

theorem decodeInt64_eq_ok_iff {value : Json} {number : Int64} :
    decodeInt64 value = .ok number ↔ value = .int number.toInt := by
  refine map_decodeInt_eq_ok_iff _ _ Int64.ofInt_toInt ?_ ?_
  · intro n above below
    exact Int64.toInt_ofInt_of_le above (Int.lt_of_le_of_lt below (by decide))
  · intro n
    exact ⟨n.minValue_le_toInt, n.toInt_le⟩

theorem decodeInt32_eq_ok_iff {value : Json} {number : Int32} :
    decodeInt32 value = .ok number ↔ value = .int number.toInt := by
  refine map_decodeInt_eq_ok_iff _ _ Int32.ofInt_toInt ?_ ?_
  · intro n above below
    exact Int32.toInt_ofInt_of_le above (Int.lt_of_le_of_lt below (by decide))
  · intro n
    exact ⟨n.minValue_le_toInt, n.toInt_le⟩

@[simp] theorem decodeUInt64_toNat (number : UInt64) :
    decodeUInt64 (.int number.toNat) = .ok number := decodeUInt64_eq_ok_iff.mpr rfl

@[simp] theorem decodeSize_toNat (number : UInt64) :
    decodeSize (.int number.toNat) = .ok number := decodeSize_eq_ok_iff.mpr rfl

@[simp] theorem decodeUInt32_toNat (number : UInt32) :
    decodeUInt32 (.int number.toNat) = .ok number := decodeUInt32_eq_ok_iff.mpr rfl

@[simp] theorem decodeInt64_toInt (number : Int64) :
    decodeInt64 (.int number.toInt) = .ok number := decodeInt64_eq_ok_iff.mpr rfl

@[simp] theorem decodeInt32_toInt (number : Int32) :
    decodeInt32 (.int number.toInt) = .ok number := decodeInt32_eq_ok_iff.mpr rfl

def decodeString : Json → Decoded String
  | .str value => .ok value
  | other => .error (.wrongType other.kind "a string")

theorem decodeString_eq_ok_iff {value : Json} {text : String} :
    decodeString value = .ok text ↔ value = .str text := by
  cases value <;> simp [decodeString]

def decodeList (decode : Json → Decoded α) : Json → Decoded (List α)
  | .arr items => items.mapM decode
  | other => .error (.wrongType other.kind "a sequence")

/-- A list whose items were written with an encoder is read back with its decoder. -/
theorem decodeList_map {encode : α → Json} {decode : Json → Decoded α}
    (inverse : ∀ value, decode (encode value) = .ok value) (values : List α) :
    decodeList decode (.arr (values.map encode)) = .ok values := by
  rw [decodeList]
  induction values with
  | nil => rfl
  | cons value values ih =>
    rw [List.map_cons, List.mapM_cons, inverse, ih]
    rfl

/-- A list is decoded from nothing but what was written, if its items are. -/
theorem decodeList_eq_ok_iff {encode : α → Json} {decode : Json → Decoded α}
    (exact : ∀ {item value}, decode item = .ok value ↔ item = encode value) {value : Json}
    {values : List α} : decodeList decode value = .ok values ↔ value = .arr (values.map encode) := by
  constructor
  · intro decoded
    cases value with
    | arr items =>
      congr 1
      rw [decodeList] at decoded
      induction items generalizing values with
      | nil =>
        obtain rfl := Except.ok.inj decoded
        rfl
      | cons item items ih =>
        rw [List.mapM_cons] at decoded
        cases head : decode item with
        | error cause => simp [head, bind, Except.bind] at decoded
        | ok first =>
          cases tail : items.mapM decode with
          | error cause => simp [head, tail, bind, Except.bind] at decoded
          | ok rest =>
            simp only [head, tail, bind, Except.bind, pure, Except.pure, Except.ok.injEq] at decoded
            rw [← decoded, List.map_cons, ← exact.mp head, ← ih tail]
    | _ => simp [decodeList] at decoded
  · rintro rfl
    exact decodeList_map (fun value => exact.mpr rfl) values

/-- A value that may be null. -/
def decodeOption (decode : Json → Decoded α) : Json → Decoded (Option α)
  | .null => .ok none
  | value => some <$> decode value

/-- The content of a variant that carries nothing. -/
def isNothing : Json → Bool
  | .null => true
  | _ => false

/-- The content of a variant that carries nothing, where an empty object says so too. -/
def isNothingOrEmpty : Json → Bool
  | .null | .obj [] => true
  | _ => false

/-- The one name of a variant that carries nothing: a string, or an object whose only member has
the name and a content that is nothing. The name is looked up before the content is. -/
def decodeVariant (known : List String) (ofName? : String → Option α) (isNothing : Json → Bool)
    (value : Json) : Decoded α :=
  let named (name : String) : Decoded α :=
    (ofName? name).elim (.error (.unknownVariant name known)) .ok
  match value with
  | .str name => named name
  | .obj [(name, content)] => do
    let variant ← named name
    if isNothing content then .ok variant else .error (.wrongType content.kind "unit")
  | .obj _ => .error .notOneMember
  | other => .error (.wrongType other.kind "string or map")

/-- Fills an empty slot of a draft; a slot that is filled already is a repeated field. -/
def fill (name : String) (slot : Option α) (value : Decoded α) : Decoded (Option α) :=
  if slot.isSome then .error (.duplicateField name) else some <$> value

/-- The content of a slot that has to be filled. -/
def require (name : String) (slot : Option α) : Decoded α :=
  slot.elim (.error (.missingField name)) .ok

/-- What a message says about a record: its description and how many fields it has. -/
structure Shape where
  description : String
  fields : Nat

namespace Shape

/-- What an array with too few items should have been. -/
def expectation (shape : Shape) : String :=
  shape.description ++ " with " ++ toString shape.fields ++
    (if shape.fields = 1 then " element" else " elements")

end Shape

/-- Takes fields from the items of an array, keeping those that are left. -/
abbrev Row := StateT (List Json) Decoded

namespace Row

/-- The next item, decoded; `index` items were taken before. -/
def next (shape : Shape) (index : Nat) (decode : Json → Decoded α) : Row α := fun items =>
  match items with
  | [] => .error (.wrongLength index shape.expectation)
  | item :: rest => (decode item).map (·, rest)

/-- The next item, decoded, or a default when none is left. -/
def nextD (fallback : α) (decode : Json → Decoded α) : Row α := fun items =>
  match items with
  | [] => .ok (fallback, [])
  | item :: rest => (decode item).map (·, rest)

end Row

/-- A record from an object or an array; an array must not have items left over. -/
def decodeRecord (shape : Shape) (ofMembers : List (String × Json) → Decoded α) (ofItems : Row α) :
    Json → Decoded α
  | .obj members => ofMembers members
  | .arr items => do
    let (record, rest) ← ofItems items
    if rest.isEmpty then .ok record
    else .error (.wrongLength items.length "fewer elements in array")
  | other => .error (.wrongType other.kind shape.description)

end Blocklist.Json
