import Blocklist.Json.Reader

/-!
# The texts of JSON values

Which texts denote a value, told without a reader. Characters of a string may be escaped wherever
that is allowed, numbers keep the form in which they are written, and white space may stand around
everything inside a bracket. The members of an object keep their order, and names may repeat.
-/

namespace Blocklist.Json

def Blank (space : List Char) : Prop := ∀ c ∈ space, Cursor.isSpace c

theorem blank_nil : Blank [] := List.forall_mem_nil _

/-! ## Strings -/

/-- The ways to write a character of a string. Outside the basic plane the code is a pair of
surrogates. -/
inductive Letter : List Char → Char → Prop where
  | plain {c : Char} (visible : 0x20 ≤ c.toNat) (noQuote : c ≠ '"') (noBackslash : c ≠ '\\') :
      Letter [c] c
  | short {c meant : Char} (known : shortEscape? c = some meant) : Letter ['\\', c] meant
  | code {digits : List Char} {c : Char} (four : digits.length = 4)
      (known : hexDigitsValue? digits = some c.toNat) : Letter ('\\' :: 'u' :: digits) c
  | pair {digits others : List Char} {leading trailing : Nat} (four : digits.length = 4)
      (known : hexDigitsValue? digits = some leading) (leads : isLeadingSurrogate leading)
      (fourOthers : others.length = 4) (knownOthers : hexDigitsValue? others = some trailing)
      (trails : isTrailingSurrogate trailing) :
      Letter ('\\' :: 'u' :: (digits ++ '\\' :: 'u' :: others))
        (Char.ofNat (pairValue leading trailing))

/-- What the characters between the quotes of a string mean. -/
inductive Letters : List Char → List Char → Prop where
  | nil : Letters [] []
  | cons {letter letters : List Char} {c : Char} {meant : List Char} (first : Letter letter c)
      (others : Letters letters meant) : Letters (letter ++ letters) (c :: meant)

def Quoted (written : List Char) (text : String) : Prop :=
  ∃ letters, Letters letters text.toList ∧ written = '"' :: (letters ++ ['"'])

/-! ## Numbers -/

/-- Digits, at least one. -/
def IsDigits (digits : List Char) : Prop := digits ≠ [] ∧ ∀ c ∈ digits, c.isDigit

/-- The digits before the point, of which a zero in front is the only one. -/
def IsWhole (digits : List Char) : Prop :=
  IsDigits digits ∧ (digits.head? = some '0' → digits = ['0'])

inductive FractionText : Option (List Char) → List Char → Prop where
  | none : FractionText none []
  | some {digits : List Char} (all : IsDigits digits) : FractionText (some digits) ('.' :: digits)

inductive SignText : (negative : Bool) → List Char → Prop where
  | none : SignText false []
  | plus : SignText false ['+']
  | minus : SignText true ['-']

inductive ExponentText : Option (Bool × List Char) → List Char → Prop where
  | none : ExponentText none []
  | some {mark : Char} {negative : Bool} {sign digits : List Char} (marks : mark = 'e' ∨ mark = 'E')
      (signed : SignText negative sign) (all : IsDigits digits) :
      ExponentText (some (negative, digits)) (mark :: (sign ++ digits))

inductive Numeral.Written (numeral : Numeral) : List Char → Prop where
  | intro {fraction exponent : List Char} (whole : IsWhole numeral.whole)
      (fractional : FractionText numeral.fraction fraction)
      (exponential : ExponentText numeral.exponent exponent) :
      Written numeral ((if numeral.negative then ['-'] else []) ++
        (numeral.whole ++ (fraction ++ exponent)))

/-! ## Values -/

/-- The texts of a value that is neither an array nor an object. -/
inductive ScalarSpells : Json → List Char → Prop where
  | null : ScalarSpells .null ['n', 'u', 'l', 'l']
  | truth : ScalarSpells (.bool true) ['t', 'r', 'u', 'e']
  | falsity : ScalarSpells (.bool false) ['f', 'a', 'l', 's', 'e']
  | number {numeral : Numeral} {value : Json} {written : List Char}
      (writes : numeral.Written written) (valued : numeral.value = .ok value) :
      ScalarSpells value written
  | str {text : String} {written : List Char} (quoted : Quoted written text) :
      ScalarSpells (.str text) written

/-- Entries with commas between them, and white space around each comma. -/
inductive Separated {α : Type} (text : α → List Char) : List α → List Char → Prop where
  | last (entry : α) : Separated text [entry] (text entry)
  | more (entry : α) {entries : List α} {after before inner : List Char} (ends : Blank after)
      (begins : Blank before) (others : Separated text entries inner) :
      Separated text (entry :: entries) (text entry ++ (after ++ ',' :: (before ++ inner)))

def Bracket.opening : Bracket → Char
  | list => '['
  | object => '\x7b'

inductive Bracket.Encloses {α : Type} (bracket : Bracket) (text : α → List Char) :
    List α → List Char → Prop where
  | nothing {space : List Char} (blank : Blank space) :
      Encloses bracket text [] (bracket.opening :: (space ++ [bracket.closing]))
  | entries {entries : List α} {before inner after : List Char} (begins : Blank before)
      (separated : Separated text entries inner) (ends : Blank after) :
      Encloses bracket text entries
        (bracket.opening :: (before ++ (inner ++ (after ++ [bracket.closing]))))

/-- A member as it stands in an object: the name in its quotes, a colon with white space around it,
and the text of the value. -/
structure Member where
  name : String
  value : Json
  quoted : List Char
  gap : List Char
  pad : List Char
  spelling : List Char
  names : Quoted quoted name
  gap_blank : Blank gap
  pad_blank : Blank pad

namespace Member

def text (member : Member) : List Char :=
  member.quoted ++ (member.gap ++ ':' :: (member.pad ++ member.spelling))

def entry (member : Member) : String × Json := (member.name, member.value)

end Member

/-- The texts of a value, without white space around it. No more than `room` brackets are open at
once. -/
inductive Spells : (room : Nat) → Json → List Char → Prop where
  | scalar {room : Nat} {value : Json} {text : List Char} (spells : ScalarSpells value text) :
      Spells room value text
  | arr {room : Nat} {items : List (Json × List Char)} {text : List Char}
      (each : ∀ item ∈ items, Spells room item.1 item.2)
      (enclosed : Bracket.list.Encloses Prod.snd items text) :
      Spells (room + 1) (.arr (items.map Prod.fst)) text
  | obj {room : Nat} {members : List Member} {text : List Char}
      (each : ∀ member ∈ members, Spells room member.value member.spelling)
      (enclosed : Bracket.object.Encloses Member.text members text) :
      Spells (room + 1) (.obj (members.map Member.entry)) text

/-- A text denotes a value: it is the value's text with white space around it. -/
def Denotes (text : String) (value : Json) : Prop :=
  ∃ room before body after, Blank before ∧ Spells room value body ∧ Blank after ∧
    text.toList = before ++ (body ++ after)

end Blocklist.Json
