import Blocklist.Json.Printer
import Blocklist.Proofs.NestedValues

/-!
# Printed values are read back

What is printed for a value, in either layout, is a text that denotes it, provided that it holds no
floating point numbers and that its integers have 64 bits. The text is read as that value with the
members of its objects sorted by name if its brackets are not open deeper than the reader allows.
-/

namespace Blocklist.Json

open Reader

/-! ## Printed strings -/

/-- The four digits of a control character's code stand for it. -/
theorem hexDigitsValue?_control {n : Nat} (control : n < 0x20) :
    let digits := List.replicate (4 - (Nat.toDigits 16 n).length) '0' ++ Nat.toDigits 16 n
    digits.length = 4 ∧ hexDigitsValue? digits = some n := by
  revert n
  decide +kernel

/-- A character is printed in one of the ways to write it. -/
theorem letter_escapeChar (c : Char) : Letter (escapeChar c) c := by
  unfold escapeChar
  split
  case h_8 =>
    next noQuote noBackslash _ _ _ _ _ =>
    split
    · next control =>
      obtain ⟨four, known⟩ := hexDigitsValue?_control control
      exact .code four known
    · next visible => exact .plain (Nat.le_of_not_lt visible) noQuote noBackslash
  all_goals exact .short rfl

theorem letters_flatMap (text : List Char) : Letters (text.flatMap escapeChar) text := by
  induction text with
  | nil => exact .nil
  | cons c text ih => exact .cons (letter_escapeChar c) ih

theorem quoted_quote (text : String) : Quoted (quote text).toList text :=
  ⟨text.toList.flatMap escapeChar, letters_flatMap text.toList, by simp [quote]⟩

/-! ## Printed integers -/

/-- The digits of a number do not begin with a zero, unless the number is zero. -/
theorem head?_toDigits_ne_zero {n : Nat} (positive : n ≠ 0) :
    (Nat.toDigits 10 n).head? ≠ some '0' := by
  induction n using Nat.strongRecOn with
  | ind n ih =>
    rcases Nat.lt_or_ge n 10 with small | large
    · rw [Nat.toDigits_of_lt_base small, List.head?_cons, ne_eq, Option.some.injEq,
        Nat.digitChar_eq_zero]
      exact positive
    · have fewer := ih (n / 10) (by omega) (by omega)
      rw [Nat.toDigits_of_base_le (by decide) large]
      rwa [List.head?_append_of_ne_nil _ Nat.toDigits_ne_nil]

theorem le_foldl_digits (digits : List Char) (n : Nat) :
    n ≤ digits.foldl (fun n c => 10 * n + digitValue c) n := by
  induction digits generalizing n with
  | nil => exact Nat.le_refl n
  | cons c digits ih => exact Nat.le_trans (by omega) (ih (10 * n + digitValue c))

/-- Digits whose number fits into 64 bits are all collected. -/
theorem Significand.ofWhole_of_lt {digits : List Char} (fits : digitsValue digits < UInt64.size) :
    ofWhole digits = ⟨digitsValue digits, 0⟩ := by
  have collected : ∀ n, digits.foldl (fun n c => 10 * n + digitValue c) n < UInt64.size →
      digits.foldl (fun s c => if s.exponent = 0 && s.fits c
        then (⟨10 * s.value + digitValue c, 0⟩ : Significand) else ⟨s.value, s.exponent + 1⟩)
        ⟨n, 0⟩ = ⟨digits.foldl (fun n c => 10 * n + digitValue c) n, 0⟩ := by
    clear fits
    induction digits with
    | nil => exact fun _ _ => rfl
    | cons c digits ih =>
      intro n fits
      have room : 10 * n + digitValue c < UInt64.size :=
        Nat.lt_of_le_of_lt (le_foldl_digits digits _) fits
      simp only [List.foldl_cons, Significand.fits, room, decide_true, Bool.and_true, if_true]
      exact ih _ fits
  exact collected 0 fits

theorem isWhole_toDigits (n : Nat) : IsWhole (Nat.toDigits 10 n) := by
  refine ⟨⟨Nat.toDigits_ne_nil, ?_⟩, ?_⟩
  · exact fun digit member => Nat.isDigit_of_mem_toDigits (by decide) (by decide) member
  · intro zero
    by_cases none : n = 0
    · rw [none, Nat.toDigits_zero]
    · exact absurd zero (head?_toDigits_ne_zero none)

/-- The sign and the digits of an integer. -/
theorem toList_toString_int (value : Int) :
    (toString value).toList =
      (if value < 0 then ['-'] else []) ++ Nat.toDigits 10 value.natAbs := by
  cases value with
  | ofNat n =>
    have printed : toString (Int.ofNat n) = toString n := rfl
    rw [printed, Nat.toString_eq_ofList_toDigits]
    simp
  | negSucc n =>
    have printed : toString (Int.negSucc n) = "-" ++ toString (n + 1) := rfl
    rw [printed, Nat.toString_eq_ofList_toDigits]
    simp [Int.negSucc_lt_zero]

/-- An integer of 64 bits, with a sign or without, is valued as itself. -/
theorem Numeral.value_toDigits {value : Int} (low : -0x8000000000000000 ≤ value)
    (high : value < UInt64.size) :
    (⟨decide (value < 0), Nat.toDigits 10 value.natAbs, none, none⟩ : Numeral).value =
      .ok (.int value) := by
  have size : UInt64.size = 0x10000000000000000 := rfl
  have fits : digitsValue (Nat.toDigits 10 value.natAbs) < UInt64.size := by
    rw [digitsValue_toDigits]
    omega
  have collected := Significand.ofWhole_of_lt fits
  rw [digitsValue_toDigits] at collected
  simp only [Numeral.value, significand, collected, Option.getD_none, Significand.addFraction,
    Option.isNone_none, Bool.true_and, decide_true, if_true]
  by_cases negative : value < 0
  · have signed : ¬ (value.natAbs = 0 ∨ 0x8000000000000000 < value.natAbs) := by omega
    have back : -(value.natAbs : Int) = value := by omega
    simp only [negative, decide_true, Bool.not_true, Bool.false_eq_true, if_false,
      Bool.or_eq_true, decide_eq_true_eq, signed, back]
  · have back : (value.natAbs : Int) = value := by omega
    simp only [negative, decide_false, Bool.not_false, if_true, back]

/-- The digits of an integer of 64 bits, with a sign or without, spell it. -/
theorem scalarSpells_int {value : Int} (low : -0x8000000000000000 ≤ value)
    (high : value < UInt64.size) : ScalarSpells (.int value) (toString value).toList := by
  have written : Numeral.Written ⟨decide (value < 0), Nat.toDigits 10 value.natAbs, none, none⟩ _ :=
    .intro (isWhole_toDigits value.natAbs) .none .none
  simp only [decide_eq_true_eq, List.append_nil] at written
  rw [toList_toString_int]
  exact .number written (Numeral.value_toDigits low high)

/-! ## The text of a value -/

/-- The characters of a value that stands `depth` brackets deep. -/
def spelling (layout : Layout) (depth : Nat) (value : Json) : List Char :=
  (write layout depth value "").toList

/-- The characters of a member, without what separates it from the one before. -/
def memberSpelling (layout : Layout) (depth : Nat) (member : String × Json) : List Char :=
  (quote member.1).toList ++ (layout.colon.toList ++ spelling layout depth member.2)

mutual

theorem toList_write (layout : Layout) (depth : Nat) : (value : Json) → (out : String) →
    (write layout depth value out).toList = out.toList ++ spelling layout depth value
  | .null, out | .bool true, out | .bool false, out | .int _, out | .float _, out | .str _, out
  | .arr [], out | .obj [], out => by simp [spelling, write]
  | .arr (item :: items), out => by
    have first := toList_write layout (depth + 1) item
    have others := toList_writeItems layout (depth + 1) items
    rw [spelling, write, write]
    simp [first, others]
  | .obj ((name, value) :: members), out => by
    have first := toList_write layout (depth + 1) value
    have others := toList_writeMembers layout (depth + 1) members
    rw [spelling, write, write]
    simp [first, others]

theorem toList_writeItems (layout : Layout) (depth : Nat) : (items : List Json) → (out : String) →
    (writeItems layout depth items out).toList =
      out.toList ++ items.flatMap fun item =>
        ',' :: ((layout.lineBreak depth).toList ++ spelling layout depth item)
  | [], out => by simp [writeItems]
  | item :: items, out => by
    simp [writeItems, toList_writeItems layout depth items, toList_write layout depth item]

theorem toList_writeMembers (layout : Layout) (depth : Nat) :
    (members : List (String × Json)) → (out : String) →
    (writeMembers layout depth members out).toList = out.toList ++ members.flatMap fun member =>
      ',' :: ((layout.lineBreak depth).toList ++ memberSpelling layout depth member)
  | [], out => by simp [writeMembers]
  | (name, value) :: members, out => by
    simp [writeMembers, toList_writeMembers layout depth members, toList_write layout depth value,
      memberSpelling]

end

section

variable {layout : Layout} {depth : Nat}

theorem spelling_null : spelling layout depth .null = ['n', 'u', 'l', 'l'] := by
  simp [spelling, write]

theorem spelling_true : spelling layout depth (.bool true) = ['t', 'r', 'u', 'e'] := by
  simp [spelling, write]

theorem spelling_false : spelling layout depth (.bool false) = ['f', 'a', 'l', 's', 'e'] := by
  simp [spelling, write]

theorem spelling_int (value : Int) :
    spelling layout depth (.int value) = (toString value).toList := by
  rw [spelling, write, String.toList_append]
  rfl

theorem spelling_str (value : String) :
    spelling layout depth (.str value) = (quote value).toList := by
  simp [spelling, write]

theorem spelling_arr_nil : spelling layout depth (.arr []) = ['[', ']'] := by
  simp [spelling, write]

theorem spelling_obj_nil : spelling layout depth (.obj []) = ['\x7b', '\x7d'] := by
  simp [spelling, write]

theorem spelling_arr_cons (item : Json) (items : List Json) :
    spelling layout depth (.arr (item :: items)) =
      '[' :: ((layout.lineBreak (depth + 1)).toList ++ (spelling layout (depth + 1) item ++
        (items.flatMap (fun item => ',' :: ((layout.lineBreak (depth + 1)).toList ++
          spelling layout (depth + 1) item)) ++ ((layout.lineBreak depth).toList ++ [']'])))) := by
  rw [spelling, write]
  simp [toList_write, toList_writeItems]

theorem spelling_obj_cons (member : String × Json) (members : List (String × Json)) :
    spelling layout depth (.obj (member :: members)) =
      '\x7b' :: ((layout.lineBreak (depth + 1)).toList ++
        (memberSpelling layout (depth + 1) member ++
          (members.flatMap (fun member => ',' :: ((layout.lineBreak (depth + 1)).toList ++
            memberSpelling layout (depth + 1) member)) ++
            ((layout.lineBreak depth).toList ++ ['\x7d'])))) := by
  obtain ⟨name, value⟩ := member
  rw [spelling, write, memberSpelling]
  simp [toList_write, toList_writeMembers]

theorem isSpace_of_mem_lineBreak {c : Char} (member : c ∈ (layout.lineBreak depth).toList) :
    Cursor.isSpace c := by
  cases layout with
  | compact => simp [Layout.lineBreak] at member
  | indented =>
    simp only [Layout.lineBreak, String.toList_append, List.mem_append,
      String.toList_ofList] at member
    rcases member with feed | blank
    · obtain rfl : c = '\n' := by simpa using feed
      rfl
    · obtain rfl := List.eq_of_mem_replicate blank
      rfl

end

/-! ## Values that are read back -/

/-- A value without floating point numbers, with integers of 64 bits and with no more than `room`
brackets open at once. -/
inductive Printable : (room : Nat) → Json → Prop where
  | null {room : Nat} : Printable room .null
  | bool {room : Nat} (value : Bool) : Printable room (.bool value)
  | int {room : Nat} {value : Int} (low : -0x8000000000000000 ≤ value)
      (high : value < UInt64.size) : Printable room (.int value)
  | str {room : Nat} (value : String) : Printable room (.str value)
  | arr {room : Nat} {items : List Json} (all : ∀ item ∈ items, Printable room item) :
      Printable (room + 1) (.arr items)
  | obj {room : Nat} {members : List (String × Json)}
      (all : ∀ member ∈ members, Printable room member.2) : Printable (room + 1) (.obj members)

theorem blank_lineBreak (layout : Layout) (depth : Nat) :
    Blank (layout.lineBreak depth).toList := fun _ => isSpace_of_mem_lineBreak

/-- A colon, and white space with which the layout follows it. -/
theorem exists_colon (layout : Layout) :
    ∃ pad, layout.colon.toList = ':' :: pad ∧ Blank pad := by
  cases layout with
  | compact => exact ⟨[], rfl, blank_nil⟩
  | indented => exact ⟨[' '], rfl, by simp [Blank, Cursor.isSpace]⟩

def printedMember (layout : Layout) (depth : Nat) {pad : List Char} (blank : Blank pad)
    (member : String × Json) : Member where
  name := member.1
  value := member.2
  quoted := (quote member.1).toList
  gap := []
  pad := pad
  spelling := spelling layout depth member.2
  names := quoted_quote member.1
  gap_blank := blank_nil
  pad_blank := blank

theorem text_printedMember {layout : Layout} {depth : Nat} {pad : List Char} (blank : Blank pad)
    (colon : layout.colon.toList = ':' :: pad) (member : String × Json) :
    (printedMember layout depth blank member).text = memberSpelling layout depth member := by
  rw [memberSpelling, colon, Member.text, printedMember, List.nil_append, List.cons_append]

/-- Entries with commas in front of all but the first are separated. -/
theorem separated_flatMap {α : Type} {text : α → List Char} {gap : List Char} (blank : Blank gap)
    (entry : α) (entries : List α) :
    Separated text (entry :: entries)
      (text entry ++ entries.flatMap fun entry => ',' :: (gap ++ text entry)) := by
  induction entries generalizing entry with
  | nil =>
    have alone : Separated text [entry] (text entry) := .last entry
    simpa using alone
  | cons next entries ih =>
    have more : Separated text (entry :: next :: entries)
        (text entry ++ ([] ++ ',' :: (gap ++ (text next ++ _)))) :=
      .more entry blank_nil blank (ih next)
    simpa using more

/-- A bracket around printed entries. -/
theorem encloses_flatMap {α : Type} (bracket : Bracket) (text : α → List Char)
    {gap finish : List Char} (blank : Blank gap) (closes : Blank finish) (entry : α)
    (entries : List α) :
    bracket.Encloses text (entry :: entries) (bracket.opening :: (gap ++ (text entry ++
      (entries.flatMap (fun entry => ',' :: (gap ++ text entry)) ++
        (finish ++ [bracket.closing]))))) := by
  have separated : Separated text (entry :: entries) _ := separated_flatMap blank entry entries
  have enclosed : bracket.Encloses text (entry :: entries) _ := .entries blank separated closes
  simpa using enclosed

/-- Printing a printable value yields a text of the value. -/
theorem Printable.spells {room : Nat} {value : Json} (printable : Printable room value)
    (layout : Layout) (depth : Nat) : Spells room value (spelling layout depth value) := by
  induction printable generalizing depth with
  | null => exact spelling_null ▸ .scalar .null
  | bool value =>
    cases value with
    | true => exact spelling_true ▸ .scalar .truth
    | false => exact spelling_false ▸ .scalar .falsity
  | int low high => exact spelling_int _ ▸ .scalar (scalarSpells_int low high)
  | str value => exact spelling_str value ▸ .scalar (.str (quoted_quote value))
  | @arr room items all ih =>
    let printed (item : Json) : Json × List Char := (item, spelling layout (depth + 1) item)
    have each : ∀ item ∈ items.map printed, Spells room item.1 item.2 :=
      List.forall_mem_map.mpr fun item among => ih item among (depth + 1)
    have enclosed : Bracket.list.Encloses Prod.snd (items.map printed)
        (spelling layout depth (.arr items)) := by
      cases items with
      | nil => exact spelling_arr_nil ▸ .nothing blank_nil
      | cons item items =>
        have enclosed := encloses_flatMap .list Prod.snd (blank_lineBreak layout (depth + 1))
          (blank_lineBreak layout depth) (printed item) (items.map printed)
        rw [List.flatMap_map] at enclosed
        rw [spelling_arr_cons]
        exact enclosed
    have same : (items.map printed).map Prod.fst = items := by
      rw [List.map_map]
      exact List.map_id _
    have spells := Spells.arr each enclosed
    rwa [same] at spells
  | @obj room members all ih =>
    obtain ⟨pad, colon, pads⟩ := exists_colon layout
    let printed := printedMember layout (depth + 1) pads
    have each : ∀ member ∈ members.map printed, Spells room member.value member.spelling :=
      List.forall_mem_map.mpr fun member among => ih member among (depth + 1)
    have enclosed : Bracket.object.Encloses Member.text (members.map printed)
        (spelling layout depth (.obj members)) := by
      cases members with
      | nil => exact spelling_obj_nil ▸ .nothing blank_nil
      | cons member members =>
        have enclosed := encloses_flatMap .object Member.text (blank_lineBreak layout (depth + 1))
          (blank_lineBreak layout depth) (printed member) (members.map printed)
        rw [List.flatMap_map] at enclosed
        simp only [printed, text_printedMember pads colon] at enclosed
        rw [spelling_obj_cons]
        exact enclosed
    have same : (members.map printed).map Member.entry = members := by
      rw [List.map_map]
      exact List.map_id _
    have spells := Spells.obj each enclosed
    rwa [same] at spells

/-- What is printed for a value denotes it. -/
theorem Printable.denotes {room : Nat} {value : Json} (printable : Printable room value)
    (layout : Layout) : Denotes (write layout 0 value "") value :=
  ⟨room, [], spelling layout 0 value, [], blank_nil, printable.spells layout 0, blank_nil,
    (List.append_nil _).symm⟩

/-- A printable value is read back from its text, with its members sorted. -/
theorem Printable.read_write {value : Json} (printable : Printable depthLimit value)
    (layout : Layout) : Json.read (write layout 0 value "") = .ok value.sorted := by
  have written : (write layout 0 value "").toList = [] ++ (spelling layout 0 value ++ []) :=
    (List.append_nil _).symm
  exact (printable.spells layout 0).read blank_nil blank_nil written (Nat.le_refl _)

theorem Printable.read_compress {value : Json} (printable : Printable depthLimit value) :
    Json.read value.compress = .ok value.sorted := printable.read_write .compact

theorem Printable.read_pretty {value : Json} (printable : Printable depthLimit value) :
    Json.read value.pretty = .ok value.sorted := printable.read_write .indented

end Blocklist.Json
