import Blocklist.Proofs.Reading

/-!
# Values with brackets in them

A text that denotes a value is read as that value, with the members of its objects sorted by name,
provided that its brackets are not open deeper than the reader allows. To pass over a value no such
limit applies. Either way the entries of a bracket are taken one after another: what is known of
the place before an entry is carried to the place before the next.
-/

namespace Blocklist.Json

open Reader

mutual

/-- A value with the members of its objects sorted by name; of several of one name the last. -/
def sorted : Json → Json
  | .arr items => .arr (sortedItems items)
  | .obj members => object (sortedMembers members)
  | value => value

def sortedItems : List Json → List Json
  | [] => []
  | item :: items => sorted item :: sortedItems items

def sortedMembers : List (String × Json) → List (String × Json)
  | [] => []
  | (name, value) :: members => (name, sorted value) :: sortedMembers members

end

@[simp] theorem sortedItems_eq (items : List Json) : sortedItems items = items.map sorted := by
  induction items with
  | nil => rfl
  | cons item items ih => rw [sortedItems, ih, List.map_cons]

@[simp] theorem sortedMembers_eq (members : List (String × Json)) :
    sortedMembers members = members.map fun member => (member.1, member.2.sorted) := by
  induction members with
  | nil => rfl
  | cons member members ih => rw [sortedMembers, ih, List.map_cons]

theorem ScalarSpells.sorted_eq {value : Json} {text : List Char}
    (spells : ScalarSpells value text) : value.sorted = value := by
  cases spells with
  | null | truth | falsity => rfl
  | number _ valued => obtain ⟨n, rfl⟩ | ⟨x, rfl⟩ := Numeral.number_of_value valued <;> rfl
  | str _ => rfl

/-! ## Tokens -/

section

variable {space gap finish rest : List Char} {c : Char}

/-- A token is found behind white space. -/
theorem reads_token (blank : Blank space) (dark : Cursor.isSpace c = false) :
    Reads peekToken (space ++ c :: rest) (some c) (c :: rest) :=
  Reads.peekToken blank (by simpa using dark)

theorem reads_colon (blank : Blank space) : Reads colon (space ++ ':' :: rest) () rest :=
  (reads_token blank rfl).bind Reads.skip

theorem reads_hasItem_close (first : Bool) (blank : Blank space) :
    Reads (hasItem first) (space ++ ']' :: rest) false (']' :: rest) :=
  (reads_token blank rfl).bind (.pure false _)

theorem reads_hasMember_close (first : Bool) (blank : Blank space) :
    Reads (hasMember first) (space ++ '\x7d' :: rest) false ('\x7d' :: rest) :=
  (reads_token blank rfl).bind (.pure false _)

/-- A number ends before white space. -/
theorem endsNumber_append (blank : Blank finish) (ends : EndsNumber rest) :
    EndsNumber (finish ++ rest) := by
  cases finish with
  | nil => exact ends
  | cons space finish =>
    intro first same
    obtain rfl := Option.some.inj same
    have white := blank space (.head finish)
    simp only [Cursor.isSpace, Bool.or_eq_true, beq_iff_eq] at white
    rcases white with ((rfl | rfl) | rfl) | rfl <;> decide

/-- A number ends before a comma or the end of a bracket. -/
theorem endsNumber_of_blank (blank : Blank finish) (ends : c ∈ [',', ']', '\x7d']) :
    EndsNumber (finish ++ c :: rest) := by
  refine endsNumber_append blank fun first same => ?_
  obtain rfl := Option.some.inj same
  simp only [List.mem_cons, List.not_mem_nil, or_false] at ends
  rcases ends with rfl | rfl | rfl <;> decide

end

/-- A reader that looks at the first character of a value reads a scalar as such. -/
theorem ScalarSpells.reads_first {α : Type} {value : Json} {text space rest final : List Char}
    {result : α} {atEnd array object : Reader α} {next : Char → Reader α}
    (spells : ScalarSpells value text) (blank : Blank space)
    (reads : ∀ c tail, text = c :: tail → Reads (next c) (text ++ rest) result final) :
    Reads (do
      match ← peekToken with
      | none => atEnd
      | some '[' => array
      | some '\x7b' => object
      | some c => next c) (space ++ (text ++ rest)) result final := by
  obtain ⟨c, tail, rfl, dark, beside⟩ := spells.exists_cons
  simp only [List.mem_cons, List.not_mem_nil, or_false, not_or] at beside
  obtain ⟨noArray, -, noObject, -⟩ := beside
  refine (reads_token blank dark).bind ?_
  split
  · contradiction
  · next opens => exact absurd (Option.some.inj opens) noArray
  · next opens => exact absurd (Option.some.inj opens) noObject
  · next same =>
    obtain rfl := Option.some.inj same
    exact reads _ tail rfl

/-- The first character of a value's text is a bracket or belongs to a scalar. -/
theorem Spells.exists_cons {room : Nat} {value : Json} {text : List Char}
    (spells : Spells room value text) :
    ∃ c tail, text = c :: tail ∧ Cursor.isSpace c = false ∧ c ∉ [']', '\x7d'] := by
  cases spells with
  | scalar spells =>
    obtain ⟨c, tail, written, dark, beside⟩ := spells.exists_cons
    exact ⟨c, tail, written, dark, by simp_all⟩
  | arr _ enclosed =>
    cases enclosed with
    | nothing | entries => exact ⟨'[', _, rfl, rfl, by decide⟩
  | obj _ enclosed =>
    cases enclosed with
    | nothing | entries => exact ⟨'\x7b', _, rfl, rfl, by decide⟩

namespace Member

theorem exists_cons (member : Member) : ∃ c tail, member.text = c :: tail ∧ c = '"' := by
  obtain ⟨tail, quoted⟩ := member.names.exists_cons
  exact ⟨'"', _, by rw [text, quoted, List.cons_append], rfl⟩

theorem length_text_pos (member : Member) : 0 < member.text.length := by
  obtain ⟨c, tail, written, -⟩ := member.exists_cons
  simp [written]

end Member

namespace Separated

variable {before inner after rest : List Char}

/-- What is between brackets begins as some entry does. -/
theorem exists_cons {α : Type} {text : α → List Char} {entries : List α} {p : Char → Prop}
    (separated : Separated text entries inner)
    (each : ∀ entry ∈ entries, ∃ c tail, text entry = c :: tail ∧ p c) :
    ∃ c tail, inner = c :: tail ∧ p c := by
  cases separated with
  | last entry => exact each entry (.head _)
  | more entry _ _ _ =>
    obtain ⟨c, tail, written, holds⟩ := each entry (.head _)
    exact ⟨c, _, by rw [written]; rfl, holds⟩

section

variable {items : List (Json × List Char)} (separated : Separated Prod.snd items inner)
variable (each : ∀ item ∈ items, ∃ c tail, item.2 = c :: tail ∧ Cursor.isSpace c = false ∧ c ≠ ']')

include separated each

theorem reads_hasItem_first (begins : Blank before) :
    Reads (hasItem true) (before ++ (inner ++ rest)) true (inner ++ rest) := by
  obtain ⟨c, tail, rfl, dark, noEnd⟩ := separated.exists_cons each
  refine (reads_token begins dark).bind ?_
  split
  · contradiction
  · next closes => exact absurd (Option.some.inj closes) noEnd
  · exact .pure true _
  · exact .pure true _

theorem reads_hasItem_next (ends : Blank after) (begins : Blank before) :
    Reads (hasItem false) (after ++ ',' :: (before ++ (inner ++ rest))) true (inner ++ rest) := by
  obtain ⟨c, tail, rfl, dark, noEnd⟩ := separated.exists_cons each
  refine (reads_token ends rfl).bind (Reads.skip.bind ((reads_token begins dark).bind ?_))
  split
  · contradiction
  · next closes => exact absurd (Option.some.inj closes) noEnd
  · exact .pure true _

end

section

variable {members : List Member} (separated : Separated Member.text members inner)

include separated

theorem reads_hasMember_first (begins : Blank before) :
    Reads (hasMember true) (before ++ (inner ++ rest)) true (inner ++ rest) := by
  obtain ⟨c, tail, rfl, rfl⟩ := separated.exists_cons fun member _ => member.exists_cons
  exact (reads_token begins rfl).bind (.pure true _)

theorem reads_hasMember_next (ends : Blank after) (begins : Blank before) :
    Reads (hasMember false) (after ++ ',' :: (before ++ (inner ++ rest))) true (inner ++ rest) := by
  obtain ⟨c, tail, rfl, rfl⟩ := separated.exists_cons fun member _ => member.exists_cons
  exact (reads_token ends rfl).bind
    (Reads.skip.bind ((reads_token begins rfl).bind (.pure true _)))

/-- There are no more members than characters. -/
theorem length_le : members.length ≤ inner.length := by
  induction separated with
  | last member => exact member.length_text_pos
  | more member _ _ _ ih =>
    have nonempty := member.length_text_pos
    simp only [List.length_cons, List.length_append]
    omega

end

end Separated

/-- The text of an object has its members in a bracket. -/
theorem Spells.exists_members {room : Nat} {members : List (String × Json)} {text : List Char}
    (spells : Spells room (.obj members) text) :
    ∃ room, ∃ entries : List Member, members = entries.map Member.entry ∧
      (∀ member ∈ entries, Spells room member.value member.spelling) ∧
      Bracket.object.Encloses Member.text entries text := by
  cases spells with
  | scalar spells =>
    cases spells with
    | number _ valued =>
      obtain ⟨_, same⟩ | ⟨_, same⟩ := Numeral.number_of_value valued <;> contradiction
  | obj each enclosed => exact ⟨_, _, rfl, each, enclosed⟩

/-! ## Reading -/

/-- A text stands for a value inside a number of brackets: the value is read from it, behind white
space and before anything that does not go on with a number, with steps enough for all that. -/
structure StandsFor (brackets : Nat) (text : List Char) (value : Json) : Prop where
  opens : ∃ c tail, text = c :: tail ∧ Cursor.isSpace c = false ∧ c ≠ ']'
  reads {steps : Nat} {space rest : List Char} (blank : Blank space) (ends : EndsNumber rest)
    (enough : 2 * (space ++ (text ++ rest)).length < steps) :
    Reads (valueWithin steps brackets) (space ++ (text ++ rest)) value rest

section

variable {brackets steps : Nat} {inner finish rest : List Char}

namespace StandsFor

variable {text : List Char} {value : Json}

/-- A value is read where it begins. -/
theorem reads_here (stands : StandsFor brackets text value) (ends : EndsNumber rest)
    (enough : 2 * (text ++ rest).length < steps) :
    Reads (valueWithin steps brackets) (text ++ rest) value rest :=
  stands.reads blank_nil ends enough

/-- A text that stands for a value is not empty. -/
theorem length_pos (stands : StandsFor brackets text value) : 0 < text.length := by
  obtain ⟨c, tail, rfl, -⟩ := stands.opens
  exact Nat.succ_pos _

end StandsFor

theorem ScalarSpells.standsFor {value : Json} {text : List Char}
    (spells : ScalarSpells value text) : StandsFor brackets text value where
  opens := by
    obtain ⟨c, tail, written, dark, beside⟩ := spells.exists_cons
    exact ⟨c, tail, written, dark, fun same => beside (by simp [same])⟩
  reads {steps space rest} blank ends enough := by
    obtain ⟨steps, rfl⟩ := Nat.exists_eq_add_one_of_ne_zero (Nat.ne_zero_of_lt enough)
    rw [valueWithin]
    refine spells.reads_first blank fun c tail written => ?_
    subst written
    exact spells.reads ends

theorem reads_list {space text : List Char} {value : Json} (blank : Blank space)
    (shallow : brackets < depthLimit)
    (reads : Reads (itemsWithin steps (brackets + 1) []) text value rest) :
    Reads (valueWithin (steps + 1) brackets) (space ++ '[' :: text) value rest := by
  rw [valueWithin]
  refine (reads_token blank rfl).bind ?_
  simp only [shallow, if_true]
  exact Reads.skip.bind reads

theorem reads_object {space text : List Char} {value : Json} (blank : Blank space)
    (shallow : brackets < depthLimit)
    (reads : Reads (membersWithin steps (brackets + 1) true []) text value rest) :
    Reads (valueWithin (steps + 1) brackets) (space ++ '\x7b' :: text) value rest := by
  rw [valueWithin]
  refine (reads_token blank rfl).bind ?_
  simp only [shallow, if_true]
  exact Reads.skip.bind reads

/-- From before an item on, the items of an array are read up to its end. -/
theorem Separated.reads_items {items : List (Json × List Char)}
    (separated : Separated Prod.snd items inner)
    (each : ∀ item ∈ items, StandsFor brackets item.2 item.1.sorted) (finishes : Blank finish)
    (read : List Json) (enough : 2 * (inner ++ (finish ++ ']' :: rest)).length < steps) :
    Reads (do let item ← valueWithin steps brackets; itemsWithin steps brackets (item :: read))
      (inner ++ (finish ++ ']' :: rest))
      (.arr (read.reverse ++ items.map fun item => item.1.sorted)) rest := by
  obtain ⟨steps, rfl⟩ := Nat.exists_eq_add_one_of_ne_zero (Nat.ne_zero_of_lt enough)
  induction separated generalizing read steps with
  | last item =>
    refine ((each item (.head _)).reads_here
      (endsNumber_of_blank finishes (.tail _ (.head _))) enough).bind ?_
    rw [itemsWithin]
    refine (reads_hasItem_close false finishes).bind (Reads.skip.bind ?_)
    simpa using Reads.pure _ rest
  | @more item items after before inner ends begins others ih =>
    obtain ⟨first, each⟩ := List.forall_mem_cons.mp each
    have nonempty := first.length_pos
    simp only [List.append_assoc, List.cons_append, List.length_cons,
      List.length_append] at enough ⊢
    obtain ⟨steps, rfl⟩ := Nat.exists_eq_add_one_of_ne_zero (show steps ≠ 0 by omega)
    have remaining := ih each (item.1.sorted :: read) steps
      (by simp only [List.length_append, List.length_cons]; omega)
    rw [List.reverse_cons, List.append_assoc] at remaining
    refine (first.reads_here (endsNumber_of_blank ends (.head _)) ?_).bind ?_
    · simp only [List.length_append, List.length_cons]
      omega
    · have opens item among := (each item among).opens
      rw [itemsWithin]
      exact (others.reads_hasItem_next opens ends begins).bind remaining

/-- An array is read from its brackets and its items. -/
theorem StandsFor.arr {items : List (Json × List Char)} {text : List Char}
    (enclosed : Bracket.list.Encloses Prod.snd items text)
    (each : ∀ item ∈ items, StandsFor (brackets + 1) item.2 item.1.sorted)
    (shallow : brackets < depthLimit) :
    StandsFor brackets text (.arr (items.map fun item => item.1.sorted)) := by
  cases enclosed with
  | nothing blank =>
    refine ⟨⟨'[', _, rfl, rfl, by decide⟩, fun {steps space rest} gaps ends enough => ?_⟩
    simp only [List.append_assoc, List.cons_append, List.length_cons, List.length_append,
      Bracket.opening, Bracket.closing, List.nil_append] at enough ⊢
    obtain ⟨steps, rfl⟩ := Nat.exists_eq_add_of_le' (show 2 ≤ steps by omega)
    refine reads_list gaps shallow ?_
    rw [itemsWithin]
    exact (reads_hasItem_close true blank).bind (Reads.skip.bind (.pure _ rest))
  | @entries _ before inner after begins separated closes =>
    refine ⟨⟨'[', _, rfl, rfl, by decide⟩, fun {steps space rest} gaps ends enough => ?_⟩
    simp only [List.append_assoc, List.cons_append, List.length_cons, List.length_append,
      Bracket.opening, Bracket.closing, List.nil_append] at enough ⊢
    obtain ⟨steps, rfl⟩ := Nat.exists_eq_add_of_le' (show 2 ≤ steps by omega)
    have opens item among := (each item among).opens
    refine reads_list gaps shallow ?_
    rw [itemsWithin]
    refine (separated.reads_hasItem_first opens begins).bind
      (separated.reads_items each closes [] ?_)
    simp only [List.length_append, List.length_cons]
    omega

/-- A member is read and then whatever is left. -/
theorem StandsFor.reads_member {member : Member} {left : List Char} {value result : Json}
    {next : String → Json → Reader Json} (stands : StandsFor brackets member.spelling value)
    (ends : EndsNumber left) (enough : 2 * (member.text ++ left).length < steps)
    (reads : Reads (next member.name value) left result rest) :
    Reads (do let name ← string; colon; let value ← valueWithin steps brackets; next name value)
      (member.text ++ left) result rest := by
  simp only [Member.text, List.append_assoc, List.cons_append, List.length_cons,
    List.length_append] at enough ⊢
  refine (Reads.string member.names _).bind ((reads_colon member.gap_blank).bind
    ((stands.reads member.pad_blank ends ?_).bind reads))
  simp only [List.length_append]
  omega

/-- From before a member on, the members of an object are read up to its end. -/
theorem Separated.reads_members {members : List Member}
    (separated : Separated Member.text members inner)
    (each : ∀ member ∈ members, StandsFor brackets member.spelling member.value.sorted)
    (finishes : Blank finish) (read : List (String × Json))
    (enough : 2 * (inner ++ (finish ++ '\x7d' :: rest)).length < steps) :
    Reads (do
        let name ← string
        colon
        let value ← valueWithin steps brackets
        membersWithin steps brackets false (insertMember name value read))
      (inner ++ (finish ++ '\x7d' :: rest))
      (.obj (members.foldl (fun read member =>
        insertMember member.name member.value.sorted read) read)) rest := by
  obtain ⟨steps, rfl⟩ := Nat.exists_eq_add_one_of_ne_zero (Nat.ne_zero_of_lt enough)
  induction separated generalizing read steps with
  | last member =>
    refine (each member (.head _)).reads_member
      (endsNumber_of_blank finishes (.tail _ (.tail _ (.head _)))) enough ?_
    rw [membersWithin]
    exact (reads_hasMember_close false finishes).bind (Reads.skip.bind (.pure _ rest))
  | @more member members after before inner ends begins others ih =>
    obtain ⟨first, each⟩ := List.forall_mem_cons.mp each
    have nonempty : 0 < member.text.length := member.length_text_pos
    simp only [List.append_assoc, List.cons_append, List.length_cons,
      List.length_append] at enough ⊢
    obtain ⟨steps, rfl⟩ := Nat.exists_eq_add_one_of_ne_zero (show steps ≠ 0 by omega)
    refine first.reads_member (endsNumber_of_blank ends (.head _)) ?_ ?_
    · simp only [List.length_append, List.length_cons]
      omega
    · rw [membersWithin]
      exact (others.reads_hasMember_next ends begins).bind (ih each _ steps
        (by simp only [List.length_append, List.length_cons]; omega))

/-- An object is read from its brackets and its members. -/
theorem StandsFor.obj {members : List Member} {text : List Char}
    (enclosed : Bracket.object.Encloses Member.text members text)
    (each : ∀ member ∈ members, StandsFor (brackets + 1) member.spelling member.value.sorted)
    (shallow : brackets < depthLimit) :
    StandsFor brackets text
      (object (members.map fun member => (member.name, member.value.sorted))) := by
  rw [object, List.foldl_map]
  cases enclosed with
  | nothing blank =>
    refine ⟨⟨'\x7b', _, rfl, rfl, by decide⟩, fun {steps space rest} gaps ends enough => ?_⟩
    simp only [List.append_assoc, List.cons_append, List.length_cons, List.length_append,
      Bracket.opening, Bracket.closing, List.nil_append] at enough ⊢
    obtain ⟨steps, rfl⟩ := Nat.exists_eq_add_of_le' (show 2 ≤ steps by omega)
    refine reads_object gaps shallow ?_
    rw [membersWithin]
    exact (reads_hasMember_close true blank).bind (Reads.skip.bind (.pure _ rest))
  | @entries _ before inner after begins separated closes =>
    refine ⟨⟨'\x7b', _, rfl, rfl, by decide⟩, fun {steps space rest} gaps ends enough => ?_⟩
    simp only [List.append_assoc, List.cons_append, List.length_cons, List.length_append,
      Bracket.opening, Bracket.closing, List.nil_append] at enough ⊢
    obtain ⟨steps, rfl⟩ := Nat.exists_eq_add_of_le' (show 2 ≤ steps by omega)
    refine reads_object gaps shallow ?_
    rw [membersWithin]
    refine (separated.reads_hasMember_first begins).bind
      (separated.reads_members each closes [] ?_)
    simp only [List.length_append, List.length_cons]
    omega

end

/-- The text of a value stands for the value, sorted. -/
theorem Spells.standsFor {room brackets : Nat} {value : Json} {text : List Char}
    (spells : Spells room value text) (shallow : brackets + room ≤ depthLimit) :
    StandsFor brackets text value.sorted := by
  induction spells generalizing brackets with
  | scalar spells =>
    rw [spells.sorted_eq]
    exact spells.standsFor
  | @arr room items text _ enclosed ih =>
    rw [sorted, sortedItems_eq, List.map_map]
    exact .arr enclosed (fun item among => ih item among (by omega)) (by omega)
  | @obj room members text _ enclosed ih =>
    rw [sorted, sortedMembers_eq, List.map_map]
    exact .obj enclosed (fun member among => ih member among (by omega)) (by omega)

/-- A text is read as the value that it denotes. -/
theorem Spells.read {room : Nat} {value : Json} {text : String} {before body after : List Char}
    (spells : Spells room value body) (opens : Blank before) (closes : Blank after)
    (written : text.toList = before ++ (body ++ after)) (shallow : room ≤ depthLimit) :
    Json.read text = .ok value.sorted := by
  have ends : EndsNumber after := by
    simpa using endsNumber_append closes endsNumber_nil
  have front : Reads Reader.value text.toList value.sorted after := by
    have stands : StandsFor 0 body value.sorted := spells.standsFor (by omega)
    have reads : Reads (valueWithin (2 * text.toList.length + 1) 0) _ value.sorted after :=
      stands.reads opens ends (by simp [written])
    rw [← written] at reads
    exact reads
  exact front.readAll closes

/-! ## Skipping -/

namespace Bracket

theorem closing_dark (bracket : Bracket) : Cursor.isSpace bracket.closing = false := by
  cases bracket <;> rfl

theorem closing_mem (bracket : Bracket) : bracket.closing ∈ [',', ']', '\x7d'] := by
  cases bracket <;> decide

theorem comma_ne_closing (bracket : Bracket) : ',' ≠ bracket.closing := by
  cases bracket <;> decide

end Bracket

namespace Reader

/-- Goes on from behind a value to the end of all brackets around it. -/
def leave (steps : Nat) : List Bracket → Reader Unit
  | [] => pure ()
  | bracket :: around => skipRest steps bracket false around

/-- Skips an entry of a bracket and then the rest of the brackets around it. -/
def skipEntry (steps : Nat) (bracket : Bracket) (around : List Bracket) : Reader Unit := do
  if bracket = .object then skipName
  skipValueIn steps (bracket :: around)

theorem skipValueIn_succ (steps : Nat) (around : List Bracket) :
    skipValueIn (steps + 1) around = (do
      match ← peekToken with
      | none => failPeek .endInValue
      | some '[' => skip; skipRest steps .list true around
      | some '\x7b' => skip; skipRest steps .object true around
      | some c => skipScalar c; leave steps around) := by
  rw [skipValueIn.eq_def]
  cases around <;> rfl

theorem skipRest_succ (steps : Nat) (bracket : Bracket) (first : Bool) (around : List Bracket) :
    skipRest (steps + 1) bracket first around = (do
      match ← peekToken with
      | none => failPeek bracket.atEnd
      | some c =>
        if c = bracket.closing then skip; leave steps around
        else if first || c = ',' then
          if !first then skip
          skipEntry steps bracket around
        else failPeek bracket.expectedCommaOrEnd) := by
  rw [skipRest.eq_def]
  cases around <;> rfl

end Reader

/-- A text leads out of the brackets around it, in steps enough for its length. -/
def Leaves (around : List Bracket) (text rest : List Char) : Prop :=
  ∀ steps, 2 * text.length < steps → Reads (leave steps around) text () rest

/-- The text of a value can be passed over, whatever is left to do behind it. -/
def Skippable (text : List Char) : Prop :=
  ∀ ⦃steps around space rest final⦄, Blank space → EndsNumber rest →
    2 * (space ++ (text ++ rest)).length < steps → Leaves around rest final →
    Reads (skipValueIn steps around) (space ++ (text ++ rest)) () final

/-- The text of an entry can be passed over inside a bracket. -/
structure Passes (bracket : Bracket) (text : List Char) : Prop where
  opens : ∃ c tail, text = c :: tail ∧ Cursor.isSpace c = false ∧ c ≠ bracket.closing
  skips {steps : Nat} {around : List Bracket} {space rest final : List Char} (blank : Blank space)
    (ends : EndsNumber rest) (enough : 2 * (space ++ (text ++ rest)).length < steps)
    (outside : Leaves (bracket :: around) rest final) :
    Reads (skipEntry steps bracket around) (space ++ (text ++ rest)) () final

section

variable {bracket : Bracket} {around : List Bracket} {steps : Nat}
variable {space inner finish text rest final : List Char}

theorem leaves_nil : Leaves [] rest rest := fun _ _ => .pure () rest

theorem reads_closing (first : Bool) (blank : Blank finish) (outside : Leaves around rest final)
    (enough : 2 * (finish ++ bracket.closing :: rest).length < steps) :
    Reads (skipRest steps bracket first around) (finish ++ bracket.closing :: rest) () final := by
  obtain ⟨steps, rfl⟩ := Nat.exists_eq_add_one_of_ne_zero (Nat.ne_zero_of_lt enough)
  simp only [List.length_append, List.length_cons] at enough
  have left : Reads (leave steps around) rest () final := outside steps (by omega)
  rw [skipRest_succ]
  refine (reads_token blank bracket.closing_dark).bind ?_
  simp only [if_true]
  exact Reads.skip.bind left

/-- Behind a comma the next entry is passed over. -/
theorem leaves_comma (blank : Blank finish)
    (reads : ∀ steps, 2 * text.length < steps →
      Reads (skipEntry steps bracket around) text () rest) :
    Leaves (bracket :: around) (finish ++ ',' :: text) rest := by
  intro steps enough
  obtain ⟨steps, rfl⟩ := Nat.exists_eq_add_one_of_ne_zero (Nat.ne_zero_of_lt enough)
  simp only [List.length_append, List.length_cons] at enough
  rw [leave, skipRest_succ]
  refine (reads_token blank rfl).bind ?_
  simp only [bracket.comma_ne_closing, if_false, Bool.false_or, decide_true, if_true,
    Bool.not_false]
  exact Reads.skip.bind (reads steps (by omega))

/-- From before an entry on, the entries of a bracket are passed over up to its end. -/
theorem Separated.skips {α : Type} {text : α → List Char} {entries : List α}
    (separated : Separated text entries inner)
    (each : ∀ entry ∈ entries, Passes bracket (text entry))
    (closes : Blank finish) (outside : Leaves around rest final) (blank : Blank space)
    (enough : 2 * (space ++ (inner ++ (finish ++ bracket.closing :: rest))).length < steps) :
    Reads (skipEntry steps bracket around)
      (space ++ (inner ++ (finish ++ bracket.closing :: rest))) () final := by
  have left : Leaves (bracket :: around) (finish ++ bracket.closing :: rest) final :=
    fun _ enough => reads_closing false closes outside enough
  induction separated generalizing space steps with
  | last entry =>
    exact (each entry (.head _)).skips blank (endsNumber_of_blank closes bracket.closing_mem)
      enough left
  | @more entry entries after before inner ends begins _ ih =>
    obtain ⟨first, each⟩ := List.forall_mem_cons.mp each
    simp only [List.append_assoc, List.cons_append] at enough ⊢
    exact first.skips blank (endsNumber_of_blank ends (.head _)) enough
      (leaves_comma ends fun steps enough => ih each begins enough)

theorem reads_opening (blank : Blank space)
    (reads : Reads (skipRest steps bracket true around) text () final) :
    Reads (skipValueIn (steps + 1) around) (space ++ bracket.opening :: text) () final := by
  rw [skipValueIn_succ]
  cases bracket with
  | list => exact (reads_token blank rfl).bind (Reads.skip.bind reads)
  | object => exact (reads_token blank rfl).bind (Reads.skip.bind reads)

/-- A bracket is passed over with everything in it. -/
theorem Bracket.Encloses.skippable {α : Type} {text : α → List Char} {entries : List α}
    {written : List Char} (enclosed : bracket.Encloses text entries written)
    (each : ∀ entry ∈ entries, Passes bracket (text entry)) : Skippable written := by
  intro steps around space rest final blank _ enough outside
  obtain ⟨steps, rfl⟩ := Nat.exists_eq_add_one_of_ne_zero (Nat.ne_zero_of_lt enough)
  cases enclosed with
  | @nothing finish closes =>
    simp only [List.append_assoc, List.cons_append, List.nil_append, List.length_append,
      List.length_cons] at enough ⊢
    refine reads_opening blank (reads_closing true closes outside ?_)
    simp only [List.length_append, List.length_cons]
    omega
  | @entries _ before inner finish begins separated closes =>
    obtain ⟨c, tail, opens, dark, noEnd⟩ :=
      separated.exists_cons fun entry among => (each entry among).opens
    simp only [List.append_assoc, List.cons_append, List.nil_append, List.length_append,
      List.length_cons] at enough ⊢
    obtain ⟨steps, rfl⟩ := Nat.exists_eq_add_one_of_ne_zero (show steps ≠ 0 by omega)
    have skips : Reads (skipEntry steps bracket around)
        (inner ++ (finish ++ bracket.closing :: rest)) () final :=
      separated.skips each closes outside blank_nil
        (by simp only [List.nil_append, List.length_append, List.length_cons]; omega)
    refine reads_opening blank ?_
    rw [opens] at skips ⊢
    rw [skipRest_succ]
    refine (reads_token begins dark).bind ?_
    simp only [noEnd, if_false, Bool.true_or, if_true, Bool.not_true, Bool.false_eq_true]
    exact skips

theorem ScalarSpells.skippable {value : Json} (spells : ScalarSpells value text) :
    Skippable text := by
  intro steps around space rest final blank ends enough outside
  obtain ⟨steps, rfl⟩ := Nat.exists_eq_add_one_of_ne_zero (Nat.ne_zero_of_lt enough)
  rw [skipValueIn_succ]
  refine spells.reads_first blank fun c tail written => ?_
  subst written
  simp only [List.length_append, List.length_cons] at enough
  exact (spells.skips ends).bind (outside steps (by omega))

theorem reads_skipName (member : Member) (blank : Blank space) (rest : List Char) :
    Reads skipName (space ++ (member.quoted ++ (member.gap ++ ':' :: rest))) () rest := by
  obtain ⟨tail, quoted⟩ := member.names.exists_cons
  have name := Reads.skipString member.names (member.gap ++ ':' :: rest)
  rw [quoted, List.cons_append] at name ⊢
  refine (reads_token blank rfl).bind ?_
  exact name.bind (reads_colon member.gap_blank)

theorem Passes.item (skippable : Skippable text)
    (opens : ∃ c tail, text = c :: tail ∧ Cursor.isSpace c = false ∧ c ≠ ']') :
    Passes .list text where
  opens := opens
  skips blank ends enough outside := skippable blank ends enough outside

theorem Passes.member {member : Member} (skippable : Skippable member.spelling) :
    Passes .object member.text where
  opens := by
    obtain ⟨c, tail, written, rfl⟩ := member.exists_cons
    exact ⟨'"', tail, written, rfl, by decide⟩
  skips {steps around space rest final} blank ends enough outside := by
    simp only [Member.text, List.append_assoc, List.cons_append, List.length_append,
      List.length_cons] at enough ⊢
    refine (reads_skipName member blank _).bind (skippable member.pad_blank ends ?_ outside)
    simp only [List.length_append]
    omega

end

theorem Spells.skippable {room : Nat} {value : Json} {text : List Char}
    (spells : Spells room value text) : Skippable text := by
  induction spells with
  | scalar spells => exact spells.skippable
  | arr each enclosed ih =>
    refine enclosed.skippable fun item among => .item (ih item among) ?_
    obtain ⟨c, tail, written, dark, beside⟩ := (each item among).exists_cons
    exact ⟨c, tail, written, dark, fun same => beside (by simp [same])⟩
  | obj _ enclosed ih => exact enclosed.skippable fun member among => .member (ih member among)

/-- The text of a value is passed over. -/
theorem Spells.skipValue {room : Nat} {value : Json} {text space rest : List Char}
    (spells : Spells room value text) (blank : Blank space) (ends : EndsNumber rest) :
    Reads skipValue (space ++ (text ++ rest)) () rest :=
  fun position => spells.skippable blank ends (Nat.lt_succ_self _) leaves_nil position

end Blocklist.Json
