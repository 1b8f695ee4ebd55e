import Blocklist.Proofs.Printing
import Blocklist.Text.Blank
import Mathlib.Data.String.Basic

/-!
# What is read is proper

A value that is read from a text has integers of 64 bits, objects with one member per name, sorted
by name, and no more open brackets than the reader allows. Such a value is its own sorted form, and
one without floating point numbers is printed and read back as itself. Nothing is read from a text
of blanks alone.
-/

namespace Blocklist.Json

open Reader

/-! ## Members in order -/

/-- Members with strictly growing names. -/
def Ordered (members : List (String × Json)) : Prop :=
  members.Pairwise fun first second => first.1 < second.1

/-- A member that is inserted is the new one or was there before. -/
theorem mem_insertMember {name : String} {value : Json} {members : List (String × Json)}
    {member : String × Json} (inserted : member ∈ insertMember name value members) :
    member = (name, value) ∨ member ∈ members := by
  induction members with
  | nil => exact .inl (List.mem_singleton.mp inserted)
  | cons first rest ih =>
    obtain ⟨other, old⟩ := first
    rw [insertMember] at inserted
    split at inserted
    · exact (List.mem_cons.mp inserted).imp_right (.tail _)
    · split at inserted
      · exact List.mem_cons.mp inserted
      · rcases List.mem_cons.mp inserted with rfl | later
        · exact .inr (.head _)
        · exact (ih later).imp_right (.tail _)

/-- What holds of all values still does with another one of which it holds. -/
theorem forall_mem_insertMember {property : Json → Prop} {name : String} {value : Json}
    {members : List (String × Json)} (holds : property value)
    (all : ∀ member ∈ members, property member.2) :
    ∀ member ∈ insertMember name value members, property member.2 := by
  intro member among
  rcases mem_insertMember among with rfl | old
  · exact holds
  · exact all member old

/-- Inserting keeps members in order. -/
theorem Ordered.insertMember {members : List (String × Json)} (ordered : Ordered members)
    (name : String) (value : Json) : Ordered (insertMember name value members) := by
  induction members with
  | nil => exact List.pairwise_singleton _ _
  | cons first rest ih =>
    obtain ⟨other, old⟩ := first
    obtain ⟨least, others⟩ := List.pairwise_cons.mp ordered
    rw [Json.insertMember]
    split
    · next same =>
      subst same
      exact List.pairwise_cons.mpr ⟨least, others⟩
    · next differs =>
      split
      · next before =>
        refine List.pairwise_cons.mpr ⟨?_, List.pairwise_cons.mpr ⟨least, others⟩⟩
        intro member among
        rcases List.mem_cons.mp among with rfl | later
        · exact before
        · exact lt_trans before (least member later)
      · next after =>
        refine List.pairwise_cons.mpr ⟨?_, ih others⟩
        intro member among
        rcases mem_insertMember among with rfl | old
        · exact lt_of_le_of_ne (not_lt.mp after) (Ne.symm differs)
        · exact least member old

/-- A member with a name after all others is put at the end. -/
theorem insertMember_of_greatest {name : String} {value : Json} {members : List (String × Json)}
    (greatest : ∀ member ∈ members, member.1 < name) :
    insertMember name value members = members ++ [(name, value)] := by
  induction members with
  | nil => rfl
  | cons first rest ih =>
    obtain ⟨before, others⟩ := List.forall_mem_cons.mp greatest
    rw [insertMember, if_neg before.ne', if_neg (lt_asymm before), ih others, List.cons_append]

/-- Members in order are put together one after the other. -/
theorem foldl_insertMember_of_ordered {before after : List (String × Json)}
    (ordered : Ordered (before ++ after)) :
    after.foldl (fun sorted member => insertMember member.1 member.2 sorted) before =
      before ++ after := by
  induction after generalizing before with
  | nil => simp
  | cons member after ih =>
    rw [List.foldl_cons, insertMember_of_greatest ?_, ih ?_]
    · simp
    · simpa using ordered
    · intro other among
      exact (List.pairwise_append.mp ordered).2.2 other among member (.head _)

theorem object_of_ordered {members : List (String × Json)} (ordered : Ordered members) :
    object members = .obj members :=
  congrArg Json.obj (foldl_insertMember_of_ordered (List.nil_append members ▸ ordered))

/-! ## Proper values -/

/-- A value as programs have it: its integers have 64 bits, the members of its objects are in order,
and no more than `room` of its brackets are open at once. -/
inductive Proper : (room : Nat) → Json → Prop where
  | null {room : Nat} : Proper room .null
  | bool {room : Nat} (value : Bool) : Proper room (.bool value)
  | int {room : Nat} {value : Int} (low : -0x8000000000000000 ≤ value)
      (high : value < UInt64.size) : Proper room (.int value)
  | float {room : Nat} (value : Double) : Proper room (.float value)
  | str {room : Nat} (value : String) : Proper room (.str value)
  | arr {room : Nat} {items : List Json} (all : ∀ item ∈ items, Proper room item) :
      Proper (room + 1) (.arr items)
  | obj {room : Nat} {members : List (String × Json)} (ordered : Ordered members)
      (all : ∀ member ∈ members, Proper room member.2) : Proper (room + 1) (.obj members)

inductive FloatFree : Json → Prop where
  | null : FloatFree .null
  | bool (value : Bool) : FloatFree (.bool value)
  | int (value : Int) : FloatFree (.int value)
  | str (value : String) : FloatFree (.str value)
  | arr {items : List Json} (all : ∀ item ∈ items, FloatFree item) : FloatFree (.arr items)
  | obj {members : List (String × Json)} (all : ∀ member ∈ members, FloatFree member.2) :
      FloatFree (.obj members)

namespace Proper

variable {room : Nat} {value : Json}

/-- A proper value is sorted. -/
theorem sorted_eq (proper : Proper room value) : value.sorted = value := by
  induction proper with
  | arr all ih =>
    rw [sorted, sortedItems_eq, List.map_congr_left ih, List.map_id']
  | @obj _ members ordered all ih =>
    have same : ∀ member ∈ members, (member.1, member.2.sorted) = member := fun member among => by
      rw [ih member among]
    rw [sorted, sortedMembers_eq, List.map_congr_left same, List.map_id']
    exact object_of_ordered ordered
  | _ => rfl

theorem printable (proper : Proper room value) (free : FloatFree value) : Printable room value := by
  induction proper with
  | null => exact .null
  | bool value => exact .bool value
  | int low high => exact .int low high
  | float value => nomatch free
  | str value => exact .str value
  | arr all ih =>
    cases free with
    | arr free => exact .arr fun item among => ih item among (free item among)
  | obj ordered all ih =>
    cases free with
    | obj free => exact .obj fun member among => ih member among (free member among)

/-- A proper value without floating point numbers is read back from its text as itself. -/
theorem read_pretty (proper : Proper depthLimit value) (free : FloatFree value) :
    Json.read value.pretty = .ok value := by
  rw [(proper.printable free).read_pretty, proper.sorted_eq]

end Proper

/-- A proper object is proper with one more member. -/
theorem Proper.insertMember {room : Nat} {members : List (String × Json)} {value : Json}
    (proper : Proper (room + 1) (.obj members)) (name : String) (fits : Proper room value) :
    Proper (room + 1) (.obj (insertMember name value members)) := by
  cases proper with
  | obj ordered all =>
    exact .obj (ordered.insertMember name value) (forall_mem_insertMember fits all)

theorem FloatFree.insertMember {members : List (String × Json)} {value : Json}
    (others : FloatFree (.obj members)) (name : String) (free : FloatFree value) :
    FloatFree (.obj (insertMember name value members)) := by
  cases others with
  | obj all =>
    exact .obj (forall_mem_insertMember free all)

/-! ## What readers yield -/

namespace Reader

/-- Whatever a reader reads has a property. -/
def Yields (reader : Reader α) (property : α → Prop) : Prop :=
  ∀ cursor value later, reader cursor = .ok (value, later) → property value

namespace Yields

variable {reader : Reader α} {next : α → Reader β} {property : α → Prop} {further : β → Prop}

theorem pure {value : α} (holds : property value) : Yields (pure value : Reader α) property := by
  intro cursor value later read
  obtain ⟨rfl, -⟩ := Prod.mk.inj (Except.ok.inj read)
  exact holds

theorem bind (front : Yields reader property)
    (back : ∀ value, property value → Yields (next value) further) :
    Yields (reader >>= next) further := by
  intro cursor result later read
  change (reader cursor >>= fun answer => next answer.1 answer.2) = _ at read
  cases first : reader cursor with
  | error error => simp [first, Bind.bind, Except.bind] at read
  | ok answer =>
    obtain ⟨value, middle⟩ := answer
    rw [first] at read
    exact back value (front _ _ _ first) _ _ _ read

theorem any : Yields reader fun _ => True := fun _ _ _ _ => trivial

/-- What is read first does not matter. -/
theorem after (back : ∀ value, Yields (next value) further) : Yields (reader >>= next) further :=
  any.bind fun value _ => back value

theorem failPeek {cause : Malformation} : Yields (failPeek cause : Reader α) property := nofun

theorem map {f : α → β} (holds : ∀ value, property value → further (f value))
    (front : Yields reader property) : Yields (f <$> reader) further := by
  rw [map_eq_pure_bind]
  exact front.bind fun value has => Yields.pure (holds value has)

theorem readAll {text : String} {value : α} (yields : Yields reader property)
    (reads : readAll reader text = .ok value) : property value := by
  have complete : Yields (whole reader) property := by
    refine yields.bind fun value has => .after fun token => ?_
    split
    · exact .pure has
    · exact .failPeek
  have done (answer : Except ReadError (α × Cursor)) (ok : answer.map (·.1) = .ok value) :
      ∃ later, answer = .ok (value, later) := by
    cases answer with
    | error error => contradiction
    | ok answer =>
      obtain rfl := Except.ok.inj ok
      exact ⟨answer.2, rfl⟩
  obtain ⟨later, answers⟩ := done _ reads
  exact complete _ _ _ answers

end Yields

end Reader

/-- The digits that are collected before the point fit into 64 bits. -/
theorem Significand.ofWhole_lt (digits : List Char) : (ofWhole digits).value < UInt64.size := by
  refine List.foldlRecOn (motive := fun s : Significand => s.value < UInt64.size) digits _
    (by decide) fun s below c _ => ?_
  split
  · next both =>
    have fits : s.fits c = true := (Bool.and_eq_true_iff.mp both).2
    exact of_decide_eq_true fits
  · exact below

/-- A number is an integer of 64 bits or a floating point number. -/
theorem Numeral.proper_value {numeral : Numeral} {value : Json} {room : Nat}
    (valued : numeral.value = .ok value) : Proper room value := by
  have size : UInt64.size = 0x10000000000000000 := rfl
  unfold Numeral.value at valued
  dsimp only at valued
  split at valued
  · next whole =>
    obtain ⟨⟨noFraction, -⟩, -⟩ : (numeral.fraction.isNone ∧ numeral.exponent.isNone) ∧
        numeral.significand.exponent = 0 := by simpa using whole
    have below : numeral.significand.value < UInt64.size := by
      rw [significand, Option.isNone_iff_eq_none.mp noFraction]
      exact Significand.ofWhole_lt numeral.whole
    split at valued
    · obtain rfl := Except.ok.inj valued
      exact .int (by omega) (by omega)
    · split at valued
      · obtain rfl := Except.ok.inj valued
        exact .float _
      · next signed =>
        obtain rfl := Except.ok.inj valued
        have inRange : ¬ 0x8000000000000000 < numeral.significand.value := by
          simp_all
        exact .int (by omega) (by omega)
  · split at valued
    · obtain rfl := Except.ok.inj valued
      exact .float _
    · contradiction

namespace Reader

theorem yields_number {room : Nat} : Yields number (Proper room) := by
  refine .after fun written => ?_
  cases valued : written.value with
  | ok value => exact .pure (Numeral.proper_value valued)
  | error unread => exact .after fun _ => nofun

theorem yields_scalar {room : Nat} (c : Char) : Yields (scalar c) (Proper room) := by
  unfold scalar
  split
  · exact .after fun _ => .after fun _ => .pure .null
  · exact .after fun _ => .after fun _ => .pure (.bool true)
  · exact .after fun _ => .after fun _ => .pure (.bool false)
  · exact .map (fun value _ => .str value) .any
  · split
    · exact yields_number
    · exact .failPeek

/-- What stands inside a number of brackets is proper for the brackets that may still be opened. -/
theorem yields_within (steps : Nat) {brackets : Nat} (within : brackets ≤ depthLimit) :
    Yields (valueWithin steps brackets) (Proper (depthLimit - brackets)) ∧
      (∀ read : List Json, (∀ item ∈ read, Proper (depthLimit - brackets) item) →
        Yields (itemsWithin steps brackets read) (Proper (depthLimit - brackets + 1))) ∧
      ∀ first (read : List (String × Json)), Ordered read →
        (∀ member ∈ read, Proper (depthLimit - brackets) member.2) →
        Yields (membersWithin steps brackets first read) (Proper (depthLimit - brackets + 1)) := by
  induction steps generalizing brackets with
  | zero => exact ⟨.failPeek, fun _ _ => .failPeek, fun _ _ _ _ => .failPeek⟩
  | succ steps ih =>
    refine ⟨?value, ?items, ?members⟩
    case value =>
      rw [valueWithin]
      refine .after fun token => ?_
      split
      · exact .failPeek
      · split
        · next room =>
          have inner := (ih (show brackets + 1 ≤ depthLimit from room)).2.1 []
            (List.forall_mem_nil _)
          rw [show depthLimit - (brackets + 1) + 1 = depthLimit - brackets by omega] at inner
          exact .after fun _ => inner
        · exact .failPeek
      · split
        · next room =>
          have inner := (ih (show brackets + 1 ≤ depthLimit from room)).2.2 true [] .nil
            (List.forall_mem_nil _)
          rw [show depthLimit - (brackets + 1) + 1 = depthLimit - brackets by omega] at inner
          exact .after fun _ => inner
        · exact .failPeek
      · exact yields_scalar _
    case items =>
      intro read all
      rw [itemsWithin]
      refine .after fun more => ?_
      split
      · refine (ih within).1.bind fun item proper => (ih within).2.1 _ ?_
        exact List.forall_mem_cons.mpr ⟨proper, all⟩
      · exact .after fun _ => .pure (.arr fun item among => all item (List.mem_reverse.mp among))
    case members =>
      intro first read ordered all
      rw [membersWithin]
      refine .after fun more => ?_
      split
      · refine .after fun name => .after fun _ => ?_
        refine (ih within).1.bind fun value proper => ?_
        exact (ih within).2.2 false _ (ordered.insertMember name value)
          (forall_mem_insertMember proper all)
      · exact .after fun _ => .pure (.obj ordered all)

end Reader

/-- Whatever is read from a text is proper. -/
theorem proper_of_read {text : String} {value : Json} (reads : read text = .ok value) :
    Proper depthLimit value := by
  refine Yields.readAll (fun cursor value later read => ?_) reads
  exact (yields_within _ (Nat.zero_le _)).1 _ _ _ read

/-! ## Blank texts -/

/-- No value begins with a blank. -/
theorem scalar_of_blank {c : Char} (blank : Text.isBlank c) :
    scalar c = failPeek .expectedValue := by
  unfold scalar
  split
  · contradiction
  · contradiction
  · contradiction
  · contradiction
  · refine if_neg fun starts => ?_
    rcases Bool.or_eq_true_iff.mp starts with minus | digit
    · obtain rfl := eq_of_beq minus
      contradiction
    · simp only [Text.isBlank, Char.isDigit, Bool.or_eq_true, Bool.and_eq_true, beq_iff_eq,
        decide_eq_true_eq, UInt32.le_iff_toNat_le] at blank digit
      change 48 ≤ c.toNat ∧ c.toNat ≤ 57 at digit
      omega

/-- Where the rest of a text is blank, the next token is missing or blank itself. -/
theorem fails_of_blank {next : Option Char → Reader α} {cursor : Cursor}
    (blank : Text.isBlankText cursor.rest)
    (fails : ∀ token, (∀ c ∈ token, Text.isBlank c) → ∀ later, ∃ error,
      next token later = .error error) :
    ∃ error, (peekToken >>= next) cursor = .error error :=
  fails _ (fun c among => List.all_eq_true.mp blank c
    ((List.dropWhile_sublist _).mem (List.mem_of_mem_head? among))) cursor.skipSpace

/-- No value is read from blanks. -/
theorem value_of_blank (cursor : Cursor) (blank : Text.isBlankText cursor.rest) :
    ∃ error, value cursor = .error error := by
  rw [value, valueWithin]
  refine fails_of_blank blank fun token first later => ?_
  split
  · exact ⟨_, rfl⟩
  · exact absurd (first '[' rfl) (by decide)
  · exact absurd (first '\x7b' rfl) (by decide)
  · next c _ _ =>
    rw [scalar_of_blank (first c rfl)]
    exact ⟨_, rfl⟩

/-- A text that is read is not blank. -/
theorem not_blank_of_read {text : String} {value : Json} (reads : read text = .ok value) :
    ¬ Text.isBlankText text.toList := by
  intro blank
  obtain ⟨error, fails⟩ := value_of_blank (.start text) blank
  have failed : read text = .error error := by
    change ((Reader.value (.start text) >>= fun answer => _).map _) = _
    rw [fails]
    rfl
  rw [failed] at reads
  contradiction

end Blocklist.Json
