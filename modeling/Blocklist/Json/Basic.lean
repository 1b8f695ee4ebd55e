import Blocklist.Number.Double

/-!
# JSON values

A number written without point and exponent is an integer, every other number is binary floating
point. The members of an object are kept in order; `insertMember` keeps them sorted by name, and
the view of members is the look-up by name.
-/

namespace Blocklist

inductive Json where
  | null
  | bool (value : Bool)
  | int (value : Int)
  | float (value : Double)
  | str (value : String)
  | arr (items : List Json)
  | obj (members : List (String × Json))

namespace Json

instance : Inhabited Json := ⟨.null⟩

/-- A member list with a value under a name: in place of the name's old value, or else before the
first greater name. -/
def insertMember (name : String) (value : Json) : List (String × Json) → List (String × Json)
  | [] => [(name, value)]
  | (other, old) :: rest =>
    if name = other then (name, value) :: rest
    else if name < other then (name, value) :: (other, old) :: rest
    else (other, old) :: insertMember name value rest

/-- The object of the given members, sorted by name; of several members of one name the last. -/
def object (members : List (String × Json)) : Json :=
  .obj (members.foldl (fun sorted (name, value) => insertMember name value sorted) [])

def get? (name : String) : Json → Option Json
  | obj members => members.lookup name
  | _ => none

def str? : Json → Option String
  | str value => some value
  | _ => none

/-- What kind of value something is, with the value itself where a message shows it. -/
inductive Kind where
  | null
  | bool (value : Bool)
  | int (value : Int)
  | float (value : Double)
  | str (value : String)
  | arr
  | obj
deriving DecidableEq, Repr

def kind : Json → Kind
  | null => .null
  | bool value => .bool value
  | int value => .int value
  | float value => .float value
  | str value => .str value
  | arr _ => .arr
  | obj _ => .obj

theorem lookup_insertMember_self (name : String) (value : Json) (members : List (String × Json)) :
    (insertMember name value members).lookup name = some value := by
  induction members with
  | nil => simp [insertMember]
  | cons member rest ih =>
    obtain ⟨other, old⟩ := member
    simp only [insertMember]
    split
    · simp
    · split
      · simp
      · next h _ => simp [List.lookup_cons, beq_eq_false_iff_ne.2 h, ih]

theorem lookup_insertMember_of_ne {name other : String} (h : other ≠ name) (value : Json)
    (members : List (String × Json)) :
    (insertMember name value members).lookup other = members.lookup other := by
  have differs : (other == name) = false := beq_eq_false_iff_ne.2 h
  induction members with
  | nil => simp [insertMember, List.lookup_cons, differs]
  | cons member rest ih =>
    obtain ⟨first, old⟩ := member
    simp only [insertMember]
    split
    · next e => subst e; simp [List.lookup_cons, differs]
    · split
      · simp [List.lookup_cons, differs]
      · simp [List.lookup_cons, ih]

end Json

end Blocklist
