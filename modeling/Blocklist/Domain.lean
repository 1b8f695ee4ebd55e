import Blocklist.Json.Decoding

/-!
# Domains

A domain is the host part of a blocking filter: a text that is not empty and holds neither of the
characters that end a host in a filter, a slash and a caret. Nothing else is asked of it. In JSON it
is a string.
-/

namespace Blocklist

/-- The condition on a domain's characters. -/
def IsHost (chars : List Char) : Prop := chars ≠ [] ∧ '/' ∉ chars ∧ '^' ∉ chars

instance (chars : List Char) : Decidable (IsHost chars) := by unfold IsHost; infer_instance

/-- A host that a filter can block. -/
structure Domain where
  text : String
  isHost : IsHost text.toList
deriving DecidableEq

namespace Domain

instance : Repr Domain := ⟨fun domain => reprPrec domain.text⟩

instance : ToString Domain := ⟨Domain.text⟩

def ofString? (text : String) : Option Domain :=
  if h : IsHost text.toList then some ⟨text, h⟩ else none

def ofChars? (chars : List Char) : Option Domain := ofString? (String.ofList chars)

@[ext] theorem ext {d e : Domain} (h : d.text = e.text) : d = e := by
  cases d; cases e; simp_all

@[simp] theorem ofString?_text (domain : Domain) : ofString? domain.text = some domain := by
  simp [ofString?, domain.isHost]

theorem text_of_ofString? {text : String} {domain : Domain} (h : ofString? text = some domain) :
    domain.text = text := by
  unfold ofString? at h
  split at h
  · cases h; rfl
  · cases h

def toJson (domain : Domain) : Json := .str domain.text

def ofJson (value : Json) : Json.Decoded Domain := do
  let text ← Json.decodeString value
  (ofString? text).elim (.error (.invalidDomain text)) .ok

@[simp] theorem ofJson_toJson (domain : Domain) : ofJson domain.toJson = .ok domain := by
  simp [ofJson, toJson, Json.decodeString, bind, Except.bind]

theorem ofJson_eq_ok_iff {value : Json} {domain : Domain} :
    ofJson value = .ok domain ↔ value = domain.toJson := by
  constructor
  · intro decoded
    cases value with
    | str text =>
      simp only [ofJson, Json.decodeString, bind, Except.bind] at decoded
      cases found : ofString? text with
      | none =>
        rw [found] at decoded
        contradiction
      | some host =>
        rw [found] at decoded
        obtain rfl := Except.ok.inj decoded
        rw [toJson, text_of_ofString? found]
    | _ => simp [ofJson, Json.decodeString, bind, Except.bind] at decoded
  · rintro rfl
    exact ofJson_toJson domain

end Domain

end Blocklist
