import Blocklist.Domain

/-!
# Cached filter lists

The domains of a list together with the time they were fetched, in milliseconds. A cache is fresh
for a given span; one from the future is fresh too. The age is taken in signed 64-bit arithmetic
that stops at its ends.
-/

namespace Blocklist

/-- The greatest and the least signed 64-bit number. -/
def maxTime : Int := Int64.maxValue.toInt

@[inherit_doc maxTime]
def minTime : Int := Int64.minValue.toInt

/-- A difference of times that stops at the ends of the signed 64-bit range. -/
def saturatingSub (a b : Int64) : Int := max minTime (min maxTime (a.toInt - b.toInt))

/-- A fetched list. -/
structure FilterCache where
  fetchedAt : Int64
  domains : List Domain
deriving DecidableEq, Repr

namespace FilterCache

/-- Whether a cache may still be used at a time, for a span given in milliseconds. -/
def isFresh (cache : FilterCache) (now : Int64) (ttlMs : UInt64) : Bool :=
  let age := saturatingSub now cache.fetchedAt
  age < 0 || age < ttlMs.toNat

def shape : Json.Shape := ⟨"struct FilterCache", 2⟩

structure Draft where
  fetchedAt : Option Int64 := none
  domains : Option (List Domain) := none

namespace Draft

def absorb (draft : Draft) : String × Json → Json.Decoded Draft
  | ("fetchedAt", value) => do
    let filled ← Json.fill "fetchedAt" draft.fetchedAt (Json.decodeInt64 value)
    return { draft with fetchedAt := filled }
  | ("domains", value) => do
    let domains ← Json.fill "domains" draft.domains (Json.decodeList Domain.ofJson value)
    return { draft with domains }
  | _ => .ok draft

def finish (draft : Draft) : Json.Decoded FilterCache := do
  let fetchedAt ← Json.require "fetchedAt" draft.fetchedAt
  let domains ← Json.require "domains" draft.domains
  return ⟨fetchedAt, domains⟩

end Draft

/-- A cache's members, sorted by name. -/
def toJson (cache : FilterCache) : Json :=
  .obj [("domains", .arr (cache.domains.map Domain.toJson)),
    ("fetchedAt", .int cache.fetchedAt.toInt)]

def ofJson : Json → Json.Decoded FilterCache :=
  Json.decodeRecord shape
    (fun members => do (← members.foldlM Draft.absorb {}).finish)
    (do
      let fetchedAt ← Json.Row.next shape 0 Json.decodeInt64
      let domains ← Json.Row.next shape 1 (Json.decodeList Domain.ofJson)
      return ⟨fetchedAt, domains⟩)

@[simp] theorem ofJson_toJson (cache : FilterCache) : ofJson cache.toJson = .ok cache := by
  have domains : Json.decodeList Domain.ofJson (.arr (cache.domains.map Domain.toJson)) =
      .ok cache.domains := Json.decodeList_map Domain.ofJson_toJson cache.domains
  simp [ofJson, toJson, Json.decodeRecord, Draft.absorb, Draft.finish, Json.fill, Json.require,
    domains, bind, Except.bind, pure, Except.pure, Functor.map, Except.map]

end FilterCache

end Blocklist
