import Blocklist.Json.Decoding

/-!
# Match statistics

How many requests were blocked, and how many bytes that saved by a fixed average. Both figures stop
at the greatest 64-bit number instead of wrapping. A report shows them for one tab, for the session
and for all time; the all-time figures are stored under a member of their own.
-/

namespace Blocklist

/-- The greatest 64-bit number. -/
def maxCount : Nat := UInt64.size - 1

/-- A sum that stops at the greatest 64-bit number. -/
def saturatingAdd (a b : UInt64) : UInt64 := .ofNat (min (a.toNat + b.toNat) maxCount)

/-- A product that stops at the greatest 64-bit number. -/
def saturatingMul (a b : UInt64) : UInt64 := .ofNat (min (a.toNat * b.toNat) maxCount)

theorem toNat_ofNat_min_maxCount (n : Nat) : (UInt64.ofNat (min n maxCount)).toNat = min n maxCount :=
  UInt64.toNat_ofNat_of_lt' (Nat.lt_of_le_of_lt (Nat.min_le_right _ _) (by decide))

theorem toNat_saturatingAdd (a b : UInt64) :
    (saturatingAdd a b).toNat = min (a.toNat + b.toNat) maxCount := toNat_ofNat_min_maxCount _

theorem toNat_saturatingMul (a b : UInt64) :
    (saturatingMul a b).toNat = min (a.toNat * b.toNat) maxCount := toNat_ofNat_min_maxCount _

theorem toNat_le_maxCount (a : UInt64) : a.toNat ≤ maxCount := Nat.le_pred_of_lt a.toNat_lt_size

/-- Blocked requests and the bytes they would have cost. -/
structure Stats where
  blockedRequests : UInt64 := 0
  estimatedBytesSaved : UInt64 := 0
deriving DecidableEq, Repr

namespace Stats

def zero : Stats := {}

/-- The figures for a number of blocked requests of an average size. -/
def ofCount (blocked average : UInt64) : Stats := ⟨blocked, saturatingMul blocked average⟩

def add (a b : Stats) : Stats :=
  ⟨saturatingAdd a.blockedRequests b.blockedRequests,
    saturatingAdd a.estimatedBytesSaved b.estimatedBytesSaved⟩

def shape : Json.Shape := ⟨"struct Stats", 2⟩

structure Draft where
  blockedRequests : Option UInt64 := none
  estimatedBytesSaved : Option UInt64 := none

namespace Draft

def absorb (draft : Draft) : String × Json → Json.Decoded Draft
  | ("blockedRequests", value) => do
    let blockedRequests ←
      Json.fill "blockedRequests" draft.blockedRequests (Json.decodeUInt64 value)
    return { draft with blockedRequests }
  | ("estimatedBytesSaved", value) => do
    let estimatedBytesSaved ←
      Json.fill "estimatedBytesSaved" draft.estimatedBytesSaved (Json.decodeUInt64 value)
    return { draft with estimatedBytesSaved }
  | _ => .ok draft

def finish (draft : Draft) : Json.Decoded Stats := do
  let blockedRequests ← Json.require "blockedRequests" draft.blockedRequests
  let estimatedBytesSaved ← Json.require "estimatedBytesSaved" draft.estimatedBytesSaved
  return ⟨blockedRequests, estimatedBytesSaved⟩

end Draft

def toJson (stats : Stats) : Json :=
  .obj [("blockedRequests", .int stats.blockedRequests.toNat),
    ("estimatedBytesSaved", .int stats.estimatedBytesSaved.toNat)]

def ofJson : Json → Json.Decoded Stats :=
  Json.decodeRecord shape
    (fun members => do (← members.foldlM Draft.absorb {}).finish)
    (do
      let blockedRequests ← Json.Row.next shape 0 Json.decodeUInt64
      let estimatedBytesSaved ← Json.Row.next shape 1 Json.decodeUInt64
      return ⟨blockedRequests, estimatedBytesSaved⟩)

@[simp] theorem ofJson_toJson (stats : Stats) : ofJson stats.toJson = .ok stats := by
  simp [ofJson, toJson, Json.decodeRecord, Draft.absorb, Draft.finish, Json.fill, Json.require,
    bind, Except.bind, pure, Except.pure, Functor.map, Except.map]

end Stats

/-- The all-time figures as they are stored. -/
structure StoredStats where
  allTime : Stats
deriving DecidableEq, Repr

namespace StoredStats

def shape : Json.Shape := ⟨"struct StoredStats", 1⟩

structure Draft where
  allTime : Option Stats := none

namespace Draft

def absorb (draft : Draft) : String × Json → Json.Decoded Draft
  | ("alltime", value) => do
    return { draft with allTime := ← Json.fill "alltime" draft.allTime (Stats.ofJson value) }
  | _ => .ok draft

def finish (draft : Draft) : Json.Decoded StoredStats := do
  return ⟨← Json.require "alltime" draft.allTime⟩

end Draft

def toJson (stored : StoredStats) : Json := .obj [("alltime", stored.allTime.toJson)]

def ofJson : Json → Json.Decoded StoredStats :=
  Json.decodeRecord shape
    (fun members => do (← members.foldlM Draft.absorb {}).finish)
    (do return ⟨← Json.Row.next shape 0 Stats.ofJson⟩)

@[simp] theorem ofJson_toJson (stored : StoredStats) : ofJson stored.toJson = .ok stored := by
  simp [ofJson, toJson, Json.decodeRecord, Draft.absorb, Draft.finish, Json.fill, Json.require,
    bind, Except.bind, pure, Except.pure, Functor.map, Except.map]

end StoredStats

/-- The figures for every horizon. -/
structure StatsReport where
  currentTab : Stats
  session : Stats
  allTime : Stats
deriving DecidableEq, Repr

namespace StatsReport

def shape : Json.Shape := ⟨"struct StatsReport", 3⟩

structure Draft where
  currentTab : Option Stats := none
  session : Option Stats := none
  allTime : Option Stats := none

namespace Draft

def absorb (draft : Draft) : String × Json → Json.Decoded Draft
  | ("currentTab", value) => do
    let currentTab ← Json.fill "currentTab" draft.currentTab (Stats.ofJson value)
    return { draft with currentTab }
  | ("session", value) => do
    return { draft with session := ← Json.fill "session" draft.session (Stats.ofJson value) }
  | ("allTime", value) => do
    return { draft with allTime := ← Json.fill "allTime" draft.allTime (Stats.ofJson value) }
  | _ => .ok draft

def finish (draft : Draft) : Json.Decoded StatsReport := do
  let currentTab ← Json.require "currentTab" draft.currentTab
  let session ← Json.require "session" draft.session
  let allTime ← Json.require "allTime" draft.allTime
  return ⟨currentTab, session, allTime⟩

end Draft

/-- A report's members, sorted by name. -/
def toJson (report : StatsReport) : Json :=
  .obj [("allTime", report.allTime.toJson), ("currentTab", report.currentTab.toJson),
    ("session", report.session.toJson)]

def ofJson : Json → Json.Decoded StatsReport :=
  Json.decodeRecord shape
    (fun members => do (← members.foldlM Draft.absorb {}).finish)
    (do
      let currentTab ← Json.Row.next shape 0 Stats.ofJson
      let session ← Json.Row.next shape 1 Stats.ofJson
      let allTime ← Json.Row.next shape 2 Stats.ofJson
      return ⟨currentTab, session, allTime⟩)

@[simp] theorem ofJson_toJson (report : StatsReport) : ofJson report.toJson = .ok report := by
  simp [ofJson, toJson, Json.decodeRecord, Draft.absorb, Draft.finish, Json.fill, Json.require,
    bind, Except.bind, pure, Except.pure, Functor.map, Except.map]

end StatsReport

end Blocklist
