import Blocklist.Proofs.Records
import Blocklist.Proofs.Serialization
import Blocklist.Proofs.StoreRefinement

/-!
# Hosts that keep their entries in a file

A store in a file is sound as long as what is put into it is read back from its text
(`Host.InFile.staysSound`). The records of the engine are, so sessions and overlapping triggers meet
a sound store on such a host too, whatever is refused meanwhile.
-/

namespace Blocklist

namespace Host

/-- A host that keeps its entries in a file, which is in its place and holds no floating point
numbers. -/
def InFile (host : Host) : Prop :=
  ∃ directory name place old, host.KeepsFile directory name place old

variable {directory : Path} {name : String} {place : List String} {old : List (String × Json)}
variable {host other : Host}

/-- A store whose file is missing has no entries yet. -/
theorem inFile_of_missing (stored : host.store = .file (directory.child name))
    (placed : StoreFile.Placed host.files directory name place)
    (missing : host.files.readText (directory.child name) = .error .notFound) : host.InFile :=
  ⟨directory, name, place, [], stored, placed, .missing missing, .obj (List.forall_mem_nil _)⟩

theorem inFile_nested : (nestedStore ⟨"nested", []⟩ {}).InFile :=
  inFile_of_missing rfl placed_nested missing_nested

/-- Whether a host keeps some entries in a file depends on the store and the files alone. -/
theorem KeepsFile.congr (keeps : host.KeepsFile directory name place old)
    (store : other.store = host.store) (files : other.files = host.files) :
    other.KeepsFile directory name place old where
  stored := store.trans keeps.stored
  placed := files ▸ keeps.placed
  holds := files ▸ keeps.holds
  free := keeps.free

theorem KeepsFile.hasEntries (keeps : host.KeepsFile directory name place old) :
    host.HasEntries old :=
  fun key => congrArg Prod.fst (keeps.readEntry key)

/-- The file is replaced unless writing the entry is refused. -/
theorem KeepsFile.writes (keeps : host.KeepsFile directory name place old) {key : String}
    {value : Json} (storable : StoreUse.Storable (.set key value)) :
    Moment.Writes InFile old host key value := by
  obtain ⟨detail, refused, later⟩ | ⟨reply, later⟩ :=
    Moment.answer_cases host (.writeEntry key value)
  · exact .failed (.storage detail) (Option.some.inj refused).symm later
  · have noted : (host.noting (.writeEntry key value)).KeepsFile directory name place old :=
      keeps.congr rfl rfl
    obtain ⟨written, writes, kept⟩ := noted.writeEntry storable
    have served : serve host.callCount (.writeEntry key value)
        (host.noting (.writeEntry key value)) = (.ok (), written) := writes
    rw [served] at reply later
    refine .written reply ?_ ?_
    · rw [later]
      exact ⟨directory, name, place, _, kept⟩
    · rw [later]
      exact kept.hasEntries

end Host

/-- A call that writes no value but one that is read back from its text. -/
def Call.IsStorable : Call → Prop
  | writeEntry key value => StoreUse.Storable (.set key value)
  | _ => True

/-- A store in a file is sound as long as the values are read back from their texts. -/
theorem Host.InFile.staysSound : StaysSound InFile Call.IsStorable := by
  apply StaysSound.of_writes
  · rintro host other ⟨directory, name, place, old, keeps⟩ store files
    exact ⟨directory, name, place, old, keeps.congr store files⟩
  · rintro host key value ⟨directory, name, place, old, keeps⟩ storable
    exact ⟨old, keeps.hasEntries, keeps.writes storable⟩

/-! ## The records of the engine -/

section

open Json

variable {room : Nat}

theorem Json.proper_uint64 (n : UInt64) : Proper room (.int n.toNat) := by
  have below : n.toNat < UInt64.size := n.toNat_lt_size
  exact .int (by omega) (by omega)

theorem Json.proper_int64 (n : Int64) : Proper room (.int n.toInt) := by
  have low : -2 ^ 63 ≤ n.toInt := n.le_toInt
  have high : n.toInt < 2 ^ 63 := n.toInt_lt
  have size : UInt64.size = 2 ^ 64 := rfl
  exact .int (by omega) (by omega)

theorem State.proper_toJson (state : State) : Proper (room + 1) state.toJson := by
  refine .obj (List.pairwise_singleton _ _) ?_
  rw [List.forall_mem_singleton]
  exact .str state.mode.name

theorem State.floatFree_toJson (state : State) : FloatFree state.toJson := by
  apply FloatFree.obj
  rw [List.forall_mem_singleton]
  exact .str state.mode.name

theorem Stats.proper_toJson (stats : Stats) : Proper (room + 1) stats.toJson := by
  have before : "blockedRequests" < "estimatedBytesSaved" := by decide
  refine .obj (List.pairwise_pair.mpr before) ?_
  simp only [List.forall_mem_cons]
  exact ⟨proper_uint64 _, proper_uint64 _, List.forall_mem_nil _⟩

theorem Stats.floatFree_toJson (stats : Stats) : FloatFree stats.toJson := by
  apply FloatFree.obj
  simp only [List.forall_mem_cons]
  exact ⟨.int _, .int _, List.forall_mem_nil _⟩

theorem StoredStats.proper_toJson (stored : StoredStats) : Proper (room + 2) stored.toJson := by
  refine .obj (List.pairwise_singleton _ _) ?_
  rw [List.forall_mem_singleton]
  exact stored.allTime.proper_toJson

theorem StoredStats.floatFree_toJson (stored : StoredStats) : FloatFree stored.toJson := by
  apply FloatFree.obj
  rw [List.forall_mem_singleton]
  exact stored.allTime.floatFree_toJson

theorem FilterCache.proper_toJson (cache : FilterCache) : Proper (room + 2) cache.toJson := by
  have before : "domains" < "fetchedAt" := by decide
  refine .obj (List.pairwise_pair.mpr before) ?_
  simp only [List.forall_mem_cons]
  refine ⟨.arr ?_, proper_int64 _, List.forall_mem_nil _⟩
  exact List.forall_mem_map.mpr fun domain _ => .str domain.text

theorem FilterCache.floatFree_toJson (cache : FilterCache) : FloatFree cache.toJson := by
  apply FloatFree.obj
  simp only [List.forall_mem_cons]
  refine ⟨.arr ?_, .int _, List.forall_mem_nil _⟩
  exact List.forall_mem_map.mpr fun domain _ => .str domain.text

/-- A record is read back from its text. -/
theorem IsRecord.storable {key : String} {value : Json} (record : IsRecord key value) :
    StoreUse.Storable (.set key value) := by
  have limit : Reader.depthLimit - 1 = 124 + 2 := rfl
  rw [StoreUse.Storable, limit]
  cases record with
  | state state => exact ⟨state.proper_toJson, state.floatFree_toJson⟩
  | figures stats =>
    exact ⟨StoredStats.proper_toJson ⟨stats⟩, StoredStats.floatFree_toJson ⟨stats⟩⟩
  | list cache => exact ⟨cache.proper_toJson, cache.floatFree_toJson⟩

end

theorem Call.WritesRecords.isStorable {call : Call} (writes : call.WritesRecords) :
    call.IsStorable := by
  cases call with
  | writeEntry key value => exact IsRecord.storable writes
  | _ => trivial

/-- A store in a file is sound for the calls of the engine. -/
theorem Host.InFile.staysSound_writesRecords : Host.StaysSound Host.InFile Call.WritesRecords :=
  Host.InFile.staysSound.mono fun _ => Call.WritesRecords.isStorable

/-- A session on a host with its store in a file meets a sound store throughout, and keeps it. -/
theorem Session.isSound_of_inFile (config : Config) (events : List Event) {host : Host}
    (inFile : host.InFile) :
    (∀ moment ∈ history config events host, moment.IsSound) ∧ (ending config events host).InFile :=
  isSound Host.InFile.staysSound_writesRecords (Operation.writesRecords config) events inFile

/-- On a host with its store in a file every schedule of triggers meets a sound store. -/
theorem Crowd.isSound_of_inFile [DecidableEq ι] (config : Config) (trigger : ι → Trigger)
    {host : Host} (inFile : host.InFile) (schedule : List ι) :
    ∀ entry ∈ ((start config trigger host).play schedule).history, entry.2.IsSound :=
  isSound Host.InFile.staysSound_writesRecords
    (fun i => (trigger i).writesRecords config) inFile schedule

/-- A session that begins before there is a file. -/
example (config : Config) (events : List Event) : ∀ moment ∈
    Session.history config events (Host.nestedStore ⟨"nested", []⟩ {}), moment.IsSound :=
  (Session.isSound_of_inFile config events Host.inFile_nested).1

end Blocklist
