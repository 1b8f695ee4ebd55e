import Blocklist.Proofs.Runs

/-!
# What an answer changes

A host notes every call. Beyond that only two kinds of call change anything: a replacement that goes
well changes the surface, and an entry that is written changes the store. A call that is refused
changes nothing else. `Host.entry` is the view of a store; a store is sound at a call when what it
replies is what it did, which a store in memory always is. Hosts that stay of a kind with a sound
store (`Host.StaysSound`) meet a sound store in all their runs.
-/

namespace Blocklist

namespace Call

/-- A call that changes nothing on a host. -/
def IsQuiet : Call → Prop
  | replaceRules _ _ => False
  | writeEntry _ _ => False
  | _ => True

theorem isQuiet_or (call : Call) :
    call.IsQuiet ∨ (∃ removed added, call = .replaceRules removed added) ∨
      ∃ key value, call = .writeEntry key value := by
  cases call with
  | replaceRules removed added => exact .inr (.inl ⟨removed, added, rfl⟩)
  | writeEntry key value => exact .inr (.inr ⟨key, value, rfl⟩)
  | _ => exact .inl trivial

end Call

/-- An environment that never refuses to give the active ids or to replace rules. -/
def Environment.ServesSurface (environment : Environment) : Prop :=
  ∀ number, environment.refusal number .activeIds = none ∧
    ∀ removed added, environment.refusal number (.replaceRules removed added) = none

namespace Host

def noting (call : Call) (host : Host) : Host :=
  { host with calls := call :: host.calls, callCount := host.callCount + 1 }

@[simp] theorem noting_surface (call : Call) (host : Host) :
    (host.noting call).surface = host.surface := rfl

@[simp] theorem noting_store (call : Call) (host : Host) :
    (host.noting call).store = host.store := rfl

/-- What the store holds under a key, as far as it can be read. -/
def entry (host : Host) (key : String) : Except EngineError (Option Json) :=
  (Host.readEntry key host).1

def InMemory (host : Host) : Prop := ∃ entries, host.store = .memory entries

theorem entry_of_memory {host : Host} {entries : List (String × Json)}
    (memory : host.store = .memory entries) (key : String) :
    host.entry key = .ok (entries.lookup key) := by
  simp only [entry, readEntry, bind, StateT.bind, get, getThe, MonadStateOf.get, StateT.get, pure,
    memory]
  rfl

/-- What can be read depends on the store and the files alone. -/
theorem entry_congr {a b : Host} (store : a.store = b.store) (files : a.files = b.files)
    (key : String) : a.entry key = b.entry key := by
  simp only [entry, readEntry, bind, StateT.bind, get, getThe, MonadStateOf.get, StateT.get, pure,
    store]
  cases b.store with
  | memory entries => rfl
  | file path =>
    simp only [onFiles, files]
    rfl

@[simp] theorem noting_entry (call : Call) (host : Host) (key : String) :
    (host.noting call).entry key = host.entry key :=
  entry_congr (a := host.noting call) (b := host) rfl rfl key

/-- The surface is no part of the store. -/
@[simp] theorem entry_with_surface (host : Host) (surface : Surface) (key : String) :
    ({ host with surface } : Host).entry key = host.entry key :=
  entry_congr (a := { host with surface }) (b := host) rfl rfl key

/-! ## Refused and served calls -/

/-- A refusal of the environment that the call can meet with. -/
def refusalOf (call : Call) (host : Host) : Option call.Reply :=
  (host.environment.refusal host.callCount call).bind (refused · call)

theorem answer_of_refused {call : Call} {host : Host} {reply : call.Reply}
    (refusal : host.refusalOf call = some reply) :
    Host.answer call host = (reply, host.noting call) := by
  unfold refusalOf at refusal
  simp only [answer, bind, StateT.bind, get, getThe, MonadStateOf.get, StateT.get,
    pure, refusal]
  rfl

theorem answer_of_served {call : Call} {host : Host} (unrefused : host.refusalOf call = none) :
    Host.answer call host = serve host.callCount call (host.noting call) := by
  unfold refusalOf at unrefused
  simp only [answer, bind, StateT.bind, get, getThe, MonadStateOf.get, StateT.get,
    pure, unrefused]
  rfl

theorem refusalOf_eq_none {call : Call} {host : Host}
    (served : host.environment.refusal host.callCount call = none) :
    host.refusalOf call = none := by
  rw [refusalOf, served, Option.bind_none]

/-! ## Quiet calls -/

private theorem readEntry_keeps (key : String) (host : Host) :
    (Host.readEntry key host).2 = host := by
  simp only [readEntry, bind, StateT.bind, get, getThe, MonadStateOf.get, StateT.get, pure]
  cases host.store with
  | memory entries => rfl
  | file path =>
    have files : ((StoreFile.get path key : StateM FileTree _) host.files).2 = host.files := by
      simp only [StoreFile.get, StoreFile.entries, bind, StateT.bind, Disk.readText]
      cases host.files.readText path with
      | ok text => rfl
      | error error => cases error <;> rfl
    exact congrArg (fun files => { host with files }) files

private theorem fetchList_keeps (list : String) (host : Host) :
    (Host.fetchList list host).2 = host := by
  simp only [fetchList, bind, StateT.bind, get, getThe, MonadStateOf.get, StateT.get, pure]
  cases host.source with
  | served => rfl
  | file path =>
    have files : ((ListFile.fetch path : StateM FileTree _) host.files).2 = host.files := by
      simp only [ListFile.fetch, bind, StateT.bind, Disk.readText]
      cases host.files.readText path <;> rfl
    exact congrArg (fun files => { host with files }) files

theorem serve_quiet {call : Call} (quiet : call.IsQuiet) (number : Nat) (host : Host) :
    (serve number call host).2 = host := by
  cases call with
  | fetchList => exact fetchList_keeps _ host
  | readEntry key => exact readEntry_keeps key host
  | replaceRules => exact quiet.elim
  | writeEntry => exact quiet.elim
  | _ => rfl

end Host

namespace Moment

variable {host : Host} {key : String} {value : Json} {removed : List RuleId} {added : List Rule}

theorem reply_of_served {call : Call} (unrefused : host.refusalOf call = none) :
    (Moment.mk host call).reply = (Host.serve host.callCount call (host.noting call)).1 := by
  rw [reply, Host.answer_of_served unrefused]

/-- A call is refused and only noted, or it is noted and served. -/
theorem answer_cases (host : Host) (call : Call) :
    (∃ detail, Host.refused detail call = some (Moment.mk host call).reply ∧
      (Moment.mk host call).later = host.noting call) ∨
    ((Moment.mk host call).reply = (Host.serve host.callCount call (host.noting call)).1 ∧
      (Moment.mk host call).later = (Host.serve host.callCount call (host.noting call)).2) := by
  unfold reply later
  cases refusal : host.refusalOf call with
  | some reply =>
    obtain ⟨detail, -, refused⟩ := Option.bind_eq_some_iff.mp refusal
    rw [Host.answer_of_refused refusal]
    exact .inl ⟨detail, refused, rfl⟩
  | none =>
    rw [Host.answer_of_served refusal]
    exact .inr ⟨rfl, rfl⟩

theorem later_of_quiet {call : Call} (quiet : call.IsQuiet) :
    (Moment.mk host call).later = host.noting call := by
  rcases answer_cases host call with ⟨detail, -, later⟩ | ⟨-, later⟩
  · exact later
  · rw [later, Host.serve_quiet quiet]

/-! ## Replacements -/

/-- A replacement goes through as the surface has it, or leaves the host as it was. -/
theorem replaceRules_cases (host : Host) (removed : List RuleId) (added : List Rule) :
    (∃ surface, host.surface.replace removed added = .ok surface ∧
      (Moment.mk host (.replaceRules removed added)).reply = .ok () ∧
      (Moment.mk host (.replaceRules removed added)).later =
        { host.noting (.replaceRules removed added) with surface }) ∨
    (∃ error, (Moment.mk host (.replaceRules removed added)).reply = .error error ∧
      (Moment.mk host (.replaceRules removed added)).later =
        host.noting (.replaceRules removed added)) := by
  rcases answer_cases host (.replaceRules removed added) with
    ⟨detail, refused, later⟩ | ⟨reply, later⟩
  · exact .inr ⟨.enforcement detail, (Option.some.inj refused).symm, later⟩
  · simp only [Host.serve, Host.replaceRules, Host.noting_surface] at reply later
    cases outcome : host.surface.replace removed added with
    | ok surface =>
      simp only [outcome] at reply later
      exact .inl ⟨surface, rfl, reply, later⟩
    | error refusal =>
      simp only [outcome] at reply later
      exact .inr ⟨.enforcement refusal.message, reply, later⟩

/-- The ids that are given are those of the active rules, unless giving them is refused. -/
theorem reply_activeIds (host : Host) :
    (Moment.mk host .activeIds).reply = .ok host.surface.activeIds ∨
      ∃ error, (Moment.mk host .activeIds).reply = .error error := by
  rcases answer_cases host .activeIds with ⟨detail, refused, -⟩ | ⟨reply, -⟩
  · exact .inr ⟨.enforcement detail, (Option.some.inj refused).symm⟩
  · exact .inl reply

theorem reply_activeIds_of_served (served : host.environment.ServesSurface) :
    (Moment.mk host .activeIds).reply = .ok host.surface.activeIds :=
  reply_of_served (Host.refusalOf_eq_none (served host.callCount).1)

theorem reply_replaceRules_of_served (served : host.environment.ServesSurface) {surface : Surface}
    (accepted : host.surface.replace removed added = .ok surface) :
    (Moment.mk host (.replaceRules removed added)).reply = .ok () := by
  rw [reply_of_served (Host.refusalOf_eq_none ((served host.callCount).2 removed added))]
  simp only [Host.serve, Host.replaceRules, Host.noting_surface, accepted]

/-! ## Entries -/

/-- What is read is what the store holds, unless reading is refused. -/
theorem reply_readEntry (host : Host) (key : String) :
    (Moment.mk host (.readEntry key)).reply = host.entry key ∨
      ∃ error, (Moment.mk host (.readEntry key)).reply = .error error := by
  rcases answer_cases host (.readEntry key) with ⟨detail, refused, -⟩ | ⟨reply, -⟩
  · exact .inr ⟨.storage detail, (Option.some.inj refused).symm⟩
  · exact .inl (reply.trans (Host.noting_entry (.readEntry key) host key))

/-- A store does what it replies. An entry that was written is there, one whose writing failed is as
it was, and no other entry changes. Nothing is asked of the other calls. -/
def IsSound : Moment → Prop
  | ⟨host, .writeEntry key value⟩ =>
    ((Moment.mk host (.writeEntry key value)).reply = .ok () →
        (Moment.mk host (.writeEntry key value)).later.entry key = .ok (some value)) ∧
      (∀ error, (Moment.mk host (.writeEntry key value)).reply = .error error →
        (Moment.mk host (.writeEntry key value)).later.entry key = host.entry key) ∧
      ∀ other, other ≠ key →
        (Moment.mk host (.writeEntry key value)).later.entry other = host.entry other
  | _ => True

/-- Writing an entry changes nothing but the store and the files. -/
theorem later_writeEntry (host : Host) (key : String) (value : Json) :
    ∃ store files, (Moment.mk host (.writeEntry key value)).later =
      { host.noting (.writeEntry key value) with store, files } := by
  rcases answer_cases host (.writeEntry key value) with ⟨detail, -, later⟩ | ⟨-, later⟩
  · exact ⟨host.store, host.files, later⟩
  · rw [later]
    simp only [Host.serve, Host.writeEntry, bind, StateT.bind, get, getThe, MonadStateOf.get,
      StateT.get, pure, Host.noting_store]
    cases host.store with
    | memory entries => exact ⟨_, _, rfl⟩
    | file path => exact ⟨_, _, rfl⟩

/-- A sound store keeps every entry that the call does not write. -/
theorem later_entry {call : Call} (sound : (Moment.mk host call).IsSound)
    (other : ∀ value, call ≠ .writeEntry key value) :
    (Moment.mk host call).later.entry key = host.entry key := by
  rcases call.isQuiet_or with quiet | ⟨removed, added, rfl⟩ | ⟨written, value, rfl⟩
  · rw [later_of_quiet quiet, Host.noting_entry]
  · rcases replaceRules_cases host removed added with ⟨surface, -, -, later⟩ | ⟨error, -, later⟩
    · rw [later, Host.entry_with_surface, Host.noting_entry]
    · rw [later, Host.noting_entry]
  · obtain ⟨-, -, others⟩ := sound
    exact others key fun same => other value (by rw [same])

/-! ## The surface -/

/-- Only a replacement touches the surface. -/
theorem later_surface {call : Call} (other : ∀ removed added, call ≠ .replaceRules removed added) :
    (Moment.mk host call).later.surface = host.surface := by
  rcases call.isQuiet_or with quiet | ⟨removed, added, rfl⟩ | ⟨key, value, rfl⟩
  · rw [later_of_quiet quiet, Host.noting_surface]
  · exact absurd rfl (other removed added)
  · obtain ⟨store, files, later⟩ := later_writeEntry host key value
    rw [later]
    rfl

/-! ## All else -/

/-- An answer changes nothing of a host but its surface, its store and its files. -/
theorem exists_later_eq (host : Host) (call : Call) :
    ∃ surface store files, (Moment.mk host call).later =
      { host.noting call with surface, store, files } := by
  rcases call.isQuiet_or with quiet | ⟨removed, added, rfl⟩ | ⟨key, value, rfl⟩
  · exact ⟨host.surface, host.store, host.files, later_of_quiet quiet⟩
  · rcases replaceRules_cases host removed added with ⟨surface, -, -, later⟩ | ⟨error, -, later⟩
    · exact ⟨surface, host.store, host.files, later⟩
    · exact ⟨host.surface, host.store, host.files, later⟩
  · obtain ⟨store, files, later⟩ := later_writeEntry host key value
    exact ⟨host.surface, store, files, later⟩

theorem later_environment (host : Host) (call : Call) :
    (Moment.mk host call).later.environment = host.environment := by
  obtain ⟨surface, store, files, later⟩ := exists_later_eq host call
  rw [later]
  rfl

theorem later_source (host : Host) (call : Call) :
    (Moment.mk host call).later.source = host.source := by
  obtain ⟨surface, store, files, later⟩ := exists_later_eq host call
  rw [later]
  rfl

end Moment

/-- What no answer of a run changes under a key is not changed by the run. -/
theorem Program.Runs.entry_eq {program : Program α} {host later : Host} {moments : List Moment}
    {value : α} {key : String} (runs : program.Runs host moments value later)
    (each : ∀ moment ∈ moments, moment.later.entry key = moment.host.entry key) :
    later.entry key = host.entry key :=
  runs.keeps (fun before after => after.entry key = before.entry key) (fun _ => rfl)
    (fun first second => second.trans first) each

/-! ## Kinds of hosts with a sound store -/

/-- The store of a host can be read, and these are its entries. -/
def Host.HasEntries (host : Host) (entries : List (String × Json)) : Prop :=
  ∀ key, host.entry key = .ok (entries.lookup key)

namespace Moment

variable {kind : Host → Prop} {entries : List (String × Json)} {host : Host} {key : String}
variable {value : Json}

/-- What writing an entry comes to on a host of a kind: the entry is put among those of the store,
or the host stays as it was. -/
inductive Writes (kind : Host → Prop) (entries : List (String × Json)) (host : Host) (key : String)
    (value : Json) : Prop where
  | written (reply : (Moment.mk host (.writeEntry key value)).reply = .ok ())
      (kept : kind (Moment.mk host (.writeEntry key value)).later)
      (has : (Moment.mk host (.writeEntry key value)).later.HasEntries
        (Json.insertMember key value entries)) : Writes kind entries host key value
  | failed (error : EngineError)
      (reply : (Moment.mk host (.writeEntry key value)).reply = .error error)
      (later : (Moment.mk host (.writeEntry key value)).later =
        host.noting (.writeEntry key value)) : Writes kind entries host key value

theorem Writes.isSound (has : host.HasEntries entries)
    (writes : Writes kind entries host key value) :
    (Moment.mk host (.writeEntry key value)).IsSound := by
  cases writes with
  | written reply _ changed =>
    refine ⟨?_, ?_, ?_⟩
    · intro _
      rw [changed key, Json.lookup_insertMember_self]
    · intro error failed
      rw [reply] at failed
      contradiction
    · intro other differs
      rw [changed other, has other, Json.lookup_insertMember_of_ne differs]
  | failed error reply later =>
    refine ⟨?_, ?_, ?_⟩
    · intro written
      rw [reply] at written
      contradiction
    · intro _ _
      rw [later, Host.noting_entry]
    · intro other _
      rw [later, Host.noting_entry]

end Moment

namespace Host

variable {kind : Host → Prop} {allowed fewer : Call → Prop}

/-- Hosts of a kind have a sound store for some calls. They stay of that kind with every answer to
them, and whatever becomes of the surface. -/
structure StaysSound (kind : Host → Prop) (allowed : Call → Prop) : Prop where
  sound : ∀ {host call}, kind host → allowed call → (Moment.mk host call).IsSound
  later : ∀ {host call}, kind host → allowed call → kind (Moment.mk host call).later
  surface : ∀ {host : Host} (surface : Surface), kind host → kind { host with surface }

theorem StaysSound.mono (stays : StaysSound kind allowed)
    (implies : ∀ call, fewer call → allowed call) : StaysSound kind fewer where
  sound start may := stays.sound start (implies _ may)
  later start may := stays.later start (implies _ may)
  surface := stays.surface

/-- A kind of hosts that depends on the store and the files alone has a sound store when writing an
entry does what it should. -/
theorem StaysSound.of_writes
    (congr : ∀ {host other : Host}, kind host → other.store = host.store →
      other.files = host.files → kind other)
    (writes : ∀ {host : Host} {key : String} {value : Json}, kind host →
      allowed (.writeEntry key value) →
      ∃ entries, host.HasEntries entries ∧ Moment.Writes kind entries host key value) :
    StaysSound kind allowed where
  sound {host call} start may := by
    cases call with
    | writeEntry key value =>
      obtain ⟨entries, has, writes⟩ := writes start may
      exact writes.isSound has
    | _ => trivial
  later {host call} start may := by
    obtain quiet | ⟨removed, added, rfl⟩ | ⟨key, value, rfl⟩ := call.isQuiet_or
    · rw [Moment.later_of_quiet quiet]
      exact congr start rfl rfl
    · obtain ⟨surface, -, -, later⟩ | ⟨error, -, later⟩ :=
        Moment.replaceRules_cases host removed added
      · rw [later]
        exact congr start rfl rfl
      · rw [later]
        exact congr start rfl rfl
    · obtain ⟨entries, has, writes⟩ := writes start may
      cases writes with
      | written _ kept => exact kept
      | failed error _ later =>
        rw [later]
        exact congr start rfl rfl
  surface _ start := congr start rfl rfl

/-- In memory, an entry is put into the store unless writing it is refused. -/
theorem writes_of_memory {host : Host} {entries : List (String × Json)}
    (memory : host.store = .memory entries) (key : String) (value : Json) :
    Moment.Writes InMemory entries host key value := by
  obtain ⟨detail, refused, later⟩ | ⟨reply, later⟩ :=
    Moment.answer_cases host (.writeEntry key value)
  · exact .failed (.storage detail) (Option.some.inj refused).symm later
  · simp only [serve, writeEntry, bind, StateT.bind, get, getThe, MonadStateOf.get, StateT.get,
      pure, noting_store, memory] at reply later
    refine .written reply ?_ ?_
    · rw [later]
      exact ⟨_, rfl⟩
    · rw [later]
      exact entry_of_memory rfl

/-- A store in memory is sound, whatever the call. -/
theorem InMemory.staysSound : StaysSound InMemory fun _ => True := by
  apply StaysSound.of_writes
  · rintro host other ⟨entries, stored⟩ store -
    exact ⟨entries, store.trans stored⟩
  · rintro host key value ⟨entries, stored⟩ -
    exact ⟨entries, entry_of_memory stored, writes_of_memory stored key value⟩

end Host

/-- A run that makes allowed calls only meets a sound store throughout. -/
theorem Program.Runs.isSound {kind : Host → Prop} {allowed : Call → Prop} {program : Program α}
    {host later : Host} {moments : List Moment} {value : α}
    (stays : Host.StaysSound kind allowed) (runs : program.Runs host moments value later)
    (each : ∀ moment ∈ moments, allowed moment.call) (start : kind host) :
    (∀ moment ∈ moments, moment.IsSound) ∧ kind later := by
  induction runs with
  | done => exact ⟨nofun, start⟩
  | ask rest ih =>
    obtain ⟨first, others⟩ := List.forall_mem_cons.mp each
    obtain ⟨sound, kept⟩ := ih others (stays.later start first)
    exact ⟨List.forall_mem_cons.mpr ⟨stays.sound start first, sound⟩, kept⟩

/-- A run on a host with its store in memory keeps it there, and meets a sound store throughout. -/
theorem Program.Runs.isSound_of_inMemory {program : Program α} {host later : Host}
    {moments : List Moment} {value : α} (runs : program.Runs host moments value later)
    (memory : host.InMemory) : (∀ moment ∈ moments, moment.IsSound) ∧ later.InMemory :=
  runs.isSound Host.InMemory.staysSound (fun _ _ => trivial) memory

end Blocklist
