import Blocklist.Proofs.Enforcement
import Blocklist.Proofs.Interleaving
import Blocklist.Proofs.ModeProtocol

/-!
# Where tasks stand

The history of a crowd tells for each task which mode it has found stored last, and which modes were
stored, by whom and in place of which. Together with the host and the holder of the mode lock this
gives where each task stands in the protocol of the mode lock. A task outside the lock cannot change
the scene, so a call moves the standing of the task that makes it as the protocol has it, and no
other standing (`Crowd.moves_after`, `Crowd.standing_after_of_ne`).
-/

namespace Blocklist

/-! ## What is read and stored at a moment -/

namespace Moment

def modeRead? : Moment → Option Mode
  | ⟨host, .readEntry key⟩ =>
    if key = stateKey then
      ((Moment.reply ⟨host, .readEntry key⟩).bind Engine.stateOf).toOption.map (·.mode)
    else none
  | _ => none

def modeStored? : Moment → Option Mode
  | ⟨host, .writeEntry key value⟩ =>
    if key = stateKey ∧ (Moment.reply ⟨host, .writeEntry key value⟩).isOk then
      (State.ofJson value).toOption.map (·.mode)
    else none
  | _ => none

inductive Fetches (text : String) : Moment → Prop where
  | intro {host : Host} (fetched : (Moment.mk host .fetchList).reply = .ok text) :
      Fetches text ⟨host, .fetchList⟩

/-- A moment with a sound store that can store a mode, and with a list that is complete if it is
fetched. -/
structure IsFair (complete : List Domain → Prop) (moment : Moment) : Prop where
  sound : moment.IsSound
  storable : ∀ value, ¬ moment.RefusesEntry stateKey value
  complete : ∀ text, moment.Fetches text → complete (FilterList.domains text)

variable {host : Host} {call : Call}

theorem surface_of_isPlain (plain : call.IsPlain) :
    (Moment.mk host call).later.surface = host.surface := later_surface plain.keepsRules

theorem storedMode_of_keepsMode (keeps : call.KeepsMode) (sound : (Moment.mk host call).IsSound) :
    (Moment.mk host call).later.storedMode = host.storedMode :=
  Host.storedMode_congr (later_entry sound keeps)

theorem not_replaces_of_isPlain (plain : call.IsPlain) : ¬ (Moment.mk host call).Replaces := by
  rintro ⟨accepted⟩
  exact plain.keepsRules _ _ rfl

theorem modeRead?_stateKey (host : Host) : (Moment.mk host (.readEntry stateKey)).modeRead? =
    ((Moment.mk host (.readEntry stateKey)).reply.bind Engine.stateOf).toOption.map (·.mode) := by
  rw [modeRead?, if_pos rfl]

theorem modeRead?_of_ne {key : String} (other : key ≠ stateKey) :
    (Moment.mk host (.readEntry key)).modeRead? = none := by
  rw [modeRead?, if_neg other]

theorem modeStored?_stateKey {mode : Mode}
    (accepted : (Moment.mk host (.writeEntry stateKey (State.mk mode).toJson)).reply = .ok ()) :
    (Moment.mk host (.writeEntry stateKey (State.mk mode).toJson)).modeStored? = some mode := by
  rw [modeStored?, if_pos ⟨rfl, by rw [accepted]; rfl⟩, State.ofJson_toJson]
  rfl

theorem modeStored?_of_keepsMode (keeps : call.KeepsMode) :
    (Moment.mk host call).modeStored? = none := by
  unfold modeStored?
  split
  · next key value same =>
    obtain ⟨rfl, rfl⟩ := Moment.mk.inj same
    refine if_neg fun ⟨isState, _⟩ => keeps value ?_
    rw [isState]
  · rfl

end Moment

/-- A state that is to be stored at a fair moment is stored. -/
theorem Moment.IsFair.stores {complete : List Domain → Prop} {host : Host} {value : Json}
    (fair : (Moment.mk host (.writeEntry stateKey value)).IsFair complete) :
    (Moment.mk host (.writeEntry stateKey value)).reply = .ok () := by
  cases reply : (Moment.mk host (.writeEntry stateKey value)).reply with
  | ok _ => rfl
  | error error => exact absurd (.intro reply) (fair.storable value)

/-- The cached list, if there is one, is complete. -/
def Host.CachesOnly (complete : List Domain → Prop) (host : Host) : Prop :=
  ∀ value cache, host.entry filterCacheKey = .ok (some value) →
    FilterCache.ofJson value = .ok cache → complete cache.domains

/-! ## Changes of the mode -/

/-- A mode that a task has stored, and the one that it had found before. -/
structure Switch (ι : Type) where
  task : ι
  previous : Option Mode
  next : Mode

/-- What a history tells of the stored mode. -/
structure Ledger (ι : Type) where
  /-- The mode that a task has found last. -/
  found : ι → Option Mode := fun _ => none
  /-- The modes that were stored, in order. -/
  switches : List (Switch ι) := []

variable {ι : Type} [DecidableEq ι]

def Ledger.note (ledger : Ledger ι) (entry : ι × Moment) : Ledger ι where
  found := match entry.2.modeRead? with
    | some mode => Function.update ledger.found entry.1 (some mode)
    | none => ledger.found
  switches := match entry.2.modeStored? with
    | some mode => ledger.switches ++ [⟨entry.1, ledger.found entry.1, mode⟩]
    | none => ledger.switches

/-- From a stored mode on, each switch has found the mode that the one before has stored. -/
inductive Chain (start : Option Mode) : List (Switch ι) → Option Mode → Prop where
  | nil : Chain start [] start
  | snoc {switches : List (Switch ι)} {stored : Option Mode} (chain : Chain start switches stored)
      (i : ι) (mode : Mode) : Chain start (switches ++ [⟨i, stored, mode⟩]) (some mode)

namespace Crowd

variable {α : Type}

def ledger (crowd : Crowd ι α) : Ledger ι := crowd.history.foldl Ledger.note {}

/-- The stored mode and the active rules, and whether these have been replaced so far. -/
def scene (crowd : Crowd ι α) : Scene :=
  ⟨crowd.host.storedMode, crowd.host.surface.rules, ∃ entry ∈ crowd.history, entry.2.Replaces⟩

/-- Where a task stands: the holder of the mode lock has the scene to itself. -/
def standing (crowd : Crowd ι α) (i : ι) : Standing where
  scene := if crowd.holder .mode = some i then some crowd.scene else none
  found := crowd.ledger.found i
  changed := ∃ switch ∈ crowd.ledger.switches, switch.task = i

variable {crowd : Crowd ι α} {i j : ι} {call : Call} {next : call.Reply → Program α}

/-! ## Inside and outside the mode lock -/

theorem scene_standing_of_holds (holds : crowd.holder .mode = some i) :
    (crowd.standing i).scene = some crowd.scene := if_pos holds

theorem scene_standing_of_not_holds (outside : crowd.holder .mode ≠ some i) :
    (crowd.standing i).scene = none := if_neg outside

/-- Who has a scene to itself holds the mode lock, and the scene is that of the crowd. -/
theorem holds_of_scene_standing {scene : Scene}
    (held : (crowd.standing i).scene = some scene) :
    crowd.holder .mode = some i ∧ scene = crowd.scene := by
  by_cases holds : crowd.holder .mode = some i
  · exact ⟨holds, Option.some.inj (held.symm.trans (scene_standing_of_holds holds))⟩
  · exact absurd (held.symm.trans (scene_standing_of_not_holds holds)) nofun

/-! ## The scene after a call -/

theorem exists_replaces_after :
    (∃ entry ∈ (crowd.after i call next).history, entry.2.Replaces) ↔
      (∃ entry ∈ crowd.history, entry.2.Replaces) ∨ (Moment.mk crowd.host call).Replaces := by
  simp only [after, List.mem_append, List.mem_singleton, or_and_right, exists_or,
    exists_eq_left]

theorem scene_after_of_unchanged
    (rules : (Moment.mk crowd.host call).later.surface.rules = crowd.host.surface.rules)
    (stored : (Moment.mk crowd.host call).later.storedMode = crowd.host.storedMode)
    (idle : ¬ (Moment.mk crowd.host call).Replaces) :
    (crowd.after i call next).scene = crowd.scene := by
  refine Scene.ext stored rules (propext ?_)
  exact exists_replaces_after.trans (or_iff_left idle)

theorem scene_after_of_isPlain (plain : call.IsPlain)
    (sound : (Moment.mk crowd.host call).IsSound) :
    (crowd.after i call next).scene = crowd.scene :=
  scene_after_of_unchanged (congrArg _ (Moment.surface_of_isPlain plain))
    (Moment.storedMode_of_keepsMode plain.keepsMode sound) (Moment.not_replaces_of_isPlain plain)

/-- After a replacement of everything by a mode's rules, these are the active ones. -/
theorem scene_after_of_replaces {config : Config} {mode : Mode} {domains : List Domain}
    {removed : List RuleId} {added : List Rule} {next : Except EngineError Unit → Program α}
    (all : removed = crowd.host.surface.activeIds)
    (compiled : added = config.compiler.rulesFor mode domains)
    (accepted : Moment.reply ⟨crowd.host, .replaceRules removed added⟩ = .ok ()) :
    (crowd.after i (.replaceRules removed added) next).scene =
      { crowd.scene with rules := added, replaced := True } := by
  subst all compiled
  rcases Moment.replaceRules_cases crowd.host crowd.host.surface.activeIds
    (config.compiler.rulesFor mode domains) with ⟨surface, replaced, -, later⟩ | ⟨error, refused, -⟩
  · refine Scene.ext ?_ ?_ (eq_true (exists_replaces_after.mpr (.inr (.intro accepted))))
    · exact Moment.storedMode_of_keepsMode nofun trivial
    · change (Moment.later _).surface.rules = _
      rw [later, Surface.eq_withRules_of_replace replaced]
      rfl
  · exact absurd (accepted.symm.trans refused) nofun

/-- A replacement that is refused leaves the scene as it was. -/
theorem scene_after_of_refused {removed : List RuleId} {added : List Rule} {error : EngineError}
    {next : Except EngineError Unit → Program α}
    (refused : Moment.reply ⟨crowd.host, .replaceRules removed added⟩ = .error error) :
    (crowd.after i (.replaceRules removed added) next).scene = crowd.scene := by
  rcases Moment.replaceRules_cases crowd.host removed added with
    ⟨surface, -, accepted, -⟩ | ⟨error, -, later⟩
  · exact absurd (refused.symm.trans accepted) nofun
  · refine scene_after_of_unchanged ?_ (Moment.storedMode_of_keepsMode nofun trivial) ?_
    · rw [later, Host.noting_surface]
    · rintro ⟨accepted⟩
      exact absurd (refused.symm.trans accepted) nofun

/-- After a state was stored, its mode is the stored one. -/
theorem scene_after_of_stores {value : Json} {next : Except EngineError Unit → Program α}
    (accepted : Moment.reply ⟨crowd.host, .writeEntry stateKey value⟩ = .ok ())
    (sound : (Moment.mk crowd.host (.writeEntry stateKey value)).IsSound) :
    (crowd.after i (.writeEntry stateKey value) next).scene =
      { crowd.scene with stored := (State.ofJson value).toOption.map (·.mode) } := by
  refine Scene.ext ?_ ?_ (propext ?_)
  · change Host.storedMode (Moment.later _) = _
    rw [Host.storedMode, sound.1 accepted]
  · exact congrArg Surface.rules (Moment.later_surface nofun)
  · exact exists_replaces_after.trans (or_iff_left nofun)

/-! ## The holder of the mode lock -/

theorem holder_after_acquire (lock : Lock) (next : Unit → Program α) :
    (crowd.after i (.acquire lock) next).holder lock = some i :=
  Function.update_self _ _ _

theorem holder_after_release (lock : Lock) (next : Unit → Program α) :
    (crowd.after i (.release lock) next).holder lock = none :=
  Function.update_self _ _ _

theorem holder_after_of_ne {lock : Lock} (acquire : call ≠ .acquire lock)
    (release : call ≠ .release lock) :
    (crowd.after i call next).holder lock = crowd.holder lock := by
  cases call with
  | acquire other => exact Function.update_of_ne (fun same => acquire (by rw [same])) _ _
  | release other => exact Function.update_of_ne (fun same => release (by rw [same])) _ _
  | _ => rfl

/-! ## The ledger after a call -/

theorem ledger_after :
    (crowd.after i call next).ledger = crowd.ledger.note (i, ⟨crowd.host, call⟩) :=
  List.foldl_append

theorem found_after_of_unread (unread : (Moment.mk crowd.host call).modeRead? = none) :
    (crowd.after i call next).ledger.found = crowd.ledger.found := by
  rw [ledger_after, Ledger.note]
  dsimp only
  rw [unread]

theorem found_after_of_read {mode : Mode}
    (read : (Moment.mk crowd.host call).modeRead? = some mode) :
    (crowd.after i call next).ledger.found =
      Function.update crowd.ledger.found i (some mode) := by
  rw [ledger_after, Ledger.note]
  dsimp only
  rw [read]

theorem found_after_of_ne (other : j ≠ i) :
    (crowd.after i call next).ledger.found j = crowd.ledger.found j := by
  cases read : (Moment.mk crowd.host call).modeRead? with
  | none => rw [found_after_of_unread read]
  | some mode =>
    rw [found_after_of_read read]
    exact Function.update_of_ne other _ _

theorem switches_after_of_unstored (unstored : (Moment.mk crowd.host call).modeStored? = none) :
    (crowd.after i call next).ledger.switches = crowd.ledger.switches := by
  rw [ledger_after, Ledger.note]
  dsimp only
  rw [unstored]

theorem switches_after_of_stored {mode : Mode}
    (stored : (Moment.mk crowd.host call).modeStored? = some mode) :
    (crowd.after i call next).ledger.switches =
      crowd.ledger.switches ++ [⟨i, crowd.ledger.found i, mode⟩] := by
  rw [ledger_after, Ledger.note]
  dsimp only
  rw [stored]

theorem changed_after_of_ne (other : j ≠ i) :
    (∃ switch ∈ (crowd.after i call next).ledger.switches, switch.task = j) ↔
      ∃ switch ∈ crowd.ledger.switches, switch.task = j := by
  cases stored : (Moment.mk crowd.host call).modeStored? with
  | none => rw [switches_after_of_unstored stored]
  | some mode =>
    rw [switches_after_of_stored stored]
    simp only [List.mem_append, List.mem_singleton, or_and_right, exists_or, exists_eq_left]
    exact or_iff_left (Ne.symm other)

/-! ## The standings after a call -/

variable {config : Config} {complete : List Domain → Prop} {asked : Option Mode}

/-- A call that changes neither the rules nor the stored mode moves a standing by the mode lock and
by what is read. -/
theorem standing_after_of_isPlain (plain : call.IsPlain)
    (sound : (Moment.mk crowd.host call).IsSound) :
    (crowd.after i call next).standing j =
      { crowd.standing j with
        scene := if (crowd.after i call next).holder .mode = some j then some crowd.scene else none
        found := (crowd.after i call next).ledger.found j } := by
  unfold standing
  rw [scene_after_of_isPlain plain sound,
    switches_after_of_unstored (Moment.modeStored?_of_keepsMode plain.keepsMode)]

/-- One that has nothing to do with the mode lock and the stored mode moves none. -/
theorem standing_after_of_idle (plain : call.IsPlain)
    (sound : (Moment.mk crowd.host call).IsSound) (acquire : call ≠ .acquire .mode)
    (release : call ≠ .release .mode) (unread : (Moment.mk crowd.host call).modeRead? = none) :
    (crowd.after i call next).standing j = crowd.standing j := by
  rw [standing_after_of_isPlain plain sound, holder_after_of_ne acquire release,
    found_after_of_unread unread]
  rfl

/-- A call moves no standing but that of the task that makes it. -/
theorem standing_after_of_ne (other : j ≠ i)
    (allows : (crowd.standing i).Allows config complete asked call)
    (free : crowd.isBlocked call = false) (sound : (Moment.mk crowd.host call).IsSound) :
    (crowd.after i call next).standing j = crowd.standing j := by
  refine Standing.ext ?_ (found_after_of_ne other) (propext (changed_after_of_ne other))
  change (if (crowd.after i call next).holder .mode = some j then _ else none) =
    if crowd.holder .mode = some j then _ else none
  by_cases holds : crowd.holder .mode = some j
  · -- The task that calls is outside the lock, so it changes neither the lock nor the scene.
    have outside : (crowd.standing i).scene = none := by
      refine scene_standing_of_not_holds fun same => other ?_
      exact Option.some.inj (holds.symm.trans same)
    obtain ⟨plain, release⟩ := allows.isPlain_of_outside outside
    have acquire : call ≠ .acquire .mode := by
      rintro rfl
      exact absurd (holds.symm.trans (holder_eq_none free)) nofun
    rw [holder_after_of_ne acquire release, scene_after_of_isPlain plain sound]
  · rw [if_neg holds, if_neg]
    by_cases acquire : call = .acquire .mode
    · subst acquire
      rw [holder_after_acquire]
      exact fun same => other (Option.some.inj same).symm
    by_cases release : call = .release .mode
    · subst release
      rw [holder_after_release]
      exact nofun
    · rwa [holder_after_of_ne acquire release]

/-- Whoever takes the mode lock finds a scene that is settled. -/
theorem moves_acquire {next : Unit → Program α} (settled : crowd.scene.IsSettled config complete) :
    (modeProtocol config complete asked).Moves (crowd.standing i) (.acquire .mode) ()
      ((crowd.after i (.acquire .mode) next).standing i) := by
  have plain : Call.IsPlain (.acquire .mode) := ⟨nofun, nofun⟩
  refine ⟨crowd.scene, settled, (standing_after_of_isPlain plain trivial).trans ?_⟩
  rw [holder_after_acquire, if_pos rfl, found_after_of_unread rfl]
  rfl

theorem moves_release {next : Unit → Program α} :
    (modeProtocol config complete asked).Moves (crowd.standing i) (.release .mode) ()
      ((crowd.after i (.release .mode) next).standing i) := by
  have plain : Call.IsPlain (.release .mode) := ⟨nofun, nofun⟩
  refine (standing_after_of_isPlain plain trivial).trans ?_
  rw [holder_after_release, if_neg nofun, found_after_of_unread rfl]
  rfl

/-- The mode that is read under the mode lock is the stored one. -/
theorem moves_readEntry_stateKey {next : Except EngineError (Option Json) → Program α} :
    (modeProtocol config complete asked).Moves (crowd.standing i) (.readEntry stateKey)
      (Moment.reply ⟨crowd.host, .readEntry stateKey⟩)
      ((crowd.after i (.readEntry stateKey) next).standing i) := by
  have plain : Call.IsPlain (.readEntry stateKey) := ⟨nofun, nofun⟩
  have read := Moment.modeRead?_stateKey crowd.host
  have kept : (crowd.after i (.readEntry stateKey) next).holder .mode = crowd.holder .mode := rfl
  refine modeProtocol.moves_readEntry_stateKey.mpr
    ⟨(standing_after_of_isPlain plain trivial).trans ?_, ?_⟩
  · rw [kept]
    cases found : (Moment.reply ⟨crowd.host, .readEntry stateKey⟩).bind Engine.stateOf with
    | error error =>
      rw [found] at read
      rw [found_after_of_unread read]
      rfl
    | ok state =>
      rw [found] at read
      rw [found_after_of_read read, Function.update_self]
      rfl
  · intro state scene read held
    obtain ⟨-, rfl⟩ := holds_of_scene_standing held
    rcases Moment.reply_readEntry crowd.host stateKey with answered | ⟨error, refused⟩
    · rw [answered] at read
      exact Host.storedMode_eq_some_iff.mpr read
    · rw [refused] at read
      contradiction

/-- A state that is stored under the mode lock becomes the stored one. -/
theorem moves_writeEntry_stateKey {mode : Mode} {next : Except EngineError Unit → Program α}
    (accepted : Moment.reply ⟨crowd.host, .writeEntry stateKey (State.mk mode).toJson⟩ = .ok ())
    (sound : (Moment.mk crowd.host (.writeEntry stateKey (State.mk mode).toJson)).IsSound) :
    (modeProtocol config complete asked).Moves (crowd.standing i)
      (.writeEntry stateKey (State.mk mode).toJson)
      (Moment.reply ⟨crowd.host, .writeEntry stateKey (State.mk mode).toJson⟩)
      ((crowd.after i (.writeEntry stateKey (State.mk mode).toJson) next).standing i) := by
  have switches :
      (crowd.after i (.writeEntry stateKey (State.mk mode).toJson) next).ledger.switches =
        crowd.ledger.switches ++ [⟨i, crowd.ledger.found i, mode⟩] :=
    switches_after_of_stored (Moment.modeStored?_stateKey accepted)
  refine modeProtocol.moves_writeEntry_stateKey.mpr ⟨accepted, Standing.ext ?_ ?_ (eq_true ?_)⟩
  · simp only [standing, Standing.storing, scene_after_of_stores accepted sound,
      apply_ite (Option.map _), Option.map_some, Option.map_none]
    rfl
  · exact congrFun (found_after_of_unread rfl) i
  · change ∃ switch ∈ (crowd.after i _ next).ledger.switches, switch.task = i
    rw [switches]
    exact ⟨_, List.mem_append_right _ List.mem_cons_self, rfl⟩

/-- Rules that replace everything that is active under the mode lock become the active ones. -/
theorem moves_replaceRules {mode : Mode} {domains : List Domain} {removed : List RuleId}
    {added : List Rule} {next : Except EngineError Unit → Program α}
    (all : removed = crowd.host.surface.activeIds)
    (compiled : added = config.compiler.rulesFor mode domains) :
    (modeProtocol config complete asked).Moves (crowd.standing i) (.replaceRules removed added)
      (Moment.reply ⟨crowd.host, .replaceRules removed added⟩)
      ((crowd.after i (.replaceRules removed added) next).standing i) := by
  have noted : (crowd.after i (.replaceRules removed added) next).ledger = crowd.ledger :=
    ledger_after
  cases reply : Moment.reply ⟨crowd.host, .replaceRules removed added⟩ with
  | ok _ =>
    refine .inl ⟨rfl, ?_⟩
    simp only [standing, noted, scene_after_of_replaces all compiled reply, Standing.replacing,
      apply_ite (Option.map _), Option.map_some, Option.map_none]
    rfl
  | error error =>
    refine .inr ⟨⟨error, rfl⟩, ?_⟩
    simp only [standing, noted, scene_after_of_refused reply]
    rfl

/-- A call that the protocol allows moves the standing of its task as the protocol has it. -/
theorem moves_after (allows : (crowd.standing i).Allows config complete asked call)
    (free : crowd.isBlocked call = false) (fair : (Moment.mk crowd.host call).IsFair complete)
    (settled : crowd.holder .mode = none → crowd.scene.IsSettled config complete)
    (cached : crowd.host.CachesOnly complete) :
    (modeProtocol config complete asked).Moves (crowd.standing i) call
      (Moment.reply ⟨crowd.host, call⟩) ((crowd.after i call next).standing i) := by
  cases call with
  | fetchList =>
    refine ⟨standing_after_of_idle ⟨nofun, nofun⟩ fair.sound nofun nofun rfl, ?_⟩
    exact fun text fetched => fair.complete text (.intro fetched)
  | readEntry key =>
    by_cases state : key = stateKey
    · subst state
      exact moves_readEntry_stateKey
    · refine (modeProtocol.moves_readEntry_of_ne state).mpr ⟨?_, ?_⟩
      · exact standing_after_of_idle ⟨nofun, nofun⟩ fair.sound nofun nofun
          (Moment.modeRead?_of_ne state)
      · rintro rfl value cache read decoded
        rcases Moment.reply_readEntry crowd.host filterCacheKey with answered | ⟨error, refused⟩
        · exact cached value cache (answered.symm.trans read) decoded
        · exact absurd (refused.symm.trans read) nofun
  | writeEntry key value =>
    by_cases state : key = stateKey
    · subst state
      obtain ⟨scene, previous, mode, -, -, -, -, -, -, rfl⟩ := allows.2 rfl
      exact moves_writeEntry_stateKey fair.stores fair.sound
    · refine (modeProtocol.moves_writeEntry_of_ne state).mpr ?_
      refine standing_after_of_idle ⟨nofun, ?_⟩ fair.sound nofun nofun rfl
      rintro _ ⟨⟩
      exact state rfl
  | activeIds =>
    refine ⟨standing_after_of_idle ⟨nofun, nofun⟩ fair.sound nofun nofun rfl, ?_⟩
    intro ids scene given held
    obtain ⟨-, rfl⟩ := holds_of_scene_standing held
    rcases Moment.reply_activeIds crowd.host with answered | ⟨error, refused⟩
    · exact (Except.ok.inj (answered.symm.trans given)).symm
    · exact absurd (refused.symm.trans given) nofun
  | replaceRules removed added =>
    obtain ⟨scene, mode, domains, held, all, -, compiled⟩ := allows
    obtain ⟨-, rfl⟩ := holds_of_scene_standing held
    exact moves_replaceRules all compiled
  | acquire lock =>
    cases lock with
    | mode => exact moves_acquire (settled (holder_eq_none free))
    | synchronization =>
      exact standing_after_of_idle ⟨nofun, nofun⟩ fair.sound nofun nofun rfl
  | release lock =>
    cases lock with
    | mode => exact moves_release
    | synchronization =>
      exact standing_after_of_idle ⟨nofun, nofun⟩ fair.sound nofun nofun rfl
  | _ => exact standing_after_of_idle ⟨nofun, nofun⟩ fair.sound nofun nofun rfl

end Crowd

end Blocklist
