import Blocklist.Host
import Blocklist.Proofs.Replacement

/-!
# What a surface accepts

A replacement is checked against the ids that stay, rule by rule and then as a whole, and only then
carried out. So it goes through exactly when all its rules can be added beside the rules that stay
and the quota has room for both, and otherwise it is refused for its first rule that cannot be
added, or else for the quota. Along any row of replacements, refused ones included, the rules stay
within the quota, sorted by id without repetition, and none has an empty condition.
-/

namespace Blocklist

namespace Surface

variable {surface next : Surface} {taken ids removed : List RuleId} {rule : Rule}
variable {rules added : List Rule} {refusal : Refusal}

/-- Why a rule cannot be added beside the ids taken already. An empty condition comes first. -/
inductive Offends (taken : List RuleId) (rule : Rule) : Refusal → Prop where
  | emptyCondition (empty : rule.condition.isEmpty = true) :
      Offends taken rule (.emptyCondition rule.id)
  | repeatedId (named : rule.condition.isEmpty = false) (repeated : rule.id ∈ taken) :
      Offends taken rule (.repeatedId rule.id)

/-- The first rule of a row that cannot be added beside the ids taken already and those of the rules
before it. -/
def FirstOffends (taken : List RuleId) (rules : List Rule) (refusal : Refusal) : Prop :=
  ∃ front rule back, rules = front ++ rule :: back ∧ Acceptable taken front ∧
    Offends (taken ++ front.map (·.id)) rule refusal

theorem acceptable_nil (taken : List RuleId) : Acceptable taken [] :=
  ⟨nofun, List.nodup_nil, nofun⟩

theorem acceptable_cons_iff :
    Acceptable taken (rule :: rules) ↔
      rule.condition.isEmpty = false ∧ rule.id ∉ taken ∧ Acceptable (rule.id :: taken) rules := by
  constructor
  · intro acceptable
    exact ⟨acceptable.conditions rule List.mem_cons_self, acceptable.free rule List.mem_cons_self,
      acceptable.tail⟩
  · rintro ⟨condition, free, conditions, distinct, others⟩
    have apart : ∀ other ∈ rules, other.id ≠ rule.id ∧ other.id ∉ taken := by
      intro other member
      simpa using others other member
    refine ⟨List.forall_mem_cons.mpr ⟨condition, conditions⟩, ?_, ?_⟩
    · refine List.nodup_cons.mpr ⟨?_, distinct⟩
      intro repeated
      obtain ⟨other, member, same⟩ := List.mem_map.mp repeated
      exact (apart other member).1 same
    · exact List.forall_mem_cons.mpr ⟨free, fun other member => (apart other member).2⟩

/-! ## The check -/

/-- The check goes well exactly for rules that can be added. -/
theorem accept_eq_ok_iff :
    accept taken rules = .ok ids ↔
      Acceptable taken rules ∧ ids = (rules.map (·.id)).reverse ++ taken := by
  constructor
  · intro accepted
    have acceptable : Acceptable taken rules := by
      induction rules generalizing taken with
      | nil => exact acceptable_nil taken
      | cons rule rest ih =>
        simp only [accept, List.contains_iff_mem] at accepted
        split at accepted
        · contradiction
        · next named =>
          split at accepted
          · contradiction
          · next free =>
            exact acceptable_cons_iff.mpr ⟨Bool.not_eq_true _ ▸ named, free, ih accepted⟩
    rw [accept_of_acceptable acceptable] at accepted
    exact ⟨acceptable, (Except.ok.inj accepted).symm⟩
  · rintro ⟨acceptable, rfl⟩
    exact accept_of_acceptable acceptable

theorem Offends.of_subset (offends : Offends taken rule refusal) (within : taken ⊆ ids) :
    Offends ids rule refusal := by
  cases offends with
  | emptyCondition empty => exact .emptyCondition empty
  | repeatedId named repeated => exact .repeatedId named (within repeated)

/-- A check that goes badly has met a rule that cannot be added, and no such rule before it. -/
theorem firstOffends_of_accept (refused : accept taken rules = .error refusal) :
    FirstOffends taken rules refusal := by
  induction rules generalizing taken with
  | nil => contradiction
  | cons rule rest ih =>
    have first (offends : Offends taken rule refusal) : FirstOffends taken (rule :: rest) refusal :=
      ⟨[], rule, rest, rfl, acceptable_nil taken, by simpa using offends⟩
    simp only [accept, List.contains_iff_mem] at refused
    split at refused
    · next empty =>
      obtain rfl := Except.error.inj refused
      exact first (.emptyCondition empty)
    · next named =>
      rw [Bool.not_eq_true] at named
      split at refused
      · next repeated =>
        obtain rfl := Except.error.inj refused
        exact first (.repeatedId named repeated)
      · next free =>
        obtain ⟨front, other, back, rfl, acceptable, offends⟩ := ih refused
        exact ⟨rule :: front, other, back, rfl,
          acceptable_cons_iff.mpr ⟨named, free, acceptable⟩,
          offends.of_subset List.perm_middle.symm.subset⟩

/-- A row is refused for its first rule that cannot be added. -/
theorem accept_eq_error_iff :
    accept taken rules = .error refusal ↔ FirstOffends taken rules refusal := by
  refine ⟨firstOffends_of_accept, ?_⟩
  rintro ⟨front, rule, back, rfl, acceptable, offends⟩
  induction front generalizing taken with
  | nil =>
    rw [List.map_nil, List.append_nil] at offends
    cases offends with
    | emptyCondition empty => simp [accept, empty]
    | repeatedId named repeated => simp [accept, named, repeated]
  | cons first front ih =>
    obtain ⟨named, free, acceptable⟩ := acceptable_cons_iff.mp acceptable
    have rest := ih acceptable (offends.of_subset List.perm_middle.subset)
    simpa [accept, named, free] using rest

/-! ## The replacement -/

/-- Rules that cannot all be added are refused, whatever the quota. -/
theorem replace_of_firstOffends
    (offends : FirstOffends (surface.keptIds removed) added refusal) :
    surface.replace removed added = .error refusal := by
  have refused := accept_eq_error_iff.mpr offends
  rw [keptIds] at refused
  simp only [replace, refused]
  rfl

theorem acceptable_or_firstOffends (taken : List RuleId) (rules : List Rule) :
    Acceptable taken rules ∨ ∃ refusal, FirstOffends taken rules refusal := by
  cases outcome : accept taken rules with
  | ok ids => exact .inl (accept_eq_ok_iff.mp outcome).1
  | error refusal => exact .inr ⟨refusal, firstOffends_of_accept outcome⟩

/-- A replacement goes through exactly when every rule can be added and there is room for all. -/
theorem replace_eq_ok_iff :
    surface.replace removed added = .ok next ↔
      Acceptable (surface.keptIds removed) added ∧
        (surface.kept removed).length + added.length ≤ surface.quota ∧
        next = surface.withRules (surface.merged removed added) := by
  constructor
  · intro accepted
    rcases acceptable_or_firstOffends (surface.keptIds removed) added with
      acceptable | ⟨refusal, offends⟩
    · rw [replace_of_acceptable acceptable] at accepted
      split at accepted
      · contradiction
      · next room => exact ⟨acceptable, Nat.le_of_not_lt room, (Except.ok.inj accepted).symm⟩
    · rw [replace_of_firstOffends offends] at accepted
      contradiction
  · rintro ⟨acceptable, room, rfl⟩
    rw [replace_of_acceptable acceptable, if_neg (Nat.not_lt.mpr room)]

/-- A replacement that is refused is refused for the first rule that cannot be added, or for the
quota when there is no such rule. -/
theorem replace_eq_error_iff :
    surface.replace removed added = .error refusal ↔
      FirstOffends (surface.keptIds removed) added refusal ∨
        Acceptable (surface.keptIds removed) added ∧
          surface.quota < (surface.kept removed).length + added.length ∧
          refusal = .overQuota ((surface.kept removed).length + added.length) surface.quota := by
  constructor
  · intro refused
    rcases acceptable_or_firstOffends (surface.keptIds removed) added with
      acceptable | ⟨first, offends⟩
    · rw [replace_of_acceptable acceptable] at refused
      split at refused
      · next exceeds => exact .inr ⟨acceptable, exceeds, (Except.error.inj refused).symm⟩
      · contradiction
    · rw [replace_of_firstOffends offends] at refused
      obtain rfl := Except.error.inj refused
      exact .inl offends
  · rintro (offends | ⟨acceptable, exceeds, rfl⟩)
    · exact replace_of_firstOffends offends
    · rw [replace_of_acceptable acceptable, if_pos exceeds]

theorem mem_kept_iff : rule ∈ surface.kept removed ↔ rule ∈ surface.rules ∧ rule.id ∉ removed := by
  simp [kept]

theorem merged_perm (surface : Surface) (removed : List RuleId) (added : List Rule) :
    (surface.merged removed added).Perm (surface.kept removed ++ added) :=
  List.mergeSort_perm _ _

/-! ## What replacements keep -/

/-- The rules of a surface are within the quota, sorted by id without repetition, and none has an
empty condition. -/
structure Valid (surface : Surface) : Prop where
  withinQuota : surface.rules.length ≤ surface.quota
  ordered : StrictlyOrdered surface.rules
  conditions : ∀ rule ∈ surface.rules, rule.condition.isEmpty = false

/-- No two rules share an id after rules are added that can be. -/
theorem nodup_ids_merged (ordered : StrictlyOrdered surface.rules)
    (acceptable : Acceptable (surface.keptIds removed) added) :
    ((surface.merged removed added).map (·.id)).Nodup := by
  have kept : StrictlyOrdered (surface.kept removed) := ordered.sublist List.filter_sublist
  refine ((surface.merged_perm removed added).map _).nodup_iff.mpr ?_
  rw [List.map_append]
  refine List.nodup_append.mpr ⟨kept.nodup_ids, acceptable.distinct, ?_⟩
  intro id stays other isAdded same
  obtain ⟨rule, member, rfl⟩ := List.mem_map.mp isAdded
  rw [same] at stays
  exact acceptable.free rule member stays

theorem strictlyOrdered_merged (ordered : StrictlyOrdered surface.rules)
    (acceptable : Acceptable (surface.keptIds removed) added) :
    StrictlyOrdered (surface.merged removed added) := by
  have sorted : (surface.merged removed added).Pairwise fun a b => a.id ≤ b.id := by
    refine (List.pairwise_mergeSort ?_ ?_ _).imp of_decide_eq_true
    · intro a b c first second
      exact decide_eq_true (UInt32.le_trans (of_decide_eq_true first) (of_decide_eq_true second))
    · intro a b
      simpa using UInt32.le_total a.id b.id
  have distinct := List.pairwise_map.mp (nodup_ids_merged ordered acceptable)
  refine (sorted.and distinct).imp ?_
  rintro a b ⟨below, differs⟩
  exact UInt32.lt_of_le_of_ne below differs

/-- A replacement that goes through keeps a surface valid. -/
theorem Valid.replace (valid : surface.Valid)
    (accepted : surface.replace removed added = .ok next) : next.Valid := by
  obtain ⟨acceptable, room, rfl⟩ := replace_eq_ok_iff.mp accepted
  have merging := surface.merged_perm removed added
  refine ⟨?_, strictlyOrdered_merged valid.ordered acceptable, ?_⟩
  · change (surface.merged removed added).length ≤ surface.quota
    rw [merging.length_eq, List.length_append]
    exact room
  · intro rule member
    rcases List.mem_append.mp (merging.mem_iff.mp member) with stays | isAdded
    · exact valid.conditions rule (mem_kept_iff.mp stays).1
    · exact acceptable.conditions rule isAdded

theorem valid_empty (quota : Nat) : ({ quota } : Surface).Valid :=
  ⟨Nat.zero_le quota, List.Pairwise.nil, nofun⟩

end Surface

/-! ## Rows of replacements -/

structure Replacement where
  removed : List RuleId
  added : List Rule

namespace Host

variable {host : Host} {removed : List RuleId} {added : List Rule}

/-- The host after replacements were asked for in turn. -/
def replacing : List Replacement → Host → Host
  | [], host => host
  | asked :: others, host =>
    replacing others (Host.replaceRules asked.removed asked.added host).2

theorem replaceRules_of_ok {next : Surface}
    (accepted : host.surface.replace removed added = .ok next) :
    Host.replaceRules removed added host = (.ok (), { host with surface := next }) := by
  simp only [replaceRules, accepted]

theorem replaceRules_of_error {refusal : Surface.Refusal}
    (refused : host.surface.replace removed added = .error refusal) :
    Host.replaceRules removed added host = (.error (.enforcement refusal.message), host) := by
  simp only [replaceRules, refused]

/-- A replacement that is asked for keeps the surface valid and its quota, whatever comes of it. -/
theorem valid_replaceRules (valid : host.surface.Valid) (removed : List RuleId)
    (added : List Rule) :
    (Host.replaceRules removed added host).2.surface.Valid ∧
      (Host.replaceRules removed added host).2.surface.quota = host.surface.quota := by
  cases outcome : host.surface.replace removed added with
  | ok next =>
    rw [replaceRules_of_ok outcome]
    obtain ⟨-, -, rfl⟩ := Surface.replace_eq_ok_iff.mp outcome
    exact ⟨valid.replace outcome, rfl⟩
  | error refusal =>
    rw [replaceRules_of_error outcome]
    exact ⟨valid, rfl⟩

theorem valid_replacing (valid : host.surface.Valid) (asked : List Replacement) :
    (replacing asked host).surface.Valid ∧
      (replacing asked host).surface.quota = host.surface.quota := by
  induction asked generalizing host with
  | nil => exact ⟨valid, rfl⟩
  | cons first others ih =>
    obtain ⟨kept, quota⟩ := valid_replaceRules valid first.removed first.added
    obtain ⟨keptOn, quotaOn⟩ := ih kept
    exact ⟨keptOn, quotaOn.trans quota⟩

theorem replaceRules_ok_iff :
    (Host.replaceRules removed added host).1 = .ok () ↔
      ∃ next, host.surface.replace removed added = .ok next := by
  cases outcome : host.surface.replace removed added with
  | ok next => simp [replaceRules_of_ok outcome]
  | error refusal => simp [replaceRules_of_error outcome]

theorem replaceRules_error_iff {error : EngineError} :
    (Host.replaceRules removed added host).1 = .error error ↔
      ∃ refusal, host.surface.replace removed added = .error refusal ∧
        error = .enforcement refusal.message := by
  cases outcome : host.surface.replace removed added with
  | ok next => simp [replaceRules_of_ok outcome]
  | error refusal => simp [replaceRules_of_error outcome, eq_comm]

/-- On a surface that was empty at first, after any row of replacements: the rules are within the
quota, none has an empty condition, and the active ids are theirs, strictly growing. A further
replacement goes through exactly when the rules that it adds have conditions and share no id, with
each other or with a rule that stays, and the quota has room for them beside the rules that stay.
Then the rules are those that stay and those that were added, and one more replacement is counted.
Otherwise it is refused for the first rule that cannot be added, or for the quota when there is no
such rule, and nothing changes. -/
theorem replaceRules_accepts_exactly (quota : Nat) (host : Host) (earlier : List Replacement)
    (removed : List RuleId) (added : List Rule) :
    let current := replacing earlier { host with surface := { quota } }
    let surface := current.surface
    let outcome := (Host.replaceRules removed added current).1
    let later := (Host.replaceRules removed added current).2
    let staying := surface.rules.filter fun rule => rule.id ∉ removed
    let addable := Surface.Acceptable (staying.map (·.id)) added
    (surface.rules.length ≤ quota ∧ (∀ rule ∈ surface.rules, rule.condition.isEmpty = false) ∧
        (∀ id, id ∈ surface.activeIds ↔ ∃ rule ∈ surface.rules, rule.id = id) ∧
        surface.activeIds.Pairwise (· < ·)) ∧
      (outcome = .ok () ↔ addable ∧ staying.length + added.length ≤ quota) ∧
      (outcome = .ok () →
        (∀ rule, rule ∈ later.surface.rules ↔ rule ∈ staying ∨ rule ∈ added) ∧
          later.surface.replaceCount = surface.replaceCount + 1 ∧
          later = { current with surface := surface.withRules later.surface.rules }) ∧
      (∀ error, outcome = .error error ↔ ∃ refusal, error = .enforcement refusal.message ∧
        (Surface.FirstOffends (staying.map (·.id)) added refusal ∨
          addable ∧ quota < staying.length + added.length ∧
            refusal = .overQuota (staying.length + added.length) quota)) ∧
      ∀ error, outcome = .error error → later = current := by
  intro current surface outcome later staying addable
  have empty : ({ host with surface := { quota } } : Host).surface.Valid :=
    Surface.valid_empty quota
  obtain ⟨valid, unchanged⟩ : surface.Valid ∧ surface.quota = quota :=
    valid_replacing empty earlier
  have kept : surface.kept removed = staying := by simp [Surface.kept, staying]
  have accepts (next : Surface) : surface.replace removed added = .ok next ↔
      addable ∧ staying.length + added.length ≤ quota ∧
        next = surface.withRules (surface.merged removed added) := by
    rw [Surface.replace_eq_ok_iff, Surface.keptIds, kept, unchanged]
  have refuses (refusal : Surface.Refusal) : surface.replace removed added = .error refusal ↔
      Surface.FirstOffends (staying.map (·.id)) added refusal ∨
        addable ∧ quota < staying.length + added.length ∧
          refusal = .overQuota (staying.length + added.length) quota := by
    rw [Surface.replace_eq_error_iff, Surface.keptIds, kept, unchanged]
  refine ⟨⟨unchanged ▸ valid.withinQuota, valid.conditions, ?_, ?_⟩, ?_, ?_, ?_, ?_⟩
  · intro id
    exact List.mem_map
  · exact List.pairwise_map.mpr valid.ordered
  · refine replaceRules_ok_iff.trans ?_
    constructor
    · rintro ⟨next, accepted⟩
      obtain ⟨acceptable, room, -⟩ := (accepts next).mp accepted
      exact ⟨acceptable, room⟩
    · rintro ⟨acceptable, room⟩
      exact ⟨_, (accepts _).mpr ⟨acceptable, room, rfl⟩⟩
  · intro succeeded
    obtain ⟨next, accepted⟩ := replaceRules_ok_iff.mp succeeded
    obtain ⟨-, -, rfl⟩ := (accepts next).mp accepted
    have reached : later = { current with
        surface := surface.withRules (surface.merged removed added) } :=
      congrArg Prod.snd (replaceRules_of_ok accepted)
    rw [reached]
    refine ⟨?_, rfl, rfl⟩
    intro rule
    rw [← kept, ← List.mem_append]
    exact (surface.merged_perm removed added).mem_iff
  · intro error
    refine replaceRules_error_iff.trans ?_
    constructor
    · rintro ⟨refusal, refused, message⟩
      exact ⟨refusal, message, (refuses refusal).mp refused⟩
    · rintro ⟨refusal, message, cause⟩
      exact ⟨refusal, (refuses refusal).mpr cause, message⟩
  · intro error failed
    obtain ⟨refusal, refused, -⟩ := replaceRules_error_iff.mp failed
    exact congrArg Prod.snd (replaceRules_of_error refused)

end Host

end Blocklist
