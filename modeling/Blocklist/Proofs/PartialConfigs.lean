import Blocklist.Proofs.Formats
import Blocklist.Proofs.Printing

/-!
# Configurations with some of their members

An object that holds some members of a configuration, in any order and with unknown members among
them, decodes to the configuration with these members and defaults for the others: after each
member the draft holds exactly the members that have been met. The reader of texts follows the
decoder, whatever the form of the text, and what it has read is checked as a whole. So a member
that a text leaves out is checked with its default.
-/

namespace Blocklist.Config

open Json (Blank EndsNumber Member Spells ScalarSpells Reader)

/-! ## Members that are met -/

/-- The configuration with the chosen members of another one, and defaults for the others. -/
def merged (config : Config) (chosen : Key → Bool) : Config :=
  let defaults : Config := {}
  { listUrl := if chosen .listUrl then config.listUrl else defaults.listUrl
    cacheTtlMs := if chosen .cacheTtlMs then config.cacheTtlMs else defaults.cacheTtlMs
    maxDomainRules :=
      if chosen .maxDomainRules then config.maxDomainRules else defaults.maxDomainRules
    domainRuleBaseId :=
      if chosen .domainRuleBaseId then config.domainRuleBaseId else defaults.domainRuleBaseId
    avgBytesPerRequest :=
      if chosen .avgBytesPerRequest then config.avgBytesPerRequest else defaults.avgBytesPerRequest
    refreshIntervalSecs :=
      if chosen .refreshIntervalSecs then config.refreshIntervalSecs
      else defaults.refreshIntervalSecs
    fetchTimeoutSecs :=
      if chosen .fetchTimeoutSecs then config.fetchTimeoutSecs else defaults.fetchTimeoutSecs
    userAgent := if chosen .userAgent then config.userAgent else defaults.userAgent }

/-- The chosen members of a configuration as an object has them. -/
def fields (config : Config) (chosen : Key → Bool) : List (String × Json) :=
  (Key.all.filter chosen).map fun key => (key.name, key.encode config)

theorem Key.mem_all (key : Key) : key ∈ all := by
  cases key <;> decide

theorem Key.ofName?_eq_none {name : String} (unknown : name ∉ all.map Key.name) :
    ofName? name = none := by
  refine List.find?_eq_none.mpr fun key among same => unknown ?_
  exact List.mem_map.mpr ⟨key, among, by simpa using same⟩

namespace Draft

variable {config : Config} {known : Key → Bool}

def holding (config : Config) (known : Key → Bool) : Draft where
  listUrl := if known .listUrl then some config.listUrl else none
  cacheTtlMs := if known .cacheTtlMs then some config.cacheTtlMs else none
  maxDomainRules := if known .maxDomainRules then some config.maxDomainRules else none
  domainRuleBaseId := if known .domainRuleBaseId then some config.domainRuleBaseId else none
  avgBytesPerRequest := if known .avgBytesPerRequest then some config.avgBytesPerRequest else none
  refreshIntervalSecs :=
    if known .refreshIntervalSecs then some config.refreshIntervalSecs else none
  fetchTimeoutSecs := if known .fetchTimeoutSecs then some config.fetchTimeoutSecs else none
  userAgent := if known .userAgent then some config.userAgent else none

theorem holding_none (config : Config) : holding config (fun _ => false) = {} := rfl

theorem has_holding (key : Key) : (holding config known).has key = known key := by
  cases key <;> simp [has, holding, apply_ite Option.isSome]

theorem set_holding (key : Key) : (holding config known).set key (key.encode config) =
    .ok (holding config fun other => other = key || known other) := by
  cases key <;>
    simp [set, holding, Key.encode, Json.decodeString, bind, Except.bind, pure, Except.pure]

theorem finish_holding : (holding config known).finish = config.merged known := by
  have settled {α : Type} (met : Bool) (value default : α) :
      (if met then some value else none).getD default = if met then value else default := by
    cases met <;> rfl
  simp only [finish, holding, settled, merged]

/-- The members that an object's members are known as. -/
def keysOf (members : List (String × Json)) : List Key :=
  members.filterMap fun member => Key.ofName? member.1

/-- A draft that holds some members of a configuration holds in the end also those that are met. -/
theorem absorb_members {members : List (String × Json)}
    (agree : ∀ member ∈ members, ∀ key, Key.ofName? member.1 = some key →
      member.2 = key.encode config)
    (distinct : (keysOf members).Nodup) (fresh : ∀ key ∈ keysOf members, known key = false) :
    members.foldlM absorb (holding config known) =
      .ok (holding config fun key => known key || decide (key ∈ keysOf members)) := by
  induction members generalizing known with
  | nil => simp [keysOf, pure, Except.pure]
  | cons member members ih =>
    obtain ⟨first, agree⟩ := List.forall_mem_cons.mp agree
    rw [List.foldlM_cons, absorb]
    cases named : Key.ofName? member.1 with
    | none =>
      have same : keysOf (member :: members) = keysOf members := by simp [keysOf, named]
      rw [same] at distinct fresh ⊢
      exact ih agree distinct fresh
    | some key =>
      have more : keysOf (member :: members) = key :: keysOf members := by simp [keysOf, named]
      rw [more] at distinct fresh ⊢
      obtain ⟨single, distinct⟩ := List.nodup_cons.mp distinct
      obtain ⟨missing, fresh⟩ := List.forall_mem_cons.mp fresh
      have others : ∀ other ∈ keysOf members, (decide (other = key) || known other) = false := by
        intro other among
        have differs : other ≠ key := fun same => single (same ▸ among)
        simp [differs, fresh other among]
      simp only [has_holding, missing, first key named, set_holding, Bool.false_eq_true, if_false]
      refine (ih agree distinct others).trans ?_
      congr 2
      funext other
      by_cases same : other = key <;> simp [same]

end Draft

/-- Members that arrange the chosen members of a configuration and unknown ones in any order are
known as just the chosen members, and hold their values. -/
theorem keysOf_of_perm {config : Config} {chosen : Key → Bool}
    {members foreign : List (String × Json)}
    (unknown : ∀ member ∈ foreign, member.1 ∉ Key.all.map Key.name)
    (arranged : members.Perm (config.fields chosen ++ foreign)) :
    (Draft.keysOf members).Perm (Key.all.filter chosen) ∧
      ∀ member ∈ members, ∀ key, Key.ofName? member.1 = some key →
        member.2 = key.encode config := by
  have none : ∀ member ∈ foreign, Key.ofName? member.1 = none := fun member among =>
    Key.ofName?_eq_none (unknown member among)
  constructor
  · have keys := arranged.filterMap fun member => Key.ofName? member.1
    rw [List.filterMap_append, List.filterMap_eq_nil_iff.mpr none, List.append_nil, fields,
      List.filterMap_map] at keys
    simpa [Draft.keysOf, Function.comp_def] using keys
  · intro member among key named
    rcases List.mem_append.mp (arranged.mem_iff.mp among) with own | strange
    · obtain ⟨other, -, rfl⟩ := List.mem_map.mp own
      rw [Key.ofName?_name] at named
      obtain rfl := Option.some.inj named
      rfl
    · rw [none member strange] at named
      contradiction

/-- An object decodes to the configuration with the members that it holds. -/
theorem ofJson_of_perm {config : Config} {chosen : Key → Bool}
    {members foreign : List (String × Json)}
    (unknown : ∀ member ∈ foreign, member.1 ∉ Key.all.map Key.name)
    (arranged : members.Perm (config.fields chosen ++ foreign)) :
    ofJson (.obj members) = .ok (config.merged chosen) := by
  obtain ⟨keys, agree⟩ := keysOf_of_perm unknown arranged
  have distinct : (Draft.keysOf members).Nodup :=
    keys.nodup_iff.mpr ((by decide : Key.all.Nodup).filter chosen)
  have met : (fun key => false || decide (key ∈ Draft.keysOf members)) = chosen := by
    funext key
    simp [keys.mem_iff, Key.mem_all]
  have fresh : ∀ key ∈ Draft.keysOf members, (fun _ : Key => false) key = false := fun _ _ => rfl
  have absorbed := Draft.absorb_members agree distinct fresh
  rw [met, Draft.holding_none] at absorbed
  rw [ofJson, Json.decodeRecord, absorbed, ← Draft.finish_holding]
  rfl

/-! ## Texts -/

section

variable {draft next result : Draft} {key : Key} {value : Json} {room steps : Nat}
variable {space text inner finish left rest : List Char}

/-- No member of a configuration is an array or an object. -/
theorem scalarSpells_of_set (spells : Spells room value text)
    (done : draft.set key value = .ok next) : ScalarSpells value text := by
  cases spells with
  | scalar spells => exact spells
  | arr _ _ | obj _ _ => cases key <;> contradiction

theorem reads_readMember (spells : Spells room value text)
    (done : draft.set key value = .ok next) (blank : Blank space) (ends : EndsNumber rest) :
    Reader.Reads (readMember key draft) (space ++ (text ++ rest)) next rest := by
  have scalar := scalarSpells_of_set spells done
  refine scalar.reads_first blank fun c tail written => ?_
  subst written
  refine (scalar.reads ends).bind ?_
  rw [done]
  exact .pure next rest

/-- Reads a member from its name on, and then the members that are left. -/
def readNamed (steps : Nat) (draft : Draft) : Reader Draft := do
  let name ← Reader.string
  match Key.ofName? name with
  | none =>
    Reader.colon
    Reader.skipValue
    readMembers steps false draft
  | some key =>
    if draft.has key then
      leaveObject
      Reader.undecodable (.duplicateField key.name)
    else
      Reader.colon
      readMembers steps false (← readMember key draft)

theorem readMembers_succ (steps : Nat) (first : Bool) (draft : Draft) :
    readMembers (steps + 1) first draft = (do
      if ← Reader.hasMember first then readNamed steps draft
      else
        Reader.skip
        return draft) := rfl

/-- What the decoder makes of a member the reader makes of its text. -/
theorem reads_readNamed {member : Member} (spells : Spells room member.value member.spelling)
    (absorbed : draft.absorb member.entry = .ok next) (ends : EndsNumber left)
    (reads : Reader.Reads (readMembers steps false next) left result rest) :
    Reader.Reads (readNamed steps draft) (member.text ++ left) result rest := by
  simp only [Member.text, List.append_assoc, List.cons_append]
  refine (Reader.Reads.string member.names _).bind ?_
  rw [Draft.absorb, Member.entry] at absorbed
  cases named : Key.ofName? member.name with
  | none =>
    simp only [named, Except.ok.injEq] at absorbed
    subst absorbed
    exact (Json.reads_colon member.gap_blank).bind
      ((spells.skipValue member.pad_blank ends).bind reads)
  | some key =>
    simp only [named] at absorbed
    split at absorbed
    · contradiction
    · next fresh =>
      simp only [fresh, Bool.false_eq_true, if_false]
      exact (Json.reads_colon member.gap_blank).bind
        ((reads_readMember spells absorbed member.pad_blank ends).bind reads)

/-- From before a member on, the members of an object are read up to its end. -/
theorem reads_separated {members : List Member}
    (separated : Json.Separated Member.text members inner)
    (each : ∀ member ∈ members, Spells room member.value member.spelling) (closes : Blank finish)
    (absorbed : (members.map Member.entry).foldlM Draft.absorb draft = .ok result)
    (enough : members.length ≤ steps) :
    Reader.Reads (readNamed steps draft) (inner ++ (finish ++ '\x7d' :: rest)) result rest := by
  induction separated generalizing draft steps with
  | last member =>
    obtain ⟨next, first, done⟩ := Json.bind_eq_ok_iff.mp absorbed
    obtain rfl := Except.ok.inj done
    obtain ⟨steps, rfl⟩ := Nat.exists_eq_add_one_of_ne_zero (Nat.ne_zero_of_lt enough)
    refine reads_readNamed (each member (.head _)) first
      (Json.endsNumber_of_blank closes (.tail _ (.tail _ (.head _)))) ?_
    rw [readMembers_succ]
    exact (Json.reads_hasMember_close false closes).bind (Reader.Reads.skip.bind (.pure _ rest))
  | @more member members after before inner ends begins others ih =>
    obtain ⟨spells, each⟩ := List.forall_mem_cons.mp each
    rw [List.map_cons, List.foldlM_cons] at absorbed
    obtain ⟨next, first, absorbed⟩ := Json.bind_eq_ok_iff.mp absorbed
    obtain ⟨steps, rfl⟩ := Nat.exists_eq_add_one_of_ne_zero (Nat.ne_zero_of_lt enough)
    have remaining := ih each absorbed (Nat.le_of_succ_le_succ enough)
    simp only [List.append_assoc, List.cons_append]
    refine reads_readNamed spells first (Json.endsNumber_of_blank ends (.head _)) ?_
    rw [readMembers_succ]
    exact (others.reads_hasMember_next ends begins).bind remaining

/-- The object of a text is read up to its end, behind its opening brace. -/
theorem reads_object {members : List Member}
    (enclosed : Json.Bracket.object.Encloses Member.text members text)
    (each : ∀ member ∈ members, Spells room member.value member.spelling)
    (absorbed : (members.map Member.entry).foldlM Draft.absorb {} = .ok draft) :
    ∃ inside, text = '\x7b' :: inside ∧ ∀ rest,
      Reader.Reads (readMembers ((inside ++ rest).length + 1) true {}) (inside ++ rest) draft
        rest := by
  cases enclosed with
  | @nothing blank closes =>
    obtain rfl := Except.ok.inj absorbed
    refine ⟨blank ++ ['\x7d'], rfl, fun rest => ?_⟩
    rw [readMembers_succ, List.append_assoc, List.singleton_append]
    exact (Json.reads_hasMember_close true closes).bind (Reader.Reads.skip.bind (.pure _ rest))
  | @entries _ before inner after begins separated closes =>
    refine ⟨before ++ (inner ++ (after ++ ['\x7d'])), rfl, fun rest => ?_⟩
    -- Every member takes a character and a step, so that there are steps enough.
    have fewer := separated.length_le
    rw [readMembers_succ]
    simp only [List.append_assoc, List.singleton_append]
    refine (separated.reads_hasMember_first begins).bind
      (reads_separated separated each closes absorbed ?_)
    simp only [List.length_append]
    omega

end

/-- A text that denotes an object is read as the configuration that the object decodes to. -/
theorem readAll_of_denotes {text : String} {members : List (String × Json)} {config : Config}
    (denotes : Json.Denotes text (.obj members)) (decoded : ofJson (.obj members) = .ok config) :
    Reader.readAll reader text = .ok config := by
  obtain ⟨draft, absorbed, rfl⟩ := Json.map_eq_ok_iff.mp decoded
  obtain ⟨_, before, body, after, opens, spells, closes, written⟩ := denotes
  obtain ⟨room, entries, rfl, each, enclosed⟩ := spells.exists_members
  obtain ⟨inside, rfl, reads⟩ := reads_object enclosed each absorbed
  have read : Reader.Reads reader text.toList draft.finish after := by
    rw [written, List.cons_append]
    refine (Json.reads_token opens rfl).bind (Reader.Reads.skip.bind ?_)
    exact fun position => ((reads after).map (f := Draft.finish)) position
  exact read.readAll closes

/-- The members that an object holds override the defaults: whichever members of a configuration it
holds, in whichever order and with whichever unknown members, it decodes to the configuration with
these members and the defaults of all others. A text that denotes the object is accepted, as that
configuration, just if the whole of it is valid, and refused for what makes it invalid if not. -/
theorem partial_merged_and_validated (config : Config) (chosen : Key → Bool)
    {members foreign : List (String × Json)}
    (unknown : ∀ member ∈ foreign, member.1 ∉ Key.all.map Key.name)
    (arranged : members.Perm (config.fields chosen ++ foreign)) :
    ofJson (.obj members) = .ok (config.merged chosen) ∧
      ∀ text, Json.Denotes text (.obj members) →
        (ofText text = .ok (config.merged chosen) ↔ (config.merged chosen).validate = .ok ()) ∧
        ∀ reason, (config.merged chosen).validate = .error reason →
          ofText text = .error (.storage ("Invalid config: " ++ reason.message)) := by
  have decoded := ofJson_of_perm unknown arranged
  refine ⟨decoded, fun text denotes => ?_⟩
  have read := readAll_of_denotes denotes decoded
  rw [ofText, read]
  dsimp only
  cases (config.merged chosen).validate with
  | ok => exact ⟨iff_of_true rfl rfl, nofun⟩
  | error reason =>
    refine ⟨iff_of_false nofun nofun, fun given same => ?_⟩
    obtain rfl := Except.error.inj same
    rfl

/-- An override that is alone but for an unknown member does not go with the default limit. -/
theorem partial_merged_and_validated_lone_override :
    ofJson (.obj [("x", .arr [.null]), ("domain_rule_base_id", .int 4294967294)]) =
        .ok { domainRuleBaseId := 4294967294 } ∧
      ofText "\x7b\"x\":[null],\"domain_rule_base_id\":4294967294\x7d" =
        .error (.storage ("Invalid config: domain_rule_base_id 4294967294 with " ++
          "max_domain_rules 4990 overflows the rule ID range")) := by
  let config : Config := { domainRuleBaseId := 4294967294 }
  have arranged : [("x", Json.arr [.null]), ("domain_rule_base_id", .int 4294967294)].Perm
      (config.fields (· = .domainRuleBaseId) ++ [("x", .arr [.null])]) := .swap _ _ _
  have unknown : ∀ member ∈ [("x", Json.arr [.null])], member.1 ∉ Key.all.map Key.name := by
    decide +kernel
  obtain ⟨decoded, texts⟩ :=
    config.partial_merged_and_validated (· = .domainRuleBaseId) unknown arranged
  have printable : Json.Printable 2
      (.obj [("x", .arr [.null]), ("domain_rule_base_id", .int 4294967294)]) := by
    refine .obj (List.forall_mem_cons.mpr ⟨?_, List.forall_mem_singleton.mpr ?_⟩)
    · exact .arr (List.forall_mem_singleton.mpr .null)
    · exact .int (by decide) (by decide)
  have written : Json.write .compact 0
      (.obj [("x", .arr [.null]), ("domain_rule_base_id", .int 4294967294)]) "" =
        "\x7b\"x\":[null],\"domain_rule_base_id\":4294967294\x7d" := by decide +kernel
  have refused := (texts _ (printable.denotes .compact)).2
    (.idsOverflow 4294967294 4990) (by decide)
  rw [written] at refused
  exact ⟨decoded, refused.trans (by decide +kernel)⟩

/-- A lone override that goes with the defaults, beside a member that no value could be read of. -/
example : ofText "\x7b \"max_domain_rules\": 10, \"x\": [1e999] \x7d" =
    .ok { maxDomainRules := 10 } := by decide +kernel

end Blocklist.Config
