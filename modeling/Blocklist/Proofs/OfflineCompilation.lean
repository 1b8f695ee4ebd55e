import Blocklist.Cli.Run
import Blocklist.Files.Tree
import Blocklist.Proofs.FileTrees
import Blocklist.Proofs.RuleDocuments
import Blocklist.Proofs.RuleLayout
import Blocklist.Proofs.ServedLists

/-!
# Compiling a list offline

The task that compiles a list writes the rules that the engine would put on the surface for the same
list, and prints how many of the list's domains have no rule. `Run.Gives` follows a task through its
steps: each has a value and leaves what is printed and the files.
-/

namespace Blocklist

/-! ## The domains of rules -/

namespace Compiler

variable {config : Config} {mode : Mode}

/-- The filters of a mode's rules are those of the first domains, up to the cap. -/
theorem urlFilters_rulesFor (valid : config.validate = .ok ()) (notOff : mode ≠ .off)
    (domains : List Domain) :
    (config.compiler.rulesFor mode domains).filterMap (·.condition.urlFilter) =
      (domains.take config.maxDomainRules.toNat).map Domain.urlFilter := by
  have uses : mode.usesFilterList = true := bne_iff_ne.mpr notOff
  rw [rulesFor, if_pos uses, urlFilters_apply notOff, urlFilters_domainRules,
    room_of_validate valid]

end Compiler

namespace Cli.Run

/-! ## Tasks step by step -/

def printedLines (lines : List String) : String := String.join (lines.map (· ++ "\n"))

theorem append_printedLines (printed : String) (first second : List String) :
    printed ++ printedLines (first ++ second) =
      printed ++ printedLines first ++ printedLines second := by
  rw [printedLines, List.map_append, String.join_append, ← String.append_assoc]
  rfl

/-- A program goes on with what is printed and the files that its first part leaves. -/
theorem bind_apply (front : StateT String (StateM FileTree) α)
    (back : α → StateT String (StateM FileTree) β) (printed : String) (files : FileTree) :
    (front >>= back) printed files =
      back (front printed files).1.1 (front printed files).1.2 (front printed files).2 := rfl

/-- A task on a tree has a value, and leaves what is printed and the files. -/
def Gives (task : Run (StateM FileTree) α) (printed : String) (files : FileTree) (value : α)
    (shown : String) (later : FileTree) : Prop :=
  task.run printed files = ((.ok value, shown), later)

namespace Gives

variable {task : Run (StateM FileTree) α} {next : α → Run (StateM FileTree) β}
variable {printed shown finally_ : String} {files later last : FileTree} {value : α} {result : β}

theorem bind (first : Gives task printed files value shown later)
    (second : Gives (next value) shown later result finally_ last) :
    Gives (task >>= next) printed files result finally_ last := by
  rw [Gives] at first second ⊢
  rw [ExceptT.run_bind, bind_apply, first]
  exact second

theorem pure (value : α) : Gives (pure value) printed files value printed files := rfl

theorem lift {operation : StateM FileTree α} (gives : operation files = (value, later)) :
    Gives (Run.lift operation) printed files value printed later := by
  change ((Except.ok (operation files).1, printed), (operation files).2) = _
  rw [gives]

theorem say (lines : List String) :
    Gives (Run.say lines) printed files () (printed ++ printedLines lines) files := rfl

theorem readFile {name text : String} (reads : files.readText (.ofString name) = .ok text) :
    Gives (Run.readFile name) printed files text printed files := by
  have asks : Gives (Run.lift (Disk.readText (.ofString name))) printed files
      (.ok text : Except FileError String) printed files := lift (Prod.ext reads rfl)
  exact asks.bind (pure text)

theorem writeFile {name content : String}
    (writes : files.write (.ofString name) (some content) = .ok later) :
    Gives (Run.writeFile name content) printed files () printed later := by
  have asks : Gives (Run.lift (Disk.writeText (.ofString name) content)) printed files
      (.ok () : Except FileError Unit) printed later := lift (FileTree.change_of_ok writes)
  exact asks.bind (pure ())

end Gives

/-! ## Compiling -/

/-- How many domains the compiling task tells to have no rule. -/
def truncated (config : Config) (mode : Mode) (domains : List Domain) : Nat :=
  if mode.usesFilterList then domains.length - config.maxDomainRules.toNat else 0

def tellsTruncated (config : Config) (mode : Mode) (domains : List Domain) : Bool :=
  mode.usesFilterList && config.maxDomainRules.toNat < domains.length

theorem truncated_of_tells (config : Config) {mode : Mode} {domains : List Domain}
    (tells : tellsTruncated config mode domains = true) :
    truncated config mode domains = domains.length - config.maxDomainRules.toNat ∧
      truncated config mode domains ≠ 0 := by
  obtain ⟨uses, beyond⟩ := Bool.and_eq_true_iff.mp tells
  have same : truncated config mode domains = domains.length - config.maxDomainRules.toNat :=
    if_pos uses
  exact ⟨same, same ▸ Nat.sub_ne_zero_of_lt (of_decide_eq_true beyond)⟩

theorem truncated_of_silent (config : Config) {mode : Mode} {domains : List Domain}
    (silent : ¬ tellsTruncated config mode domains = true) : truncated config mode domains = 0 := by
  rw [truncated]
  split
  · next uses =>
    have within : domains.length ≤ config.maxDomainRules.toNat := by
      simpa [tellsTruncated, uses] using silent
    exact Nat.sub_eq_zero_of_le within
  · rfl

/-- Every domain of a list has a rule or is told to have none. -/
theorem domains_accounted {config : Config} {mode : Mode} (valid : config.validate = .ok ())
    (notOff : mode ≠ .off) (domains : List Domain) :
    let rules := config.compiler.rulesFor mode domains
    domains.length = rules.countP (·.condition.urlFilter.isSome) + truncated config mode domains ∧
      rules.filterMap (·.condition.urlFilter) =
        (domains.take (domains.length - truncated config mode domains)).map Domain.urlFilter := by
  intro rules
  have filters : rules.filterMap (·.condition.urlFilter) =
      (domains.take config.maxDomainRules.toNat).map Domain.urlFilter :=
    Compiler.urlFilters_rulesFor valid notOff domains
  have excess : truncated config mode domains = domains.length - config.maxDomainRules.toNat :=
    if_pos (bne_iff_ne.mpr notOff)
  have count : rules.countP (·.condition.urlFilter.isSome) =
      min config.maxDomainRules.toNat domains.length := by
    rw [← List.length_filterMap_eq_countP, filters, List.length_map, List.length_take]
  refine ⟨by omega, ?_⟩
  rw [filters, excess, List.take_eq_take_min]
  congr 2
  omega

/-- What the compiling task prints, by the numbers that it tells: the domains of the list, the rules
made of them, the domains without a rule, if there are any, and the size of the document. -/
def compileReport (config : Config) (input : String) (mode : Mode) (output : String)
    (domains rules truncated size start stop : Nat) : List String :=
  ["Compiled '" ++ input ++ "' for mode " ++ toString mode ++ " to '" ++ output ++ "'",
    "  Domains:     " ++ toString domains,
    "  Rules:       " ++ toString rules] ++
  (if truncated = 0 then [] else
    ["  Truncated:   " ++ toString truncated ++ " domains over the cap of " ++
      toString config.maxDomainRules.toNat]) ++
  ["  Size:        " ++ toString size ++ " bytes (" ++ showTenths (tenthsOf .kilo size) ++ " KB)",
    elapsedLine start stop]

section

variable [Clock (StateM FileTree)] {config : Config} {mode : Mode} {files later : FileTree}
variable {input output text printed : String}

def StopwatchLeavesFiles : Prop :=
  ∀ files : FileTree, ((Clock.stopwatch : StateM FileTree Nat) files).2 = files

theorem Gives.stopwatch (idle : StopwatchLeavesFiles) (printed : String) (files : FileTree) :
    ∃ time, Gives (Run.lift (Clock.stopwatch : StateM FileTree Nat)) printed files time printed
      files :=
  ⟨_, lift (Prod.ext rfl (idle files))⟩

/-- The compiling task writes the rules of the list and tells about them. -/
theorem Gives.compile (idle : StopwatchLeavesFiles)
    (reads : files.readText (.ofString input) = .ok text) :
    let domains := FilterList.domains text
    let rules := config.compiler.rulesFor mode domains
    let document := (Rule.listToJson rules).pretty
    files.write (.ofString output) (some document) = .ok later →
      ∃ start stop, Gives (Run.compile config input mode output) printed files ()
        (printed ++ printedLines (compileReport config input mode output domains.length
          rules.length (truncated config mode domains) document.utf8ByteSize start stop))
        later := by
  intro domains rules document writes
  obtain ⟨start, starts⟩ := Gives.stopwatch idle printed files
  obtain ⟨stop, stops⟩ := Gives.stopwatch idle printed files
  refine ⟨start, stop, ?_⟩
  unfold Run.compile
  refine (Gives.readFile reads).bind (starts.bind (stops.bind ((Gives.writeFile writes).bind ?_)))
  refine (Gives.say _).bind ?_
  rw [compileReport, append_printedLines, append_printedLines]
  split
  · next beyond =>
    obtain ⟨same, some_⟩ := truncated_of_tells config beyond
    rw [if_neg some_, same]
    exact (Gives.say _).bind (Gives.say _)
  · next silent =>
    have none_ := truncated_of_silent config silent
    rw [if_pos none_, show printedLines [] = "" from rfl, String.append_empty]
    exact Gives.say _

/-- Compiling offline and synchronizing agree. Where the list can be read and the document can be
written, the compiling task succeeds, and the document is read back as the rules that a
synchronization to the same mode leaves, in the order of their ids, whenever it succeeds, the list
is the same and the cache is of no use. Under every mode but off, the domains that are told to have
no rule are those that the rules leave out. -/
theorem compile_agrees_with_synchronize (config : Config) (mode : Mode) (input output : String)
    (valid : config.validate = .ok ()) (idle : StopwatchLeavesFiles)
    (reads : files.readText (.ofString input) = .ok text)
    (writable : (files.write (.ofString output) none).isOk) (printed : String) :
    let domains := FilterList.domains text
    ∃ document value rules omitted start stop later,
      Gives (task config (.compile input mode output)) printed files ()
          (printed ++ printedLines (compileReport config input mode output domains.length
            rules.length omitted document.utf8ByteSize start stop)) later ∧
        later.readText (.ofString output) = .ok document ∧
        Json.read document = .ok value ∧ Rule.listOfJson value = .ok rules ∧
        StrictlyOrdered rules ∧
        (∀ host report, let moments := (Engine.synchronize config mode).moments host
          let outcome := Host.perform (Engine.synchronize config mode) host
          outcome.1 = .ok report → Engine.ListIs text moments →
          Engine.CacheOfNoUse config host moments → outcome.2.surface.rules = rules) ∧
        (mode ≠ .off →
          domains.length = rules.countP (·.condition.urlFilter.isSome) + omitted ∧
            rules.filterMap (·.condition.urlFilter) =
              (domains.take (domains.length - omitted)).map Domain.urlFilter) := by
  intro domains
  let rules := config.compiler.rulesFor mode domains
  obtain ⟨later, writes⟩ :=
    FileTree.exists_write_of_isOk writable (some (Rule.listToJson rules).pretty)
  obtain ⟨start, stop, gives⟩ := Gives.compile idle reads writes
  obtain ⟨value, read, decodes⟩ := Rule.exists_read_listToJson rules
  refine ⟨_, value, rules, truncated config mode domains, start, stop, later, gives,
    FileTree.readText_of_write writes, read, decodes,
    config.compiler.strictlyOrdered_rulesFor mode domains, ?_, fun notOff =>
      domains_accounted valid notOff domains⟩
  intro host report moments outcome succeeded served useless
  have performs := Action.Performs.of_perform (Engine.synchronize config mode) host
  rw [succeeded] at performs
  exact Engine.rules_of_synchronize performs served useless

end

@[reducible] def stillClock : Clock (StateM FileTree) where
  unixMillis := pure 0
  stopwatch := pure 0

/-- A working directory with the list that a host is served. -/
def listDirectory : FileTree := { entries := [(["list.txt"], .file (some "||a.example^"))] }

/-- A name in the working directory. -/
theorem namesEntry_here {name : String} (clean : name.contains '\x00' = false)
    (isName : Path.isFiller name = false) (notUp : name ≠ "..")
    (short : name.utf8ByteSize ≤ FileTree.nameLimit) : FileTree.NamesEntry ⟨"", []⟩ name where
  named := (Path.hasNul_child _ _).trans (by simp [Path.hasNul, clean])
  isName := isName
  notUp := notUp
  short := short

/-- The document compiled for high has the one rule that a synchronization to high leaves. -/
theorem compile_agrees_with_synchronize_served :
    ∃ document value rules, ∃ later : FileTree,
      later.readText (.ofString "rules.json") = .ok document ∧
      Json.read document = .ok value ∧ Rule.listOfJson value = .ok rules ∧
      (Host.perform (Engine.synchronize {} .high) Session.servedHost).2.surface.rules = rules ∧
      rules.countP (·.condition.urlFilter.isSome) = 1 := by
  let _ : Clock (StateM FileTree) := stillClock
  have idle : StopwatchLeavesFiles := fun _ => rfl
  have reaches : listDirectory.reach ⟨"", []⟩ = .ok [] := rfl
  have list : Path.ofString "list.txt" = Path.child ⟨"", []⟩ "list.txt" := by decide +kernel
  have reads : listDirectory.readText (.ofString "list.txt") = .ok "||a.example^" := by
    have entry : FileTree.NamesEntry ⟨"", []⟩ "list.txt" :=
      namesEntry_here (by simp) (by decide) (by decide) (by decide)
    rw [list]
    exact (FileTree.readText_child entry reaches).trans rfl
  have document : Path.ofString "rules.json" = Path.child ⟨"", []⟩ "rules.json" := by decide +kernel
  have writable : (listDirectory.write (.ofString "rules.json") none).isOk := by
    have entry : FileTree.NamesEntry ⟨"", []⟩ "rules.json" :=
      namesEntry_here (by simp) (by decide) (by decide) (by decide)
    rw [document, FileTree.write_child entry reaches (by decide) (by decide)]
    rfl
  obtain ⟨document, value, rules, omitted, start, stop, later, gives, written, read, decodes, -,
    live, -⟩ := compile_agrees_with_synchronize {} .high "list.txt" "rules.json" rfl idle reads
      writable ""
  have succeeds : (Host.perform (Engine.synchronize {} .high) Session.servedHost).1 =
      .ok ⟨.high, 0, 1⟩ := Action.Performs.eq_ok_of_toOption (by decide +kernel)
  have serves : Session.servedHost.Serves "||a.example^" := ⟨rfl, fun _ => rfl⟩
  have lists := Engine.listIs_of_serves
    (Action.Performs.of_perform (Engine.synchronize {} .high) Session.servedHost) serves
  have same := live _ _ succeeds lists fun time _ => rfl
  have one : (Host.perform (Engine.synchronize {} .high) Session.servedHost).2.surface.rules.countP
      (·.condition.urlFilter.isSome) = 1 := by decide +kernel
  exact ⟨document, value, rules, later, written, read, decodes, same, same ▸ one⟩

end Cli.Run

end Blocklist
