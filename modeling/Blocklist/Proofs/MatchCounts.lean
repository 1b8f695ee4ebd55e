import Blocklist.Proofs.Acceptance
import Blocklist.Proofs.Accounting
import Mathlib.Algebra.BigOperators.Group.Finset.Basic

/-!
# Match counts

A surface counts every match twice, for the session and for the tab that it happened in, requests
outside any tab being a tab of their own here. Nothing keeps the two in step but that a match adds
to both and a restart of the browser forgets both. `Surface.Counts` relates the counters to the
matches that they stand for, up to the size of a counter; whatever is asked of the host between
matches leaves them alone. So after any run the counters are those of the matches recorded since the
last restart, and a report never shows more for a tab than for the session.
-/

namespace Blocklist

/-! ## Counters -/

namespace Surface

variable {surface other : Surface} {recorded : List (Option TabId)}

/-- The count of a tab, or of the requests outside any tab. -/
def countOf (surface : Surface) (tab : Option TabId) : UInt64 :=
  (surface.tabMatches.lookup tab).getD 0

theorem lookup_increment_self (tab : Option TabId) (row : List (Option TabId × UInt64)) :
    ((increment tab row).lookup tab).getD 0 = (row.lookup tab).getD 0 + 1 := by
  induction row with
  | nil => simp [increment]
  | cons counter rest ih =>
    obtain ⟨other, count⟩ := counter
    simp only [increment]
    split
    · next same => simp [same]
    · next differs => simpa [List.lookup_cons, beq_eq_false_iff_ne.mpr differs] using ih

theorem lookup_increment_of_ne {tab other : Option TabId} (differs : other ≠ tab)
    (row : List (Option TabId × UInt64)) : (increment tab row).lookup other = row.lookup other := by
  have apart : (other == tab) = false := beq_eq_false_iff_ne.mpr differs
  induction row with
  | nil => simp [increment, List.lookup_cons, apart]
  | cons counter rest ih =>
    obtain ⟨first, count⟩ := counter
    simp only [increment]
    split
    · next same => simp [← same, List.lookup_cons, apart]
    · simp only [List.lookup_cons, ih]

def SameCounts (surface other : Surface) : Prop :=
  other.tabMatches = surface.tabMatches ∧ other.sessionMatches = surface.sessionMatches

theorem SameCounts.refl (surface : Surface) : surface.SameCounts surface := ⟨rfl, rfl⟩

theorem SameCounts.trans {third : Surface} (first : surface.SameCounts other)
    (second : other.SameCounts third) : surface.SameCounts third :=
  ⟨second.1.trans first.1, second.2.trans first.2⟩

theorem SameCounts.of_replace {removed : List RuleId} {added : List Rule}
    (accepted : surface.replace removed added = .ok other) : surface.SameCounts other := by
  obtain ⟨-, -, rfl⟩ := replace_eq_ok_iff.mp accepted
  exact ⟨rfl, rfl⟩

/-- The counters stand for some matches, each given by its tab. A counter that is full starts again
at zero. -/
structure Counts (surface : Surface) (recorded : List (Option TabId)) : Prop where
  session : surface.sessionMatches = .ofNat recorded.length
  tabs : ∀ tab, surface.countOf tab = .ofNat (recorded.count tab)

theorem counts_nil (quota : Nat) : ({ quota } : Surface).Counts [] := ⟨rfl, fun _ => rfl⟩

theorem Counts.congr (counts : surface.Counts recorded) (same : surface.SameCounts other) :
    other.Counts recorded := by
  refine ⟨same.2.trans counts.session, fun tab => ?_⟩
  rw [countOf, same.1]
  exact counts.tabs tab

theorem Counts.recordMatch (counts : surface.Counts recorded) (tab : Option TabId) :
    (surface.recordMatch tab).Counts (recorded ++ [tab]) := by
  constructor
  · rw [List.length_append, UInt64.ofNat_add, ← counts.session]
    rfl
  · intro other
    rw [List.count_append, UInt64.ofNat_add, ← counts.tabs other]
    by_cases same : other = tab
    · subst same
      rw [List.count_singleton_self]
      exact lookup_increment_self other surface.tabMatches
    · rw [List.count_singleton, beq_eq_false_iff_ne.mpr (Ne.symm same), if_neg Bool.false_ne_true]
      exact (congrArg (·.getD 0) (lookup_increment_of_ne same surface.tabMatches)).trans
        (UInt64.add_zero _).symm

theorem counts_resetMatches (surface : Surface) : surface.resetMatches.Counts [] :=
  ⟨rfl, fun _ => rfl⟩

section

variable (counts : surface.Counts recorded) (few : recorded.length < UInt64.size)
include counts few

theorem Counts.toNat_session : surface.sessionMatches.toNat = recorded.length := by
  rw [counts.session]
  exact UInt64.toNat_ofNat_of_lt' few

theorem Counts.toNat_countOf (tab : Option TabId) :
    (surface.countOf tab).toNat = recorded.count tab := by
  rw [counts.tabs]
  exact UInt64.toNat_ofNat_of_lt' (Nat.lt_of_le_of_lt List.count_le_length few)

/-- Over all tabs that have a count, the counts add up to that of the session. -/
theorem Counts.sum_countOf {tabs : Finset (Option TabId)}
    (all : ∀ tab, surface.countOf tab ≠ 0 → tab ∈ tabs) :
    ∑ tab ∈ tabs, (surface.countOf tab).toNat = surface.sessionMatches.toNat := by
  have seen : recorded.toFinset ⊆ tabs := by
    intro tab member
    refine all tab fun none => ?_
    have counted := counts.toNat_countOf few tab
    rw [none, UInt64.toNat_zero] at counted
    exact List.count_eq_zero.mp counted.symm (List.mem_toFinset.mp member)
  have unseen : ∀ tab ∈ tabs, tab ∉ recorded.toFinset → recorded.count tab = 0 := by
    intro tab _ absent
    exact List.count_eq_zero.mpr fun member => absent (List.mem_toFinset.mpr member)
  rw [counts.toNat_session few]
  calc ∑ tab ∈ tabs, (surface.countOf tab).toNat
      = ∑ tab ∈ tabs, recorded.count tab :=
        Finset.sum_congr rfl fun tab _ => counts.toNat_countOf few tab
    _ = ∑ tab ∈ recorded.toFinset, recorded.count tab := (Finset.sum_subset seen unseen).symm
    _ = recorded.length := by convert recorded.sum_toFinset_count_eq_length

theorem Counts.countOf_le_session (tab : Option TabId) :
    surface.countOf tab ≤ surface.sessionMatches := by
  rw [UInt64.le_iff_toNat_le, counts.toNat_countOf few, counts.toNat_session few]
  exact List.count_le_length

end

end Surface

/-! ## What leaves the counters alone -/

/-- An answer changes no counter. -/
theorem Moment.sameCounts_later (moment : Moment) :
    moment.host.surface.SameCounts moment.later.surface := by
  obtain ⟨host, call⟩ := moment
  by_cases replaces : ∃ removed added, call = .replaceRules removed added
  · obtain ⟨removed, added, rfl⟩ := replaces
    rcases replaceRules_cases host removed added with ⟨next, accepted, -, later⟩ | ⟨_, -, later⟩
    · rw [later]
      exact .of_replace accepted
    · rw [later]
      exact .refl _
  · have kept : (Moment.mk host call).later.surface = host.surface :=
      later_surface fun removed added same => replaces ⟨removed, added, same⟩
    rw [kept]
    exact .refl _

/-- Whatever a program asks of its host, it changes no counter. -/
theorem Host.sameCounts_run (program : Program α) (host : Host) :
    host.surface.SameCounts (Host.run program host).2.surface :=
  (Program.Runs.of_run program host).keeps (fun a b => a.surface.SameCounts b.surface)
    (fun host => .refl host.surface) (fun first second => first.trans second)
    fun moment _ => moment.sameCounts_later

theorem Host.sameCounts_replaceRules (removed : List RuleId) (added : List Rule) (host : Host) :
    host.surface.SameCounts (Host.replaceRules removed added host).2.surface := by
  cases outcome : host.surface.replace removed added with
  | ok next =>
    rw [Host.replaceRules_of_ok outcome]
    exact .of_replace outcome
  | error refusal =>
    rw [Host.replaceRules_of_error outcome]
    exact .refl _

/-! ## Runs of a surface -/

/-- What happens to a surface: an event under some configuration, or a replacement that is asked of
it directly. -/
inductive Occurrence where
  | event (config : Config) (event : Event)
  | replaced (asked : Replacement)

namespace Occurrence

def later : Occurrence → Host → Host
  | .event config happened, host => happened.later config host
  | .replaced asked, host => (Host.replaceRules asked.removed asked.added host).2

def recorded? : Occurrence → Option (Option TabId)
  | .event _ (.matched tab) => some tab
  | _ => none

def isRestart : Occurrence → Bool
  | .event _ .restarted => true
  | _ => false

/-- The matches that count after an occurrence, when some counted before it. -/
def counted (occurrence : Occurrence) (before : List (Option TabId)) : List (Option TabId) :=
  (if occurrence.isRestart then [] else before) ++ occurrence.recorded?.toList

/-- Only matches and restarts change a counter. -/
theorem sameCounts_later {occurrence : Occurrence} (host : Host)
    (unmatched : occurrence.recorded? = none) (runsOn : occurrence.isRestart = false) :
    host.surface.SameCounts (occurrence.later host).surface := by
  cases occurrence with
  | event config happened =>
    cases happened with
    | operation asked => exact Host.sameCounts_run (asked.program config) host
    | matched tab => contradiction
    | restarted => contradiction
  | replaced asked => exact Host.sameCounts_replaceRules asked.removed asked.added host

theorem counted_of_sameCounts {occurrence : Occurrence} (before : List (Option TabId))
    (unmatched : occurrence.recorded? = none) (runsOn : occurrence.isRestart = false) :
    occurrence.counted before = before := by
  simp [counted, unmatched, runsOn]

/-- An occurrence keeps the counters in step with the matches. -/
theorem counts_later {host : Host} {before : List (Option TabId)} (occurrence : Occurrence)
    (counts : host.surface.Counts before) :
    (occurrence.later host).surface.Counts (occurrence.counted before) := by
  have untouched (unmatched : occurrence.recorded? = none)
      (runsOn : occurrence.isRestart = false) :
      (occurrence.later host).surface.Counts (occurrence.counted before) := by
    rw [counted_of_sameCounts before unmatched runsOn]
    exact counts.congr (sameCounts_later host unmatched runsOn)
  cases occurrence with
  | event config happened =>
    cases happened with
    | operation asked => exact untouched rfl rfl
    | matched tab => exact counts.recordMatch tab
    | restarted => exact Surface.counts_resetMatches host.surface
  | replaced asked => exact untouched rfl rfl

end Occurrence

def Host.undergoing (occurrences : List Occurrence) (host : Host) : Host :=
  occurrences.foldl (fun host occurrence => occurrence.later host) host

/-- What happened since the browser last started again. -/
def sinceRestart (occurrences : List Occurrence) : List Occurrence :=
  (occurrences.reverse.takeWhile fun occurrence => !occurrence.isRestart).reverse

/-- The tabs of the matches among some occurrences, in order. -/
def recordedMatches (occurrences : List Occurrence) : List (Option TabId) :=
  occurrences.filterMap Occurrence.recorded?

theorem recordedMatches_sinceRestart_length_le (occurrences : List Occurrence) :
    (recordedMatches (sinceRestart occurrences)).length ≤ (recordedMatches occurrences).length := by
  have within : (sinceRestart occurrences).Sublist occurrences := by
    simpa [sinceRestart] using
      (List.takeWhile_sublist (fun occurrence => !occurrence.isRestart)
        (l := occurrences.reverse)).reverse
  exact (within.filterMap _).length_le

theorem recordedMatches_append_singleton (occurrences : List Occurrence) (last : Occurrence) :
    recordedMatches (occurrences ++ [last]) =
      recordedMatches occurrences ++ last.recorded?.toList := by
  rw [recordedMatches, List.filterMap_append]
  cases tab : last.recorded? <;> simp [recordedMatches, tab]

theorem recordedMatches_sinceRestart_append (occurrences : List Occurrence) (last : Occurrence) :
    recordedMatches (sinceRestart (occurrences ++ [last])) =
      last.counted (recordedMatches (sinceRestart occurrences)) := by
  cases restarts : last.isRestart with
  | true =>
    have nothing : sinceRestart (occurrences ++ [last]) = [] := by simp [sinceRestart, restarts]
    match last, restarts with
    | .event _ .restarted, _ =>
      rw [nothing]
      rfl
  | false =>
    have runsOn : sinceRestart (occurrences ++ [last]) = sinceRestart occurrences ++ [last] := by
      simp [sinceRestart, restarts]
    rw [runsOn, recordedMatches_append_singleton, Occurrence.counted, restarts,
      if_neg Bool.false_ne_true]

/-- A surface that was empty at first counts the matches since the browser last started again. -/
theorem Host.counts_undergoing (quota : Nat) (host : Host) (occurrences : List Occurrence) :
    (Host.undergoing occurrences { host with surface := { quota } }).surface.Counts
      (recordedMatches (sinceRestart occurrences)) := by
  induction occurrences using List.reverseRecOn with
  | nil => exact Surface.counts_nil quota
  | append_singleton earlier last ih =>
    rw [undergoing, List.foldl_append, recordedMatches_sinceRestart_append]
    exact last.counts_later ih

/-! ## Reports -/

namespace Host

variable {config : Config} {host : Host}

/-- The figures of a tab. Without a tab, and for tab zero, they are zero. -/
def tabFigures (config : Config) (host : Host) (tab : Option TabId) : Stats :=
  match tab.filter (· != 0) with
  | some tab => .ofCount (host.surface.matchCount (.tab tab)) config.avgBytesPerRequest
  | none => .zero

theorem tabFigures_of_ne_zero {number : TabId} (numbered : number ≠ 0) :
    host.tabFigures config (some number) =
      .ofCount (host.surface.matchCount (.tab number)) config.avgBytesPerRequest := by
  simp [tabFigures, Option.filter, numbered]

theorem tabFigures_of_none_or_zero {tab : Option TabId} (unnumbered : tab = none ∨ tab = some 0) :
    host.tabFigures config tab = .zero := by
  rcases unnumbered with rfl | rfl
  · rfl
  · rfl

/-- The figures of a tab are those of some of the session's matches. -/
theorem tabFigures_le_sessionFigures {matched : List (Option TabId)}
    (counts : host.surface.Counts matched) (few : matched.length < UInt64.size)
    (tab : Option TabId) :
    (host.tabFigures config tab).blockedRequests ≤ (host.sessionFigures config).blockedRequests ∧
      (host.tabFigures config tab).estimatedBytesSaved ≤
        (host.sessionFigures config).estimatedBytesSaved := by
  unfold tabFigures
  split
  · next number _ => exact Stats.ofCount_le (counts.countOf_le_session few (some number)) _
  · exact ⟨UInt64.zero_le, UInt64.zero_le⟩

end Host

namespace Engine

open Blocklist.Action

variable {config : Config} {host later : Host} {moments : List Moment}

/-- The session's part of a report, given the tab's. -/
theorem figures_of_session {currentTab : Stats} {report : StatsReport}
    (performs : (do
      let session ← sessionStats config
      let allTime ← allTimeStats
      return (⟨currentTab, session, allTime⟩ : StatsReport)).Performs host moments (.ok report)
        later) :
    report.currentTab = currentTab ∧ report.session = host.sessionFigures config := by
  obtain ⟨session, counting, first, second, counts, goesOn, rfl⟩ := Performs.bind_ok_iff.mp performs
  obtain ⟨allTime, reading, third, fourth, -, returns, rfl⟩ := Performs.bind_ok_iff.mp goesOn
  obtain ⟨-, same, -⟩ := Performs.pure_iff.mp returns
  obtain rfl := Except.ok.inj same
  obtain ⟨-, -, given | ⟨error, refused⟩⟩ := sessionStats_cases counts
  · exact ⟨rfl, Except.ok.inj given⟩
  · contradiction

/-- What a report says of a tab and of the session is what the surface counts there. -/
theorem statsReport_figures {tab : Option TabId} {report : StatsReport}
    (performs : (statsReport config tab).Performs host moments (.ok report) later) :
    report.currentTab = host.tabFigures config tab ∧
      report.session = host.sessionFigures config := by
  unfold Host.tabFigures
  cases chosen : tab.filter (· != 0) with
  | none =>
    simp only [statsReport, chosen, pure_bind] at performs
    exact figures_of_session performs
  | some tab =>
    simp only [statsReport, chosen] at performs
    obtain ⟨currentTab, middle, first, second, counts, goesOn, rfl⟩ :=
      Performs.bind_ok_iff.mp performs
    obtain ⟨-, rfl, given | ⟨error, refused⟩⟩ := scopeStats_cases counts
    · obtain ⟨current, session⟩ := figures_of_session goesOn
      exact ⟨current.trans (Except.ok.inj given), session⟩
    · contradiction

end Engine

/-! ## Counts in step -/

/-- A surface that was empty at first has undergone any occurrences, in which fewer matches were
recorded than a counter can hold. Then the session's count is the number of matches since the
browser last started again, and a tab's count is the number of those in that tab, as is the count of
the requests outside any tab; over all tabs that have a count, these add up to the session's. What
happens next changes no counter unless it is a match or a restart. A report gives, with any average,
the figures of these counts, or zero where the tab is zero or there is none; so neither figure of a
tab exceeds that of the session. -/
theorem counts_follow_matches (quota : Nat) (host : Host) (occurrences : List Occurrence)
    (few : (recordedMatches occurrences).length < UInt64.size) :
    let now := Host.undergoing occurrences { host with surface := { quota } }
    let counted := recordedMatches (sinceRestart occurrences)
    let total := (now.surface.matchCount .session).toNat
    total = counted.length ∧
      (∀ tab, (now.surface.matchCount (.tab tab)).toNat = counted.count (some tab)) ∧
      (∀ tab, (now.surface.countOf tab).toNat = counted.count tab) ∧
      (∀ tabs : Finset (Option TabId), (∀ tab, now.surface.countOf tab ≠ 0 → tab ∈ tabs) →
        ∑ tab ∈ tabs, (now.surface.countOf tab).toNat = total) ∧
      (∀ next : Occurrence, next.recorded? = none → next.isRestart = false →
        now.surface.SameCounts (next.later now).surface) ∧
      ∀ config tab report, (Host.perform (Engine.statsReport config tab) now).1 = .ok report →
        report.session = .ofCount (now.surface.matchCount .session) config.avgBytesPerRequest ∧
        (∀ number, tab = some number → number ≠ 0 →
          report.currentTab =
            .ofCount (now.surface.matchCount (.tab number)) config.avgBytesPerRequest) ∧
        (tab = none ∨ tab = some 0 → report.currentTab = .zero) ∧
        report.currentTab.blockedRequests ≤ report.session.blockedRequests ∧
        report.currentTab.estimatedBytesSaved ≤ report.session.estimatedBytesSaved := by
  intro now counted total
  have counts : now.surface.Counts counted := Host.counts_undergoing quota host occurrences
  have fewCounted : counted.length < UInt64.size :=
    Nat.lt_of_le_of_lt (recordedMatches_sinceRestart_length_le occurrences) few
  refine ⟨counts.toNat_session fewCounted, fun tab => counts.toNat_countOf fewCounted (some tab),
    counts.toNat_countOf fewCounted, fun _ => counts.sum_countOf fewCounted,
    fun _ => Occurrence.sameCounts_later now, ?_⟩
  intro config tab report reports
  have performs := Action.Performs.of_perform (Engine.statsReport config tab) now
  rw [reports] at performs
  obtain ⟨current, session⟩ := Engine.statsReport_figures performs
  rw [current, session]
  refine ⟨rfl, ?_, Host.tabFigures_of_none_or_zero,
    Host.tabFigures_le_sessionFigures counts fewCounted tab⟩
  rintro number rfl numbered
  exact Host.tabFigures_of_ne_zero numbered

/-- A match in a tab, a restart, and four matches after it, with an installation and a replacement
that is refused between them. -/
def restartedRun : List Occurrence :=
  [.event {} (.matched (some 3)), .event {} .restarted, .event {} (.matched none),
    .event {} (.operation .installed), .event {} (.matched (some 3)),
    .replaced ⟨[], [Rule.block 1 {}]⟩, .event {} (.matched (some 0)),
    .event {} (.matched (some 3))]

/-- The match before the restart is forgotten. -/
theorem counts_follow_matches_restarted :
    let now := Host.undergoing restartedRun { Session.servedHost with surface := { quota := 5 } }
    (recordedMatches restartedRun).length < UInt64.size ∧
      (now.surface.matchCount .session).toNat = 4 ∧
      (now.surface.matchCount (.tab 3)).toNat = 2 ∧ (now.surface.countOf none).toNat = 1 := by
  have few : (recordedMatches restartedRun).length < UInt64.size := by decide +kernel
  obtain ⟨session, tabs, counts, -⟩ :=
    counts_follow_matches 5 Session.servedHost restartedRun few
  refine ⟨few, session.trans ?_, (tabs 3).trans ?_, (counts none).trans ?_⟩
  all_goals decide +kernel

end Blocklist
