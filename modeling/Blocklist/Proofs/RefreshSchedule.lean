import Blocklist.Engine.RefreshJob
import Blocklist.Proofs.Sessions

/-!
# The schedule of a refresh job

Time passes beside a session, in pieces of any length, and a job that was started at some time
refreshes at its ticks. What the host goes through is then a session of its own: the events that
happened otherwise, with the refreshes of the job put between them. When they are due is a matter of
time alone. A whole number of periods after the start the job refreshes once, for each number but
zero, and nothing that a refresh comes to makes a difference to a later one; from the moment at
which the job is cancelled there are no more.

The induction over a job's life is carried by the job's next tick: while it runs, the next tick is
the first one after now.
-/

namespace Blocklist.RefreshJob

/-! ## What the job goes through -/

/-- What happens while a job is there. -/
inductive Happening where
  /-- Time passes. -/
  | passes (spanMs : Nat)
  /-- An event of the session that is none of the job's own refreshes. -/
  | meanwhile (event : Event)
  /-- The job is told to stop. -/
  | cancelled

def Happening.event? : Happening → Option Event
  | meanwhile event => some event
  | passes _ | cancelled => none

/-- A time, a job and the host that it refreshes the list of. -/
structure Scene where
  now : Nat
  job : RefreshJob
  host : Host

namespace Scene

def opening (periodMs now : Nat) (host : Host) : Scene := ⟨now, .start periodMs now, host⟩

def after (config : Config) (scene : Scene) : Happening → Scene
  | .passes spanMs =>
    let later := scene.now + spanMs
    let (job, host) := scene.job.advance config later scene.host
    ⟨later, job, host⟩
  | .meanwhile event => { scene with host := event.later config scene.host }
  | .cancelled => { scene with job := scene.job.cancel }

def play (config : Config) (happenings : List Happening) (scene : Scene) : Scene :=
  happenings.foldl (after config) scene

end Scene

/-! ## The timeline -/

/-- What the host goes through: a refresh of the job, at the time of a tick, or another event. -/
inductive Entry where
  | refreshed (time : Nat)
  | happened (event : Event)

namespace Entry

def event : Entry → Event
  | refreshed _ => .operation .refresh
  | happened event => event

def time? : Entry → Option Nat
  | refreshed time => some time
  | happened _ => none

def event? : Entry → Option Event
  | refreshed _ => none
  | happened event => some event

end Entry

/-- The times from one moment to a later one, the first excluded, that lie a whole number of periods
after a start. Both moments are counted from the start on. -/
def dueTimes (periodMs start first last : Nat) : List Nat :=
  (List.range' (first / periodMs + 1) (last / periodMs - first / periodMs)).map fun number =>
    start + number * periodMs

/-- The timeline of some happenings that begin at a moment, counted from the start on, for a job
that is running or is not. -/
def timelineFrom (periodMs start : Nat) : (elapsed : Nat) → (running : Bool) → List Happening →
    List Entry
  | _, _, [] => []
  | elapsed, running, .passes spanMs :: rest =>
    let later := elapsed + spanMs
    (if running then (dueTimes periodMs start elapsed later).map .refreshed else []) ++
      timelineFrom periodMs start later running rest
  | elapsed, running, .meanwhile event :: rest =>
    .happened event :: timelineFrom periodMs start elapsed running rest
  | elapsed, _, .cancelled :: rest => timelineFrom periodMs start elapsed false rest

def timeline (periodMs start : Nat) (happenings : List Happening) : List Entry :=
  timelineFrom periodMs start 0 (periodMs != 0) happenings

/-- The time that passes in some happenings, in all. -/
def duration : List Happening → Nat
  | [] => 0
  | .passes spanMs :: rest => spanMs + duration rest
  | .meanwhile _ :: rest | .cancelled :: rest => duration rest

/-! ## Time passing -/

/-- A job that no longer waits does nothing. -/
theorem advance_of_stopped {job : RefreshJob} (stopped : job.running = false) (config : Config)
    (now : Nat) (host : Host) : job.advance config now host = (job, host) := by
  rw [advance, dif_neg]
  · rfl
  · simp [isDue, stopped]

/-- The event of a refresh leaves the host that the refresh leaves. -/
theorem later_refresh (config : Config) (host : Host) :
    Event.later config (.operation .refresh) host =
      (Host.perform (Engine.refresh config) host).2 := by
  have performs := Action.Performs.of_perform (Engine.refresh config) host
  have settles := Action.runs_settle_iff.mpr ⟨_, performs⟩
  exact congrArg Prod.snd settles.run_eq

/-- A running job whose next tick is the one after a number of periods refreshes once for each
further whole period that has passed, one refresh after the other. -/
theorem advance_of_due (config : Config) {periodMs : Nat} (positive : 0 < periodMs)
    (start count number : Nat) {elapsed : Nat} (due : elapsed / periodMs = number + count)
    (host : Host) :
    advance config (start + elapsed) ⟨⟨periodMs, start + (number + 1) * periodMs⟩, true⟩ host =
      (⟨⟨periodMs, start + (elapsed / periodMs + 1) * periodMs⟩, true⟩,
        Session.ending config (List.replicate count (.operation .refresh)) host) := by
  induction count generalizing number host with
  | zero =>
    have early : elapsed < (number + 1) * periodMs :=
      (Nat.div_lt_iff_lt_mul positive).mp (by omega)
    rw [advance, dif_neg]
    · rw [due]
      rfl
    · simp only [isDue, Bool.true_and, decide_eq_true_eq]
      omega
  | succ count ih =>
    have reached : (number + 1) * periodMs ≤ elapsed :=
      (Nat.le_div_iff_mul_le positive).mp (by omega)
    have next : start + (number + 1) * periodMs + periodMs =
        start + (number + 1 + 1) * periodMs := by
      rw [Nat.succ_mul (number + 1), Nat.add_assoc]
    rw [advance, dif_pos]
    · rw [List.replicate_succ, Session.ending, later_refresh, ← ih (number + 1) (by omega), ← next]
      rfl
    · simp only [isDue, Bool.true_and, decide_eq_true_eq]
      omega

/-! ## The life of a job -/

/-- A job some time after its start. If it is running, its next tick is the first one after now. -/
inductive OnTime (periodMs start elapsed : Nat) : (running : Bool) → RefreshJob → Prop where
  | waiting (positive : 0 < periodMs) :
      OnTime periodMs start elapsed true
        ⟨⟨periodMs, start + (elapsed / periodMs + 1) * periodMs⟩, true⟩
  | stopped (ticks : Ticks) : OnTime periodMs start elapsed false ⟨ticks, false⟩

namespace OnTime

variable {periodMs start elapsed : Nat} {running : Bool} {job : RefreshJob}

theorem opening (periodMs start : Nat) :
    OnTime periodMs start 0 (periodMs != 0) (.start periodMs start) := by
  rcases Nat.eq_zero_or_pos periodMs with rfl | positive
  · exact .stopped _
  · have runs : (periodMs != 0) = true := bne_iff_ne.mpr (Nat.ne_of_gt positive)
    have first : RefreshJob.start periodMs start =
        ⟨⟨periodMs, start + (0 / periodMs + 1) * periodMs⟩, true⟩ := by
      rw [Nat.zero_div, Nat.zero_add, Nat.one_mul, RefreshJob.start, runs]
      rfl
    rw [runs, first]
    exact .waiting positive

theorem cancel (onTime : OnTime periodMs start elapsed running job) :
    OnTime periodMs start elapsed false job.cancel := by
  cases onTime with
  | waiting positive => exact .stopped _
  | stopped ticks => exact .stopped ticks

theorem running_eq (onTime : OnTime periodMs start elapsed running job) :
    job.running = running := by
  cases onTime with
  | waiting positive => rfl
  | stopped ticks => rfl

/-- While time passes, the job refreshes at the due times. -/
theorem advance (onTime : OnTime periodMs start elapsed running job) (config : Config)
    (spanMs : Nat) (host : Host) :
    let later := elapsed + spanMs
    let refreshes := if running then (dueTimes periodMs start elapsed later).map .refreshed else []
    ∃ finish, job.advance config (start + later) host =
        (finish, Session.ending config (refreshes.map Entry.event) host) ∧
      OnTime periodMs start later running finish := by
  intro later refreshes
  cases onTime with
  | waiting positive =>
    have sooner : elapsed / periodMs ≤ later / periodMs :=
      Nat.div_le_div_right (Nat.le_add_right elapsed spanMs)
    have events : refreshes.map Entry.event =
        List.replicate (later / periodMs - elapsed / periodMs) (.operation .refresh) := by
      refine List.eq_replicate_iff.mpr ⟨?_, ?_⟩
      · simp [refreshes, dueTimes]
      · simp [refreshes, Entry.event]
    refine ⟨_, ?_, .waiting positive⟩
    rw [events]
    exact advance_of_due config positive start _ _ (Nat.add_sub_of_le sooner).symm host
  | stopped ticks => exact ⟨_, advance_of_stopped rfl config _ host, .stopped ticks⟩

end OnTime

/-- From any moment of its life on, a job makes a session of the timeline. -/
theorem play_onTime (config : Config) {periodMs start elapsed : Nat} {running : Bool}
    {job : RefreshJob} (onTime : OnTime periodMs start elapsed running job)
    (happenings : List Happening) (host : Host) :
    ∃ finish, Scene.play config happenings ⟨start + elapsed, job, host⟩ =
        ⟨start + (elapsed + duration happenings), finish, Session.ending config
          ((timelineFrom periodMs start elapsed running happenings).map Entry.event) host⟩ ∧
      (finish.running = true ↔ running = true ∧ .cancelled ∉ happenings) := by
  induction happenings generalizing elapsed running job host with
  | nil => exact ⟨job, rfl, by simp [onTime.running_eq]⟩
  | cons happening happenings ih =>
    cases happening with
    | passes spanMs =>
      obtain ⟨middle, advances, onTime⟩ := onTime.advance config spanMs host
      obtain ⟨finish, plays, runs⟩ := ih onTime _
      refine ⟨finish, ?_, by simpa using runs⟩
      rw [timelineFrom, List.map_append, Session.ending_append, duration, ← Nat.add_assoc elapsed,
        ← plays]
      simp only [Scene.play, List.foldl_cons, Scene.after, Nat.add_assoc, advances]
    | meanwhile event =>
      obtain ⟨finish, plays, runs⟩ := ih onTime (event.later config host)
      exact ⟨finish, plays, by simpa using runs⟩
    | cancelled =>
      obtain ⟨finish, plays, runs⟩ := ih onTime.cancel host
      exact ⟨finish, plays, by simpa using runs⟩

/-! ## When the refreshes are -/

section

variable (periodMs start : Nat)

theorem dueTimes_append {first middle last : Nat} (before : first ≤ middle)
    (after : middle ≤ last) :
    dueTimes periodMs start first middle ++ dueTimes periodMs start middle last =
      dueTimes periodMs start first last := by
  have sooner : first / periodMs ≤ middle / periodMs := Nat.div_le_div_right before
  have later : middle / periodMs ≤ last / periodMs := Nat.div_le_div_right after
  have joined : middle / periodMs + 1 =
      first / periodMs + 1 + 1 * (middle / periodMs - first / periodMs) := by omega
  rw [dueTimes, dueTimes, dueTimes, ← List.map_append, joined, List.range'_append]
  congr 2
  omega

/-- The timeline leaves out no other event and has them in order. -/
theorem event?_timelineFrom (elapsed : Nat) (running : Bool) (happenings : List Happening) :
    (timelineFrom periodMs start elapsed running happenings).filterMap Entry.event? =
      happenings.filterMap Happening.event? := by
  induction happenings generalizing elapsed running with
  | nil => rfl
  | cons happening happenings ih =>
    cases happening with
    | passes spanMs =>
      have none (refreshes : List Entry) (own : ∀ entry ∈ refreshes, entry.event? = none) :
          refreshes.filterMap Entry.event? = [] := List.filterMap_eq_nil_iff.mpr own
      rw [timelineFrom, List.filterMap_append, ih, none]
      · rfl
      · intro entry member
        cases running with
        | true =>
          obtain ⟨time, -, rfl⟩ := List.mem_map.mp member
          rfl
        | false => nomatch member
    | meanwhile event => exact congrArg (event :: ·) (ih elapsed running)
    | cancelled => exact ih elapsed false

/-- The timeline of a job that no longer runs has the other events alone. -/
theorem timelineFrom_stopped (elapsed : Nat) (happenings : List Happening) :
    timelineFrom periodMs start elapsed false happenings =
      (happenings.filterMap Happening.event?).map .happened := by
  induction happenings generalizing elapsed with
  | nil => rfl
  | cons happening happenings ih =>
    cases happening with
    | passes spanMs => exact ih (elapsed + spanMs)
    | meanwhile event => exact congrArg (.happened event :: ·) (ih elapsed)
    | cancelled => exact ih elapsed

/-- From the moment at which the job is cancelled on, the timeline has the other events alone. -/
theorem timelineFrom_cancelled (elapsed : Nat) (running : Bool) (first rest : List Happening) :
    timelineFrom periodMs start elapsed running (first ++ .cancelled :: rest) =
      timelineFrom periodMs start elapsed running first ++
        (rest.filterMap Happening.event?).map .happened := by
  induction first generalizing elapsed running with
  | nil => exact timelineFrom_stopped periodMs start elapsed rest
  | cons happening first ih =>
    cases happening with
    | passes spanMs =>
      rw [List.cons_append, timelineFrom, timelineFrom, ih, List.append_assoc]
    | meanwhile event => exact congrArg (.happened event :: ·) (ih elapsed running)
    | cancelled => exact ih elapsed false

/-- A job that is never cancelled refreshes at all the times that are due. -/
theorem time?_timelineFrom (elapsed : Nat) {happenings : List Happening}
    (uncancelled : .cancelled ∉ happenings) :
    (timelineFrom periodMs start elapsed true happenings).filterMap Entry.time? =
      dueTimes periodMs start elapsed (elapsed + duration happenings) := by
  induction happenings generalizing elapsed with
  | nil => simp [timelineFrom, dueTimes, duration]
  | cons happening happenings ih =>
    obtain ⟨uncancelledNow, uncancelledLater⟩ := List.ne_and_not_mem_of_not_mem_cons uncancelled
    cases happening with
    | passes spanMs =>
      have own (times : List Nat) : (times.map Entry.refreshed).filterMap Entry.time? = times := by
        rw [List.filterMap_map]
        exact List.filterMap_some
      have joined := dueTimes_append periodMs start (Nat.le_add_right elapsed spanMs)
        (Nat.le_add_right (elapsed + spanMs) (duration happenings))
      rw [timelineFrom, if_pos rfl, List.filterMap_append, own, ih _ uncancelledLater, joined,
        duration, Nat.add_assoc]
    | meanwhile event => exact ih elapsed uncancelledLater
    | cancelled => contradiction

end

/-- A job refreshes once per period. However time passes, whatever else happens and whatever becomes
of the refreshes, the host goes through the session of the job's timeline, which has all other
events in their order. As long as the job is not cancelled, its refreshes are those at one period
after the start, two periods, and so on up to now, so that their number is that of the whole periods
that have passed. From the moment at which the job is cancelled on there are no more, and a job
without a period ends without any. -/
theorem refreshes_once_per_period (config : Config) (periodMs start : Nat) (host : Host)
    (happenings : List Happening) :
    let elapsed := duration happenings
    let scene := Scene.play config happenings (.opening periodMs start host)
    let entries := timeline periodMs start happenings
    scene.now = start + elapsed ∧
      scene.host = Session.ending config (entries.map Entry.event) host ∧
      entries.filterMap Entry.event? = happenings.filterMap Happening.event? ∧
      (0 < periodMs → .cancelled ∉ happenings →
        entries.filterMap Entry.time? =
            (List.range' 1 (elapsed / periodMs)).map (fun number => start + number * periodMs) ∧
          (entries.filterMap Entry.time?).length = elapsed / periodMs) ∧
      (∀ first rest, happenings = first ++ .cancelled :: rest →
        entries = timeline periodMs start first ++
          (rest.filterMap Happening.event?).map .happened) ∧
      (periodMs = 0 → entries = (happenings.filterMap Happening.event?).map .happened) ∧
      (scene.job.running = true ↔ 0 < periodMs ∧ .cancelled ∉ happenings) := by
  intro elapsed scene entries
  obtain ⟨finish, plays, runs⟩ :=
    play_onTime config (.opening periodMs start) happenings host
  rw [Nat.zero_add] at plays
  have played : scene = ⟨start + elapsed, finish, Session.ending config (entries.map Entry.event)
      host⟩ := plays
  refine ⟨congrArg Scene.now played, congrArg Scene.host played, event?_timelineFrom _ _ _ _ _,
    ?_, ?_, ?_, ?_⟩
  · intro positive uncancelled
    have waits : (periodMs != 0) = true := bne_iff_ne.mpr (Nat.ne_of_gt positive)
    have times : entries.filterMap Entry.time? =
        (List.range' 1 (elapsed / periodMs)).map (fun number => start + number * periodMs) := by
      have due := time?_timelineFrom periodMs start 0 uncancelled
      rw [Nat.zero_add, dueTimes, Nat.zero_div, Nat.zero_add, Nat.sub_zero, ← waits] at due
      exact due
    refine ⟨times, ?_⟩
    rw [times, List.length_map, List.length_range']
  · rintro first rest rfl
    exact timelineFrom_cancelled periodMs start 0 _ first rest
  · rintro rfl
    exact timelineFrom_stopped 0 start 0 happenings
  · rw [played, runs, bne_iff_ne, Nat.pos_iff_ne_zero]

/-- With a period of a minute there are two refreshes in two minutes and ten seconds. -/
example : (timeline 60000 0 [.passes 30000, .passes 100000]).filterMap Entry.time? =
    [60000, 120000] := by decide

end Blocklist.RefreshJob
