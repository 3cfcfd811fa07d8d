import Choreography.Proofs.Run.Faults
import Choreography.Proofs.System.Unhindered

/-! What the report of a run says. It names the invocations that the run has logged, a whole frame
at a time: of a frame in the middle of which the run is stopped it says nothing. Its faults are
those that the run has delivered; what went wrong with the root action before the run was begun
is not among them. -/

namespace Choreography

/-- What has been logged of the frame in hand. -/
def Point.made : Point → List Invocation
  | .dispatching _ _ _ _ stage => stage.made
  | _ => []

/-- The report with which a run has ended, if it has ended with one. -/
def Point.report? : Point → Option Report
  | .ended (.ok report) => some report
  | _ => none

/-- What a deed leaves out of the report: what has been logged of the frame in hand, or of the
frame in the middle of which the run has ended. -/
def Deed.unreported (d : Deed) : List Invocation :=
  match d.after with
  | .ended _ => d.before.made
  | point => point.made

/-- What the deeds of a run have left out of its report in the end. -/
def unreported (deeds : List Deed) : List Invocation := (deeds.getLast?.map Deed.unreported).getD []

/-- The report of a run is in accordance with its deeds. -/
structure Run.Tallies (r : Run) (deeds : List Deed) : Prop where
  point : r.point = (deeds.getLast?.map (·.after)).getD .next
  reports : ∀ report, r.point = .ended (.ok report) →
    report.invocations = r.cascade.produced ∧ report.faults = r.cascade.faults
  logged : (deeds.flatMap fun d => posted d.events).map (·.id) =
    r.cascade.produced ++ (unreported deeds).map (·.id)
  complete : r.point.HasDrained → unreported deeds = []
  faults : r.cascade.faults = deeds.flatMap fun d => delivered d.events

/-- A law of single runs: it holds of a run that has just been begun, and is kept by its turns and
by its cancellation. -/
structure Lawful (P : Run → List Deed → Prop) : Prop where
  begins : ∀ (e : Engine) (n : Nat) (i : Invocation) (limit : Option Seconds) (now : Instant),
    P (Run.start e n i limit now).2 []
  cancels : ∀ {w : Worker} {deeds}, P w.run deeds → P w.cancel.run deeds
  turns : ∀ {e n} {w : Worker} {deeds turn}, P w.run deeds → Run.Turns e w.run turn →
    P turn.run (deeds ++ [w.deed n turn])

namespace System

/-- The deeds of one run, in order. -/
def deedsOf (s : System) (n : Nat) : List Deed := s.chronicle.filter (·.evaluation.worker = n)

/-- What one run has logged, in order. -/
def loggedBy (s : System) (n : Nat) : List Invocation := (s.deedsOf n).flatMap fun d => posted d.events

/-- The faults that one run has delivered, in order. -/
def deliveredBy (s : System) (n : Nat) : List Failure :=
  (s.deedsOf n).flatMap fun d => delivered d.events

/-- The report of one run, if it has ended with one. -/
def reportOf (s : System) (n : Nat) : Option Report := s.workers[n]?.bind (·.run.point.report?)

/-- What a run that has ended had logged of the frame in the middle of which it was stopped. -/
def cutOff (s : System) (n : Nat) : List Invocation := unreported (s.deedsOf n)

/-- A call of the engine begins a run. Until then it has delivered one fault at most: that of its
root action. -/
inductive Opens (s : System) : List Failure → System → Prop where
  | invoke (offered : s.engine.catalogue.operation action = .ok operation)
      (isAction : operation.kind = .action) (result : Except Error Value)
      (called : CallEnd.ofResult action result = .ok call)
      (logged : s.engine.record action input call.output = .ok (e, i))
      (limit : Option Seconds) (now : Instant) :
      Opens s (call.fault? CallEnd.boundary).toList ((s.recorded e i).begun i limit now)
  | process (known : i ∈ s.history) (limit : Option Seconds) (now : Instant) :
      Opens s [] (s.begun i limit now)

/-- All runs and their deeds are in accordance with a law. -/
structure Obeys (s : System) (P : Run → List Deed → Prop) : Prop where
  below : ∀ deed ∈ s.chronicle, deed.evaluation.worker < s.workers.length
  obeys : ∀ (n : Nat) (w : Worker), s.workers[n]? = some w → P w.run (s.deedsOf n)

end System

variable {e f : Engine} {c d : Cascade} {p q : Point} {events : List Event} {r : Run}
  {deeds : List Deed} {evaluation : Evaluation}

/-! ### One run -/

theorem unreported_append (deeds : List Deed) (deed : Deed) :
    unreported (deeds ++ [deed]) = deed.unreported := by
  rw [unreported, List.getLast?_append]
  rfl

/-- A deed that does not end its run leaves out what has been logged of the frame in hand. -/
theorem Deed.unreported_eq_made {deed : Deed} (isPoint : r.point = deed.after)
    (going : r.hasEnded = false) : deed.unreported = r.point.made := by
  rw [isPoint, unreported]
  split
  · next isEnded =>
    rw [Run.hasEnded, isPoint, isEnded] at going
    cases going
  · rfl

/-- A run that has not ended leaves out what it has logged of the frame in hand. -/
theorem Run.Tallies.unreported_eq (tallies : r.Tallies deeds) (going : r.hasEnded = false) :
    unreported deeds = r.point.made := by
  have isLast := tallies.point
  rw [unreported]
  cases last : deeds.getLast? with
  | none =>
    rw [last] at isLast
    rw [isLast]
    rfl
  | some deed =>
    rw [last] at isLast
    exact Deed.unreported_eq_made isLast going

@[simp] theorem Point.made_dispatching (site : Site) (left : Frames) (claimed : List Firing)
    (work : Dispatch) (stage : Dispatching) :
    (Point.dispatching site left claimed work stage).made = stage.made := rfl

@[simp] theorem Deed.unreported_dispatching (site : Site) (left : Frames) (claimed : List Firing)
    (work : Dispatch) (stage : Dispatching) :
    Deed.unreported ⟨evaluation, p, .dispatching site left claimed work stage, events⟩ = stage.made :=
  rfl

@[simp] theorem Deed.unreported_frames (site : Site) (left : Frames) (claimed : List Firing) :
    Deed.unreported ⟨evaluation, p, .frames site left claimed, events⟩ = [] := rfl

theorem Dispatch.made_beginning (work : Dispatch) (limit : Int) : (work.beginning limit).made = [] := by
  unfold beginning
  split <;> rfl

/-- What a move logs is reported, or left out for the time being. -/
theorem Moves.unreported_eq (moves : Moves e c p f d q events) (evaluation : Evaluation) :
    d.produced ++ (Deed.unreported ⟨evaluation, p, q, events⟩).map (·.id) =
      c.produced ++ p.made.map (·.id) ++ (posted events).map (·.id) := by
  have nothing {produced : List InvocationId} (same : produced = c.produced)
      (silent : posted events = []) : produced ++ p.made.map (·.id) =
        c.produced ++ p.made.map (·.id) ++ (posted events).map (·.id) := by
    rw [same, silent]
    exact (List.append_nil _).symm
  cases moves with
  | drain _ notes => exact nothing rfl (posted_eq_nil notes)
  | leave same _ _ notes => exact nothing same.produced (posted_eq_nil notes)
  | enrich same _ _ silent | answer same _ _ silent | lose same _ _ _ silent
  | breakOff same _ silent | reject same _ silent => exact nothing same.produced silent
  | settle same | evaluate same | skip same | call same => exact nothing same.produced rfl
  | pop | turn | close | fail => exact nothing rfl rfl
  | save => exact nothing rfl (posted_eq_nil (e.retain_isQuiet _))
  | dispatch same _ _ silent =>
    rw [Deed.unreported_dispatching, Dispatch.made_beginning]
    exact nothing same.produced silent
  | log same called logged posts =>
    rw [Deed.unreported_dispatching, Point.made_dispatching, called.made_eq, posts, same.produced,
      List.append_assoc, ← List.map_append]
    rfl
  | finish isOver =>
    rw [Deed.unreported_frames, Point.made_dispatching, isOver.made_eq]
    rfl

/-- A run that ends with the report of a drained cascade comes back from the repository. -/
theorem Moves.unreported_of_hasDrained (moves : Moves e c p f d q events) (drained : q.HasDrained) :
    Deed.unreported ⟨evaluation, p, q, events⟩ = [] := by
  cases moves with
  | save => rfl
  | lose _ _ _ undrained | leave _ _ undrained | breakOff _ undrained | reject _ undrained =>
    exact absurd drained (Point.HasBrokenOff.not_hasDrained ⟨_, rfl, undrained⟩)
  | _ => exact drained.elim

theorem Run.Turns.not_hasEnded {turn : Turn} (turns : Run.Turns e r turn) : r.hasEnded = false :=
  Moves.not_hasEnded turns.isMove

theorem Run.tallies_lawful : Lawful Run.Tallies where
  begins e n i limit now := ⟨rfl, nofun, rfl, fun drained => drained.elim, rfl⟩
  cancels tallies := ⟨tallies.point, tallies.reports, tallies.logged, tallies.complete, tallies.faults⟩
  turns {e n w deeds turn} tallies turns := by
    have unreportedNow := unreported_append deeds (w.deed n turn)
    constructor
    case point =>
      rw [List.getLast?_append]
      rfl
    case reports =>
      intro report isEnded
      rw [turns.tells.reports report isEnded]
      exact ⟨rfl, rfl⟩
    case logged =>
      have moved := Moves.unreported_eq turns.isMove ⟨n, w.number⟩
      rw [unreportedNow, List.flatMap_append, List.map_append, tallies.logged,
        tallies.unreported_eq turns.not_hasEnded, List.flatMap_singleton]
      exact moved.symm
    case complete =>
      intro drained
      rw [unreportedNow]
      exact Moves.unreported_of_hasDrained turns.isMove drained
    case faults =>
      rw [List.flatMap_append, List.flatMap_singleton, ← tallies.faults]
      exact turns.tells.records

namespace System

variable {start s t u : System} {P : Run → List Deed → Prop} {n m : Nat} {w : Worker} {turn : Turn}
  {i : Invocation}

/-! ### All runs -/

theorem Opens.step {boundary : List Failure} (opens : s.Opens boundary t) : s.Step t := by
  cases opens with
  | invoke offered isAction result called logged limit now =>
    exact .invoke offered isAction result called logged limit now
  | process known limit now => exact .process known limit now

theorem deedsOf_turned : (s.turned n w turn).deedsOf m =
    s.deedsOf m ++ if n = m then [w.deed n turn] else [] := by
  rw [deedsOf, turned_chronicle, List.filter_append, ← deedsOf, List.filter_singleton]
  by_cases isMover : n = m
  · rw [if_pos isMover, show decide ((w.deed n turn).evaluation.worker = m) = true from
      decide_eq_true isMover]
    rfl
  · rw [if_neg isMover, show decide ((w.deed n turn).evaluation.worker = m) = false from
      decide_eq_false isMover]
    rfl

theorem deedsOf_turned_other (elsewhere : m ≠ n) : (s.turned n w turn).deedsOf m = s.deedsOf m := by
  rw [deedsOf_turned, if_neg elsewhere.symm, List.append_nil]

theorem Rests.deedsOf_eq (rests : s.Rests t) (n : Nat) : t.deedsOf n = s.deedsOf n := by
  rw [deedsOf, rests.chronicle, ← deedsOf]

/-- What there is no run for has done nothing. -/
theorem Orderly.deedsOf_eq_nil (orderly : s.Orderly) (absent : s.workers[n]? = none) :
    s.deedsOf n = [] := by
  refine List.filter_eq_nil_iff.mpr fun deed made isOwn => ?_
  obtain ⟨w, working, _⟩ := orderly.numbered deed made
  rw [of_decide_eq_true isOwn, absent] at working
  cases working

theorem loggedBy_turned : (s.turned n w turn).loggedBy n = s.loggedBy n ++ posted turn.events := by
  rw [loggedBy, deedsOf_turned, if_pos rfl, List.flatMap_append, List.flatMap_singleton, ← loggedBy]
  rfl

theorem cutOff_turned : (s.turned n w turn).cutOff n = (w.deed n turn).unreported := by
  rw [cutOff, deedsOf_turned, if_pos rfl, unreported_append]

theorem Obeys.recorded (obeys : s.Obeys P) (e : Engine) (i : Invocation) :
    (s.recorded e i).Obeys P :=
  ⟨obeys.below, obeys.obeys⟩

theorem Obeys.begun (lawful : Lawful P) (obeys : s.Obeys P) (i : Invocation)
    (limit : Option Seconds) (now : Instant) : (s.begun i limit now).Obeys P := by
  refine ⟨fun deed made => ?_, fun n w working => ?_⟩
  · exact Nat.lt_of_lt_of_le (obeys.below deed made) (by simp [System.begun])
  · by_cases inside : n < s.workers.length
    · exact obeys.obeys n w ((List.getElem?_append_left inside).symm.trans working)
    · have isNew := (List.getElem?_append_right (Nat.le_of_not_lt inside)).symm.trans working
      rw [List.getElem?_singleton] at isNew
      split at isNew <;> cases isNew
      have none : (s.begun i limit now).deedsOf n = [] := by
        refine List.filter_eq_nil_iff.mpr fun deed made isOwn => inside ?_
        rw [← of_decide_eq_true isOwn]
        exact obeys.below deed made
      rw [none]
      exact lawful.begins s.engine s.workers.length i limit now

theorem Obeys.cancelled (lawful : Lawful P) (obeys : s.Obeys P) (root : InvocationId) :
    (s.cancelled root).Obeys P := by
  unfold System.cancelled
  split
  · next m _ =>
    refine ⟨fun deed made => ?_, fun n w working => ?_⟩
    · exact Nat.lt_of_lt_of_eq (obeys.below deed made) (List.length_modify ..).symm
    · by_cases isMeant : m = n
      · subst isMeant
        rw [List.getElem?_modify_eq] at working
        obtain ⟨v, isWorker, rfl⟩ := Option.map_eq_some_iff.mp working
        exact lawful.cancels (obeys.obeys m v isWorker)
      · exact obeys.obeys n w ((List.getElem?_modify_ne _ _ isMeant).symm.trans working)
  · exact obeys

theorem Obeys.turned (lawful : Lawful P) (obeys : s.Obeys P) (working : s.workers[n]? = some w)
    (turns : Run.Turns s.engine w.run turn) : (s.turned n w turn).Obeys P := by
  have inside := (List.getElem?_eq_some_iff.mp working).1
  refine ⟨fun deed made => ?_, fun m v isWorker => ?_⟩
  · refine Nat.lt_of_lt_of_eq ?_ (List.length_set ..).symm
    rcases mem_turned_chronicle.mp made with old | rfl
    · exact obeys.below deed old
    · exact inside
  · rcases turned_worker working isWorker with ⟨rfl, rfl⟩ | ⟨elsewhere, isWorker⟩
    · rw [deedsOf_turned, if_pos rfl]
      exact lawful.turns (obeys.obeys m w working) turns
    · rw [deedsOf_turned_other elsewhere]
      exact obeys.obeys m v isWorker

theorem Obeys.step (lawful : Lawful P) (obeys : s.Obeys P) (next : s.Step t) : t.Obeys P := by
  cases next with
  | record => exact obeys.recorded _ _
  | invoke _ _ _ _ _ limit now => exact (obeys.recorded _ _).begun lawful _ limit now
  | process _ limit now => exact obeys.begun lawful _ limit now
  | cancel root => exact obeys.cancelled lawful root
  | go working ready going now => exact obeys.turned lawful working (.step now ready going)
  | hear working waits answered now => exact obeys.turned lawful working (.resume now waits answered)

/-- Whatever happens, every run keeps the laws of single runs. -/
theorem Reaches.obeys (lawful : Lawful P) (initial : start.Initial) (reached : start.Reaches s) :
    s.Obeys P := by
  induction reached with
  | start =>
    refine ⟨fun deed made => ?_, fun n w working => ?_⟩
    · simp [initial.chronicle] at made
    · simp [initial.workers] at working
  | step _ next ih => exact ih.step lawful next

theorem exists_of_reportOf {report : Report} (reports : s.reportOf n = some report) :
    ∃ w, s.workers[n]? = some w ∧ w.run.point = .ended (.ok report) := by
  obtain ⟨w, working, isReport⟩ := Option.bind_eq_some_iff.mp reports
  refine ⟨w, working, ?_⟩
  unfold Point.report? at isReport
  split at isReport <;> cases isReport
  assumption

theorem reportOf_of_ended {report : Report} (working : s.workers[n]? = some w)
    (ended : w.run.point = .ended (.ok report)) : s.reportOf n = some report := by
  rw [reportOf, working, Option.bind_some, ended]
  rfl

theorem reportOf_begun {report : Report} (reports : s.reportOf n = some report) (i : Invocation)
    (limit : Option Seconds) (now : Instant) : (s.begun i limit now).reportOf n = some report := by
  obtain ⟨w, working, ended⟩ := exists_of_reportOf reports
  have inside := (List.getElem?_eq_some_iff.mp working).1
  exact reportOf_of_ended ((List.getElem?_append_left inside).trans working) ended

/-- The turn of a run that has not ended leaves the reports of others as they are. -/
theorem reportOf_turned {report : Report} (reports : s.reportOf n = some report)
    (working : s.workers[m]? = some v) (going : ∀ result, v.run.point ≠ .ended result)
    (turn : Turn) : (s.turned m v turn).reportOf n = some report := by
  obtain ⟨w, isWorker, ended⟩ := exists_of_reportOf reports
  have elsewhere : n ≠ m := by
    rintro rfl
    cases working.symm.trans isWorker
    exact going _ ended
  exact reportOf_of_ended (turned_other elsewhere isWorker) ended

/-- A run that has reported keeps to its report. -/
theorem Step.reportOf {report : Report} (next : s.Step t) (reports : s.reportOf n = some report) :
    t.reportOf n = some report := by
  cases next with
  | record => exact reports
  | invoke _ _ _ _ _ limit now => exact reportOf_begun reports _ limit now
  | process _ limit now => exact reportOf_begun reports _ limit now
  | cancel root =>
    obtain ⟨w, working, ended⟩ := exists_of_reportOf reports
    obtain ⟨v, isWorker, like⟩ := (s.cancelled_rests root).kept n w working
    exact reportOf_of_ended isWorker (like.point.trans ended)
  | go working _ going =>
    refine reportOf_turned reports working (fun result ended => ?_) _
    rw [Run.hasEnded, ended] at going
    cases going
  | hear working waits =>
    refine reportOf_turned reports working (fun result ended => ?_) _
    rw [Run.wait?, ended] at waits
    cases waits

/-- A report names what its run has logged, in order, up to the frame in the middle of which the
run was stopped. It names everything exactly if nothing had been logged of such a frame, and so
it does for a drained cascade. -/
theorem report_names (initial : start.Initial) (reached : start.Reaches s)
    (reports : s.reportOf n = some report) :
    (s.loggedBy n).map (·.id) = report.invocations ++ (s.cutOff n).map (·.id) ∧
      (report.invocations = (s.loggedBy n).map (·.id) ↔ s.cutOff n = []) ∧
      (report.drained = true → s.cutOff n = []) := by
  obtain ⟨w, working, isEnded⟩ := exists_of_reportOf reports
  have tallies := (reached.obeys Run.tallies_lawful initial).obeys n w working
  have names : (s.loggedBy n).map (·.id) = report.invocations ++ (s.cutOff n).map (·.id) := by
    rw [(tallies.reports report isEnded).1]
    exact tallies.logged
  refine ⟨names, ?_, fun drained => tallies.complete ?_⟩
  · rw [names, List.self_eq_append_right, List.map_eq_nil_iff]
  · rw [isEnded]
    exact drained

/-- The faults of a report are those that its run has delivered, in order. Of all that was
delivered for a call it lacks what was delivered before the run was begun: the fault of a root
action that went wrong. -/
theorem report_faults {boundary : List Failure} (initial : start.Initial)
    (reached : start.Reaches s) (opens : s.Opens boundary t) (later : t.Reaches u)
    (reports : u.reportOf s.workers.length = some report) :
    boundary ++ u.deliveredBy s.workers.length = boundary ++ report.faults ∧
      (report.faults = boundary ++ u.deliveredBy s.workers.length ↔ boundary = []) := by
  obtain ⟨w, working, isEnded⟩ := exists_of_reportOf reports
  have all := (reached.step opens.step).trans later
  have tallies := (all.obeys Run.tallies_lawful initial).obeys _ w working
  have faults : report.faults = u.deliveredBy s.workers.length :=
    (tallies.reports report isEnded).2.trans tallies.faults
  refine ⟨by rw [faults], ?_⟩
  rw [faults, List.self_eq_append_left]

end System

/-! ### A run that is stopped in the middle of a frame -/

namespace Mail

/-- Whatever is sorted is stamped and sealed. -/
def deliver : Rule where
  name := "deliver"
  whens := [{ action := ⟨"Mail", "sort"⟩, inputs := [] }]
  thens := [{ action := ⟨"Clerk", "stamp"⟩, inputs := [] }, { action := ⟨"Clerk", "seal"⟩, inputs := [] }]

def start : System where
  engine :=
    { catalogue :=
        { operations := [⟨⟨"Mail", "sort"⟩, .action⟩, ⟨⟨"Clerk", "stamp"⟩, .action⟩,
            ⟨⟨"Clerk", "seal"⟩, .action⟩] }
      rules := { rules := [deliver], index := [(⟨"Mail", "sort"⟩, [deliver])] } }

theorem start_initial : start.Initial where
  log := .start
  fired := rfl
  firedByRoot := rfl
  active := rfl
  workers := rfl
  chronicle := rfl

/-- The letter has been stamped and its cascade is cancelled while it is being sealed. -/
def schedule : List Happening :=
  [.record ⟨"Mail", "sort"⟩ [] [], .process 0, .go 0, .go 0, .go 0, .go 0, .go 0,
    .hear 0 (.component (.finished (.ok .null))), .go 0, .cancel 1, .hear 0 (.component .woken)]

def stopped : System := start.after schedule

theorem report_names_stopped : (stopped.reportOf 0).isSome ∧
    ∀ report ∈ stopped.reportOf 0,
      (stopped.loggedBy 0).map (·.id) = report.invocations ++ (stopped.cutOff 0).map (·.id) :=
  ⟨by decide +kernel, fun _ reports =>
    (System.report_names start_initial (start.reaches_after schedule) reports).1⟩

/-- The run has logged the stamping, and reports nothing. -/
theorem report_lacks_stamping : start.Reaches stopped ∧
    (stopped.reportOf 0).map (·.invocations) = some [] ∧ (stopped.loggedBy 0).map (·.id) = [2] :=
  ⟨start.reaches_after schedule, by decide +kernel, by decide +kernel⟩

end Mail

/-! ### A root action that goes wrong -/

namespace Gong

def start : System where
  engine := { catalogue := { operations := [⟨⟨"Gong", "strike"⟩, .action⟩] } }

theorem start_initial : start.Initial where
  log := .start
  fired := rfl
  firedByRoot := rfl
  active := rfl
  workers := rfl
  chronicle := rfl

/-- The gong cracks. -/
def struck : CallEnd :=
  .failing "Gong.strike failed"
    { what := .callRaised ⟨"Gong", "strike"⟩ "ValueError" "cracked", source := some "ValueError" }

def opened : System := start.invoked ⟨"Gong", "strike"⟩ [] struck.output none 0

/-- Nobody listens to the gong. -/
def ended : System := opened.after [.go 0, .go 0, .go 0, .hear 0 (.repository (.ok ()))]

theorem start_opens : start.Opens (struck.fault? CallEnd.boundary).toList opened :=
  .invoke rfl rfl (.error (.plain .value "cracked")) rfl rfl none 0

theorem report_faults_ended : (ended.reportOf 0).isSome ∧
    ∀ report ∈ ended.reportOf 0, (struck.fault? CallEnd.boundary).toList ++ ended.deliveredBy 0 =
      (struck.fault? CallEnd.boundary).toList ++ report.faults :=
  ⟨by decide +kernel, fun _ reports =>
    (System.report_faults start_initial .start start_opens (opened.reaches_after _) reports).1⟩

/-- One fault has been delivered, and none is reported. -/
theorem report_lacks_strike : start.Opens (struck.fault? CallEnd.boundary).toList opened ∧
    opened.Reaches ended ∧ (ended.reportOf 0).map (·.faults.length) = some 0 ∧
      ((struck.fault? CallEnd.boundary).toList ++ ended.deliveredBy 0).length = 1 :=
  ⟨start_opens, opened.reaches_after _, by decide +kernel, by decide +kernel⟩

end Gong

end Choreography
