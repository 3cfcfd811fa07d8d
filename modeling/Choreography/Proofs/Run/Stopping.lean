import Choreography.Proofs.Run.Faults
import Choreography.Proofs.Run.Survivors

/-! How a run leaves its work loop. After each turn it goes on, or has broken off because of an
error. A run that is to stop, be it that its token is set or that its deadline has passed, begins
nothing any more: what it was waiting for may come back, and then it breaks off at the next thing
that is left to handle. Only if there is none it drains. -/

namespace Choreography

/-- What a run does in one go at a certain moment. -/
inductive Run.TurnsAt (e : Engine) (r : Run) (now : Instant) : Turn → Prop where
  | step (ready : r.wait? e = none) (going : r.hasEnded = false) : TurnsAt e r now (r.step e now)
  | resume (waits : r.wait? e = some wait) (answered : wait.IsAnsweredBy reply) :
      TurnsAt e r now (r.resume e now reply)

/-- A run hears what it waits for. -/
inductive Point.Hears : Point → Reply → Prop where
  | clause {site : Site} {stage : Enriching} (outcome : Outcome Returned)
      (asked : stage.asked? = some given) : Hears (.enriching site stage) (.clause outcome)
  | component (outcome : Outcome Value) :
      Hears (.dispatching site left claimed work (.calling action input more made ends))
        (.component outcome)
  | repository (result : Except Error Unit) : Hears .saving (.repository result)

/-- Where a run can be after a turn in its work loop: it goes on, or has left because of an error.
-/
inductive Run.Lands (r : Run) : Prop where
  | goesOn (going : r.point.isGoing = true)
  | brokenOff (isRun : r = (Run.leave e c error).run)

/-- A cascade is to stop. Its token is set, or its deadline has passed. -/
def Cascade.IsStopped (c : Cascade) (now : Instant) : Prop :=
  c.cancelled = true ∨ ∃ deadline ∈ c.deadline, deadline ≤ now

/-- Whether a run waits for a where-clause or for a component. -/
def Point.asks : Point → Bool
  | .enriching _ stage => stage.asked?.isSome
  | .dispatching _ _ _ _ (.calling ..) => true
  | _ => false

/-- No rule listens for any of these invocations. -/
def RuleRegistry.Ignores (registry : RuleRegistry) (invocations : List Invocation) : Prop :=
  ∀ i ∈ invocations, registry.rulesFor i.action = []

/-- A where-stage has no frame apart from those that it waits for. -/
def Enriching.IsIdle : Enriching → Prop
  | .batch _ _ => True
  | .isolating kept left | .single _ kept left _ => kept = [] ∧ left = []
  | .finished frames => frames = []
  | .raised _ => False

/-- A dispatch has nothing to call apart from what it waits for, and nothing follows from what it
has logged. -/
def Dispatching.IsIdle (registry : RuleRegistry) : Dispatching → Prop
  | .next left produced | .calling _ _ left produced _ => left = [] ∧ registry.Ignores produced
  | .finished produced => registry.Ignores produced
  | .raised _ => False

/-- What a run is in the middle of leaves nothing to handle. -/
def Point.IsIdle (registry : RuleRegistry) : Point → Prop
  | .rules _ left => left = []
  | .enriching site stage => site.later = [] ∧ stage.IsIdle
  | .frames site left _ => site.later = [] ∧ left = []
  | .dispatching site left _ _ stage => site.later = [] ∧ left = [] ∧ stage.IsIdle registry
  | .next | .saving | .ended _ => True

instance RuleRegistry.decidableIgnores (registry : RuleRegistry) (invocations : List Invocation) :
    Decidable (registry.Ignores invocations) :=
  inferInstanceAs (Decidable (∀ i ∈ invocations, registry.rulesFor i.action = []))

instance Enriching.decidableIsIdle : (stage : Enriching) → Decidable stage.IsIdle
  | .batch _ _ => .isTrue trivial
  | .isolating kept left | .single _ kept left _ =>
    inferInstanceAs (Decidable (kept = [] ∧ left = []))
  | .finished frames => inferInstanceAs (Decidable (frames = []))
  | .raised _ => .isFalse id

instance Dispatching.decidableIsIdle (registry : RuleRegistry) :
    (stage : Dispatching) → Decidable (stage.IsIdle registry)
  | .next left produced | .calling _ _ left produced _ =>
    inferInstanceAs (Decidable (left = [] ∧ registry.Ignores produced))
  | .finished produced => inferInstanceAs (Decidable (registry.Ignores produced))
  | .raised _ => .isFalse id

instance Point.decidableIsIdle (registry : RuleRegistry) : (p : Point) → Decidable (p.IsIdle registry)
  | .rules _ left => inferInstanceAs (Decidable (left = []))
  | .enriching site stage => inferInstanceAs (Decidable (site.later = [] ∧ stage.IsIdle))
  | .frames site left _ => inferInstanceAs (Decidable (site.later = [] ∧ left = []))
  | .dispatching site left _ _ stage =>
    inferInstanceAs (Decidable (site.later = [] ∧ left = [] ∧ stage.IsIdle registry))
  | .next | .saving | .ended _ => .isTrue trivial

/-- Apart from what it waits for a run has nothing to handle: no rule of the invocation in hand or
of one in the queue, no frame, and no call. -/
structure Run.IsIdle (r : Run) (registry : RuleRegistry) : Prop where
  queue : registry.Ignores r.cascade.queue
  point : r.point.IsIdle registry

instance Run.decidableIsIdle (r : Run) (registry : RuleRegistry) : Decidable (r.IsIdle registry) :=
  decidable_of_iff (registry.Ignores r.cascade.queue ∧ r.point.IsIdle registry)
    ⟨fun idle => ⟨idle.1, idle.2⟩, fun idle => ⟨idle.queue, idle.point⟩⟩

/-- What a turn makes of a run that is to stop. It goes on without asking for anything, and has
something to handle if it had before; or it is cancelled, if it still had something to handle; or
what it had called for cannot be logged, or what its where-clause returned cannot be checked. -/
inductive Run.WindsDown (e : Engine) (r : Run) (moment : Instant) (turn : Turn) : Prop where
  | goesOn (going : turn.run.point.isGoing = true) (silent : turn.run.point.asks = false)
      (stopped : turn.run.cascade.IsStopped moment)
      (busy : ¬r.IsIdle e.rules → ¬turn.run.IsIdle e.rules)
      (idle : r.point.asks = false → r.IsIdle e.rules → turn.run.IsIdle e.rules)
  | cancelled (ended : turn.run.hasEnded = true) (state : turn.run.cascade.state = .cancelled)
      (busy : r.point.asks = false → ¬r.IsIdle e.rules)
  | lost
      (isPoint :
        r.point = .dispatching site left claimed work (.calling action input more made ends))
      (failed : turn.run.point = .ended (.error (.described reason)))
      (rejected : e.log.append action input output work.frame.support = .error reason)
  | brokenOff (breaksOff : r.BreaksOff e given outcome error turn)

variable {e : Engine} {c d : Cascade} {r : Run} {turn : Turn} {now later moment : Instant}
  {registry : RuleRegistry} {site : Site} {error : Error}

namespace Run

theorem TurnsAt.turns (turns : r.TurnsAt e now turn) : r.Turns e turn := by
  cases turns with
  | step ready going => exact .step now ready going
  | resume waits answered => exact .resume now waits answered

/-- Who waits is answered by what he waits for. -/
theorem hears (waits : r.wait? e = some wait) (answered : wait.IsAnsweredBy reply) :
    r.point.Hears reply := by
  obtain ⟨c, p⟩ := r
  cases p with
  | next | rules | frames | ended => cases waits
  | enriching site stage =>
    cases stage with
    | batch | single =>
      cases waits
      cases reply with
      | clause => exact .clause _ rfl
      | component | repository => cases answered
    | isolating | finished | raised => cases waits
  | dispatching site left claimed work stage =>
    cases stage with
    | calling =>
      cases waits
      cases reply with
      | component => exact .component _
      | clause | repository => cases answered
    | next | finished | raised => cases waits
  | saving =>
    cases waits
    cases reply with
    | repository => exact .repository _
    | clause | component => cases answered

end Run

/-! ### Waiting while a cascade is to stop -/

namespace Cascade

theorem IsStopped.mono (stopped : c.IsStopped now) (passes : now ≤ later) : c.IsStopped later := by
  refine stopped.imp_right ?_
  rintro ⟨deadline, isDeadline, passed⟩
  exact ⟨deadline, isDeadline, passed.trans passes⟩

/-- Only a task that finished has returned something. -/
theorem eq_finished_of_endWait {outcome : Outcome α} {a : α}
    (returned : (c.endWait now outcome).1 = .ok a) : outcome = .finished (.ok a) := by
  cases outcome with
  | finished => exact congrArg _ returned
  | woken =>
    unfold endWait at returned
    dsimp only at returned
    split at returned <;> cases returned
  | abandoned => cases returned

theorem remaining_eq_zero : c.remaining now = some 0 ↔ ∃ deadline ∈ c.deadline, deadline ≤ now := by
  rw [remaining]
  cases c.deadline with
  | none => simp
  | some deadline =>
    have isZero (a b : Int) : max 0 (a - b) = 0 ↔ a ≤ b := by omega
    simp only [Option.map_some, Option.some.injEq, Option.mem_def, exists_eq_left']
    exact isZero deadline now

/-- Whoever looks notices that a cascade is to stop. -/
theorem check_cancelled : (c.check now).cancelled = true ↔ c.IsStopped now := by
  rw [IsStopped, ← remaining_eq_zero]
  unfold check
  split
  · next late => simp [cancel, late]
  · next inTime => simp [inTime]

theorem IsStopped.check (stopped : c.IsStopped now) (later : Instant) :
    (c.check later).IsStopped now := by
  unfold Cascade.check
  split
  · exact .inl rfl
  · exact stopped

theorem IsStopped.beginWait (stopped : c.IsStopped now) :
    c.beginWait now = (.error (c.check now).stopped, c.check now) := by
  unfold Cascade.beginWait
  dsimp only
  rw [if_pos (check_cancelled.mpr stopped)]

theorem beginWait_of_not_stopped (free : ¬c.IsStopped now) : c.beginWait now = (.ok (), c) := by
  have inTime : c.remaining now ≠ some 0 := fun late => free (.inr (remaining_eq_zero.mp late))
  have same : c.check now = c := if_neg inTime
  have unset : ¬(c.check now).cancelled = true := fun isSet => free (check_cancelled.mp isSet)
  unfold beginWait
  dsimp only
  rw [if_neg unset, same]

/-- A wait that begins finds the cascade as it was. -/
theorem of_beginWait_ok (began : c.beginWait now = (.ok (), d)) : ¬c.IsStopped now ∧ d = c := by
  by_cases stopped : c.IsStopped now
  · rw [stopped.beginWait] at began
    cases began
  · rw [beginWait_of_not_stopped stopped] at began
    cases began
    exact ⟨stopped, rfl⟩

theorem stopped_not_isOrdinary (c : Cascade) : ¬c.stopped.IsOrdinary := id

theorem IsStopped.endWait (stopped : c.IsStopped moment) (now : Instant) (outcome : Outcome α) :
    (c.endWait now outcome).2.IsStopped moment := by
  cases outcome with
  | finished | abandoned => exact stopped
  | woken => exact stopped.check now

theorem IsStopped.recordFaults (stopped : c.IsStopped now) (faults : List Failure) :
    (faults.foldl recordFault c).IsStopped now := by
  induction faults generalizing c with
  | nil => exact stopped
  | cons fault faults ih => exact ih (c := c.recordFault fault) stopped

end Cascade

theorem Dispatch.not_isRaised_start (work : Dispatch) (limit : Int) (c : Cascade)
    (log : InvocationLog) :
    (work.start limit c log).stage.isRaised = false := by
  unfold start
  split <;> rfl

/-! ### Turns that end the work -/

namespace Run

/-- A run that leaves its work loop because it was cancelled, or told to give up, is cancelled. -/
theorem leave_cancelled (e : Engine) (c : Cascade) (stops : ¬error.IsOrdinary) :
    (leave e c error).run.hasEnded = true ∧ (leave e c error).run.cascade.state = .cancelled := by
  unfold leave
  split
  · exact ⟨rfl, rfl⟩
  · exact ⟨rfl, rfl⟩
  · next notCascade notCaller =>
    refine absurd ?_ stops
    unfold Error.IsOrdinary
    split
    · exact notCascade _ rfl
    · exact notCaller _ rfl
    · trivial

/-- A run that leaves its work loop with a report was cancelled. -/
theorem state_of_leave {report : Report} (ended : (leave e c error).run.point = .ended (.ok report)) :
    report.state = .cancelled := by
  unfold leave at ended
  split at ended
  · cases ended
    rfl
  · cases ended
  · cases ended

theorem hasEnded_leave (e : Engine) (c : Cascade) (error : Error) :
    (leave e c error).run.hasEnded = true := by
  unfold leave
  split <;> rfl

theorem takeRule_lands (e : Engine) (now : Instant) (c : Cascade) (s : Site) :
    (takeRule e now c s).run.Lands := by
  unfold takeRule
  split
  · exact .brokenOff rfl
  · next d began =>
    obtain ⟨free, rfl⟩ := Cascade.of_beginWait_ok began
    split
    · exact .goesOn rfl
    · unfold Enrichment.start
      split
      · exact .goesOn rfl
      · -- The cascade has just been looked at, so that the where-stage begins its wait.
        rw [Cascade.beginWait_of_not_stopped (c := { d with state := .enriching }) free]
        exact .goesOn rfl

theorem takeFrame_lands (e : Engine) (now : Instant) (c : Cascade) (s : Site) (frame : Frame)
    (left : Frames) (claimed : List Firing) : (takeFrame e now c s frame left claimed).run.Lands := by
  unfold takeFrame
  split
  · exact .brokenOff rfl
  · dsimp only
    split
    · exact .goesOn rfl
    · split
      · exact .brokenOff rfl
      · exact .goesOn (congrArg (!·) (Dispatch.not_isRaised_start ..))

theorem afterEnriching_lands (e : Engine) (s : Site) (turn : StageTurn Enriching) :
    (afterEnriching e s turn).run.Lands := by
  unfold afterEnriching
  split
  · exact .goesOn rfl
  · exact .brokenOff rfl
  · next notRaised =>
    refine .goesOn ?_
    rw [Point.isGoing]
    generalize turn.stage = stage at notRaised ⊢
    cases stage with
    | raised error => exact absurd rfl (notRaised error)
    | _ => rfl

theorem afterDispatching_lands (e : Engine) (s : Site) (left : Frames) (claimed : List Firing)
    (work : Dispatch) (turn : DispatchTurn) :
    (afterDispatching e s left claimed work turn).run.Lands := by
  unfold afterDispatching
  dsimp only
  split
  · exact .goesOn rfl
  · exact .brokenOff rfl
  · next notRaised =>
    refine .goesOn ?_
    rw [Point.isGoing]
    generalize turn.stage = stage at notRaised ⊢
    cases stage with
    | raised error => exact absurd rfl (notRaised error)
    | _ => rfl

/-- After every turn a run goes on, or has left its work loop because of an error, or has come back
from the repository. -/
theorem Turns.lands (turns : r.Turns e turn) : turn.run.Lands ∨ r.point = .saving := by
  obtain ⟨c, p⟩ := r
  cases turns with
  | step now ready going =>
    refine .inl ?_
    unfold Run.step
    dsimp only
    split
    · split <;> exact .goesOn rfl
    · exact .goesOn rfl
    · exact takeRule_lands ..
    · exact afterEnriching_lands ..
    · exact .goesOn rfl
    · exact takeFrame_lands ..
    · exact afterDispatching_lands ..
    · exact .goesOn rfl
    · cases going
  | @resume _ reply now waits answered =>
    have heard : p.Hears reply := hears waits answered
    cases heard with
    | clause => exact .inl (afterEnriching_lands ..)
    | component => exact .inl (afterDispatching_lands ..)
    | repository => exact .inr rfl

end Run

/-! ### A run that is to stop -/

namespace RuleRegistry

theorem ignores_append {first second : List Invocation} :
    registry.Ignores (first ++ second) ↔ registry.Ignores first ∧ registry.Ignores second :=
  List.forall_mem_append

theorem ignores_cons {first : Invocation} {rest : List Invocation} :
    registry.Ignores (first :: rest) ↔ registry.rulesFor first.action = [] ∧ registry.Ignores rest :=
  List.forall_mem_cons

end RuleRegistry

/-- What a step of a where-stage, or an answer to it, makes of a cascade that is to stop. -/
structure StageTurn.WindsDown (turn : StageTurn Enriching) (stage : Enriching) (moment : Instant) :
    Prop where
  stopped : turn.cascade.IsStopped moment
  silent : turn.stage.asked? = none
  raised : ∀ error, turn.stage = .raised error → ¬error.IsOrdinary
  busy : ¬stage.IsIdle → ¬turn.stage.IsIdle
  idle : stage.asked? = none → stage.IsIdle → turn.stage.IsIdle

namespace Enrichment

variable (x : Enrichment)

theorem step_windsDown (stopped : c.IsStopped moment) (passed : moment ≤ now) {stage : Enriching}
    (unasked : stage.asked? = none) (going : stage.isRaised = false) :
    (x.step now c stage).WindsDown stage moment := by
  unfold step
  split
  · refine ⟨stopped, rfl, fun error isRaised => ?_, fun busy isNone => busy ⟨isNone, rfl⟩, ?_⟩
    · cases isRaised
    · exact fun _ idle => idle.1
  · rw [(stopped.mono passed).beginWait]
    refine ⟨stopped.check now, rfl, fun error isRaised => ?_, fun _ => id, fun _ idle => ?_⟩
    · cases isRaised
      exact Cascade.stopped_not_isOrdinary _
    · cases idle.2
  · refine ⟨stopped, unasked, fun error isRaised => ?_, id, fun _ => id⟩
    dsimp only at isRaised
    rw [isRaised] at going
    cases going

theorem report_isStopped (stopped : c.IsStopped moment) (rejected : List Rejection) :
    (x.report c rejected).1.IsStopped moment :=
  stopped.recordFaults _

/-- An answer that leaves a where-stage with frames. -/
private theorem windsDown_of_frames {stageTurn : StageTurn Enriching} {stage : Enriching}
    (stopped : stageTurn.cascade.IsStopped moment) (asked : stage.asked? = some given)
    (silent : stageTurn.stage.asked? = none) (going : stageTurn.stage.isRaised = false)
    (busy : ¬stage.IsIdle → ¬stageTurn.stage.IsIdle) : stageTurn.WindsDown stage moment where
  stopped
  silent
  raised error isRaised := by
    rw [isRaised] at going
    cases going
  busy
  idle unasked := by
    rw [asked] at unasked
    cases unasked

/-- An answer that ends a where-stage because the cascade was cancelled or its caller gave up. -/
private theorem windsDown_of_stop {stage : Enriching} (stopped : c.IsStopped moment)
    (asked : stage.asked? = some given) (stops : ¬error.IsOrdinary) :
    StageTurn.WindsDown { stage := .raised error, cascade := c } stage moment where
  stopped
  silent := rfl
  raised other isRaised := by
    cases isRaised
    exact stops
  busy _ := id
  idle unasked := by
    rw [asked] at unasked
    cases unasked

theorem afterBatch_windsDown (stopped : c.IsStopped moment) (frames : Frames) (ends : Option Instant)
    {result : Except Error Returned} (keyed : ∀ returned, result = .ok returned → returned.flaw? = none) :
    (x.afterBatch frames c result).WindsDown (.batch frames ends) moment := by
  have still (busy : ¬(Enriching.batch frames ends).IsIdle) (next : Enriching) : ¬next.IsIdle :=
    absurd trivial busy
  unfold afterBatch
  split
  · next returned =>
    dsimp only
    rw [validate_of_keyed x.rule frames (keyed returned rfl)]
    exact windsDown_of_frames (x.report_isStopped stopped _) rfl rfl rfl fun busy => still busy _
  · exact windsDown_of_stop stopped rfl id
  · exact windsDown_of_stop stopped rfl id
  · exact windsDown_of_frames (x.report_isStopped stopped _) rfl rfl rfl fun busy => still busy _
  · split
    · exact windsDown_of_frames (x.report_isStopped stopped _) rfl rfl rfl fun busy => still busy _
    · exact windsDown_of_frames stopped rfl rfl rfl fun busy => still busy _

theorem afterSingle_windsDown (stopped : c.IsStopped moment) (frame : Frame) (kept left : Frames)
    (ends : Option Instant) {result : Except Error Returned}
    (keyed : ∀ returned, result = .ok returned → returned.flaw? = none) :
    (x.afterSingle frame kept left c result).WindsDown (.single frame kept left ends) moment := by
  unfold afterSingle
  split
  · next returned =>
    dsimp only
    rw [validate_of_keyed x.rule [frame] (keyed returned rfl)]
    refine windsDown_of_frames (x.report_isStopped stopped _) rfl rfl rfl fun busy idle => busy ?_
    exact ⟨(List.append_eq_nil_iff.mp idle.1).1, idle.2⟩
  · exact windsDown_of_stop stopped rfl id
  · exact windsDown_of_stop stopped rfl id
  · exact windsDown_of_frames (x.report_isStopped stopped _) rfl rfl rfl id

theorem resume_windsDown (stopped : c.IsStopped moment) (now : Instant) (outcome : Outcome Returned)
    {stage : Enriching} (asked : stage.asked? = some frames) (keyed : outcome.flaw? = none) :
    (x.resume now c outcome stage).WindsDown stage moment := by
  have waited := stopped.endWait now outcome
  have unflawed : ∀ returned, (c.endWait now outcome).1 = .ok returned → returned.flaw? = none := by
    intro returned isReturned
    rwa [Cascade.eq_finished_of_endWait isReturned] at keyed
  cases stage with
  | batch frames ends => exact x.afterBatch_windsDown waited frames ends unflawed
  | single frame kept left ends => exact x.afterSingle_windsDown waited frame kept left ends unflawed
  | isolating | finished | raised => cases asked

end Enrichment

/-- A call that does not come to an end was cancelled, or told to give up. -/
theorem CallEnd.not_isOrdinary_of_ofResult {result : Except Error Value}
    (raised : CallEnd.ofResult action result = .error error) : ¬error.IsOrdinary := by
  unfold ofResult at raised
  split at raised <;> cases raised <;> exact id

namespace Run

/-- A run that is to stop breaks off if there is something to handle. -/
theorem WindsDown.of_leave {f : Engine} (stops : ¬error.IsOrdinary)
    (isRun : turn.run = (leave f d error).run) (busy : r.point.asks = false → ¬r.IsIdle e.rules) :
    r.WindsDown e moment turn := by
  obtain ⟨ended, state⟩ := leave_cancelled f d stops
  refine .cancelled ?_ ?_ busy <;> rw [isRun]
  · exact ended
  · exact state

/-- A run that is to stop goes on in its work loop, with the same queue. -/
theorem WindsDown.of_point {p : Point} (isRun : turn.run.cascade = d) (stopped : d.IsStopped moment)
    (sameQueue : d.queue = c.queue) (going : turn.run.point.isGoing = true)
    (silent : turn.run.point.asks = false)
    (busy : turn.run.point.IsIdle e.rules → p.IsIdle e.rules)
    (idle : p.asks = false → p.IsIdle e.rules → turn.run.point.IsIdle e.rules) :
    WindsDown e ⟨c, p⟩ moment turn := by
  have queue : turn.run.cascade.queue = c.queue := isRun ▸ sameQueue
  refine .goesOn going silent (isRun ▸ stopped) (fun isBusy isIdle => isBusy ?_) fun ready isIdle => ?_
  · exact ⟨queue ▸ isIdle.queue, busy isIdle.point⟩
  · exact ⟨queue.symm ▸ isIdle.queue, idle ready isIdle.point⟩

theorem afterEnriching_windsDown {stage : Enriching} {stageTurn : StageTurn Enriching}
    (winds : stageTurn.WindsDown stage moment) (same : stageTurn.cascade.SameWork c) :
    WindsDown e ⟨c, .enriching site stage⟩ moment (afterEnriching e site stageTurn) := by
  have unasked (ready : (Point.enriching site stage).asks = false) : stage.asked? = none :=
    Option.isNone_iff_eq_none.mp (Option.isSome_eq_false_iff.mp ready)
  obtain ⟨next, d, events⟩ := stageTurn
  obtain ⟨stopped, silent, raised, busy, idle⟩ := winds
  have busy (isIdle : site.later = [] ∧ next.IsIdle) : site.later = [] ∧ stage.IsIdle :=
    ⟨isIdle.1, by_contra fun isBusy => busy isBusy isIdle.2⟩
  have idle (ready : (Point.enriching site stage).asks = false)
      (isIdle : site.later = [] ∧ stage.IsIdle) : site.later = [] ∧ next.IsIdle :=
    ⟨isIdle.1, idle (unasked ready) isIdle.2⟩
  cases next with
  | raised error => exact .of_leave (raised error rfl) rfl fun ready isIdle => (idle ready isIdle.point).2
  | finished | isolating => exact .of_point rfl stopped same.queue rfl rfl busy idle
  | batch | single => cases silent

/-- A call that comes back is logged, and the dispatch goes on; or it cannot be logged. -/
theorem conclude_windsDown {work : Dispatch} {left : Frames} {claimed : List Firing}
    {more : List Pattern} {made : List Invocation} {ends : Option Instant} (stopped : d.IsStopped moment)
    (same : d.SameWork c) (call : CallEnd) :
    WindsDown e ⟨c, .dispatching site left claimed work (.calling action input more made ends)⟩ moment
      (afterDispatching e site left claimed work
        (work.conclude d e.log action input more made call)) := by
  unfold Dispatch.conclude
  dsimp only
  split
  · next reason rejected => exact .lost rfl rfl rejected
  · have noted : (((call.fault? (work.context d)).map d.recordFault).getD d).IsStopped moment := by
      cases call.fault? (work.context d) <;> exact stopped
    have sameQueue : (((call.fault? (work.context d)).map d.recordFault).getD d).queue = c.queue := by
      cases call.fault? (work.context d) <;> exact same.queue
    refine .of_point rfl noted sameQueue rfl rfl (fun isIdle => ?_) nofun
    obtain ⟨noRule, noFrame, noCall, ignored⟩ := isIdle
    exact ⟨noRule, noFrame, noCall, (RuleRegistry.ignores_append.mp ignored).1⟩

/-- The frame in hand is done with, and what it has produced is put into the queue. -/
theorem finish_windsDown {work : Dispatch} {left : Frames} {claimed : List Firing}
    {stage : Dispatching} {made : List Invocation} (stopped : c.IsStopped moment)
    (isIdle : stage.IsIdle e.rules ↔ e.rules.Ignores made) :
    WindsDown e ⟨c, .dispatching site left claimed work stage⟩ moment
      (afterDispatching e site left claimed work
        { stage := .finished made, cascade := c, log := e.log }) := by
  refine .goesOn rfl rfl stopped (fun isBusy ends => isBusy ?_) fun _ ends => ?_
  · obtain ⟨queue, ignored⟩ := RuleRegistry.ignores_append.mp ends.queue
    exact ⟨queue, ends.point.1, ends.point.2, isIdle.mpr ignored⟩
  · obtain ⟨noRule, noFrame, noCall⟩ := ends.point
    exact ⟨RuleRegistry.ignores_append.mpr ⟨ends.queue, isIdle.mp noCall⟩, noRule, noFrame⟩

theorem takeRule_of_stopped (e : Engine) (stopped : c.IsStopped now) (s : Site) :
    takeRule e now c s = leave e (c.check now) (c.check now).stopped := by
  unfold takeRule
  rw [stopped.beginWait]

theorem takeFrame_of_stopped (e : Engine) (stopped : c.IsStopped now) (s : Site) (frame : Frame)
    (left : Frames) (claimed : List Firing) :
    takeFrame e now c s frame left claimed = leave e (c.check now) (c.check now).stopped := by
  unfold takeFrame
  rw [stopped.beginWait]

/-- What a step makes of a run that is to stop, if everything that its rules call is offered. -/
theorem step_windsDown (stopped : r.cascade.IsStopped moment) (passed : moment ≤ now)
    (ready : r.wait? e = none) (going : r.point.isGoing = true)
    (offered : ∀ site left claimed work p patterns made,
      r.point = .dispatching site left claimed work (.next (p :: patterns) made) →
        e.catalogue.has p.action = true) : r.WindsDown e moment (r.step e now) := by
  obtain ⟨c, p⟩ := r
  have late : c.IsStopped now := stopped.mono passed
  cases p with
  | next =>
    unfold step
    dsimp only
    split
    · next empty =>
      have ignored : e.rules.Ignores c.queue := empty ▸ List.forall_mem_nil _
      exact .goesOn rfl rfl stopped (absurd ⟨ignored, trivial⟩) fun _ _ => ⟨ignored, trivial⟩
    · next trigger queue queued =>
      refine .goesOn rfl rfl stopped (fun isBusy isIdle => isBusy ⟨?_, trivial⟩) fun _ isIdle => ?_
      · rw [queued]
        exact RuleRegistry.ignores_cons.mpr ⟨isIdle.point, isIdle.queue⟩
      · obtain ⟨first, rest⟩ := RuleRegistry.ignores_cons.mp (queued ▸ isIdle.queue)
        exact ⟨rest, first⟩
  | rules trigger left =>
    cases left with
    | nil => exact .of_point rfl stopped rfl rfl rfl (fun _ => rfl) fun _ _ => trivial
    | cons rule later =>
      have breaksOff := takeRule_of_stopped e late ⟨trigger, rule, later⟩
      exact .of_leave (c.check now).stopped_not_isOrdinary (congrArg Turn.run breaksOff)
        fun _ isIdle => nomatch isIdle.point
  | enriching site stage =>
    have unasked : stage.asked? = none := by
      cases stage <;> first | rfl | cases ready
    have notRaised : stage.isRaised = false := by
      rw [← Bool.not_eq_true']
      exact going
    exact afterEnriching_windsDown
      ((Enrichment.ofSite e site).step_windsDown stopped passed unasked notRaised)
      ((Enrichment.ofSite e site).step_advances now c stage).same
  | frames site left claimed =>
    cases left with
    | nil =>
      exact .of_point rfl stopped rfl rfl rfl (fun isIdle => ⟨isIdle, rfl⟩) fun _ isIdle => isIdle.1
    | cons frame left =>
      have breaksOff := takeFrame_of_stopped e late site frame left claimed
      exact .of_leave (c.check now).stopped_not_isOrdinary (congrArg Turn.run breaksOff)
        fun _ isIdle => nomatch isIdle.point.2
  | dispatching site left claimed work stage =>
    cases stage with
    | next patterns made =>
      cases patterns with
      | nil => exact finish_windsDown stopped (and_iff_right rfl)
      | cons p patterns =>
        have isOffered := offered _ _ _ _ _ _ _ rfl
        have raises : work.step e.catalogue now c e.log (.next (p :: patterns) made) =
            { stage := .raised (c.check now).stopped, cascade := c.check now, log := e.log } := by
          unfold Dispatch.step
          dsimp only
          rw [if_pos isOffered, late.beginWait]
        refine .of_leave (c.check now).stopped_not_isOrdinary
          (congrArg (fun turn => (afterDispatching e site left claimed work turn).run) raises)
          fun _ isIdle => nomatch isIdle.point.2.2.1
    | calling => cases ready
    | finished made => exact finish_windsDown stopped .rfl
    | raised => cases going
  | saving => cases ready
  | ended => cases going

/-- What an answer makes of a run that is to stop. -/
theorem resume_windsDown (stopped : r.cascade.IsStopped moment) (now : Instant)
    (waits : r.wait? e = some wait) (answered : wait.IsAnsweredBy reply) (notSaving : r.point ≠ .saving) :
    r.WindsDown e moment (r.resume e now reply) := by
  have heard : r.point.Hears reply := hears waits answered
  obtain ⟨c, p⟩ := r
  cases heard with
  | @clause _ site stage outcome asked =>
    cases flawed : outcome.flaw? with
    | some error =>
      cases wait with
      | clause => exact .brokenOff (.hear waits flawed now)
      | component | repository => cases answered
    | none =>
      exact afterEnriching_windsDown
        ((Enrichment.ofSite e site).resume_windsDown stopped now outcome asked flawed)
        ((Enrichment.ofSite e site).resume_advances now c outcome stage).same
  | component outcome =>
    have waited := stopped.endWait now outcome
    have same := c.endWait_sameWork now outcome
    unfold resume Dispatch.resume
    dsimp only
    split
    · next error raised => exact .of_leave (CallEnd.not_isOrdinary_of_ofResult raised) rfl nofun
    · next call _ => exact conclude_windsDown waited same call
  | repository => exact absurd rfl notSaving

/-- Whatever a run that is to stop does, it winds down. -/
theorem TurnsAt.windsDown (turns : r.TurnsAt e now turn) (stopped : r.cascade.IsStopped moment)
    (passed : moment ≤ now) (going : r.point.isGoing = true) (notSaving : r.point ≠ .saving)
    (offered : ∀ site left claimed work p patterns made,
      r.point = .dispatching site left claimed work (.next (p :: patterns) made) →
        e.catalogue.has p.action = true) : r.WindsDown e moment turn := by
  cases turns with
  | step ready => exact step_windsDown stopped passed ready going offered
  | resume waits answered => exact resume_windsDown stopped now waits answered notSaving

end Run

end Choreography
