import Choreography.Proofs.Enrichment.Check
import Choreography.Run

/-! Runs that nothing stops. Their cascade has no deadline and is not cancelled, and whatever the
code that they wait for does, it does not cancel them. Such a run goes on after every fault: the
where-stage is left with the frames that survive it, and a call that goes wrong is logged. One thing
ends it: a where-clause returns a frame that rests on something that cannot be looked up. -/

namespace Choreography

/-- Nothing stops a cascade. -/
structure Cascade.IsFree (c : Cascade) : Prop where
  deadline : c.deadline = none
  token : c.cancelled = false

/-- An error that stops neither a cascade nor the one who waits. -/
def Error.IsOrdinary : Error → Prop
  | .plain .cascadeCancelled _ | .plain .cancelled _ => False
  | _ => True

/-- A task that returned or raised something, or took too long. -/
def Outcome.IsOrdinary (outcome : Outcome α) : Prop :=
  ∀ error, outcome.unbounded = .error error → error.IsOrdinary

/-- What a where-clause does with frames that it is given: it returns something, raises an error
or takes too long. -/
abbrev Behaviour := Frames → Outcome Returned

/-- Why what a where-clause has come to cannot be checked to its end, if it cannot. -/
def Outcome.flaw? : Outcome Returned → Option Error
  | .finished (.ok returned) => returned.flaw?
  | _ => none

namespace Enrichment

/-- The frames that are accepted of what came back. Each thing is judged by itself. -/
def accepted (rule : Rule) (inputs : Frames) (returned : Returned) : Frames :=
  returned.contents.filterMap fun item => (judge rule inputs item).kept?

variable (rule : Rule) (clause : Behaviour)

/-- What is left of a frame that goes through the where-clause alone. -/
def alone (frame : Frame) : Frames :=
  match (clause [frame]).unbounded with
  | .ok returned => accepted rule [frame] returned
  | .error _ => []

/-- What is left of frames that go through the where-clause together. If that takes too long, or
raises the error that says so, nothing is. After any other error each frame goes alone. -/
def together (frames : Frames) : Frames :=
  match (clause frames).unbounded with
  | .ok returned => accepted rule frames returned
  | .error (.plain .taskTimeout _) => []
  | .error _ => if frames.length = 1 then [] else frames.flatMap (alone rule clause)

/-- What the where-stage leaves of frames. -/
def survivors (frames : Frames) : Frames :=
  if rule.enrich.isNone || frames.isEmpty then frames else together rule clause frames

end Enrichment

def Enriching.isRaised : Enriching → Bool
  | .raised _ => true
  | _ => false

def Dispatching.isRaised : Dispatching → Bool
  | .raised _ => true
  | _ => false

/-- Whether a run has neither ended nor met an error that ends it. -/
def Point.isGoing : Point → Bool
  | .enriching _ stage => !stage.isRaised
  | .dispatching _ _ _ _ stage => !stage.isRaised
  | .ended _ => false
  | _ => true

/-- Whatever is called for a frame can be logged. -/
def Dispatch.CanLog (work : Dispatch) (log : InvocationLog) : Prop :=
  ∀ action input output, ∃ grown i, log.append action input output work.frame.support = .ok (grown, i)

/-- The frames that a run has before it rest on what is in the log. -/
def Point.CanLog (log : InvocationLog) : Point → Prop
  | .frames _ left _ => ∀ frame ∈ left, ∃ depth, Dispatch.depthOf log frame.support = .ok depth
  | .dispatching _ _ _ work _ => work.CanLog log
  | _ => True

/-- What a where-stage will have left in the end. -/
def Enriching.yield (rule : Rule) (clause : Behaviour) : Enriching → Frames
  | .batch frames _ => Enrichment.together rule clause frames
  | .isolating kept left => kept ++ left.flatMap (Enrichment.alone rule clause)
  | .single frame kept left _ => kept ++ (frame :: left).flatMap (Enrichment.alone rule clause)
  | .finished frames => frames
  | .raised _ => []

/-- The where-stage goes on, and will have left certain frames in the end. -/
structure StageTurn.GoesOn (turn : StageTurn Enriching) (rule : Rule) (clause : Behaviour)
    (yield : Frames) : Prop where
  free : turn.cascade.IsFree
  going : turn.stage.isRaised = false
  yields : turn.stage.yield rule clause = yield

/-- The dispatch of a frame goes on. -/
structure DispatchTurn.GoesOn (turn : DispatchTurn) : Prop where
  free : turn.cascade.IsFree
  going : turn.stage.isRaised = false

/-- A run hears that its where-clause has returned something that cannot be checked to its end. -/
inductive Run.BreaksOff (e : Engine) (r : Run) (given : Frames) (outcome : Outcome Returned)
    (error : Error) : Turn → Prop where
  | hear (waits : r.wait? e = some (.clause rule given ends)) (flawed : outcome.flaw? = some error)
      (now : Instant) : BreaksOff e r given outcome error (r.resume e now (.clause outcome))

/-- A run goes on. -/
structure Turn.GoesOn (turn : Turn) : Prop where
  free : turn.run.cascade.IsFree
  going : turn.run.point.isGoing = true

variable {e : Engine} {c d : Cascade}

/-! ### Free cascades -/

namespace Cascade

theorem IsFree.check_eq (free : c.IsFree) (now : Instant) : c.check now = c := by
  unfold check remaining
  rw [free.deadline]
  rfl

theorem IsFree.beginWait (free : c.IsFree) (now : Instant) : c.beginWait now = (.ok (), c) := by
  unfold Cascade.beginWait
  dsimp only
  rw [free.check_eq, free.token]
  rfl

theorem IsFree.endWait_eq (free : c.IsFree) (now : Instant) (outcome : Outcome α) :
    c.endWait now outcome = (outcome.unbounded, c) := by
  cases outcome with
  | finished => rfl
  | woken =>
    unfold endWait
    dsimp only
    rw [free.check_eq, free.token]
    rfl
  | abandoned => rfl

theorem IsFree.recordFaults (free : c.IsFree) (faults : List Failure) :
    (faults.foldl recordFault c).IsFree := by
  induction faults generalizing c with
  | nil => exact free
  | cons fault faults ih => exact ih ⟨free.deadline, free.token⟩

end Cascade

/-! ### The where-stage -/

theorem Outcome.eq_finished_of_unbounded {outcome : Outcome α} {a : α}
    (returned : outcome.unbounded = .ok a) : outcome = .finished (.ok a) := by
  cases outcome with
  | finished => exact congrArg _ returned
  | woken | abandoned => cases returned

/-- Only something that came back has a flaw. -/
theorem Outcome.exists_of_flaw {outcome : Outcome Returned} {error : Error}
    (flawed : outcome.flaw? = some error) :
    ∃ returned, outcome = .finished (.ok returned) ∧ returned.flaw? = some error := by
  unfold flaw? at flawed
  split at flawed
  · next returned => exact ⟨returned, rfl, flawed⟩
  · cases flawed

namespace Enrichment

variable (x : Enrichment) (now : Instant) (clause : Behaviour)

theorem validate_fst (rule : Rule) (inputs : Frames) (returned : Returned) :
    (validate rule inputs returned).1 =
      returned.flaw?.elim (.ok (accepted rule inputs returned)) .error := by
  cases isSequence : returned.sequence? with
  | some items =>
    rw [validate_eq_judgeAll isSequence, judgeAll_fst, Returned.flaw?, accepted, Returned.contents,
      isSequence, Option.getD_some]
  | none =>
    obtain ⟨_, _, isSingle⟩ := validate_eq_single rule inputs isSequence
    rw [isSingle, Returned.flaw?, accepted, Returned.contents, isSequence]
    rfl

/-- What came back without a flaw is checked to its end. -/
theorem validate_of_keyed (rule : Rule) (inputs : Frames) {returned : Returned}
    (keyed : returned.flaw? = none) :
    (validate rule inputs returned).1 = .ok (accepted rule inputs returned) := by
  rw [validate_fst, keyed]
  rfl

theorem report_isFree (free : c.IsFree) (rejected : List Rejection) : (x.report c rejected).1.IsFree :=
  free.recordFaults _

theorem start_goesOn (free : c.IsFree) (frames : Frames) :
    (x.start frames c now).GoesOn x.rule clause (survivors x.rule clause frames) := by
  unfold start survivors
  split
  · exact ⟨free, rfl, rfl⟩
  · rw [free.beginWait]
    exact ⟨free, rfl, rfl⟩

theorem step_goesOn (free : c.IsFree) {stage : Enriching} (going : stage.isRaised = false) :
    (x.step now c stage).GoesOn x.rule clause (stage.yield x.rule clause) := by
  unfold step
  split
  · next kept => exact ⟨free, rfl, (List.append_nil kept).symm⟩
  · rw [free.beginWait]
    exact ⟨free, rfl, rfl⟩
  · exact ⟨free, going, rfl⟩

theorem afterBatch_goesOn (free : c.IsFree) (frames : Frames) (ordinary : (clause frames).IsOrdinary)
    (keyed : (clause frames).flaw? = none) :
    (x.afterBatch frames c (clause frames).unbounded).GoesOn x.rule clause
      (together x.rule clause frames) := by
  unfold afterBatch together
  split
  · next returned isReturned =>
    rw [Outcome.eq_finished_of_unbounded isReturned] at keyed
    have isChecked := validate_of_keyed x.rule frames keyed
    dsimp only
    rw [isReturned, isChecked]
    exact ⟨x.report_isFree free _, rfl, rfl⟩
  · next raised => exact (ordinary _ raised).elim
  · next raised => exact (ordinary _ raised).elim
  · next raised =>
    rw [raised]
    exact ⟨x.report_isFree free _, rfl, rfl⟩
  · next error _ _ notTimeout raised =>
    rw [raised]
    split
    · next frame =>
      refine ⟨x.report_isFree free _, rfl, ?_⟩
      split <;> simp_all [Enriching.yield]
    · next notSingle =>
      refine ⟨free, rfl, ?_⟩
      split
      · simp_all
      · simp_all
      · rw [if_neg]
        · rfl
        · intro isSingle
          obtain ⟨frame, rfl⟩ := List.length_eq_one_iff.mp isSingle
          exact notSingle frame rfl

theorem afterSingle_goesOn (free : c.IsFree) (frame : Frame) (kept left : Frames)
    (ordinary : (clause [frame]).IsOrdinary) (keyed : (clause [frame]).flaw? = none) :
    (x.afterSingle frame kept left c (clause [frame]).unbounded).GoesOn x.rule clause
      (kept ++ (frame :: left).flatMap (alone x.rule clause)) := by
  rw [List.flatMap_cons, ← List.append_assoc]
  unfold afterSingle
  split
  · next returned isReturned =>
    rw [Outcome.eq_finished_of_unbounded isReturned] at keyed
    have isChecked := validate_of_keyed x.rule [frame] keyed
    dsimp only
    rw [isChecked]
    refine ⟨x.report_isFree free _, rfl, ?_⟩
    rw [alone, isReturned]
    rfl
  · next raised => exact (ordinary _ raised).elim
  · next raised => exact (ordinary _ raised).elim
  · next raised =>
    refine ⟨x.report_isFree free _, rfl, ?_⟩
    have nothing : alone x.rule clause frame = [] := by
      unfold alone
      rw [raised]
    rw [Enriching.yield, nothing, List.append_nil]

theorem resume_goesOn (free : c.IsFree) {stage : Enriching} {frames : Frames}
    (asked : stage.asked? = some frames) (ordinary : (clause frames).IsOrdinary)
    (keyed : (clause frames).flaw? = none) :
    (x.resume now c (clause frames) stage).GoesOn x.rule clause (stage.yield x.rule clause) := by
  unfold resume
  rw [free.endWait_eq]
  cases stage with
  | batch =>
    cases asked
    exact x.afterBatch_goesOn clause free frames ordinary keyed
  | single frame kept left ends =>
    cases asked
    exact x.afterSingle_goesOn clause free frame kept left ordinary keyed
  | isolating | finished | raised => cases asked

/-- A where-stage ends with an error if it cannot check what came back. -/
theorem resume_of_flaw (c : Cascade) {stage : Enriching} {frames : Frames} {error : Error}
    (asked : stage.asked? = some frames) {outcome : Outcome Returned} (flawed : outcome.flaw? = some error) :
    (x.resume now c outcome stage).stage = .raised error := by
  obtain ⟨returned, rfl, isFlaw⟩ := Outcome.exists_of_flaw flawed
  unfold resume Cascade.endWait
  cases stage with
  | batch | single =>
    dsimp only [afterBatch, afterSingle]
    rw [validate_fst, isFlaw]
    rfl
  | isolating | finished | raised => cases asked

end Enrichment

/-! ### The dispatch of a frame -/

theorem CallEnd.exists_ofResult (action : ActionRef) {outcome : Outcome Value}
    (ordinary : outcome.IsOrdinary) : ∃ call, ofResult action outcome.unbounded = .ok call := by
  unfold ofResult
  split
  · exact ⟨_, rfl⟩
  · exact ⟨_, rfl⟩
  · exact ⟨_, rfl⟩
  · next raised => exact (ordinary _ raised).elim
  · next raised => exact (ordinary _ raised).elim
  · exact ⟨_, rfl⟩

namespace Dispatch

variable (work : Dispatch) (now : Instant) {log : InvocationLog}

theorem start_goesOn (free : c.IsFree) (limit : Int) (log : InvocationLog) :
    (work.start limit c log).GoesOn := by
  unfold start
  split
  · exact ⟨⟨free.deadline, free.token⟩, rfl⟩
  · exact ⟨free, rfl⟩

theorem conclude_goesOn (free : c.IsFree) (logs : work.CanLog log) (action : ActionRef)
    (input : Fields) (left : List Pattern) (produced : List Invocation) (call : CallEnd) :
    (work.conclude c log action input left produced call).GoesOn := by
  obtain ⟨grown, i, logged⟩ := logs action input call.output
  have noted : (((call.fault? (work.context c)).map c.recordFault).getD c).IsFree := by
    cases call.fault? (work.context c) with
    | none => exact free
    | some => exact ⟨free.deadline, free.token⟩
  unfold conclude
  rw [logged]
  exact ⟨noted, rfl⟩

theorem step_goesOn (free : c.IsFree) (logs : work.CanLog log) (catalogue : Catalogue)
    {stage : Dispatching} (going : stage.isRaised = false) :
    (work.step catalogue now c log stage).GoesOn := by
  unfold step
  split
  · exact ⟨free, rfl⟩
  · dsimp only
    split
    · rw [free.beginWait]
      exact ⟨free, rfl⟩
    · exact work.conclude_goesOn free logs ..
  · exact ⟨free, going⟩

theorem resume_goesOn (free : c.IsFree) (logs : work.CanLog log) {outcome : Outcome Value}
    (ordinary : outcome.IsOrdinary) {stage : Dispatching} (going : stage.isRaised = false) :
    (work.resume now c log outcome stage).GoesOn := by
  unfold resume
  split
  · next action _ _ _ _ =>
    rw [free.endWait_eq]
    obtain ⟨call, called⟩ := CallEnd.exists_ofResult action ordinary
    dsimp only
    rw [called]
    exact work.conclude_goesOn free logs ..
  · exact ⟨free, going⟩

end Dispatch

/-! ### The run -/

namespace Run

theorem takeRule_goesOn (e : Engine) (now : Instant) (free : c.IsFree) (s : Site) :
    (takeRule e now c s).GoesOn := by
  unfold takeRule
  rw [free.beginWait]
  dsimp only
  split
  · exact ⟨⟨free.deadline, free.token⟩, rfl⟩
  · have enriching : Cascade.IsFree { c with state := .enriching } := ⟨free.deadline, free.token⟩
    have goesOn := (Enrichment.ofSite e s).start_goesOn now (fun _ => .abandoned) enriching
      (e.unfired s.rule s.trigger)
    exact ⟨goesOn.free, congrArg (!·) goesOn.going⟩

theorem takeFrame_goesOn (e : Engine) (now : Instant) (free : c.IsFree) (s : Site) {frame : Frame}
    (left : Frames) (claimed : List Firing) (deep : Dispatch.depthOf e.log frame.support = .ok depth) :
    (takeFrame e now c s frame left claimed).GoesOn := by
  have sameLog (firing : Firing) :
      (if claimed.contains firing then e else e.claim c.root firing).log = e.log := by
    split <;> rfl
  unfold takeFrame
  rw [free.beginWait]
  dsimp only
  split
  · exact ⟨free, rfl⟩
  · rw [sameLog, deep]
    have goesOn := Dispatch.start_goesOn ⟨s.rule, frame, depth⟩ free
    exact ⟨(goesOn _ _).free, congrArg (!·) (goesOn _ _).going⟩

theorem afterEnriching_goesOn (e : Engine) (s : Site) {turn : StageTurn Enriching}
    (free : turn.cascade.IsFree) (going : turn.stage.isRaised = false) :
    (afterEnriching e s turn).GoesOn := by
  unfold afterEnriching
  split
  · exact ⟨⟨free.deadline, free.token⟩, rfl⟩
  · next isRaised =>
    rw [isRaised] at going
    cases going
  · exact ⟨free, congrArg (!·) going⟩

/-- A where-stage that is over leaves what it was to have left. -/
theorem afterEnriching_yields (e : Engine) (s : Site) {turn : StageTurn Enriching} {clause : Behaviour}
    {yield : Frames} (goesOn : turn.GoesOn s.rule clause yield) :
    (∃ stage, (afterEnriching e s turn).run.point = .enriching s stage ∧
      stage.yield s.rule clause = yield) ∨
      (afterEnriching e s turn).run.point = .frames s yield [] := by
  have yields := goesOn.yields
  unfold afterEnriching
  split
  · next isFinished =>
    rw [isFinished] at yields
    subst yields
    exact .inr rfl
  · next isRaised =>
    have going := goesOn.going
    rw [isRaised] at going
    cases going
  · exact .inl ⟨_, rfl, yields⟩

theorem afterDispatching_goesOn (e : Engine) (s : Site) (left : Frames) (claimed : List Firing)
    (work : Dispatch) {turn : DispatchTurn} (goesOn : turn.GoesOn) :
    (afterDispatching e s left claimed work turn).GoesOn := by
  have going := goesOn.going
  unfold afterDispatching
  dsimp only
  split
  · exact ⟨⟨goesOn.free.deadline, goesOn.free.token⟩, rfl⟩
  · next isRaised =>
    rw [isRaised] at going
    cases going
  · exact ⟨goesOn.free, congrArg (!·) going⟩

/-- A free run settles a rule for which nothing is to fire, or begins a where-stage that will leave
what survives it. -/
theorem takeRule_yields (e : Engine) (now : Instant) (free : c.IsFree) (s : Site) (clause : Behaviour) :
    (∃ stage, (takeRule e now c s).run.point = .enriching s stage ∧
      stage.yield s.rule clause = Enrichment.survivors s.rule clause (e.unfired s.rule s.trigger)) ∨
      (takeRule e now c s).run.point = .rules s.trigger s.later ∧ e.unfired s.rule s.trigger = [] := by
  unfold takeRule
  rw [free.beginWait]
  dsimp only
  split
  · next settled => exact .inr ⟨rfl, settled⟩
  · have enriching : Cascade.IsFree { c with state := .enriching } := ⟨free.deadline, free.token⟩
    have goesOn := (Enrichment.ofSite e s).start_goesOn now clause enriching (e.unfired s.rule s.trigger)
    exact .inl ⟨_, rfl, goesOn.yields⟩

variable {r : Run}

/-- A free run that waits for nothing goes on. -/
theorem step_goesOn (now : Instant) (free : r.cascade.IsFree) (going : r.point.isGoing = true)
    (logs : r.point.CanLog e.log) (ready : r.wait? e = none) : (r.step e now).GoesOn := by
  obtain ⟨c, p⟩ := r
  cases p with
  | next =>
    unfold step
    dsimp only
    split
    · exact ⟨⟨free.deadline, free.token⟩, rfl⟩
    · exact ⟨⟨free.deadline, free.token⟩, rfl⟩
  | rules trigger left =>
    cases left with
    | nil => exact ⟨⟨free.deadline, free.token⟩, rfl⟩
    | cons rule later => exact takeRule_goesOn e now free ⟨trigger, rule, later⟩
  | enriching s stage =>
    have goesOn := (Enrichment.ofSite e s).step_goesOn now (fun _ => .abandoned) free
      ((Bool.not_eq_true' _).mp going)
    exact afterEnriching_goesOn e s goesOn.free goesOn.going
  | frames s left claimed =>
    cases left with
    | nil => exact ⟨free, rfl⟩
    | cons frame left =>
      obtain ⟨depth, deep⟩ := logs frame List.mem_cons_self
      exact takeFrame_goesOn e now free s left claimed deep
  | dispatching s left claimed work stage =>
    exact afterDispatching_goesOn e s left claimed work
      (work.step_goesOn now free logs e.catalogue ((Bool.not_eq_true' _).mp going))
  | saving => cases ready
  | ended => cases going

theorem asked_of_clause {site : Site} {stage : Enriching}
    (waits : Run.wait? e ⟨c, .enriching site stage⟩ = some (.clause rule frames ends)) :
    stage.asked? = some frames := by
  cases stage <;> cases waits <;> rfl

/-- A free run goes on whatever its where-clause does, ordinary as it is, if it can be checked. -/
theorem resume_clause_goesOn (now : Instant) (free : r.cascade.IsFree) {clause : Behaviour}
    (waits : r.wait? e = some (.clause rule frames ends)) (ordinary : (clause frames).IsOrdinary)
    (keyed : (clause frames).flaw? = none) : (r.resume e now (.clause (clause frames))).GoesOn := by
  obtain ⟨c, p⟩ := r
  cases p with
  | enriching s stage =>
    have asked := asked_of_clause waits
    have goesOn := (Enrichment.ofSite e s).resume_goesOn now clause free asked ordinary keyed
    exact afterEnriching_goesOn e s goesOn.free goesOn.going
  | dispatching s left claimed work stage => cases stage <;> cases waits
  | next | rules | frames | saving | ended => cases waits

/-- A run ends with an error if it cannot check what its where-clause returned. -/
theorem BreaksOff.point_eq {outcome : Outcome Returned} {error : Error} {turn : Turn}
    (breaksOff : r.BreaksOff e given outcome error turn) :
    turn.run.point = .ended (.error error) := by
  obtain ⟨c, p⟩ := r
  obtain ⟨waits, flawed, now⟩ := breaksOff
  obtain ⟨_, _, isFlaw⟩ := Outcome.exists_of_flaw flawed
  obtain ⟨text, rfl⟩ := Returned.type_of_flaw isFlaw
  cases p with
  | enriching s stage =>
    have raised := (Enrichment.ofSite e s).resume_of_flaw now c (asked_of_clause waits) flawed
    unfold resume
    dsimp only
    unfold afterEnriching
    rw [raised]
    rfl
  | dispatching s left claimed work stage => cases stage <;> cases waits
  | next | rules | frames | saving | ended => cases waits

/-- A free run goes on whatever a component does, ordinary as it is. -/
theorem resume_component_goesOn (now : Instant) (free : r.cascade.IsFree)
    (logs : r.point.CanLog e.log) (waits : r.wait? e = some (.component action input ends))
    {outcome : Outcome Value} (ordinary : outcome.IsOrdinary) :
    (r.resume e now (.component outcome)).GoesOn := by
  obtain ⟨c, p⟩ := r
  cases p with
  | dispatching s left claimed work stage =>
    cases stage with
    | calling =>
      exact afterDispatching_goesOn e s left claimed work
        (work.resume_goesOn now free logs ordinary rfl)
    | next | finished | raised => cases waits
  | enriching s stage => cases stage <;> cases waits
  | next | rules | frames | saving | ended => cases waits

end Run

end Choreography
