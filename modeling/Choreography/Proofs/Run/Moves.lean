import Choreography.Proofs.Enrichment.Check
import Choreography.Run

/-! The moves of a run. Whatever a run does in one go, be it a step or the answer to a wait,
is one of the moves named here; each says what it asks for, where the run stands after
it, and what it changes in the engine. -/

namespace Choreography

/-- The invocation that was logged, if one was. -/
def Event.invocation? : Event → Option Invocation
  | .logged i => some i
  | _ => none

/-- The invocations that were logged, in order. -/
def posted (events : List Event) : List Invocation := events.filterMap Event.invocation?

def Event.isFault : Event → Bool
  | .fault _ => true
  | _ => false

/-- Neither a fault nor an invocation. -/
def Event.IsQuiet (event : Event) : Prop := event.isFault = false ∧ event.invocation? = none

theorem Event.note_isQuiet (record : LogRecord) : (Event.note record).IsQuiet := ⟨rfl, rfl⟩

/-- Whether a run is in the middle of a rule or between the rules for an invocation. -/
def Point.isBusy : Point → Bool
  | .next | .saving | .ended _ => false
  | _ => true

/-- All frames rest on supports of others. -/
def Frames.DescendFrom (frames inputs : Frames) : Prop :=
  ∀ f ∈ frames, ∃ g ∈ inputs, f.support = g.support

/-- Two states of a cascade have the same work before them and behind them. -/
structure Cascade.SameWork (c d : Cascade) : Prop where
  root : c.root = d.root
  queue : c.queue = d.queue
  produced : c.produced = d.produced

/-- The firing of a dispatch. -/
def Dispatch.firing (d : Dispatch) : Firing := ⟨d.rule.name, d.frame.support⟩

/-- Where a dispatch begins: at its end, if it is too deep. -/
def Dispatch.beginning (d : Dispatch) (limit : Int) : Dispatching :=
  if limit < d.depth then .finished [] else .next d.rule.thens []

/-- A reply is of the kind that was waited for. -/
def Wait.IsAnsweredBy : Wait → Reply → Prop
  | .clause .., .clause _ => True
  | .component .., .component _ => True
  | .repository _, .repository _ => True
  | _, _ => False

/-- An evaluation may go on with a firing that it has claimed, or claims one that is free. -/
inductive Engine.Claims (e : Engine) (root : InvocationId) (firing : Firing) (claimed : List Firing) :
    Engine → List Firing → Prop where
  | again (mine : firing ∈ claimed) : e.Claims root firing claimed e claimed
  | first (notMine : firing ∉ claimed) (free : firing ∉ e.fired) :
      e.Claims root firing claimed (e.claim root firing) (claimed ++ [firing])

/-- A call is over, and what is known of it: nobody offers it, or its component was waited for. -/
inductive Dispatching.Called (catalogue : Catalogue) (d : Dispatch) :
    Dispatching → ActionRef → Fields → List Pattern → List Invocation → Prop where
  | unregistered (missing : catalogue.has p.action = false) :
      Called catalogue d (.next (p :: left) produced) p.action (d.frame.resolve p.inputs) left produced
  | awaited (ends : Option Instant) :
      Called catalogue d (.calling action input left produced ends) action input left produced

/-- What is left to do of a frame is nothing. -/
inductive Dispatching.Over : Dispatching → List Invocation → Prop where
  | called : Over (.next [] produced) produced
  | finished : Over (.finished produced) produced

/-- The moves of a run, from where it stands to where it stands after them. -/
inductive Moves (e : Engine) (c : Cascade) :
    Point → Engine → Cascade → Point → List Event → Prop where
  | drain (empty : c.queue = []) (notes : ∀ event ∈ events, event.IsQuiet) :
      Moves e c .next (e.deactivate c.root) { c with state := .drained } .saving events
  | pop (queued : c.queue = trigger :: queue) :
      Moves e c .next e { c with queue } (.rules trigger (e.rules.rulesFor trigger.action)) []
  | turn : Moves e c (.rules trigger []) e { c with state := .pending } .next []
  | settle (same : d.SameWork c) (settled : e.unfired rule trigger = []) :
      Moves e c (.rules trigger (rule :: later)) e d (.rules trigger later) []
  | evaluate (same : d.SameWork c) (unsettled : e.unfired rule trigger ≠ [])
      (held : ∀ f ∈ stage.frames, f ∈ e.unfired rule trigger)
      (plain : rule.enrich = none → stage = .finished (e.unfired rule trigger)) :
      Moves e c (.rules trigger (rule :: later)) e d (.enriching ⟨trigger, rule, later⟩ stage) []
  | enrich (same : d.SameWork c) (descend : next.frames.DescendFrom stage.frames)
      (unfinished : ∀ frames, stage ≠ .finished frames) (silent : posted events = []) :
      Moves e c (.enriching site stage) e d (.enriching site next) events
  | answer (same : d.SameWork c) (descend : Frames.DescendFrom frames stage.frames)
      (plain : ∀ given, stage = .finished given → frames = given) (silent : posted events = []) :
      Moves e c (.enriching site stage) e d (.frames site frames []) events
  | close : Moves e c (.frames site [] claimed) e c (.rules site.trigger site.later) []
  | skip (same : d.SameWork c) (notMine : ⟨site.rule.name, frame.support⟩ ∉ claimed)
      (fired : ⟨site.rule.name, frame.support⟩ ∈ e.fired) :
      Moves e c (.frames site (frame :: left) claimed) e d (.frames site left claimed) []
  | lose (same : d.SameWork c)
      (claims : e.Claims c.root ⟨site.rule.name, frame.support⟩ claimed f mine)
      (lost : Dispatch.depthOf e.log frame.support = .error error)
      (undrained : ∀ report, result = .ok report → report.drained = false)
      (silent : posted events = []) :
      Moves e c (.frames site (frame :: left) claimed) (f.deactivate c.root) d (.ended result) events
  | dispatch (same : d.SameWork c)
      (claims : e.Claims c.root ⟨site.rule.name, frame.support⟩ claimed f mine)
      (deep : Dispatch.depthOf e.log frame.support = .ok depth) (silent : posted events = []) :
      Moves e c (.frames site (frame :: left) claimed) f d
        (.dispatching site left mine ⟨site.rule, frame, depth⟩
          (Dispatch.beginning ⟨site.rule, frame, depth⟩ e.limits.depth)) events
  | call (same : d.SameWork c) (offered : e.catalogue.has p.action = true) :
      Moves e c (.dispatching site left claimed work (.next (p :: patterns) produced)) e d
        (.dispatching site left claimed work
          (.calling p.action (work.frame.resolve p.inputs) patterns produced ends)) []
  | log (same : d.SameWork c) (called : stage.Called e.catalogue work action input patterns produced)
      (logged : e.log.append action input output work.frame.support = .ok (log, i))
      (posts : posted events = [i]) :
      Moves e c (.dispatching site left claimed work stage) { e with log } d
        (.dispatching site left claimed work (.next patterns (produced ++ [i]))) events
  | finish (isOver : stage.Over made) :
      Moves e c (.dispatching site left claimed work stage) e
        { c with produced := c.produced ++ made.map (·.id), queue := c.queue ++ made }
        (.frames site left claimed) []
  | leave (same : d.SameWork c) (busy : p.isBusy = true)
      (undrained : ∀ report, result = .ok report → report.drained = false)
      (notes : ∀ event ∈ events, event.IsQuiet) :
      Moves e c p (e.deactivate c.root) d (.ended result) events
  | breakOff (same : d.SameWork c)
      (undrained : ∀ report, result = .ok report → report.drained = false)
      (silent : posted events = []) :
      Moves e c (.enriching site stage) (e.deactivate c.root) d (.ended result) events
  | reject (same : d.SameWork c)
      (undrained : ∀ report, result = .ok report → report.drained = false)
      (silent : posted events = []) :
      Moves e c (.dispatching site left claimed work stage) (e.deactivate c.root) d (.ended result)
        events
  | save : Moves e c .saving (e.retain c.root).1 c (.ended (.ok c.report)) (e.retain c.root).2
  | fail (error : Error) : Moves e c .saving e c (.ended (.error error)) []

variable {e : Engine} {c d : Cascade} {r : Run}

/-! ### What waiting and reporting do to a cascade -/

namespace Cascade

theorem SameWork.refl (c : Cascade) : c.SameWork c := ⟨rfl, rfl, rfl⟩

theorem SameWork.trans {b : Cascade} (first : d.SameWork c) (second : c.SameWork b) : d.SameWork b :=
  ⟨first.root.trans second.root, first.queue.trans second.queue,
    first.produced.trans second.produced⟩

theorem check_sameWork (c : Cascade) (now : Instant) : (c.check now).SameWork c := by
  unfold check
  split <;> exact ⟨rfl, rfl, rfl⟩

theorem beginWait_sameWork (c : Cascade) (now : Instant) : (c.beginWait now).2.SameWork c :=
  check_sameWork c now

theorem endWait_sameWork (c : Cascade) (now : Instant) (outcome : Outcome α) :
    (c.endWait now outcome).2.SameWork c := by
  cases outcome with
  | finished => exact .refl c
  | woken => exact check_sameWork c now
  | abandoned => exact .refl c

theorem recordFaults_sameWork (faults : List Failure) (c : Cascade) :
    (faults.foldl recordFault c).SameWork c := by
  induction faults generalizing c with
  | nil => exact .refl c
  | cons fault faults ih => exact (ih _).trans ⟨rfl, rfl, rfl⟩

end Cascade

/-! ### The end of a run -/

/-- A run that leaves its work loop reports no drained cascade and logs nothing. -/
theorem Run.leave_spec (e : Engine) (c : Cascade) (error : Error) :
    (leave e c error).engine = e.deactivate c.root ∧ (leave e c error).run.cascade.SameWork c ∧
      (∃ result, (leave e c error).run.point = .ended result ∧
        ∀ report, result = .ok report → report.drained = false) ∧
      ∀ event ∈ (leave e c error).events, event.IsQuiet := by
  unfold leave
  split
  · refine ⟨rfl, ⟨rfl, rfl, rfl⟩, ⟨_, rfl, ?_⟩, ?_⟩
    · intro report isReport
      cases isReport
      rfl
    · simp [Event.note_isQuiet]
  · exact ⟨rfl, ⟨rfl, rfl, rfl⟩, ⟨_, rfl, by simp⟩, by simp⟩
  · exact ⟨rfl, ⟨rfl, rfl, rfl⟩, ⟨_, rfl, by simp⟩, by simp⟩

theorem posted_eq_nil {events : List Event} (quiet : ∀ event ∈ events, event.IsQuiet) :
    posted events = [] :=
  List.filterMap_eq_nil_iff.mpr fun event inside => (quiet event inside).2

theorem posted_faults (faults : List Failure) : posted (faults.map .fault) = [] :=
  List.filterMap_eq_nil_iff.mpr fun event inside => by
    obtain ⟨_, _, rfl⟩ := List.mem_map.mp inside
    rfl

/-! ### The where-stage -/

theorem Frames.Refine.descendFrom {frames inputs : Frames} (refine : frames.Refine inputs) :
    frames.DescendFrom inputs := by
  intro g inside
  obtain ⟨f, isInput, refines⟩ := refine g inside
  exact ⟨f, isInput, refines.support⟩

namespace Enrichment

theorem report_sameWork (x : Enrichment) (c : Cascade) (rejected : List Rejection) :
    (x.report c rejected).1.SameWork c :=
  Cascade.recordFaults_sameWork _ c

/-- What a step of the where-stage, or an answer to it, may come to. -/
structure Advances (c : Cascade) (stage : Enriching) (turn : StageTurn Enriching) : Prop where
  same : turn.cascade.SameWork c
  descend : turn.stage.frames.DescendFrom stage.frames
  silent : posted turn.events = []
  plain : ∀ frames, stage = .finished frames → turn.stage = .finished frames

theorem step_advances (x : Enrichment) (now : Instant) (c : Cascade) (stage : Enriching) :
    Advances c stage (x.step now c stage) := by
  have descend := (x.step_refine now c stage).descendFrom
  match stage with
  | .isolating kept [] => exact ⟨.refl c, descend, rfl, nofun⟩
  | .isolating kept (frame :: left) =>
    have same := c.beginWait_sameWork now
    rw [step] at descend ⊢
    rcases waited : c.beginWait now with ⟨stop | _, d⟩ <;> rw [waited] at same descend
    · exact ⟨same, descend, rfl, nofun⟩
    · exact ⟨same, descend, rfl, nofun⟩
  | .batch _ _ | .single _ _ _ _ | .finished _ | .raised _ =>
    exact ⟨.refl c, descend, rfl, fun _ same => same⟩

theorem Hears.same {x : Enrichment} {held : Frames} {c : Cascade} {turn : StageTurn Enriching}
    (hears : x.Hears held c turn) : turn.cascade.SameWork c := by
  cases hears with
  | reports => exact x.report_sameWork c _
  | stops | isolates => exact .refl c

theorem Hears.silent {x : Enrichment} {held : Frames} {c : Cascade} {turn : StageTurn Enriching}
    (hears : x.Hears held c turn) : posted turn.events = [] := by
  cases hears with
  | reports => exact posted_faults _
  | stops | isolates => rfl

theorem resume_advances (x : Enrichment) (now : Instant) (c : Cascade) (outcome : Outcome Returned)
    (stage : Enriching) : Advances c stage (x.resume now c outcome stage) := by
  have descend := (x.resume_refine now c outcome stage).descendFrom
  cases asked : stage.asked? with
  | some =>
    have hears := x.resume_hears now c outcome asked
    refine ⟨hears.same.trans (c.endWait_sameWork now outcome), descend, hears.silent, ?_⟩
    rintro frames rfl
    cases asked
  | none =>
    rw [x.resume_of_unasked now c outcome asked] at descend ⊢
    exact ⟨.refl c, descend, rfl, fun _ same => same⟩

/-- The where-stage begins with the frames that it is given, and ends with them if there is no
where-clause. -/
theorem start_spec (x : Enrichment) (frames : Frames) (c : Cascade) (now : Instant) :
    (x.start frames c now).cascade.SameWork c ∧ (x.start frames c now).events = [] ∧
      (∀ f ∈ (x.start frames c now).stage.frames, f ∈ frames) ∧
      (x.rule.enrich = none → (x.start frames c now).stage = .finished frames) := by
  rw [start]
  split
  · exact ⟨.refl c, rfl, fun _ inside => inside, fun _ => rfl⟩
  · next needed =>
    have same := c.beginWait_sameWork now
    rcases waited : c.beginWait now with ⟨stop | _, d⟩
    · rw [waited] at same
      refine ⟨same, rfl, nofun, fun noClause => absurd ?_ needed⟩
      rw [noClause]
      rfl
    · rw [waited] at same
      refine ⟨same, rfl, fun _ inside => inside, fun noClause => absurd ?_ needed⟩
      rw [noClause]
      rfl

end Enrichment

/-! ### The dispatch of a frame -/

namespace Dispatch

theorem start_spec (work : Dispatch) (limit : Int) (c : Cascade) (log : InvocationLog) :
    (work.start limit c log).cascade.SameWork c ∧ (work.start limit c log).log = log ∧
      (work.start limit c log).stage = work.beginning limit ∧
      posted (work.start limit c log).events = [] := by
  rw [start, beginning]
  split
  · exact ⟨⟨rfl, rfl, rfl⟩, rfl, rfl, rfl⟩
  · exact ⟨.refl c, rfl, rfl, rfl⟩

/-- What a step of a dispatch, or an answer to it, may come to. -/
inductive Advances (work : Dispatch) (e : Engine) (c : Cascade) (stage : Dispatching) :
    DispatchTurn → Prop where
  | finish (isOver : stage.Over made) :
      Advances work e c stage { stage := .finished made, cascade := c, log := e.log }
  | call {d : Cascade} (same : d.SameWork c) (isNext : stage = .next (p :: patterns) produced)
      (offered : e.catalogue.has p.action = true) (ends : Option Instant) :
      Advances work e c stage
        { stage := .calling p.action (work.frame.resolve p.inputs) patterns produced ends
          cascade := d
          log := e.log }
  | log {d : Cascade} (same : d.SameWork c)
      (called : stage.Called e.catalogue work action input patterns produced)
      (logged : e.log.append action input output work.frame.support = .ok (log, i))
      (posts : posted events = [i]) :
      Advances work e c stage
        { stage := .next patterns (produced ++ [i]), cascade := d, log, events }
  | raise {d : Cascade} (same : d.SameWork c) (silent : posted events = []) (error : Error) :
      Advances work e c stage { stage := .raised error, cascade := d, log := e.log, events }

/-- Logging what a call has come to is a way to go on, or the end of the run. -/
theorem conclude_advances (work : Dispatch) {stage : Dispatching} (same : d.SameWork c)
    (called : stage.Called e.catalogue work action input patterns produced) (call : CallEnd) :
    Advances work e c stage (work.conclude d e.log action input patterns produced call) := by
  have recorded : (((call.fault? (work.context d)).map d.recordFault).getD d).SameWork c := by
    cases call.fault? (work.context d) with
    | none => exact same
    | some => exact ⟨same.root, same.queue, same.produced⟩
  have silent : posted ((call.fault? (work.context d)).map Event.fault).toList = [] := by
    cases call.fault? (work.context d) <;> rfl
  unfold conclude
  split
  · next failure _ => exact .raise recorded silent (.described failure)
  · next log i logged =>
    refine .log recorded called logged ?_
    rw [posted, List.filterMap_append, ← posted, silent]
    rfl

theorem step_advances (work : Dispatch) (now : Instant) (ready : ∀ action input left produced ends,
    stage ≠ .calling action input left produced ends) :
    Advances work e c stage (work.step e.catalogue now c e.log stage) := by
  match stage with
  | .next [] produced => exact .finish .called
  | .next (p :: left) produced =>
    rw [step]
    split
    · next offered =>
      have same := c.beginWait_sameWork now
      rcases waited : c.beginWait now with ⟨stop | _, d⟩
      · rw [waited] at same
        exact .raise same rfl stop
      · rw [waited] at same
        exact .call same rfl offered _
    · next missing =>
      exact conclude_advances work (.refl c) (.unregistered (Bool.eq_false_iff.mpr missing)) _
  | .calling action input left produced ends => exact absurd rfl (ready action input left produced ends)
  | .finished produced => exact .finish .finished
  | .raised error => exact .raise (.refl c) rfl error

theorem resume_advances (work : Dispatch) (now : Instant) (outcome : Outcome Value)
    (ends : Option Instant) :
    Advances work e c (.calling action input left produced ends)
      (work.resume now c e.log outcome (.calling action input left produced ends)) := by
  have same := c.endWait_sameWork now outcome
  unfold resume
  dsimp only
  split
  · next error _ => exact .raise same rfl error
  · next call _ => exact work.conclude_advances same (.awaited ends) call

end Dispatch

namespace Run

/-- A turn is a move of a run. -/
def IsMove (e : Engine) (c : Cascade) (p : Point) (turn : Turn) : Prop :=
  Moves e c p turn.engine turn.run.cascade turn.run.point turn.events

theorem leave_isMove {p : Point} (same : d.SameWork c) (busy : p.isBusy = true) (error : Error) :
    IsMove e c p (leave e d error) := by
  obtain ⟨engine, kept, ⟨result, isEnded, undrained⟩, notes⟩ := leave_spec e d error
  rw [IsMove, engine, isEnded, same.root]
  exact .leave (kept.trans same) busy undrained notes

/-! ### The moves of a step and of an answer -/

theorem takeRule_isMove (e : Engine) (now : Instant) (c : Cascade) (s : Site) :
    IsMove e c (.rules s.trigger (s.rule :: s.later)) (takeRule e now c s) := by
  have same := c.beginWait_sameWork now
  unfold takeRule
  rcases waited : c.beginWait now with ⟨stop | _, d⟩
  · rw [waited] at same
    exact leave_isMove same rfl stop
  · rw [waited] at same
    dsimp only
    split
    · next settled => exact .settle ⟨same.root, same.queue, same.produced⟩ settled
    · next frames found =>
      obtain ⟨kept, silent, held, plain⟩ := (Enrichment.ofSite e s).start_spec
        (e.unfired s.rule s.trigger) { d with state := .enriching } now
      unfold IsMove
      dsimp only
      rw [silent]
      exact .evaluate (kept.trans ⟨same.root, same.queue, same.produced⟩) found held plain

theorem afterEnriching_isMove {s : Site} {stage : Enriching} {turn : StageTurn Enriching}
    (advances : Enrichment.Advances c stage turn) :
    IsMove e c (.enriching s stage) (afterEnriching e s turn) := by
  obtain ⟨same, descend, silent, plain⟩ := advances
  unfold afterEnriching
  split
  · next frames isFinished =>
    rw [isFinished] at descend plain
    refine .answer ⟨same.root, same.queue, same.produced⟩ descend ?_ silent
    intro given isGiven
    exact Enriching.finished.inj (plain given isGiven)
  · next error _ =>
    obtain ⟨engine, kept, ⟨result, isEnded, undrained⟩, notes⟩ := leave_spec e turn.cascade error
    rw [IsMove]
    dsimp only
    rw [engine, isEnded, same.root]
    refine .breakOff (kept.trans same) undrained ?_
    rw [posted, List.filterMap_append, ← posted, ← posted, silent, posted_eq_nil notes]
    rfl
  · next unfinished _ =>
    refine .enrich same descend ?_ silent
    intro given isGiven
    exact unfinished given (plain given isGiven)

theorem exists_claims (e : Engine) (root : InvocationId) (firing : Firing) (claimed : List Firing)
    (taken : ¬(claimed.contains firing = false ∧ e.hasFired firing = true)) :
    e.Claims root firing claimed (if claimed.contains firing then e else e.claim root firing)
      (if claimed.contains firing then claimed else claimed ++ [firing]) := by
  by_cases mine : firing ∈ claimed
  · rw [if_pos (List.contains_iff_mem.mpr mine), if_pos (List.contains_iff_mem.mpr mine)]
    exact .again mine
  · have notMine : ¬claimed.contains firing = true := fun inside => mine (List.contains_iff_mem.mp inside)
    rw [if_neg notMine, if_neg notMine]
    refine .first mine fun fired => taken ⟨Bool.eq_false_iff.mpr notMine, ?_⟩
    exact List.contains_iff_mem.mpr fired

theorem takeFrame_isMove (e : Engine) (now : Instant) (c : Cascade) (s : Site) (frame : Frame)
    (left : Frames) (claimed : List Firing) :
    IsMove e c (.frames s (frame :: left) claimed) (takeFrame e now c s frame left claimed) := by
  have same := c.beginWait_sameWork now
  unfold takeFrame
  rcases waited : c.beginWait now with ⟨stop | _, d⟩
  · rw [waited] at same
    exact leave_isMove same rfl stop
  · rw [waited] at same
    dsimp only
    split
    · next passed =>
      refine .skip same ?_ (List.contains_iff_mem.mp passed.2)
      intro mine
      exact Bool.false_ne_true (passed.1.symm.trans (List.contains_iff_mem.mpr mine))
    · next taken =>
      have claims := exists_claims e d.root ⟨s.rule.name, frame.support⟩ claimed taken
      rw [same.root] at claims
      have sameLog : (if claimed.contains ⟨s.rule.name, frame.support⟩ then e
          else e.claim c.root ⟨s.rule.name, frame.support⟩).log = e.log := by
        split <;> rfl
      have sameLimit : (if claimed.contains ⟨s.rule.name, frame.support⟩ then e
          else e.claim c.root ⟨s.rule.name, frame.support⟩).limits.depth = e.limits.depth := by
        split <;> rfl
      rw [same.root, sameLog]
      generalize (if claimed.contains _ then e else _) = f at *
      generalize (if claimed.contains _ then claimed else _) = mine at *
      split
      · next error lost =>
        obtain ⟨engine, kept, ⟨result, isEnded, undrained⟩, notes⟩ := leave_spec f d error
        rw [IsMove, engine, isEnded, same.root]
        exact .lose (kept.trans same) claims lost undrained (posted_eq_nil notes)
      · next depth deep =>
        obtain ⟨kept, isLog, begins, silent⟩ :=
          Dispatch.start_spec ⟨s.rule, frame, depth⟩ e.limits.depth d f.log
        unfold IsMove
        dsimp only
        rw [← sameLog, sameLimit, isLog, begins]
        exact .dispatch (kept.trans same) claims deep silent

theorem afterDispatching_isMove {s : Site} {stage : Dispatching} {work : Dispatch}
    {left : Frames} {claimed : List Firing} {turn : DispatchTurn}
    (advances : work.Advances e c stage turn) :
    IsMove e c (.dispatching s left claimed work stage)
      (afterDispatching e s left claimed work turn) := by
  cases advances with
  | finish isOver => exact .finish isOver
  | call same isNext offered ends =>
    subst isNext
    exact .call same offered
  | log same called logged posts => exact .log same called logged posts
  | @raise events d same silent error =>
    obtain ⟨engine, kept, ⟨result, isEnded, undrained⟩, notes⟩ := leave_spec e d error
    rw [IsMove, afterDispatching]
    dsimp only
    rw [engine, isEnded, same.root]
    refine .reject (kept.trans same) undrained ?_
    rw [posted, List.filterMap_append, ← posted, ← posted, silent, posted_eq_nil notes]
    rfl

/-! ### What a run waits for -/

/-- A run that waits for nothing makes a move. -/
theorem step_isMove (r : Run) (now : Instant) (ready : r.wait? e = none) (going : r.hasEnded = false) :
    IsMove e r.cascade r.point (r.step e now) := by
  obtain ⟨c, point⟩ := r
  cases point with
  | next =>
    rw [step]
    dsimp only
    split
    · next empty =>
      refine .drain empty ?_
      intro event inside
      rw [List.mem_singleton.mp inside]
      exact Event.note_isQuiet _
    · next queued => exact .pop queued
  | rules trigger left =>
    cases left with
    | nil => exact .turn
    | cons rule later => exact takeRule_isMove e now c ⟨trigger, rule, later⟩
  | enriching s stage => exact afterEnriching_isMove (Enrichment.step_advances _ now c stage)
  | frames s left claimed =>
    cases left with
    | nil => exact .close
    | cons frame left => exact takeFrame_isMove e now c s frame left claimed
  | dispatching s left claimed work stage =>
    refine afterDispatching_isMove (work.step_advances now ?_)
    intro _ _ _ _ _ waits
    rw [waits] at ready
    cases ready
  | saving => cases ready
  | ended result => cases going

/-- A run that is answered makes a move. -/
theorem resume_isMove (r : Run) (now : Instant) (waits : r.wait? e = some wait)
    (answered : wait.IsAnsweredBy reply) : IsMove e r.cascade r.point (r.resume e now reply) := by
  obtain ⟨c, point⟩ := r
  cases point with
  | next => cases waits
  | rules => cases waits
  | frames => cases waits
  | ended => cases waits
  | enriching s stage =>
    cases reply with
    | clause outcome => exact afterEnriching_isMove (Enrichment.resume_advances _ now c outcome stage)
    | component => cases stage <;> cases waits <;> cases answered
    | repository => cases stage <;> cases waits <;> cases answered
  | dispatching s left claimed work stage =>
    cases stage with
    | calling =>
      cases waits
      cases reply with
      | component outcome => exact afterDispatching_isMove (work.resume_advances now outcome _)
      | clause => cases answered
      | repository => cases answered
    | next => cases waits
    | finished => cases waits
    | raised => cases waits
  | saving =>
    cases waits
    cases reply with
    | repository result =>
      cases result with
      | ok => exact .save
      | error error => exact .fail error
    | clause => cases answered
    | component => cases answered

end Run

end Choreography
