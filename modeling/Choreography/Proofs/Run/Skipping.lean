import Choreography.Proofs.Run.Faults

/-! Frames that are too deep. A run that comes to one delivers a fault, notes in its cascade that the
limit was exceeded, and is done with the frame. Nothing else that a run does makes that note. -/

namespace Choreography

/-- The frame that is passed over for its depth on the way from one point to another: its dispatch
is over as soon as it begins. -/
def Point.skipped? : Point → Point → Option Dispatch
  | .frames .., .dispatching _ _ _ work (.finished _) => some work
  | _, _ => none

/-- A turn passes over no frame for its depth, and makes no note of that, or does both. -/
structure Turn.Notes (turn : Turn) (r : Run) (limit : Int) : Prop where
  noted : turn.run.cascade.depthExceeded =
    (r.cascade.depthExceeded || (r.point.skipped? turn.run.point).isSome)
  told : ∀ work, r.point.skipped? turn.run.point = some work →
    turn.events = [.fault (work.tooDeep limit r.cascade)]

variable {e : Engine} {c d : Cascade} {p : Point} {r : Run} {turn : Turn} {limit : Int}

/-! ### What leaves the note as it is -/

namespace Cascade

theorem check_depthExceeded (c : Cascade) (now : Instant) :
    (c.check now).depthExceeded = c.depthExceeded := by
  unfold check
  split <;> rfl

theorem depthExceeded_of_beginWait {result : Except Error Unit}
    (began : c.beginWait now = (result, d)) : d.depthExceeded = c.depthExceeded := by
  cases began
  exact check_depthExceeded c now

theorem endWait_depthExceeded (c : Cascade) (now : Instant) (outcome : Outcome α) :
    (c.endWait now outcome).2.depthExceeded = c.depthExceeded := by
  cases outcome with
  | finished | abandoned => rfl
  | woken => exact check_depthExceeded c now

theorem recordFaults_depthExceeded (faults : List Failure) (c : Cascade) :
    (faults.foldl recordFault c).depthExceeded = c.depthExceeded := by
  induction faults generalizing c with
  | nil => rfl
  | cons fault faults ih => exact ih _

end Cascade

namespace Enrichment

variable (x : Enrichment) (now : Instant) (stage : Enriching)

theorem report_depthExceeded (c : Cascade) (rejected : List Rejection) :
    (x.report c rejected).1.depthExceeded = c.depthExceeded :=
  Cascade.recordFaults_depthExceeded _ c

theorem start_depthExceeded (frames : Frames) (c : Cascade) :
    (x.start frames c now).cascade.depthExceeded = c.depthExceeded := by
  unfold start
  split
  · rfl
  · split <;> next began => exact Cascade.depthExceeded_of_beginWait began

theorem step_depthExceeded (c : Cascade) :
    (x.step now c stage).cascade.depthExceeded = c.depthExceeded := by
  unfold step
  split
  · rfl
  · split <;> next began => exact Cascade.depthExceeded_of_beginWait began
  · rfl

theorem Hears.depthExceeded {x : Enrichment} {held : Frames} {c : Cascade} {turn : StageTurn Enriching}
    (hears : x.Hears held c turn) : turn.cascade.depthExceeded = c.depthExceeded := by
  cases hears with
  | reports => exact x.report_depthExceeded c _
  | stops | isolates => rfl

theorem resume_depthExceeded (c : Cascade) (outcome : Outcome Returned) :
    (x.resume now c outcome stage).cascade.depthExceeded = c.depthExceeded := by
  cases asked : stage.asked? with
  | some =>
    exact (x.resume_hears now c outcome asked).depthExceeded.trans (c.endWait_depthExceeded now outcome)
  | none => rw [x.resume_of_unasked now c outcome asked]

end Enrichment

namespace Dispatch

variable (work : Dispatch) (now : Instant) (log : InvocationLog) (stage : Dispatching)

theorem conclude_depthExceeded (c : Cascade) (action : ActionRef) (input : Fields)
    (left : List Pattern) (produced : List Invocation) (call : CallEnd) :
    (work.conclude c log action input left produced call).cascade.depthExceeded = c.depthExceeded := by
  have noted : (((call.fault? (work.context c)).map c.recordFault).getD c).depthExceeded =
      c.depthExceeded := by
    cases call.fault? (work.context c) <;> rfl
  unfold conclude
  dsimp only
  split <;> exact noted

theorem step_depthExceeded (catalogue : Catalogue) (c : Cascade) :
    (work.step catalogue now c log stage).cascade.depthExceeded = c.depthExceeded := by
  unfold step
  split
  · rfl
  · dsimp only
    split
    · split <;> next began => exact Cascade.depthExceeded_of_beginWait began
    · exact work.conclude_depthExceeded log c ..
  · rfl

theorem resume_depthExceeded (c : Cascade) (outcome : Outcome Value) :
    (work.resume now c log outcome stage).cascade.depthExceeded = c.depthExceeded := by
  have waited := c.endWait_depthExceeded now outcome
  unfold resume
  split
  · dsimp only
    split
    · exact waited
    · exact (work.conclude_depthExceeded ..).trans waited
  · rfl

end Dispatch

/-! ### The run -/

namespace Run

theorem leave_depthExceeded (e : Engine) (c : Cascade) (error : Error) :
    (leave e c error).run.cascade.depthExceeded = c.depthExceeded := by
  unfold leave
  split <;> rfl

theorem afterEnriching_depthExceeded (e : Engine) (s : Site) (turn : StageTurn Enriching) :
    (afterEnriching e s turn).run.cascade.depthExceeded = turn.cascade.depthExceeded := by
  unfold afterEnriching
  split
  · rfl
  · exact leave_depthExceeded ..
  · rfl

theorem afterDispatching_depthExceeded (e : Engine) (s : Site) (left : Frames)
    (claimed : List Firing) (work : Dispatch) (turn : DispatchTurn) :
    (afterDispatching e s left claimed work turn).run.cascade.depthExceeded =
      turn.cascade.depthExceeded := by
  unfold afterDispatching
  dsimp only
  split
  · rfl
  · exact leave_depthExceeded ..
  · rfl

theorem takeRule_depthExceeded (e : Engine) (now : Instant) (c : Cascade) (s : Site) :
    (takeRule e now c s).run.cascade.depthExceeded = c.depthExceeded := by
  unfold takeRule
  split
  · next began =>
    exact (leave_depthExceeded ..).trans (Cascade.depthExceeded_of_beginWait began)
  · next began =>
    have same := Cascade.depthExceeded_of_beginWait began
    split
    · exact same
    · exact ((Enrichment.ofSite e s).start_depthExceeded ..).trans same

theorem notes_of_none (same : turn.run.cascade.depthExceeded = c.depthExceeded)
    (none : p.skipped? turn.run.point = none) : turn.Notes ⟨c, p⟩ limit where
  noted := by rw [same, none, Option.isSome_none, Bool.or_false]
  told work isSkipped := by
    rw [none] at isSkipped
    cases isSkipped

/-- Only a run that is before a frame can pass over one. -/
theorem notes_of_elsewhere (same : turn.run.cascade.depthExceeded = c.depthExceeded)
    (elsewhere : ∀ s left claimed, p ≠ .frames s left claimed) : turn.Notes ⟨c, p⟩ limit := by
  refine notes_of_none same ?_
  cases p with
  | frames s left claimed => exact absurd rfl (elsewhere s left claimed)
  | _ => rfl

theorem leave_notes (e : Engine) (same : d.depthExceeded = c.depthExceeded) (error : Error) :
    (leave e d error).Notes ⟨c, p⟩ limit := by
  refine notes_of_none ((leave_depthExceeded ..).trans same) ?_
  obtain ⟨_, _, ⟨_, isEnded, _⟩, _⟩ := leave_spec e d error
  rw [isEnded]
  cases p <;> rfl

theorem takeFrame_notes (e : Engine) (now : Instant) (c : Cascade) (s : Site) (frame : Frame)
    (left : Frames) (claimed : List Firing) :
    (takeFrame e now c s frame left claimed).Notes ⟨c, .frames s (frame :: left) claimed⟩
      e.limits.depth := by
  have sameLimit (e : Engine) (root : InvocationId) (firing : Firing) :
      (if claimed.contains firing then e else e.claim root firing).limits.depth = e.limits.depth := by
    split <;> rfl
  have sameWork := c.beginWait_sameWork now
  unfold takeFrame
  split
  · next began => exact leave_notes e (Cascade.depthExceeded_of_beginWait began) _
  · next d began =>
    have same := Cascade.depthExceeded_of_beginWait began
    rw [began] at sameWork
    dsimp only
    split
    · exact notes_of_none same rfl
    · split
      · exact leave_notes _ same _
      · next depth _ =>
        rw [sameLimit, Dispatch.start]
        by_cases deep : e.limits.depth < depth
        · rw [if_pos deep]
          refine ⟨(Bool.or_true _).symm, fun work isSkipped => ?_⟩
          cases isSkipped
          rw [Dispatch.tooDeep, Dispatch.tooDeep, sameWork.root]
        · rw [if_neg deep]
          exact notes_of_none same rfl

theorem step_notes (r : Run) (now : Instant) : (r.step e now).Notes r e.limits.depth := by
  obtain ⟨c, p⟩ := r
  unfold step
  dsimp only
  split
  · split <;> exact notes_of_elsewhere rfl nofun
  · exact notes_of_elsewhere rfl nofun
  · exact notes_of_elsewhere (takeRule_depthExceeded ..) nofun
  · refine notes_of_elsewhere ((afterEnriching_depthExceeded ..).trans ?_) nofun
    exact (Enrichment.ofSite e _).step_depthExceeded ..
  · exact notes_of_none rfl rfl
  · exact takeFrame_notes ..
  · refine notes_of_elsewhere ((afterDispatching_depthExceeded ..).trans ?_) nofun
    exact Dispatch.step_depthExceeded ..
  · exact notes_of_elsewhere rfl nofun
  · exact notes_of_elsewhere rfl nofun

theorem resume_notes (r : Run) (now : Instant) (reply : Reply) :
    (r.resume e now reply).Notes r e.limits.depth := by
  obtain ⟨c, p⟩ := r
  unfold resume
  dsimp only
  split
  · refine notes_of_elsewhere ((afterEnriching_depthExceeded ..).trans ?_) nofun
    exact (Enrichment.ofSite e _).resume_depthExceeded ..
  · refine notes_of_elsewhere ((afterDispatching_depthExceeded ..).trans ?_) nofun
    exact Dispatch.resume_depthExceeded ..
  · exact notes_of_elsewhere rfl nofun
  · exact notes_of_elsewhere rfl nofun
  · refine notes_of_none rfl ?_
    cases p <;> rfl

/-- Whatever a run does, it notes that a frame was too deep when it passes over one. -/
theorem Turns.notes (turns : r.Turns e turn) : turn.Notes r e.limits.depth := by
  cases turns with
  | step now => exact step_notes r now
  | resume now => exact resume_notes r now _

/-- A dispatch that is over is left behind at once. -/
theorem Turns.passes_on {site : Site} {left : Frames} {claimed : List Firing} {work : Dispatch}
    {made : List Invocation} (turns : r.Turns e turn)
    (isOver : r.point = .dispatching site left claimed work (.finished made)) :
    turn.run.point = .frames site left claimed ∧ turn.events = [] := by
  obtain ⟨c, p⟩ := r
  cases isOver
  cases turns with
  | step => exact ⟨rfl, rfl⟩
  | resume _ waits => cases waits

end Run

end Choreography
