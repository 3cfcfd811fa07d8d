import Choreography.Proofs.System.Grounding

/-! The faults of a run. Every fault that a run meets is delivered to the sink and recorded in the
cascade in one go, and nothing else is recorded there. What a run reports is what its cascade
holds at the end. -/

namespace Choreography

/-- The fault that was delivered, if one was. -/
def Event.failure? : Event → Option Failure
  | .fault f => some f
  | _ => none

/-- The faults that were delivered, in order. -/
def delivered (events : List Event) : List Failure := events.filterMap Event.failure?

/-- From one state of a cascade to another, the faults were recorded that were delivered. -/
def Cascade.Records (c d : Cascade) (events : List Event) : Prop :=
  d.faults = c.faults ++ delivered events

/-- What a run does in one go: a step, if it waits for nothing, or what follows an answer. -/
inductive Run.Turns (e : Engine) (r : Run) : Turn → Prop where
  | step (now : Instant) (ready : r.wait? e = none) (going : r.hasEnded = false) :
      Turns e r (r.step e now)
  | resume (now : Instant) (waits : r.wait? e = some wait) (answered : wait.IsAnsweredBy reply) :
      Turns e r (r.resume e now reply)

/-- A turn records the faults that it delivers, and a run that ends with a report ends with what
its cascade holds. -/
structure Turn.Tells (turn : Turn) (c : Cascade) : Prop where
  records : c.Records turn.run.cascade turn.events
  reports : ∀ report, turn.run.point = .ended (.ok report) → report = turn.run.cascade.report

variable {e : Engine} {b c d : Cascade} {events : List Event} {r : Run}

theorem delivered_append (first second : List Event) :
    delivered (first ++ second) = delivered first ++ delivered second :=
  List.filterMap_append

theorem delivered_faults (faults : List Failure) : delivered (faults.map .fault) = faults := by
  simp [delivered, List.filterMap_map, Function.comp_def, Event.failure?]

theorem delivered_quiet (quiet : ∀ event ∈ events, event.IsQuiet) : delivered events = [] := by
  refine List.filterMap_eq_nil_iff.mpr fun event inside => ?_
  have noFault := (quiet event inside).1
  cases event with
  | fault => cases noFault
  | _ => rfl

/-! ### Waiting and reporting -/

namespace Cascade

theorem Records.of_eq (same : d.faults = c.faults) (silent : delivered events = []) :
    c.Records d events := by
  rw [Records, silent, List.append_nil, same]

theorem Records.refl (c : Cascade) : c.Records c [] := .of_eq rfl rfl

theorem Records.trans {more : List Event} (first : b.Records c events) (second : c.Records d more) :
    b.Records d (events ++ more) := by
  rw [Records, delivered_append, ← List.append_assoc, ← first]
  exact second

/-- What is recorded later is recorded after what nothing was recorded before. -/
theorem Records.after (later : c.Records d events) (same : c.faults = b.faults) :
    b.Records d events := by
  rw [Records, ← same]
  exact later

theorem check_faults (c : Cascade) (now : Instant) : (c.check now).faults = c.faults := by
  unfold check
  split <;> rfl

theorem faults_of_beginWait {result : Except Error Unit} (began : c.beginWait now = (result, d)) :
    d.faults = c.faults := by
  cases began
  exact check_faults c now

theorem endWait_faults (c : Cascade) (now : Instant) (outcome : Outcome α) :
    (c.endWait now outcome).2.faults = c.faults := by
  cases outcome with
  | finished => rfl
  | woken => exact check_faults c now
  | abandoned => rfl

theorem recordFaults_faults (faults : List Failure) (c : Cascade) :
    (faults.foldl recordFault c).faults = c.faults ++ faults := by
  induction faults generalizing c with
  | nil => exact (List.append_nil _).symm
  | cons fault faults ih =>
    rw [List.foldl_cons, ih]
    exact List.append_assoc ..

end Cascade

/-! ### The where-stage -/

namespace Enrichment

variable (x : Enrichment) (now : Instant) (stage : Enriching)

theorem report_records (c : Cascade) (rejected : List Rejection) :
    c.Records (x.report c rejected).1 (x.report c rejected).2 := by
  rw [Cascade.Records, report, delivered_faults]
  exact Cascade.recordFaults_faults _ c

theorem start_records (frames : Frames) (c : Cascade) :
    c.Records (x.start frames c now).cascade (x.start frames c now).events := by
  unfold start
  split
  · exact .refl c
  · split
    · next began => exact .of_eq (Cascade.faults_of_beginWait began) rfl
    · next began => exact .of_eq (Cascade.faults_of_beginWait began) rfl

theorem step_records (c : Cascade) :
    c.Records (x.step now c stage).cascade (x.step now c stage).events := by
  unfold step
  split
  · exact .refl c
  · split
    · next began => exact .of_eq (Cascade.faults_of_beginWait began) rfl
    · next began => exact .of_eq (Cascade.faults_of_beginWait began) rfl
  · exact .refl c

theorem Hears.records {x : Enrichment} {held : Frames} {c : Cascade} {turn : StageTurn Enriching}
    (hears : x.Hears held c turn) : c.Records turn.cascade turn.events := by
  cases hears with
  | reports => exact x.report_records c _
  | stops => exact .refl c
  | isolates => exact .of_eq rfl rfl

theorem resume_records (c : Cascade) (outcome : Outcome Returned) :
    c.Records (x.resume now c outcome stage).cascade (x.resume now c outcome stage).events := by
  cases asked : stage.asked? with
  | some => exact (x.resume_hears now c outcome asked).records.after (c.endWait_faults now outcome)
  | none =>
    rw [x.resume_of_unasked now c outcome asked]
    exact .refl c

end Enrichment

/-! ### The dispatch of a frame -/

namespace Dispatch

variable (work : Dispatch) (now : Instant) (log : InvocationLog) (stage : Dispatching)

theorem start_records (limit : Int) (c : Cascade) :
    c.Records (work.start limit c log).cascade (work.start limit c log).events := by
  unfold start
  split
  · rfl
  · exact .refl c

theorem conclude_records (c : Cascade) (action : ActionRef) (input : Fields) (left : List Pattern)
    (produced : List Invocation) (call : CallEnd) :
    c.Records (work.conclude c log action input left produced call).cascade
      (work.conclude c log action input left produced call).events := by
  have noted : c.Records (((call.fault? (work.context c)).map c.recordFault).getD c)
      ((call.fault? (work.context c)).map Event.fault).toList := by
    cases call.fault? (work.context c) with
    | none => exact .refl c
    | some => rfl
  unfold conclude
  dsimp only
  split
  · exact noted
  · exact noted.trans (.of_eq rfl rfl)

theorem step_records (catalogue : Catalogue) (c : Cascade) :
    c.Records (work.step catalogue now c log stage).cascade
      (work.step catalogue now c log stage).events := by
  unfold step
  split
  · exact .refl c
  · dsimp only
    split
    · split
      · next began => exact .of_eq (Cascade.faults_of_beginWait began) rfl
      · next began => exact .of_eq (Cascade.faults_of_beginWait began) rfl
    · exact work.conclude_records log c ..
  · exact .refl c

theorem resume_records (c : Cascade) (outcome : Outcome Value) :
    c.Records (work.resume now c log outcome stage).cascade
      (work.resume now c log outcome stage).events := by
  have waited := c.endWait_faults now outcome
  unfold resume
  split
  · dsimp only
    split
    · exact .of_eq waited rfl
    · exact (work.conclude_records ..).after waited
  · exact .refl c

end Dispatch

/-! ### The run -/

namespace Run

/-- A turn that does not end the run. -/
theorem tells_of_records {turn : Turn} (records : c.Records turn.run.cascade turn.events)
    (going : turn.run.hasEnded = false) : turn.Tells c where
  records
  reports report isEnded := by
    rw [hasEnded, isEnded] at going
    cases going

/-- A run that leaves its work loop delivers no fault any more. -/
theorem leave_tells (e : Engine) (records : b.Records c events) (error : Error) :
    Turn.Tells { leave e c error with events := events ++ (leave e c error).events } b := by
  have still : c.Records (leave e c error).run.cascade (leave e c error).events := by
    unfold leave
    split <;> exact .of_eq rfl rfl
  refine ⟨records.trans still, fun report isEnded => ?_⟩
  dsimp only at isEnded ⊢
  unfold leave at isEnded ⊢
  split at isEnded
  · cases isEnded
    rfl
  · cases isEnded
  · cases isEnded

theorem leave_tells_at_once (e : Engine) (same : c.faults = b.faults) (error : Error) :
    (leave e c error).Tells b := by
  have records : b.Records c [] := .of_eq same rfl
  exact leave_tells e records error

theorem takeRule_tells (e : Engine) (now : Instant) (c : Cascade) (s : Site) :
    (takeRule e now c s).Tells c := by
  unfold takeRule
  split
  · next began => exact leave_tells_at_once e (Cascade.faults_of_beginWait began) _
  · next d began =>
    have same : d.faults = c.faults := Cascade.faults_of_beginWait began
    split
    · exact tells_of_records (.of_eq same rfl) rfl
    · exact tells_of_records (((Enrichment.ofSite e s).start_records now _ _).after same) rfl

theorem takeFrame_tells (e : Engine) (now : Instant) (c : Cascade) (s : Site) (frame : Frame)
    (left : Frames) (claimed : List Firing) : (takeFrame e now c s frame left claimed).Tells c := by
  unfold takeFrame
  split
  · next began => exact leave_tells_at_once e (Cascade.faults_of_beginWait began) _
  · next d began =>
    have same : d.faults = c.faults := Cascade.faults_of_beginWait began
    dsimp only
    split
    · exact tells_of_records (.of_eq same rfl) rfl
    · split
      · exact leave_tells_at_once _ same _
      · exact tells_of_records ((Dispatch.start_records _ _ _ d).after same) rfl

theorem afterEnriching_tells (e : Engine) (s : Site) {turn : StageTurn Enriching}
    (records : c.Records turn.cascade turn.events) : (afterEnriching e s turn).Tells c := by
  unfold afterEnriching
  split
  · exact tells_of_records records rfl
  · exact leave_tells e records _
  · exact tells_of_records records rfl

theorem afterDispatching_tells (e : Engine) (s : Site) (left : Frames) (claimed : List Firing)
    (work : Dispatch) {turn : DispatchTurn} (records : c.Records turn.cascade turn.events) :
    (afterDispatching e s left claimed work turn).Tells c := by
  unfold afterDispatching
  dsimp only
  split
  · exact tells_of_records records rfl
  · exact leave_tells _ records _
  · exact tells_of_records records rfl

theorem step_tells (r : Run) (now : Instant) (going : r.hasEnded = false) :
    (r.step e now).Tells r.cascade := by
  obtain ⟨c, p⟩ := r
  unfold step
  dsimp only
  split
  · split
    · exact tells_of_records (.of_eq rfl rfl) rfl
    · exact tells_of_records (.refl c) rfl
  · exact tells_of_records (.of_eq rfl rfl) rfl
  · exact takeRule_tells e now c _
  · exact afterEnriching_tells e _ ((Enrichment.ofSite e _).step_records now _ c)
  · exact tells_of_records (.refl c) rfl
  · exact takeFrame_tells e now c ..
  · next work _ =>
    exact afterDispatching_tells e _ _ _ work (work.step_records now e.log _ e.catalogue c)
  · exact tells_of_records (.refl c) going
  · cases going

theorem resume_tells (r : Run) (now : Instant) (reply : Reply) (going : r.hasEnded = false) :
    (r.resume e now reply).Tells r.cascade := by
  obtain ⟨c, p⟩ := r
  unfold resume
  dsimp only
  split
  · exact afterEnriching_tells e _ ((Enrichment.ofSite e _).resume_records now _ c _)
  · next work _ _ =>
    exact afterDispatching_tells e _ _ _ work (work.resume_records now e.log _ c _)
  · refine ⟨.of_eq rfl (delivered_quiet ?_), fun report isEnded => ?_⟩
    · exact e.retain_isQuiet c.root
    · cases isEnded
      rfl
  · exact ⟨.refl c, nofun⟩
  · exact tells_of_records (.refl c) going

/-- A run that waits has not ended. -/
theorem not_hasEnded_of_wait {wait : Wait} (waits : r.wait? e = some wait) : r.hasEnded = false := by
  obtain ⟨c, p⟩ := r
  cases p with
  | ended => cases waits
  | _ => rfl

namespace Turns

variable {turn : Turn}

theorem isMove (turns : Turns e r turn) : IsMove e r.cascade r.point turn := by
  cases turns with
  | step now ready going => exact step_isMove r now ready going
  | resume now waits answered => exact resume_isMove r now waits answered

theorem tells (turns : Turns e r turn) : turn.Tells r.cascade := by
  cases turns with
  | step now _ going => exact step_tells r now going
  | resume now waits answered => exact resume_tells r now _ (not_hasEnded_of_wait waits)

end Turns

end Run

end Choreography
