import Choreography.Proofs.Run.Faults

/-! What the faults of a run are about. Each kind of fault is delivered in one place: where-clauses
are to blame for faults of enrichment and of binding, components for faults of dispatch, and what
is not registered for faults of resolution. A frame that is too deep is a fault of no kind. -/

namespace Choreography

/-- The stage that a fault is about, unless it is about the depth of a cascade. -/
def Failure.kind? (f : Failure) : Option FaultKind :=
  match f.cause with
  | .mishap what _ => some what.kind
  | _ => none

/-- What a run is at when it delivers a fault. -/
inductive Point.Blames (catalogue : Catalogue) : Point → Failure → Prop where
  | clause (isKind : fault.kind? = some kind) (ofClause : kind.IsOfClause) :
      Blames catalogue (.enriching site stage) fault
  | depth (isCause : fault.cause = .tooDeep limit) :
      Blames catalogue (.frames site left claimed) fault
  | missing (missing : catalogue.has p.action = false) (isKind : fault.kind? = some .resolution) :
      Blames catalogue (.dispatching site left claimed work (.next (p :: patterns) made)) fault
  | component (isKind : fault.kind? = some .dispatch) :
      Blames catalogue (.dispatching site left claimed work (.calling action input patterns made ends))
        fault

variable {e : Engine} {c : Cascade} {fault : Failure} {events : List Event} {rejection : Rejection}
  {r : Run}

/-! ### The where-stage -/

namespace Enrichment

variable (x : Enrichment) {rule : Rule} {frames : Frames} {now : Instant} {stage : Enriching}

/-- The faults are faults of a where-clause. -/
def BlamesClause (events : List Event) : Prop :=
  ∀ fault ∈ delivered events, ∃ kind, fault.kind? = some kind ∧ kind.IsOfClause

theorem BlamesClause.of_eq_nil (silent : delivered events = []) : BlamesClause events := by
  rw [BlamesClause, silent]
  exact List.forall_mem_nil _

theorem report_blames {rejected : List Rejection}
    (ofClause : ∀ rejection ∈ rejected, rejection.what.kind.IsOfClause) :
    BlamesClause (x.report c rejected).2 := by
  intro fault isDelivered
  rw [report, delivered_faults] at isDelivered
  obtain ⟨rejection, inside, rfl⟩ := List.mem_map.mp isDelivered
  exact ⟨_, rfl, ofClause rejection inside⟩

theorem step_blames : BlamesClause (x.step now c stage).events := by
  unfold step
  split
  · exact .of_eq_nil rfl
  · split <;> exact .of_eq_nil rfl
  · exact .of_eq_nil rfl

theorem Hears.blames {x : Enrichment} {held : Frames} {turn : StageTurn Enriching}
    (hears : x.Hears held c turn) : BlamesClause turn.events := by
  cases hears with
  | reports _ _ ofClause => exact x.report_blames ofClause
  | stops | isolates => exact .of_eq_nil rfl

theorem resume_blames (outcome : Outcome Returned) :
    BlamesClause (x.resume now c outcome stage).events := by
  cases asked : stage.asked? with
  | some => exact (x.resume_hears now c outcome asked).blames
  | none =>
    rw [x.resume_of_unasked now c outcome asked]
    exact .of_eq_nil rfl

end Enrichment

/-! ### The dispatch of a frame -/

/-- What is wrong with the end of a call is the component's fault. -/
theorem CallEnd.kind_of_ofResult {action : ActionRef} {result : Except Error Value} {call : CallEnd}
    (called : ofResult action result = .ok call) (rejected : call.rejection = some rejection) :
    rejection.what.kind = .dispatch := by
  unfold ofResult at called
  split at called <;> cases called <;> cases rejected <;> rfl

namespace Dispatch

variable {work : Dispatch} {now : Instant} {log : InvocationLog} {stage : Dispatching}

theorem cause_of_start {limit : Int} (isDelivered : fault ∈ delivered (work.start limit c log).events) :
    fault.cause = .tooDeep (.int limit) := by
  unfold start at isDelivered
  split at isDelivered
  · cases List.mem_singleton.mp isDelivered
    rfl
  · cases isDelivered

theorem kind_of_conclude {action : ActionRef} {input : Fields} {left : List Pattern}
    {produced : List Invocation} {call : CallEnd}
    (isDelivered : fault ∈ delivered (work.conclude c log action input left produced call).events) :
    ∃ rejection, call.rejection = some rejection ∧ fault.kind? = some rejection.what.kind := by
  have told : fault ∈ delivered ((call.fault? (work.context c)).map Event.fault).toList := by
    unfold conclude at isDelivered
    dsimp only at isDelivered
    split at isDelivered
    · exact isDelivered
    · rw [delivered_append] at isDelivered
      exact (List.mem_append.mp isDelivered).elim id fun inside => nomatch inside
  cases isRejection : call.rejection with
  | none =>
    rw [CallEnd.fault?, isRejection] at told
    cases told
  | some rejection =>
    rw [CallEnd.fault?, isRejection] at told
    cases List.mem_singleton.mp told
    exact ⟨rejection, rfl, rfl⟩

theorem missing_of_step {catalogue : Catalogue}
    (isDelivered : fault ∈ delivered (work.step catalogue now c log stage).events) :
    ∃ p left produced, stage = .next (p :: left) produced ∧ catalogue.has p.action = false ∧
      fault.kind? = some .resolution := by
  unfold step at isDelivered
  split at isDelivered
  · cases isDelivered
  · next p left produced =>
    dsimp only at isDelivered
    split at isDelivered
    · split at isDelivered <;> cases isDelivered
    · next missing =>
      obtain ⟨_, isRejection, isKind⟩ := kind_of_conclude isDelivered
      cases isRejection
      exact ⟨p, left, produced, rfl, Bool.eq_false_iff.mpr missing, isKind⟩
  · cases isDelivered

theorem called_of_resume {outcome : Outcome Value}
    (isDelivered : fault ∈ delivered (work.resume now c log outcome stage).events) :
    (∃ action input left produced ends, stage = .calling action input left produced ends) ∧
      fault.kind? = some .dispatch := by
  unfold resume at isDelivered
  split at isDelivered
  · dsimp only at isDelivered
    split at isDelivered
    · cases isDelivered
    · next called =>
      obtain ⟨_, isRejection, isKind⟩ := kind_of_conclude isDelivered
      exact ⟨⟨_, _, _, _, _, rfl⟩, CallEnd.kind_of_ofResult called isRejection ▸ isKind⟩
  · cases isDelivered

end Dispatch

/-! ### The run -/

namespace Run

theorem leave_delivers (e : Engine) (c : Cascade) (error : Error) :
    delivered (leave e c error).events = [] := by
  unfold leave
  split <;> rfl

theorem afterEnriching_delivers {turn : StageTurn Enriching} (site : Site) :
    delivered (afterEnriching e site turn).events = delivered turn.events := by
  unfold afterEnriching
  split
  · rfl
  · rw [delivered_append, leave_delivers, List.append_nil]
  · rfl

theorem afterDispatching_delivers {turn : DispatchTurn} (site : Site) (left : Frames)
    (claimed : List Firing) (work : Dispatch) :
    delivered (afterDispatching e site left claimed work turn).events = delivered turn.events := by
  unfold afterDispatching
  dsimp only
  split
  · rfl
  · rw [delivered_append, leave_delivers, List.append_nil]
  · rfl

theorem takeRule_delivers (e : Engine) (now : Instant) (c : Cascade) (s : Site) :
    delivered (takeRule e now c s).events = [] := by
  unfold takeRule
  split
  · exact leave_delivers ..
  · split
    · rfl
    · unfold Enrichment.start
      split
      · rfl
      · split <;> rfl

theorem cause_of_takeFrame {now : Instant} {s : Site} {frame : Frame} {left : Frames}
    {claimed : List Firing}
    (isDelivered : fault ∈ delivered (takeFrame e now c s frame left claimed).events) :
    ∃ limit, fault.cause = .tooDeep limit := by
  unfold takeFrame at isDelivered
  split at isDelivered
  · rw [leave_delivers] at isDelivered
    cases isDelivered
  · dsimp only at isDelivered
    split at isDelivered
    · cases isDelivered
    · split at isDelivered
      · rw [leave_delivers] at isDelivered
        cases isDelivered
      · exact ⟨_, Dispatch.cause_of_start isDelivered⟩

theorem step_blames {now : Instant} (isDelivered : fault ∈ delivered (r.step e now).events) :
    r.point.Blames e.catalogue fault := by
  obtain ⟨c, p⟩ := r
  unfold step at isDelivered
  dsimp only at isDelivered
  split at isDelivered
  · split at isDelivered <;> cases isDelivered
  · cases isDelivered
  · rw [takeRule_delivers] at isDelivered
    cases isDelivered
  · rw [afterEnriching_delivers] at isDelivered
    obtain ⟨_, isKind, ofClause⟩ := Enrichment.step_blames _ fault isDelivered
    exact .clause isKind ofClause
  · cases isDelivered
  · obtain ⟨_, isCause⟩ := cause_of_takeFrame isDelivered
    exact .depth isCause
  · rw [afterDispatching_delivers] at isDelivered
    obtain ⟨_, _, _, rfl, missing, isKind⟩ := Dispatch.missing_of_step isDelivered
    exact .missing missing isKind
  · cases isDelivered
  · cases isDelivered

theorem resume_blames {now : Instant} {reply : Reply}
    (isDelivered : fault ∈ delivered (r.resume e now reply).events) :
    r.point.Blames e.catalogue fault := by
  obtain ⟨c, p⟩ := r
  unfold resume at isDelivered
  dsimp only at isDelivered
  split at isDelivered
  · rw [afterEnriching_delivers] at isDelivered
    obtain ⟨_, isKind, ofClause⟩ := Enrichment.resume_blames _ _ fault isDelivered
    exact .clause isKind ofClause
  · rw [afterDispatching_delivers] at isDelivered
    obtain ⟨⟨_, _, _, _, _, rfl⟩, isKind⟩ := Dispatch.called_of_resume isDelivered
    exact .component isKind
  · rw [delivered_quiet (e.retain_isQuiet c.root)] at isDelivered
    cases isDelivered
  · cases isDelivered
  · cases isDelivered

/-- Whoever delivers a fault is at what the fault is about. -/
theorem Turns.blames {turn : Turn} (turns : r.Turns e turn)
    (isDelivered : fault ∈ delivered turn.events) : r.point.Blames e.catalogue fault := by
  cases turns with
  | step now => exact step_blames isDelivered
  | resume now => exact resume_blames isDelivered

end Run

end Choreography
