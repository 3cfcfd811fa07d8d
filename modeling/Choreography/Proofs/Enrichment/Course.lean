import Choreography.Proofs.Enrichment

/-! Where-stages that nothing stops. Time goes on while such a stage waits, but the cascade is
neither cancelled nor out of time whenever the stage does its next piece of work. What the stage
comes to is then up to its where-clause alone. -/

namespace Choreography

/-- However it goes on, something comes to hold in the end; and until it does, it can go on. -/
inductive Eventually (next : α → α → Prop) (goal : α → Prop) : α → Prop where
  | now (reached : goal a) : Eventually next goal a
  | later (goesOn : ∃ b, next a b) (each : ∀ b, next a b → Eventually next goal b) :
      Eventually next goal a

/-- At a moment nothing stops a cascade. -/
def Cascade.IsCalmAt (c : Cascade) (now : Instant) : Prop := (c.check now).cancelled = false

/-- A where-stage that nothing stops does its next piece of work, at that moment or later. -/
def Enrichment.Proceeds (x : Enrichment) (answers : Frames → Outcome Returned → Prop)
    (before after : StageTurn Enriching × Instant) : Prop :=
  before.2 ≤ after.2 ∧ before.1.cascade.IsCalmAt after.2 ∧ x.Turns answers after.2 before.1 after.1

/-! ### What comes to hold -/

namespace Eventually

variable {next : α → α → Prop} {goal invariant : α → Prop} {a : α}

/-- What holds from the beginning and is never lost also holds in the end. -/
theorem and_of_invariant (eventually : Eventually next goal a) (holds : invariant a)
    (preserved : ∀ b c, invariant b → next b c → invariant c) :
    Eventually next (fun b => goal b ∧ invariant b) a := by
  induction eventually with
  | now reached => exact .now ⟨reached, holds⟩
  | later goesOn _ ih =>
    exact .later goesOn fun b happens => ih b happens (preserved _ b holds happens)

end Eventually

/-! ### Calm cascades -/

namespace Cascade

variable {c : Cascade} {now : Instant}

theorem IsCalmAt.check_eq (calm : c.IsCalmAt now) : c.check now = c := by
  unfold IsCalmAt at calm
  unfold check at calm ⊢
  split at calm
  · cases calm
  · next timeLeft => rw [if_neg timeLeft]

theorem IsCalmAt.beginWait (calm : c.IsCalmAt now) : c.beginWait now = (.ok (), c) := by
  have token : c.cancelled = false := by
    have isChecked : (c.check now).cancelled = false := calm
    rwa [calm.check_eq] at isChecked
  unfold Cascade.beginWait
  dsimp only
  rw [calm.check_eq, token]
  rfl

theorem IsCalmAt.recordFaults (calm : c.IsCalmAt now) (faults : List Failure) :
    (faults.foldl recordFault c).IsCalmAt now := by
  induction faults generalizing c with
  | nil => exact calm
  | cons fault faults ih =>
    refine ih ?_
    unfold IsCalmAt check at calm ⊢
    split at calm
    · cases calm
    · next timeLeft =>
      rw [if_neg (show ¬(c.recordFault fault).remaining now = some 0 from timeLeft)]
      exact calm

end Cascade

/-! ### The course of the stage -/

namespace Enrichment

variable {x : Enrichment} {answers : Frames → Outcome Returned → Prop}
  {goal : StageTurn Enriching × Instant → Prop} {s t : StageTurn Enriching} {now : Instant}
  {frames : Frames} {c : Cascade}

/-- A stage that waits for its where-clause hears an answer. -/
theorem eventually_of_asked (asked : s.stage.asked? = some frames) (calm : s.cascade.IsCalmAt now)
    (answered : ∃ outcome, answers frames outcome)
    (each : ∀ outcome later, answers frames outcome → s.cascade.IsCalmAt later →
      Eventually (x.Proceeds answers) goal
        (s.followedBy (x.resume later s.cascade outcome s.stage), later)) :
    Eventually (x.Proceeds answers) goal (s, now) := by
  obtain ⟨outcome, isAnswer⟩ := answered
  have hears : x.Turns answers now s (s.followedBy (x.resume now s.cascade outcome s.stage)) :=
    .hear asked isAnswer
  refine .later ⟨(_, now), Int.le_refl now, calm, hears⟩ ?_
  rintro ⟨t, later⟩ ⟨_, stillCalm, turns⟩
  dsimp only at turns
  cases turns with
  | step isolating =>
    rw [isolating] at asked
    cases asked
  | hear alsoAsked isAnswer =>
    cases asked.symm.trans alsoAsked
    exact each _ later isAnswer stillCalm

/-- A stage that goes through its frames one by one takes up the next one. -/
theorem eventually_of_isolating {kept left : Frames} (isolating : s.stage = .isolating kept left)
    (calm : s.cascade.IsCalmAt now)
    (each : ∀ later, s.cascade.IsCalmAt later → Eventually (x.Proceeds answers) goal
      (s.followedBy (x.step later s.cascade s.stage), later)) :
    Eventually (x.Proceeds answers) goal (s, now) := by
  have steps : x.Turns answers now s (s.followedBy (x.step now s.cascade s.stage)) := .step isolating
  refine .later ⟨(_, now), Int.le_refl now, calm, steps⟩ ?_
  rintro ⟨t, later⟩ ⟨_, stillCalm, turns⟩
  dsimp only at turns
  cases turns with
  | step => exact each later stillCalm
  | hear asked =>
    rw [isolating] at asked
    cases asked

theorem resume_batch (x : Enrichment) (now : Instant) (c : Cascade) (result : Except Error Returned)
    (frames : Frames) (ends : Option Instant) :
    x.resume now c (.finished result) (.batch frames ends) = x.afterBatch frames c result := rfl

theorem resume_single (x : Enrichment) (now : Instant) (c : Cascade) (result : Except Error Returned)
    (frame : Frame) (kept left : Frames) (ends : Option Instant) :
    x.resume now c (.finished result) (.single frame kept left ends) =
      x.afterSingle frame kept left c result := rfl

theorem Turns.records (turns : x.Turns answers now s t) (records : c.Records s.cascade s.events) :
    c.Records t.cascade t.events := by
  cases turns with
  | step => exact records.trans (x.step_records now s.stage s.cascade)
  | hear => exact records.trans (x.resume_records now s.stage s.cascade _)

/-- What a stage comes to when nothing stops it, with every fault delivered and recorded. -/
theorem eventually_records {begun : Instant}
    (eventually : Eventually (x.Proceeds answers) goal (x.start frames c begun, begun)) :
    Eventually (x.Proceeds answers)
      (fun reached => goal reached ∧ c.Records reached.1.cascade reached.1.events)
      (x.start frames c begun, begun) :=
  eventually.and_of_invariant (x.start_records begun frames c)
    fun _ _ records ⟨_, _, turns⟩ => turns.records records

/-- A stage without frames has nothing to do. -/
theorem start_nil (x : Enrichment) (c : Cascade) (now : Instant) :
    x.start [] c now = { stage := .finished [], cascade := c } := by
  rw [start, List.isEmpty_nil, Bool.or_true, if_pos rfl]

/-- A stage with a where-clause and frames begins to wait for it. -/
theorem start_eq_batch (isClause : x.rule.enrich.isSome = true) (notEmpty : frames ≠ [])
    (calm : c.IsCalmAt now) :
    x.start frames c now = { stage := .batch frames (c.waitEnd x.limit now), cascade := c } := by
  have toDo : ¬(x.rule.enrich.isNone || frames.isEmpty) = true := by
    rw [Bool.or_eq_true, List.isEmpty_iff, Option.isNone_iff_eq_none]
    rintro (absent | empty)
    · rw [absent] at isClause
      cases isClause
    · exact notEmpty empty
  rw [start, if_neg toDo, calm.beginWait]

end Enrichment

end Choreography
