import Choreography.Proofs.Run.Blame
import Choreography.Proofs.Run.Survivors

/-! The course of a where-stage. It works step by step, hears what has become of its where-clause
whenever it waits for it, and its cascade may be cancelled at any moment. Whatever a where-clause
does, the frames that come out refine frames that went in. -/

namespace Choreography

/-- What a stage has done so far and then does. -/
def StageTurn.followedBy (s turn : StageTurn σ) : StageTurn σ :=
  { turn with events := s.events ++ turn.events }

namespace Enrichment

/-- A where-stage does its next piece of work, where its where-clause may have answered what it was
given: it goes on to the next frame, or hears the answer that it waits for. -/
inductive Turns (x : Enrichment) (answers : Frames → Outcome Returned → Prop) (now : Instant)
    (s : StageTurn Enriching) : StageTurn Enriching → Prop where
  | step (isolating : s.stage = .isolating kept left) :
      Turns x answers now s (s.followedBy (x.step now s.cascade s.stage))
  | hear (asked : s.stage.asked? = some frames) (answered : answers frames outcome) :
      Turns x answers now s (s.followedBy (x.resume now s.cascade outcome s.stage))

/-- What may happen to a where-stage. -/
inductive Happens (x : Enrichment) (answers : Frames → Outcome Returned → Prop)
    (s : StageTurn Enriching) : StageTurn Enriching → Prop where
  | turn (now : Instant) (turns : x.Turns answers now s t) : Happens x answers s t
  | cancel : Happens x answers s { s with cascade := s.cascade.cancel }

end Enrichment

variable {x : Enrichment} {s t : StageTurn Enriching} {answers : Frames → Outcome Returned → Prop}

namespace Enrichment

theorem start_subset (x : Enrichment) (frames : Frames) (c : Cascade) (now : Instant) :
    (x.start frames c now).stage.frames ⊆ frames := (x.start_spec frames c now).2.2.1

theorem Happens.refine (happens : x.Happens answers s t) : t.stage.frames.Refine s.stage.frames := by
  cases happens with
  | turn now turns =>
    cases turns with
    | step => exact x.step_refine now s.cascade s.stage
    | hear => exact x.resume_refine now s.cascade _ s.stage
  | cancel => exact .refl _

/-- In the whole course of a where-stage its frames refine those that it began with. -/
theorem refine_of_course (course : Relation.ReflTransGen (x.Happens answers) s t) :
    t.stage.frames.Refine s.stage.frames := by
  induction course with
  | refl => exact .refl _
  | tail _ happens ih => exact happens.refine.trans ih

end Enrichment

end Choreography
