import Choreography.Simulation.Schedule

/-! Plans. A plan is made of jobs, which are done side by side, and of callers, who do
not wait forever. Each job of a plan has a strand of its own. -/

namespace Choreography.Simulation

inductive Plan where
  | job (job : Job)
  /-- The caller gives up after a while. -/
  | within (length : Int) (plan : Plan)
  /-- Plans side by side, each after a delay. -/
  | together (tasks : List (Int × Plan))
deriving Inhabited

/-- What came of a plan, and when. -/
inductive Conclusion where
  | single (result : Except Error Answer) (moment : Instant)
  | together (parts : List Conclusion) (moment : Instant)

def Conclusion.moment : Conclusion → Instant
  | .single _ moment => moment
  | .together _ moment => moment

namespace Plan

/-- When a caller gives up who begins to wait at a moment. -/
def lapse (begins : Instant) (length : Int) : Instant := begins + max 0 length

mutual

/-- The jobs of a plan that begins at a moment: when each of them begins, and when the
first of its callers gives up. -/
def jobs (begins : Instant) (givesUp : Option Instant) :
    Plan → List (Instant × Option Instant × Job)
  | .job j => [(begins, givesUp, j)]
  | .within length plan => plan.jobs begins (earlier givesUp (some (lapse begins length)))
  | .together tasks => jobsOfEach begins givesUp tasks
termination_by structural p => p

def jobsOfEach (begins : Instant) (givesUp : Option Instant) :
    List (Int × Plan) → List (Instant × Option Instant × Job)
  | [] => []
  | (delay, plan) :: rest => plan.jobs (begins + delay) givesUp ++ jobsOfEach begins givesUp rest
termination_by structural ts => ts

end

mutual

/-- What came of a plan, by its strands, which stand before those of other plans. -/
def conclude (begins : Instant) : Plan → List Strand → Conclusion × List Strand
  | .job _, strands =>
    (.single ((strands.head?.map World.answerOf).getD (.ok .nothing))
      ((strands.head?.map (·.finishedAt)).getD begins), strands.drop 1)
  | .within length plan, strands =>
    match plan.conclude begins strands with
    | (.single result moment, rest) => (.single result moment, rest)
    | (.together parts moment, rest) =>
      -- who gives up hears nothing of what was done meanwhile
      if lapse begins length ≤ moment then
        (.single (.error (.plain .timeout "")) (lapse begins length), rest)
      else (.together parts moment, rest)
  | .together tasks, strands =>
    let (parts, rest) := concludeEach begins tasks strands
    (.together parts ((parts.map (·.moment)).foldl max begins), rest)
termination_by structural p => p

def concludeEach (begins : Instant) :
    List (Int × Plan) → List Strand → List Conclusion × List Strand
  | [], strands => ([], strands)
  | (delay, plan) :: tasks, strands =>
    let (conclusion, rest) := plan.conclude (begins + delay) strands
    let (others, rest) := concludeEach begins tasks rest
    (conclusion :: others, rest)
termination_by structural ts => ts

end

end Plan

/-- Carries out a plan to its end. -/
def World.carryOut (w : World) (plan : Plan) : World × Conclusion :=
  let started := (plan.jobs w.now none).foldl (fun w j => w.add j.2.2 j.1 j.2.1)
    { w with strands := [] }
  let ended := started.run
  (ended, (plan.conclude w.now ended.strands).1)

end Choreography.Simulation
