import Choreography.Simulation.Work

/-! The order of events. Strands take turns in rounds, first come first served, and what
a turn asks for comes in the next round. A round begins with the turns that were asked
for and ends with those for which the clock has come; when there are none at all the
clock moves on to the next moment that has some. -/

namespace Choreography.Simulation.World

/-- A strand takes its turn. -/
def turn (w : World) (s : Strand) : Signal → World
  | .go =>
    if s.isToStop || s.isTooLate w.now then w.conclude { s with gaveUp := true } .abandoned
    else
      match s.code with
      | some code => w.speakOn s code
      | none => w.work s
  | .speak => (s.code.map (w.speakOn s)).getD w
  | .look =>
    if s.isCancelled then w.last (s.number, .news 1) else w.put { s with isWatched := true }
  | .rested => w.last s.codeTurn
  | .news 0 => w.conclude s s.outcome
  | .news (turns + 1) => w.last (s.number, .news turns)
  | .giveUp => (w.put { s with gaveUp := true, isToStop := true }).last (s.number, .go)

/-- The earliest moment of some alarms. -/
def earliest (alarms : List Alarm) : Option Instant := (alarms.map (·.moment)).min?

/-- Begins the next round, if there is any left. -/
def nextRound (w : World) : Option World :=
  let now := if w.next.isEmpty then ((earliest w.alarms).map (max w.now)).getD w.now else w.now
  let (due, later) := w.alarms.partition (·.moment ≤ now)
  let due := due.mergeSort fun a b => a.moment ≤ b.moment
  match w.next ++ due.map (·.turn) with
  | [] => none
  | ready => some { w with now, ready, next := [], alarms := later }

/-- One step of the world, unless nothing is left to happen. -/
def step (w : World) : Option World :=
  match w.ready with
  | [] => w.nextRound
  | (number, signal) :: rest =>
    let w := { w with ready := rest }
    match w.strand? number with
    | some s => some (if s.task.isDone then w else w.turn s signal)
    | none => some w

/-- Lets the world go on until nothing is left to happen. -/
def runFor : Nat → World → World
  | 0, w => w
  | fuel + 1, w =>
    match w.step with
    | none => w
    | some next => runFor fuel next

/-- More steps than any world takes. -/
def enough : Nat := Nat.pow 2 60

def run (w : World) : World := runFor enough w

/-- Adds a strand that begins at a moment, and ends when its caller gives up before. -/
def add (w : World) (job : Job) (begins : Instant) (givesUp : Option Instant) : World :=
  let number := w.nextStrand
  let w : World := { w with
    strands := w.strands ++ [{ number, task := .waiting job, givesUp }]
    nextStrand := number + 1 }
  let w := if begins ≤ w.now then w.last (number, .go) else w.later begins (number, .rested)
  (givesUp.map fun moment => w.later moment (number, .giveUp)).getD w

/-- What came of a strand. To its caller, an answer he gave up on is a timeout. -/
def answerOf (s : Strand) : Except Error Answer :=
  match s.task with
  | .done (.error (.plain .cancelled text)) =>
    if s.gaveUp then .error (.plain .timeout "") else .error (.plain .cancelled text)
  | .done result => result
  | _ => .ok .nothing

/-- Does one job to its end. -/
def perform (w : World) (job : Job) : World × Except Error Answer :=
  let w := ({ w with strands := [] }.add job w.now none).run
  (w, (w.strands.head?.map answerOf).getD (.ok .nothing))

/-- Registers a component, if it can be. -/
def register (w : World) (name : String) (component : Component) : World × Except Error Unit :=
  match w.perform (.registerComponent name component) with
  | (w, .ok _) => (w, .ok ())
  | (w, .error e) => (w, .error e)

/-- Registers components one by one, up to the first that is refused. -/
def registerAll (w : World) : List (String × Component) → World × Except Error Unit
  | [] => (w, .ok ())
  | (name, component) :: rest =>
    match w.register name component with
    | (w, .ok ()) => w.registerAll rest
    | (w, .error e) => (w, .error e)

/-- A world with components and rules, which are checked if that is wanted. -/
def establish (w : World) (components : List (String × Component)) (rules : Except Error (List Rule))
    (checked : Bool) : World × Except Error Unit :=
  match w.registerAll components with
  | (w, .error e) => (w, .error e)
  | (w, .ok ()) =>
    match rules >>= RuleRegistry.ofRules with
    | .error e => (w, .error e)
    | .ok rules =>
      let w := { w with engine := { w.engine with rules } }
      if checked then
        match w.perform .validate with
        | (w, .ok _) => (w, .ok ())
        | (w, .error e) => (w, .error e)
      else (w, .ok ())

end Choreography.Simulation.World
