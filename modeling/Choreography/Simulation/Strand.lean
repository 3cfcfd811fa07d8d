import Choreography.Gateway
import Choreography.Run
import Choreography.Simulation.Script

/-! Strands of work. A strand does one job for one caller. Its task says what it is in
the middle of, and at times code runs on its behalf; when the task is done the strand
has its answer. -/

namespace Choreography.Simulation

/-- The methods of a component that can be awaited. -/
def Component.methods : Component → List String
  | .desk => Desk.methods
  | .scripted methods => (methods.filter fun entry => !entry.2.blocking).map (·.1)

/-- What a strand is asked to do. -/
inductive Job where
  | invoke (action : Except Error ActionRef) (input : Fields) (limit : Option Seconds)
  /-- Runs the cascade of a logged invocation; of a held one also when it is forgotten. -/
  | process (id : InvocationId) (held : Bool) (limit : Option Seconds)
  | handle (path : String) (params : Fields)
  | call (action : Except Error ActionRef) (input : Fields)
  /-- Looks a request up at the desk, or at what is in its place. -/
  | lookUp (request : Value)
  | sleep (length : Seconds)
  | clause (steps : Where) (given : Returned)
  | enrich (work : Enrichment) (frames : Frames) (cascade : Cascade)
  | dispatch (rule : Rule) (frame : Frame) (cascade : Cascade)
  /-- Calls an action on behalf of a cascade, or of nobody. -/
  | perform (action : Except Error ActionRef) (input : Fields) (cascade : Option Cascade)
      (context : Context)
  | record (action : Except Error ActionRef) (input output : Fields)
  | cancel (root : InvocationId)
  | isRunning (root : InvocationId)
  | cascade (root : InvocationId)
  | roots
  | validate
  | registerRule (rule : Except Error Rule)
  | registerComponent (name : String) (component : Component)
deriving Inhabited

/-- What came of a job. -/
inductive Answer where
  | nothing
  | flag (b : Bool)
  | name (s : String)
  | ids (ids : List InvocationId)
  | counted (size : Nat) (ids : List InvocationId)
  | report (report : Report)
  | invocation (invocation : Invocation)
  | operations (operations : List Operation)
  | fields (fields : Fields)
  | value (value : Value)
  | returned (returned : Returned)

/-- What code says when it is done: it returns, or it answers a call. -/
inductive Spoken where
  | nothing
  | returned (returned : Returned)
  | value (value : Value)

/-- What becomes of the report of a run. -/
inductive Purpose where
  | report
  /-- The run is for a request, which is answered by its deadline if at all. -/
  | request (ticket : Gateway.Ticket)
  /-- The run is for a request that was taken in by something that is no desk. -/
  | undesked

/-- What a strand is in the middle of. -/
inductive Task where
  | waiting (job : Job)
  /-- A root action has been called. -/
  | boundary (action : ActionRef) (input : Fields) (limit : Option Seconds)
  | running (run : Run) (purpose : Purpose)
  /-- A passthrough operation has been called. -/
  | direct (target : ActionRef) (path : String)
  /-- A request is being taken in by something that is no desk. -/
  | takingIn (gateway : Gateway) (input : Fields)
  /-- The run for a request has drained without a response. -/
  | listening (ticket : Gateway.Ticket) (report : Report)
  | enriching (work : Enrichment) (cascade : Cascade) (stage : Enriching)
  | dispatching (work : Dispatch) (cascade : Cascade) (stage : Dispatching)
  | performing (action : ActionRef) (cascade : Option Cascade) (context : Context)
  /-- Code runs whose word is the answer. -/
  | speaking
  | done (result : Except Error Answer)

structure Strand where
  number : Nat
  task : Task
  /-- When the caller gives up. -/
  givesUp : Option Instant := none
  gaveUp : Bool := false
  /-- Whether the strand has still to be told that its caller gave up. -/
  isToStop : Bool := false
  /-- The code that runs on behalf of the strand. -/
  code : Option (Activity Spoken) := none
  /-- Whether the code has turns of its own, while the strand waits for news. -/
  isApart : Bool := false
  /-- What code with turns of its own came to. -/
  said : Option (Except Error Spoken) := none
  /-- Whether somebody looks out for the cancellation of the cascade. -/
  isWatched : Bool := false
  finishedAt : Instant := 0
  /-- The cascade on behalf of which the strand worked last. -/
  cascade : Option Cascade := none

/-- What happens to a strand in a turn. -/
inductive Signal where
  /-- It begins, or goes on with what it is in the middle of. -/
  | go
  /-- The code that it waits for goes on. -/
  | speak
  /-- Somebody looks whether its cascade has been cancelled. -/
  | look
  /-- Its code has slept. -/
  | rested
  /-- News that end its wait are on their way, and are there after so many turns. -/
  | news (turns : Nat)
  /-- Its caller gives up. -/
  | giveUp
deriving DecidableEq

/-- A turn of a strand, known by its number. -/
abbrev StrandTurn := Nat × Signal

/-- A turn that comes at a moment. -/
structure Alarm where
  moment : Instant
  turn : StrandTurn

namespace Task

/-- The cascade that a task works for. -/
def cascade? : Task → Option Cascade
  | .running run _ => some run.cascade
  | .enriching _ cascade _ => some cascade
  | .dispatching _ cascade _ => some cascade
  | .performing _ cascade _ => cascade
  | _ => none

/-- Sets the token of the cascade that a task works for. -/
def cancel : Task → Task
  | .running run purpose => .running { run with cascade := run.cascade.cancel } purpose
  | .enriching work cascade stage => .enriching work cascade.cancel stage
  | .dispatching work cascade stage => .dispatching work cascade.cancel stage
  | .performing action cascade context => .performing action (cascade.map (·.cancel)) context
  | task => task

def isDone : Task → Bool
  | .done _ => true
  | _ => false

end Task

/-- Whether the caller gives up before the strand has begun. -/
def Strand.isTooLate (s : Strand) (now : Instant) : Bool :=
  match s.task, s.givesUp with
  | .waiting _, some moment => moment ≤ now
  | _, _ => false

/-- Whether the cascade that a strand works for has been cancelled. -/
def Strand.isCancelled (s : Strand) : Bool := (s.task.cascade?.map (·.cancelled)).getD false

/-- The strand without anything that it waited for. -/
def Strand.awake (s : Strand) : Strand :=
  { s with code := none, isApart := false, said := none, isWatched := false, isToStop := false }

/-- The turn in which the code of a strand goes on. -/
def Strand.codeTurn (s : Strand) : StrandTurn := (s.number, if s.isApart then .speak else .go)

/-- How the wait of a strand ends when news of it have come. -/
def Strand.outcome (s : Strand) : Outcome Spoken :=
  if s.isToStop then .abandoned
  else
    match s.said with
    | some result => .finished result
    | none => .woken

/-- The value that code answered, null if it answered none. -/
def Spoken.value? : Spoken → Value
  | .value v => v
  | _ => .null

/-- What code returned, null if it returned nothing. -/
def Spoken.returned? : Spoken → Returned
  | .returned r => r
  | _ => .value .null

end Choreography.Simulation
