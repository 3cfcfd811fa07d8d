import Choreography.Audit
import Choreography.Simulation.Strand
import Choreography.Where.Run

/-! A world in which an engine runs: components that follow scripts, a clock, and
strands that take turns. Here is what happens to the world when a strand goes on,
waits, calls a component or comes to its end. -/

namespace Choreography.Simulation

/-- Where drained cascades are handed to. -/
inductive Repository where
  | none
  | list
  /-- Takes note of a cascade and then fails. -/
  | failing
  /-- Writes cascades to the audit; some writes, counted from 1, are refused. -/
  | recorder (recorder : Recorder) (refused : List Nat) (writes : Nat)
  /-- Writes cascades to an audit that cannot be reached, which the log is told. -/
  | unreachable (recorder : Recorder) (notes : List LogRecord) (error : Error)

structure World where
  now : Instant := 0
  engine : Engine := {}
  /-- Where requests are handed in, if they are. -/
  gateway : Option Gateway := none
  scripts : List (ActionRef × Script) := []
  /-- The components that are request desks. -/
  desks : List (String × Desk) := []
  /-- How many requests were ever taken in, at whatever desk. -/
  taken : Nat := 0
  /-- How often each scripted operation was called. -/
  counts : List (ActionRef × Nat) := []
  repository : Repository := .none
  /-- Whether faults are logged instead of being handed over. -/
  faultsToLog : Bool := false
  /-- Whether there is only one cascade, so that every cancellation means it. -/
  soleCascade : Bool := false
  /-- The number that is drawn next, beyond all that came with what the world was given. -/
  drawn : Nat := Nat.pow 2 48
  /-- What was seen lately, the latest first. -/
  events : List Event := []
  /-- Every invocation that was ever logged, the latest first. -/
  history : List Invocation := []
  strands : List Strand := []
  /-- The turns of this round. -/
  ready : List StrandTurn := []
  /-- The turns of the next round. -/
  next : List StrandTurn := []
  /-- The turns that come by the clock, in the order in which they were asked for. -/
  alarms : List Alarm := []
  nextStrand : Nat := 0

namespace World

def emit (w : World) (event : Event) : World :=
  match event with
  | .fault f =>
    if w.faultsToLog then { w with events := .note (faultRecord "concord.faults" f) :: w.events }
    else { w with events := event :: w.events }
  | .logged i => { w with events := event :: w.events, history := i :: w.history }
  | _ => { w with events := event :: w.events }

def emitAll (w : World) (events : List Event) : World := events.foldl emit w

def put (w : World) (s : Strand) : World :=
  { w with strands := w.strands.map fun t => if t.number = s.number then s else t }

def strand? (w : World) (number : Nat) : Option Strand := w.strands.find? (·.number == number)

/-- A turn that follows at once. -/
def first (w : World) (turn : StrandTurn) : World := { w with ready := turn :: w.ready }

/-- A turn in the next round, after all others. -/
def last (w : World) (turn : StrandTurn) : World := { w with next := w.next ++ [turn] }

/-- A turn at a moment. -/
def later (w : World) (moment : Instant) (turn : StrandTurn) : World :=
  { w with alarms := w.alarms ++ [⟨moment, turn⟩] }

/-- The world without the turns that are not kept. -/
def keep (w : World) (isKept : StrandTurn → Bool) : World :=
  { w with
    ready := w.ready.filter isKept
    next := w.next.filter isKept
    alarms := w.alarms.filter fun alarm => isKept alarm.turn }

/-- A strand has nothing more to wait for, except that its caller may give up. -/
def quiet (w : World) (number : Nat) : World :=
  w.keep fun turn => turn.1 != number || turn.2 = .giveUp

/-- The strand goes on with a task at once. -/
def goOn (w : World) (s : Strand) (task : Task) : World :=
  (w.put { s.awake with task }).first (s.number, .go)

/-- The strand has come to its end. -/
def finish (w : World) (s : Strand) (result : Except Error Answer) : World :=
  (w.keep (·.1 != s.number)).put
    { s.awake with
      task := .done result, finishedAt := w.now, cascade := s.task.cascade? <|> s.cascade }

/-- The strand goes on with code at once. -/
def speak (w : World) (s : Strand) (task : Task) (code : Activity Spoken) : World :=
  (w.put { s.awake with task, code := some code }).first (s.number, .go)

/-- The strand waits for code that has turns of its own, and perhaps for a moment. -/
def await (w : World) (s : Strand) (task : Task) (code : Activity Spoken)
    (ends : Option Instant) : World :=
  let w := w.put { s.awake with task, code := some code, isApart := true }
  let w := (w.last (s.number, .speak)).last (s.number, .look)
  (ends.map fun moment => w.later moment (s.number, .news 1)).getD w

/-- Whether a strand would be stopped by the cancellation of a cascade: it is the
latest run of the cascade. -/
def isMeant (w : World) (root : InvocationId) (s : Strand) : Bool :=
  List.lookup root w.engine.active == some s.number

/-- Cancels the cascades of some strands. Who looks out for that will see it. -/
def cancelWhere (w : World) (isMeant : Strand → Bool) : World :=
  w.strands.foldl (fun w s =>
    if isMeant s && !s.task.isDone then
      let w := w.put { s with task := s.task.cancel, isWatched := false }
      if s.isWatched then w.last (s.number, .look) else w
    else w) w

/-- Cancels a cascade. -/
def cancelRoot (w : World) (root : InvocationId) : World := w.cancelWhere (w.isMeant root)

/-- Cancels cascades; the only one there is, whatever it is called. -/
def cancelAll (w : World) (roots : List InvocationId) : World :=
  if w.soleCascade then w.cancelWhere fun _ => true else roots.foldl cancelRoot w

/-- The desk that a component is, if it is one. -/
def desk? (w : World) (name : String) : Option Desk :=
  (List.lookup name w.desks).map fun desk => { desk with taken := w.taken }

def setDesk (w : World) (name : String) (desk : Desk) : World :=
  { w with
    taken := desk.taken
    desks := w.desks.map fun entry => if entry.1 = name then (name, desk) else entry }

/-- The response to a request from outside, if there is one. -/
def responseTo (w : World) (id : String) : Option Fields :=
  (w.desk? requestingName).bind (·.responseOf id)

/-- The code of an operation that is called with some input. -/
def codeOf (w : World) (action : ActionRef) (input : Fields) : World × Activity Value :=
  match w.desk? action.component with
  | some desk =>
    let (desk, result) := desk.call action.operation input
    let w := w.setDesk action.component desk
    -- whoever listens for a response may go on
    let w := w.strands.foldl (fun w s =>
      match s.task with
      | .listening ticket _ =>
        if (w.responseTo ticket.id).isSome then w.last (s.number, .news 2) else w
      | _ => w) w
    (w, .ofExcept result)
  | none =>
    match List.lookup action w.scripts with
    | none => (w, .raise (.of (.unknownOperation action.component action.operation)))
    | some script =>
      match script.refusal? input with
      | some error => (w, .raise error)
      | none =>
        let number := (List.lookup action w.counts).getD 0 + 1
        let counts := (w.counts.filter (·.1 ≠ action)) ++ [(action, number)]
        (({ w with counts }).emit (.called action input), script.answer input number)

/-- What a registered component calls itself: a desk does not go by its own name. -/
def titleOf (w : World) (name : String) : String :=
  if (w.desk? name).isSome then Desk.typeName else name

/-- Makes the code of a component known. -/
def install (w : World) (name : String) : Component → World
  | .desk => { w with desks := w.desks ++ [(name, {})] }
  | .scripted methods =>
    let added := methods.map fun entry => (ActionRef.mk name entry.1, entry.2)
    { w with scripts := w.scripts ++ added }

/-- Hands a cascade to the repository. -/
def save (w : World) (invocations : List Invocation) : World × Except Error Unit :=
  match w.repository with
  | .none => (w, .ok ())
  | .list => (w.emit (.saved (invocations.map (·.id))), .ok ())
  | .failing =>
    (w.emit (.saved (invocations.map (·.id))), .error (.plain .runtime "repository down"))
  | .recorder recorder refused writes =>
    match recorder.prepare? invocations with
    | none => (w, .ok ())
    | some batch =>
      let writes := writes + 1
      let result : Except Error Unit :=
        if refused.contains writes then .error (.plain .runtime "commit refused") else .ok ()
      let (recorder, events, result) := recorder.settle batch result
      (({ w with repository := .recorder recorder refused writes }).emitAll events, result)
  | .unreachable recorder notes error =>
    match recorder.prepare? invocations with
    | none => (w, .ok ())
    | some batch =>
      let (recorder, events, result) := recorder.settle batch (.error error)
      (({ w with repository := .unreachable recorder notes error }).emitAll
        (notes.map Event.note ++ events), result)

/-- Begins the run of a cascade on a strand. -/
def beginRun (w : World) (s : Strand) (invocation : Invocation) (limit : Option Seconds)
    (purpose : Purpose) : World :=
  let (engine, run) := Run.start w.engine s.number invocation limit w.now
  ({ w with engine }).goOn s (.running run purpose)

/-- A request that is answered, or not: it is no longer pending. -/
def endRequest (w : World) (s : Strand) (id : String) (result : Except Error Answer) : World :=
  match w.desk? requestingName with
  | none => w.finish s result
  | some desk =>
    let (desk, events) := desk.discard id
    ((w.setDesk requestingName desk).emitAll events).finish s result

/-- The caller of a request leaves, perhaps with an answer. -/
def leave (w : World) (s : Strand) (ticket : Gateway.Ticket) (report : Report)
    (answer : Option Fields) : World :=
  (w.emitAll ((ticket.notes report answer).map .note)).endRequest s ticket.id
    ((ticket.result report answer).map .fields)

/-- What comes of a request at a component that is no desk. It has an empty response to
everything if it can be asked for one, and it has to be able to drop the request. -/
def undesked (w : World) (result : Except Error Report) : Except Error Answer :=
  let demand (method : String) : Except Error Unit :=
    if (List.lookup (ActionRef.mk requestingName method) w.scripts).isSome then .ok ()
    else .error (Gateway.noMethod method)
  let answer := result.bind fun _ => (demand "response_of").map fun () => .fields []
  (demand "discard").bind fun () => answer

/-- After the run of a cascade. -/
def afterRun (w : World) (s : Strand) (result : Except Error Report) : Purpose → World
  | .report => w.finish s (result.map .report)
  | .undesked => w.finish s (w.undesked result)
  | .request ticket =>
    match result with
    | .error e => w.endRequest s ticket.id (.error e)
    | .ok report =>
      match ticket.afterRun report (w.responseTo ticket.id) w.now with
      | .leaves answer => w.leave s ticket report answer
      | .listens =>
        (w.put { s.awake with task := .listening ticket report }).later ticket.deadline
          (s.number, .news 1)

/-- A run and the engine after some work of the strand. -/
def adopt (w : World) (s : Strand) (turn : Turn) (purpose : Purpose) : World :=
  let w := ({ w with engine := turn.engine }).emitAll turn.events
  w.goOn s (.running turn.run purpose)

/-- Waits for what a run waits for. -/
def awaitFor (w : World) (s : Strand) (task : Task) : Wait → World
  | .clause rule frames ends =>
    let code := Where.run (rule.enrich.getD []) (.frames frames)
    w.await s task (code.bind fun returned => pure (.returned returned)) ends
  | .component action input ends =>
    w.await s task ((Activity.ask action input).bind fun value => pure (.value value)) ends
  | .repository invocations =>
    match task with
    | .running run purpose =>
      let (w, result) := w.save invocations
      w.adopt s (run.resume w.engine w.now (.repository result)) purpose
    | _ => w
end World

end Choreography.Simulation
