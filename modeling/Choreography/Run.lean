import Choreography.Engine

/-! One run of a cascade. A run takes the invocations of its queue one by one, and for
each of them the rules that listen for it, one by one. For each rule it matches,
lets the where-clause have its say, and dispatches the frames that are left.
Between two waits it is not interrupted. -/

namespace Choreography

/-- One rule, taken for one invocation, with the rules that follow it. -/
structure Site where
  trigger : Invocation
  rule : Rule
  later : List Rule

/-- Where a run stands. -/
inductive Point where
  /-- Before the next invocation. -/
  | next
  /-- Before the next rule. -/
  | rules (trigger : Invocation) (left : List Rule)
  | enriching (site : Site) (stage : Enriching)
  /-- Before the next frame, with the firings that this rule has claimed. -/
  | frames (site : Site) (left : Frames) (claimed : List Firing)
  | dispatching (site : Site) (left : Frames) (claimed : List Firing) (dispatch : Dispatch)
      (stage : Dispatching)
  /-- Waits for the repository. -/
  | saving
  | ended (result : Except Error Report)

structure Run where
  cascade : Cascade
  point : Point

/-- What a run waits for, until a moment if there is a limit. -/
inductive Wait where
  | clause (rule : Rule) (frames : Frames) (ends : Option Instant)
  | component (action : ActionRef) (input : Fields) (ends : Option Instant)
  | repository (invocations : List Invocation)

/-- What a run was waiting for. -/
inductive Reply where
  | clause (outcome : Outcome Returned)
  | component (outcome : Outcome Value)
  | repository (result : Except Error Unit)

/-- A run and its engine after some work. -/
structure Turn where
  engine : Engine
  run : Run
  events : List Event := []

namespace Enrichment

/-- The limit set for the engine's where-clauses. -/
def ofSite (e : Engine) (s : Site) : Enrichment :=
  { rule := s.rule, trigger := s.trigger, limit := e.limits.enrichment }

end Enrichment

namespace Run

/-- A run of the cascade of an invocation. -/
def start (e : Engine) (number : Nat) (invocation : Invocation) (limit : Option Seconds)
    (now : Instant) : Engine × Run :=
  let cascade := { Cascade.start invocation.root limit now with queue := [invocation] }
  (e.activate cascade.root number, { cascade, point := .next })

/-- What the run waits for, if it waits. -/
def wait? (e : Engine) (r : Run) : Option Wait :=
  match r.point with
  | .enriching s (.batch frames ends) => some (.clause s.rule frames ends)
  | .enriching s (.single frame _ _ ends) => some (.clause s.rule [frame] ends)
  | .dispatching _ _ _ _ (.calling action input _ _ ends) => some (.component action input ends)
  | .saving => some (.repository (e.log.cascade r.cascade.root))
  | _ => none

def hasEnded (r : Run) : Bool :=
  match r.point with
  | .ended _ => true
  | _ => false

def cancelledNote (c : Cascade) : LogRecord where
  level := .warning
  logger := "concord.services.sync_engine"
  message := s!"Cascade {c.root} cancelled with {c.queue.length} invocation(s) unprocessed"
  extra := [("cascade_root", .int c.root)]

def finishedNote (c : Cascade) : LogRecord where
  level := .info
  logger := "concord.services.sync_engine"
  message := s!"Cascade {c.root} {c.state.name}: {c.produced.length} dispatched, " ++
    s!"{c.faults.length} fault(s)"
  extra := [("cascade_root", .int c.root)]

/-- Leaves the work loop because of an error. A cancelled cascade still has a report;
any other error goes to the caller. -/
def leave (e : Engine) (c : Cascade) : Error → Turn
  | .plain .cascadeCancelled _ =>
    let c := { c with state := .cancelled }
    { engine := e.deactivate c.root
      run := { cascade := c, point := .ended (.ok c.report) }
      events := [.note (cancelledNote c), .note (finishedNote c)] }
  | .plain .cancelled text =>
    let c := { c.cancel with state := .cancelled }
    { engine := e.deactivate c.root
      run := { cascade := c, point := .ended (.error (.plain .cancelled text)) } }
  | error =>
    { engine := e.deactivate c.root, run := { cascade := c, point := .ended (.error error) } }

/-- Leaves the work loop because the queue is empty. -/
def drain (e : Engine) (c : Cascade) : Turn :=
  let c := { c with state := .drained }
  { engine := e.deactivate c.root
    run := { cascade := c, point := .saving }
    events := [.note (finishedNote c)] }

/-- Matches the next rule, and begins its where-stage if there is something to fire. -/
def takeRule (e : Engine) (now : Instant) (c : Cascade) (s : Site) : Turn :=
  match c.beginWait now with
  | (.error stop, c) => leave e c stop
  | (.ok (), c) =>
    match e.unfired s.rule s.trigger with
    | [] =>
      { engine := e
        run := { cascade := { c with state := .matching }, point := .rules s.trigger s.later } }
    | frames =>
      let turn := (Enrichment.ofSite e s).start frames { c with state := .enriching } now
      { engine := e
        run := { cascade := turn.cascade, point := .enriching s turn.stage }
        events := turn.events }

/-- Takes the next frame: a support that has fired before is passed over, except when
it was this very evaluation that claimed it. -/
def takeFrame (e : Engine) (now : Instant) (c : Cascade) (s : Site) (frame : Frame)
    (left : Frames) (claimed : List Firing) : Turn :=
  match c.beginWait now with
  | (.error stop, c) => leave e c stop
  | (.ok (), c) =>
    let firing : Firing := ⟨s.rule.name, frame.support⟩
    if claimed.contains firing = false ∧ e.hasFired firing then
      { engine := e, run := { cascade := c, point := .frames s left claimed } }
    else
      let e := if claimed.contains firing then e else e.claim c.root firing
      let claimed := if claimed.contains firing then claimed else claimed ++ [firing]
      match Dispatch.depthOf e.log frame.support with
      | .error error => leave e c error
      | .ok depth =>
        let dispatch : Dispatch := { rule := s.rule, frame, depth }
        let turn := dispatch.start e.limits.depth c e.log
        { engine := { e with log := turn.log }
          run := { cascade := turn.cascade, point := .dispatching s left claimed dispatch turn.stage }
          events := turn.events }

/-- After the where-stage: dispatches what is left of the frames. -/
def afterEnriching (e : Engine) (s : Site) (turn : StageTurn Enriching) : Turn :=
  match turn.stage with
  | .finished frames =>
    { engine := e
      run :=
        { cascade := { turn.cascade with state := .dispatching }, point := .frames s frames [] }
      events := turn.events }
  | .raised error =>
    let left := leave e turn.cascade error
    { left with events := turn.events ++ left.events }
  | stage =>
    { engine := e
      run := { cascade := turn.cascade, point := .enriching s stage }
      events := turn.events }

/-- After a frame: what it produced is reported and will be processed. -/
def afterDispatching (e : Engine) (s : Site) (left : Frames) (claimed : List Firing)
    (d : Dispatch) (turn : DispatchTurn) : Turn :=
  let e := { e with log := turn.log }
  match turn.stage with
  | .finished produced =>
    let c := turn.cascade
    { engine := e
      run :=
        { cascade :=
            { c with produced := c.produced ++ produced.map (·.id), queue := c.queue ++ produced }
          point := .frames s left claimed }
      events := turn.events }
  | .raised error =>
    let left := leave e turn.cascade error
    { left with events := turn.events ++ left.events }
  | stage =>
    { engine := e
      run := { cascade := turn.cascade, point := .dispatching s left claimed d stage }
      events := turn.events }

/-- One step of a run that waits for nothing. -/
def step (e : Engine) (now : Instant) (r : Run) : Turn :=
  let c := r.cascade
  match r.point with
  | .next =>
    match c.queue with
    | [] => drain e c
    | invocation :: rest =>
      { engine := e
        run :=
          { cascade := { c with queue := rest }
            point := .rules invocation (e.rules.rulesFor invocation.action) } }
  | .rules _ [] => { engine := e, run := { cascade := { c with state := .pending }, point := .next } }
  | .rules trigger (rule :: later) => takeRule e now c { trigger, rule, later }
  | .enriching s stage => afterEnriching e s ((Enrichment.ofSite e s).step now c stage)
  | .frames s [] _ => { engine := e, run := { cascade := c, point := .rules s.trigger s.later } }
  | .frames s (frame :: left) claimed => takeFrame e now c s frame left claimed
  | .dispatching s left claimed d stage =>
    afterDispatching e s left claimed d (d.step e.catalogue now c e.log stage)
  | .saving | .ended _ => { engine := e, run := r }

/-- Goes on after a wait. -/
def resume (e : Engine) (now : Instant) (r : Run) (reply : Reply) : Turn :=
  let c := r.cascade
  match r.point, reply with
  | .enriching s stage, .clause outcome =>
    afterEnriching e s ((Enrichment.ofSite e s).resume now c outcome stage)
  | .dispatching s left claimed d stage, .component outcome =>
    afterDispatching e s left claimed d (d.resume now c e.log outcome stage)
  | .saving, .repository (.ok ()) =>
    let (engine, events) := e.retain c.root
    { engine, run := { cascade := c, point := .ended (.ok c.report) }, events }
  | .saving, .repository (.error error) =>
    { engine := e, run := { cascade := c, point := .ended (.error error) } }
  | _, _ => { engine := e, run := r }

end Run

end Choreography
