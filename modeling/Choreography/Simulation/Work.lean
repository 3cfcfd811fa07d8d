import Choreography.Simulation.Jobs

/-! What a strand does when it is its turn: a step of its task, a step of the code that
runs on its behalf, or what follows when a wait is over. -/

namespace Choreography.Simulation.World

/-- One step of a strand whose task waits for no code. -/
def work (w : World) (s : Strand) : World :=
  match s.task with
  | .waiting job => w.beginJob s job
  | .running run purpose =>
    match run.wait? w.engine with
    | some wait => w.awaitFor s s.task wait
    | none =>
      match run.point with
      | .ended result => w.afterRun s result purpose
      | _ => w.adopt s (run.step w.engine w.now) purpose
  | .enriching work cascade stage =>
    match stage with
    | .batch frames ends => w.awaitFor s s.task (.clause work.rule frames ends)
    | .single frame _ _ ends => w.awaitFor s s.task (.clause work.rule [frame] ends)
    | .finished frames => w.finish s (.ok (.returned (.frames frames)))
    | .raised error => w.finish s (.error error)
    | _ =>
      let turn := work.step w.now cascade stage
      (w.emitAll turn.events).goOn s (.enriching work turn.cascade turn.stage)
  | .dispatching work cascade stage =>
    match stage with
    | .calling action input _ _ ends => w.awaitFor s s.task (.component action input ends)
    | .finished produced => w.finish s (.ok (.ids (produced.map (·.id))))
    | .raised error => w.finish s (.error error)
    | _ =>
      let turn := work.step w.engine.catalogue w.now cascade w.engine.log stage
      let w := { w with engine := { w.engine with log := turn.log } }
      (w.emitAll turn.events).goOn s (.dispatching work turn.cascade turn.stage)
  | _ => w

/-- The wait of a strand is over. -/
def conclude (w : World) (s : Strand) (outcome : Outcome Spoken) : World :=
  let w := w.quiet s.number
  let s := s.awake
  let answered := outcome.map Spoken.value?
  match s.task with
  | .boundary action input limit =>
    match CallEnd.ofResult action answered.unbounded with
    | .error e => w.finish s (.error e)
    | .ok call =>
      let w := w.emitAll ((call.fault? CallEnd.boundary).map Event.fault).toList
      match w.engine.record action input call.output with
      | .error e => w.finish s (.error e)
      | .ok (engine, root) =>
        (({ w with engine }).emit (.logged root)).beginRun s root limit .report
  | .running run purpose =>
    let reply := match run.point with
      | .enriching .. => Reply.clause (outcome.map Spoken.returned?)
      | _ => Reply.component answered
    w.adopt s (run.resume w.engine w.now reply) purpose
  | .direct target path =>
    w.finish s ((Gateway.directBody target path answered.unbounded).map .fields)
  | .takingIn gateway input =>
    match answered.unbounded >>= Gateway.takenIn with
    | .error e => w.finish s (.error e)
    | .ok output => w.beginRequestRun s gateway input output .undesked
  | .listening ticket report =>
    match outcome with
    | .abandoned => w.endRequest s ticket.id (.error (.plain .cancelled ""))
    | _ => w.leave s ticket report (ticket.afterListening (w.responseTo ticket.id) w.now)
  | .enriching work cascade stage =>
    let turn := work.resume w.now cascade (outcome.map Spoken.returned?) stage
    (w.emitAll turn.events).goOn s (.enriching work turn.cascade turn.stage)
  | .dispatching work cascade stage =>
    let turn := work.resume w.now cascade w.engine.log answered stage
    let w := { w with engine := { w.engine with log := turn.log } }
    (w.emitAll turn.events).goOn s (.dispatching work turn.cascade turn.stage)
  | .performing action cascade context =>
    let (result, cascade) := match cascade with
      | none => (answered.unbounded, none)
      | some c =>
        let (result, c) := c.endWait w.now answered
        (result, some c)
    match CallEnd.ofResult action result with
    | .error e => w.finish { s with task := .performing action cascade context } (.error e)
    | .ok call =>
      let fault? := call.fault? context
      let cascade := cascade.map fun c => (fault?.map c.recordFault).getD c
      (w.emitAll (fault?.map Event.fault).toList).finish
        { s with task := .performing action cascade context } (.ok (.fields call.output))
  | .speaking =>
    w.finish s (outcome.unbounded.map fun spoken => match spoken with
      | .nothing => .nothing
      | .returned r => .returned r
      | .value v => .value v)
  | .waiting _ | .done _ => w.finish s (.error (.plain .cancelled ""))

/-- One step of the code that runs on behalf of a strand. What code with turns of its own
comes to is news for the strand. -/
def speakOn (w : World) (s : Strand) : Activity Spoken → World
  | .done result =>
    if s.isApart then (w.put { s with code := none, said := some result }).last (s.number, .news 1)
    else w.conclude s (.finished result)
  | .sleep length next =>
    let w := w.put { s with code := some next }
    if length.nanoseconds ≤ 0 then w.last s.codeTurn
    else w.later (w.now + length.nanoseconds) (s.number, .rested)
  | .draw next =>
    (({ w with drawn := w.drawn + 1 }).put { s with code := some (next w.drawn) }).first s.codeTurn
  | .cancel roots next =>
    let w := w.cancelAll roots
    match w.strand? s.number with
    | some s => (w.put { s with code := some next }).first s.codeTurn
    | none => w
  | .find action next =>
    let found := (w.engine.catalogue.operation action).map fun _ => ()
    (w.put { s with code := some (next found) }).first s.codeTurn
  | .call action input next =>
    let (w, code) := match w.engine.catalogue.operation action with
      | .error e => (w, Activity.raise e)
      | .ok _ => w.codeOf action input
    match w.strand? s.number with
    | some s => (w.put { s with code := some (code.attempt.bind next) }).first s.codeTurn
    | none => w

end Choreography.Simulation.World
