import Choreography.Simulation.World

/-! How strands begin their jobs. -/

namespace Choreography.Simulation.World

/-- The strand waits for an operation that is called at once. -/
def ask (w : World) (s : Strand) (task : Task) (action : ActionRef) (input : Fields) : World :=
  w.speak s task ((Activity.ask action input).bind fun value => pure (.value value))

/-- The strand waits for a method of the component in the place of the desk. -/
def askInstead (w : World) (s : Strand) (task : Task) (method : String) (input : Fields) : World :=
  let action : ActionRef := ⟨requestingName, method⟩
  match List.lookup action w.scripts with
  | none => w.finish s (.error (Gateway.noMethod method))
  | some script =>
    if script.blocking then w.finish s (.error Gateway.notAwaitable) else w.ask s task action input

/-- Looks a request up at the desk. -/
def beginLookUp (w : World) (s : Strand) (request : Value) : World :=
  let method := "get_pending"
  let input : Fields := [("request", request)]
  match w.desk? requestingName with
  | some _ => w.ask s .speaking ⟨requestingName, method⟩ input
  | none => w.askInstead s .speaking method input

/-- Calls an action whose invocation will be the root of a cascade. -/
def beginInvoke (w : World) (s : Strand) (action : Except Error ActionRef) (input : Fields)
    (limit : Option Seconds) : World :=
  match action >>= w.engine.catalogue.invocable with
  | .error e => w.finish s (.error e)
  | .ok operation => w.ask s (.boundary operation.ref input limit) operation.ref input

/-- Runs the cascade of an invocation, as the log knows it now or knew it once. -/
def beginProcess (w : World) (s : Strand) (id : InvocationId) (held : Bool) (limit : Option Seconds) :
    World :=
  let known : Except Error Invocation :=
    if held then
      ((w.history.find? (·.id == id)).map .ok).getD (.error (.plain .key (toString id)))
    else (w.engine.log.get id).mapError .described
  match known with
  | .ok invocation => w.beginRun s invocation limit .report
  | .error error => w.finish s (.error error)

/-- Logs a request that was taken in, and begins its cascade. -/
def beginRequestRun (w : World) (s : Strand) (gateway : Gateway) (input output : Fields)
    (purpose : Purpose) : World :=
  match w.engine.record requestAction input output with
  | .error e => w.finish s (.error e)
  | .ok (engine, root) =>
    (({ w with engine }).emit (.logged root)).beginRun s root (some gateway.limit) purpose

/-- Takes a request in and begins its cascade. -/
def beginRequest (w : World) (s : Strand) (gateway : Gateway) (path : String) (params : Fields) :
    World :=
  let input := Gateway.input path params
  match w.desk? requestingName with
  | some desk =>
    match desk.call "request" input with
    | (_, .error e) => w.finish s (.error e)
    | (desk, .ok output) =>
      (w.setDesk requestingName desk).beginRequestRun s gateway input (output.fields?.getD [])
        (.request (gateway.ticket desk path w.now))
  | none =>
    w.askInstead s (.takingIn gateway input) requestAction.operation input

/-- Sends a request where the policy says. -/
def beginHandle (w : World) (s : Strand) (path : String) (params : Fields) : World :=
  let path := normalRoute path
  match w.gateway with
  | none => w.finish s (.error Gateway.missing)
  | some gateway =>
    match gateway.way path with
    | .nowhere => w.finish s (.error (Gateway.noTarget path))
    | .throughEngine => w.beginRequest s gateway path params
    | .direct target =>
      match w.engine.catalogue.operation target with
      | .error e => w.finish s (.error e)
      | .ok _ =>
        (w.emit (.note (Gateway.directNote target path))).ask s (.direct target path) target params

/-- Dispatches one frame of a rule. -/
def beginDispatch (w : World) (s : Strand) (rule : Rule) (frame : Frame) (cascade : Cascade) :
    World :=
  match Dispatch.depthOf w.engine.log frame.support with
  | .error e => w.finish { s with cascade := some cascade } (.error e)
  | .ok depth =>
    let work : Dispatch := { rule, frame, depth }
    let turn := work.start w.engine.limits.depth cascade w.engine.log
    (w.emitAll turn.events).goOn s (.dispatching work turn.cascade turn.stage)

/-- Calls an action for a cascade that may be stopped, or for nobody. -/
def beginPerform (w : World) (s : Strand) (action : ActionRef) (input : Fields)
    (cascade : Option Cascade) (context : Context) : World :=
  if w.engine.catalogue.has action then
    match cascade with
    | none => w.ask s (.performing action cascade context) action input
    | some c =>
      match c.beginWait w.now with
      | (.error stop, c) => w.finish { s with cascade := some c } (.error stop)
      | (.ok (), c) =>
        w.await s (.performing action (some c) context)
          ((Activity.ask action input).bind fun value => pure (.value value))
          (c.waitEnd none w.now)
  else
    let call := CallEnd.unregistered action
    let fault? := call.fault? context
    let cascade := cascade.map fun c => (fault?.map c.recordFault).getD c
    (w.emitAll (fault?.map Event.fault).toList).finish { s with cascade }
      (.ok (.fields call.output))

/-- Registers a component. -/
def registerComponent (w : World) (s : Strand) (name : String) (component : Component) : World :=
  match w.engine.catalogue.register name component.methods with
  | .error e => w.finish s (.error e)
  | .ok catalogue =>
    let w := { w with engine := { w.engine with catalogue } }
    let w := w.emit (.note (Catalogue.registeredNote name component.methods))
    (w.install name component).finish s
      (.ok (.operations (Catalogue.offered name component.methods)))

/-- Begins a job. -/
def beginJob (w : World) (s : Strand) (job : Job) : World :=
  match job with
  | .invoke action input limit => w.beginInvoke s action input limit
  | .process id held limit => w.beginProcess s id held limit
  | .handle path params => w.beginHandle s path params
  | .call action input =>
    match action >>= w.engine.catalogue.operation with
    | .error e => w.finish s (.error e)
    | .ok operation => w.ask s .speaking operation.ref input
  | .lookUp request => w.beginLookUp s request
  | .sleep length => w.speak s .speaking (.sleep length (pure .nothing))
  | .clause steps given =>
    w.speak s .speaking
      ((Where.run steps given).bind fun returned => pure (.returned returned))
  | .enrich work frames cascade =>
    let turn := work.start frames cascade w.now
    (w.emitAll turn.events).goOn s (.enriching work turn.cascade turn.stage)
  | .dispatch rule frame cascade => w.beginDispatch s rule frame cascade
  | .perform action input cascade context =>
    match action with
    | .error e => w.finish { s with cascade } (.error e)
    | .ok action => w.beginPerform s action input cascade context
  | .record action input output =>
    match action >>= fun action => w.engine.record action input output with
    | .error e => w.finish s (.error e)
    | .ok (engine, invocation) =>
      (({ w with engine }).emit (.logged invocation)).finish s (.ok (.invocation invocation))
  | .cancel root =>
    let running := w.engine.isRunning root
    (w.cancelRoot root).finish s (.ok (.flag running))
  | .isRunning root => w.finish s (.ok (.flag (w.engine.isRunning root)))
  | .cascade root => w.finish s (.ok (.ids ((w.engine.log.cascade root).map (·.id))))
  | .roots => w.finish s (.ok (.counted w.engine.log.size w.engine.log.roots))
  | .validate =>
    let (engine, notes, result) := w.engine.validate
    (({ w with engine }).emitAll (notes.map .note)).finish s (result.map fun () => .nothing)
  | .registerRule rule =>
    match rule >>= fun rule => (w.engine.rules.register rule).map fun rules => (rules, rule) with
    | .error e => w.finish s (.error e)
    | .ok (rules, rule) =>
      ({ w with engine := { w.engine with rules } }).finish s (.ok (.name rule.name))
  | .registerComponent name component => w.registerComponent s name component

end Choreography.Simulation.World
