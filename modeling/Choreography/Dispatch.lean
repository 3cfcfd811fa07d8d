import Choreography.Catalogue
import Choreography.Enrichment

/-! Turning a frame into calls. Every then-pattern of the rule is called in order,
with literals and bound variables as its input, and logged with the frame's
support as its causes. A call that goes wrong is a fault and an error output, and
the calls after it still happen. A call too deep in its cascade is not made. -/

namespace Choreography

/-- The output that is logged for a call, and what went wrong if anything did. -/
structure CallEnd where
  output : Fields
  rejection : Option Rejection := none

namespace CallEnd

def failing (text : String) (rejection : Rejection) : CallEnd :=
  { output := [(errorField, .text text)], rejection := some rejection }

def unregistered (action : ActionRef) : CallEnd :=
  failing (action.text ++ " is not registered") { what := .notRegistered action }

/-- What a call comes to. Cancellations are passed on, other errors are not. -/
def ofResult (action : ActionRef) : Except Error Value → Except Error CallEnd
  | .ok .null => .ok { output := [] }
  | .ok (.map fields) => .ok { output := fields }
  | .ok other =>
    .ok (failing (action.text ++ " returned an invalid result")
      { what := .callReturned action other.typeName })
  | .error (.plain .cascadeCancelled text) => .error (.plain .cascadeCancelled text)
  | .error (.plain .cancelled text) => .error (.plain .cancelled text)
  | .error e =>
    .ok (failing (action.text ++ " failed")
      { what := .callRaised action e.name e.text, source := some e.name })

def fault? (e : CallEnd) (context : Context) : Option Failure :=
  e.rejection.map fun r => .of (.mishap r.what r.source) context

/-- Where a call from outside happens. No cascade has begun yet. -/
def boundary : Context := { debug := some (.map [("boundary", .bool true)]) }

end CallEnd

/-- How far the dispatch of one frame has come. -/
inductive Dispatching where
  | next (left : List Pattern) (produced : List Invocation)
  /-- Waits for a component. -/
  | calling (action : ActionRef) (input : Fields) (left : List Pattern)
      (produced : List Invocation) (ends : Option Instant)
  | finished (produced : List Invocation)
  | raised (error : Error)

/-- The frame to dispatch, for which rule and how deep. -/
structure Dispatch where
  rule : Rule
  frame : Frame
  depth : Int

/-- A dispatch after some work. -/
structure DispatchTurn where
  stage : Dispatching
  cascade : Cascade
  log : InvocationLog
  events : List Event := []

namespace Dispatch

/-- How deep the calls for a support will be. -/
def depthOf (log : InvocationLog) (support : List InvocationId) : Except Error Int :=
  match support.mapM log.get with
  | .error e => .error (.described e)
  | .ok [] => .error (.plain .value "max() arg is an empty sequence")
  | .ok causes => .ok (1 + (causes.foldr (fun i deepest => max i.depth deepest) 0 : Nat))

/-- The fault of a frame that is too deep. -/
def tooDeep (d : Dispatch) (limit : Int) (c : Cascade) : Failure :=
  .of (.tooDeep (.int limit))
    { rule := some d.rule.name
      invocation := d.frame.support.getLast?
      root := some c.root
      depth := some d.depth }

/-- Where the calls of this dispatch happen. -/
def context (d : Dispatch) (c : Cascade) : Context where
  rule := some d.rule.name
  root := some c.root
  depth := some d.depth
  debug := some (.map [("support", .list (d.frame.support.map .int))])

def dispatchedNote (d : Dispatch) (c : Cascade) (i : Invocation) : LogRecord where
  level := .debug
  logger := "concord.services.dispatcher"
  message := s!"Dispatched {i.action.text} from {d.rule.name}"
  extra :=
    [("rule", .text d.rule.name), ("invocation_id", .int i.id),
     ("cascade_root", .int c.root), ("depth", .ofNat i.depth)]

/-- Logs a call that has come to its end. -/
def conclude (d : Dispatch) (c : Cascade) (log : InvocationLog) (action : ActionRef)
    (input : Fields) (left : List Pattern) (produced : List Invocation) (call : CallEnd) :
    DispatchTurn :=
  let fault? := call.fault? (d.context c)
  let cascade := (fault?.map c.recordFault).getD c
  let told : List Event := (fault?.map Event.fault).toList
  match log.append action input call.output d.frame.support with
  | .error e => { stage := .raised (.described e), cascade, log, events := told }
  | .ok (log, invocation) =>
    { stage := .next left (produced ++ [invocation])
      cascade
      log
      events := told ++ [.logged invocation, .note (d.dispatchedNote c invocation)] }

/-- Begins a dispatch, unless it would be deeper than the limit. -/
def start (d : Dispatch) (limit : Int) (c : Cascade) (log : InvocationLog) : DispatchTurn :=
  if limit < d.depth then
    let fault := d.tooDeep limit c
    { stage := .finished []
      cascade := { c with depthExceeded := true }.recordFault fault
      log
      events := [.fault fault] }
  else { stage := .next d.rule.thens [], cascade := c, log }

/-- One step of a dispatch that waits for nothing. -/
def step (d : Dispatch) (catalogue : Catalogue) (now : Instant) (c : Cascade)
    (log : InvocationLog) : Dispatching → DispatchTurn
  | .next [] produced => { stage := .finished produced, cascade := c, log }
  | .next (p :: left) produced =>
    let input := d.frame.resolve p.inputs
    if catalogue.has p.action then
      match c.beginWait now with
      | (.error stop, c) => { stage := .raised stop, cascade := c, log }
      | (.ok (), c) =>
        { stage := .calling p.action input left produced (c.waitEnd none now), cascade := c, log }
    else d.conclude c log p.action input left produced (.unregistered p.action)
  | stage => { stage, cascade := c, log }

/-- Goes on after a component has answered, or has not. -/
def resume (d : Dispatch) (now : Instant) (c : Cascade) (log : InvocationLog)
    (outcome : Outcome Value) : Dispatching → DispatchTurn
  | .calling action input left produced _ =>
    let (result, c) := c.endWait now outcome
    match CallEnd.ofResult action result with
    | .error e => { stage := .raised e, cascade := c, log }
    | .ok call => d.conclude c log action input left produced call
  | stage => { stage, cascade := c, log }

end Dispatch

end Choreography
