import Choreography.Cascade
import Choreography.Desk
import Choreography.Passthrough

/-! Requests from outside. A request on a passthrough route is one call. Any other is
taken in at the desk and begins a cascade, and the first response that some rule
gives to it is the answer. Nobody waits longer than the time limit, and when the
caller has his answer, or none, the request is no longer pending. -/

namespace Choreography

structure Gateway where
  policy : Policy := {}
  limit : Seconds := .binary (.ofInt 15)

/-- The action by which a request enters. -/
def requestAction : ActionRef := ⟨requestingName, "request"⟩

namespace Gateway

/-- Where a request goes. -/
inductive Way where
  /-- Straight to an operation. -/
  | direct (target : ActionRef)
  /-- Past the rules, but to no operation. -/
  | nowhere
  | throughEngine
deriving DecidableEq

def way (g : Gateway) (path : String) : Way :=
  if g.policy.isPassthrough path then
    match targetOf? path with
    | some target => .direct target
    | none => .nowhere
  else .throughEngine

def noTarget (path : String) : Error :=
  .described (.of (.unknownOperation path "*") { path := some path })

def directNote (target : ActionRef) (path : String) : LogRecord where
  level := .debug
  logger := "concord.services.request_gateway"
  message := "Passthrough " ++ target.text
  extra := [("path", .text path)]

/-- The body that the answer of an operation makes. -/
def directBody (target : ActionRef) (path : String) : Except Error Value → Except Error Fields
  | .ok .null => .ok []
  | .ok (.map fields) => .ok fields
  | .ok other => .ok [("result", other)]
  | .error (.plain .type text) =>
    .error (.described (.of (.invalidInvocation target.text text) { path := some path }))
  | .error e => .error e

/-- What is taken in for a request: its parameters, and its path before all. -/
def input (path : String) (params : Fields) : Fields := Fields.set params "path" (.text path)

/-- Nothing takes requests. -/
def missing : Error := .plain .attribute "'NoneType' object has no attribute 'handle'"

/-- A method that the component in the place of the desk does not have. -/
def noMethod (method : String) : Error :=
  .plain .attribute s!"'{requestingName}' object has no attribute '{method}'"

/-- A method in the place of the desk's that answers at once and cannot be awaited. -/
def notAwaitable : Error := .plain .type "object dict can't be used in 'await' expression"

/-- Whether what was answered when a request was taken in says which request it is. -/
def takenIn : Value → Except Error Fields
  | .map fields =>
    if Fields.has fields "request" then .ok fields else .error (.missingKey "request")
  | .list _ => .error (.plain .type "list indices must be integers or slices, not str")
  | .text _ => .error (.plain .type "string indices must be integers, not 'str'")
  | v => .error (.plain .type s!"'{v.typeName}' object is not subscriptable")

/-- A request that was taken in for a caller, who waits for the answer until a moment. -/
structure Ticket where
  gateway : Gateway
  id : String
  path : String
  deadline : Instant

/-- The ticket of the request that a desk took in last. -/
def ticket (g : Gateway) (desk : Desk) (path : String) (now : Instant) : Ticket where
  gateway := g
  id := requestId desk.taken
  path := path
  deadline := now + g.limit.nanoseconds

namespace Ticket

/-- What the caller does when the cascade of his request has come to its end. -/
inductive Verdict where
  /-- He leaves, perhaps with an answer. -/
  | leaves (answer : Option Fields)
  /-- He listens for an answer. -/
  | listens

/-- A response that is there is the answer. One that is not may still come out of another
cascade, if there is time left, but not when the cascade of the request was stopped. -/
def afterRun (t : Ticket) (report : Report) (response : Option Fields) (now : Instant) : Verdict :=
  match response with
  | some body => .leaves (some body)
  | none => if report.drained ∧ now < t.deadline then .listens else .leaves none

/-- At the deadline it is too late for a response. -/
def afterListening (t : Ticket) (response : Option Fields) (now : Instant) : Option Fields :=
  if now < t.deadline then response else none

def unansweredNote (t : Ticket) (report : Report) : LogRecord where
  level := .warning
  logger := "concord.services.request_gateway"
  message :=
    s!"Request {t.id} to {t.path} not answered (cascade {report.root} {report.state.name})"
  extra := [("path", .text t.path), ("cascade_root", .int report.root)]

def unanswered (t : Ticket) (report : Report) : Error :=
  .described (.of (.unanswered t.gateway.limit.value)
    { path := some t.path, root := some report.root })

/-- What the caller leaves with. -/
def result (t : Ticket) (report : Report) : Option Fields → Except Error Fields
  | some body => .ok body
  | none => .error (t.unanswered report)

/-- What is noted when the caller leaves. -/
def notes (t : Ticket) (report : Report) : Option Fields → List LogRecord
  | some _ => []
  | none => [t.unansweredNote report]

end Ticket

end Gateway

end Choreography
