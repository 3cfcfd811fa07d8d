import Choreography.Log

/-! A cascade is everything that follows from one invocation. While it runs it holds
the invocations still to be processed, a token that stops it, and what its report
will say. -/

namespace Choreography

inductive CascadeState where
  | pending
  | matching
  | enriching
  | dispatching
  | drained
  | cancelled
deriving DecidableEq

def CascadeState.name : CascadeState → String
  | .pending => "pending"
  | .matching => "matching"
  | .enriching => "enriching"
  | .dispatching => "dispatching"
  | .drained => "drained"
  | .cancelled => "cancelled"

def CascadeState.ofName? (name : String) : Option CascadeState :=
  [.pending, .matching, .enriching, .dispatching, .drained, .cancelled].find? (·.name == name)

/-- What a caller is told about a cascade. -/
structure Report where
  root : InvocationId
  state : CascadeState
  invocations : List InvocationId
  faults : List Failure
  depthExceeded : Bool

def Report.drained (r : Report) : Bool := r.state = .drained

/-- What a report says of one fault. -/
def Failure.reported (f : Failure) : Value :=
  .map [f.code, f.message, f.rule]

def Report.toFields (r : Report) : Fields :=
  [("root", .int r.root), ("state", .text r.state.name),
   ("invocations", .list (r.invocations.map .int)),
   ("faults", .list (r.faults.map Failure.reported)), ("depth_exceeded", .bool r.depthExceeded)]

structure Cascade where
  root : InvocationId
  deadline : Option Instant := none
  /-- The token: whether the cascade is to stop. -/
  cancelled : Bool := false
  state : CascadeState := .pending
  queue : List Invocation := []
  produced : List InvocationId := []
  faults : List Failure := []
  depthExceeded : Bool := false

namespace Cascade

/-- A cascade that may run for a limited time from now on. -/
def start (root : InvocationId) (limit : Option Seconds) (now : Instant) : Cascade :=
  { root, deadline := limit.map fun l => now + l.nanoseconds }

def cancel (c : Cascade) : Cascade := { c with cancelled := true }

/-- The time that is left, none if there is no limit. -/
def remaining (c : Cascade) (now : Instant) : Option Int :=
  c.deadline.map fun deadline => max 0 (deadline - now)

/-- Notices a deadline that has passed. -/
def check (c : Cascade) (now : Instant) : Cascade :=
  if c.remaining now = some 0 then c.cancel else c

def recordFault (c : Cascade) (f : Failure) : Cascade := { c with faults := c.faults ++ [f] }

def report (c : Cascade) : Report where
  root := c.root
  state := c.state
  invocations := c.produced
  faults := c.faults
  depthExceeded := c.depthExceeded

/-- The error with which a cancelled cascade leaves its work. -/
def stopped (c : Cascade) : Error := .plain .cascadeCancelled s!"cascade {c.root} cancelled"

end Cascade

end Choreography
