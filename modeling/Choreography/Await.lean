import Choreography.Cascade

/-! Waiting for a task on behalf of a cascade. A wait ends when the task finishes,
when its limit or the cascade's deadline passes, or when the cascade is cancelled,
whichever comes first. -/

namespace Choreography

/-- How a wait ended. -/
inductive Outcome (α : Type) where
  | finished (result : Except Error α)
  /-- The time was up, or the token was set. -/
  | woken
  /-- The one who waited was told to give up. -/
  | abandoned

namespace Outcome

/-- The same outcome, with its result read in another way. -/
def map (f : α → β) : Outcome α → Outcome β
  | .finished result => .finished (result.map f)
  | .woken => .woken
  | .abandoned => .abandoned

/-- The result of a wait that nothing but the caller can end. -/
def unbounded : Outcome α → Except Error α
  | .finished result => result
  | .woken => .error (.plain .taskTimeout "")
  | .abandoned => .error (.plain .cancelled "")

end Outcome

/-- A bound on a wait, the tighter of two. -/
def earlier : Option Instant → Option Instant → Option Instant
  | none, b => b
  | a, none => a
  | some a, some b => some (min a b)

namespace Cascade

/-- When a wait that begins now ends by itself. -/
def waitEnd (c : Cascade) (limit : Option Seconds) (now : Instant) : Option Instant :=
  earlier (limit.map fun l => now + max 0 l.nanoseconds) ((c.remaining now).map (now + ·))

/-- Begins a wait: a cascade that is to stop waits for nothing. -/
def beginWait (c : Cascade) (now : Instant) : Except Error Unit × Cascade :=
  let c := c.check now
  (if c.cancelled then .error c.stopped else .ok (), c)

/-- What a wait comes to. A task that finished gives its result; one that did not
is a cancellation when the cascade is to stop, and else a lapse of its own limit. -/
def endWait (c : Cascade) (now : Instant) : Outcome α → Except Error α × Cascade
  | .finished result => (result, c)
  | .abandoned => (.error (.plain .cancelled ""), c)
  | .woken =>
    let c := c.check now
    (if c.cancelled then .error c.stopped else .error (.plain .taskTimeout ""), c)

end Cascade

/-- What the future holds for a wait: when the task finishes and with what, when the
token is set, and when the one who waits gives up. Each of them may never happen. -/
structure Prospect (α : Type) where
  finishes : Option (Instant × Except Error α) := none
  token : Option Instant := none
  givesUp : Option Instant := none

/-- How far a task got that somebody waited for. -/
inductive Progress where
  | notBegun
  | dropped
  | finished
deriving DecidableEq

/-- How far the task of a wait got. -/
def Outcome.progress : Outcome α → Progress
  | .finished _ => .finished
  | _ => .dropped

/-- A wait that is over. -/
structure Waited (α : Type) where
  result : Except Error α
  cascade : Cascade
  now : Instant
  progress : Progress

namespace Cascade

/-- Whether a moment has come. -/
def hasCome (moment : Option Instant) (now : Instant) : Bool := moment.any (· ≤ now)

/-- How a wait that began at `start` ends at a moment. Giving up comes before anything
else, the end of the time before a task that took time to finish, and a task that has
finished before the token. -/
def outcomeAt (p : Prospect α) (ends : Option Instant) (start now : Instant) : Outcome α :=
  if hasCome p.givesUp now then .abandoned
  else
    match p.finishes with
    | some (finish, result) =>
      if finish ≤ now ∧ (finish ≤ start ∨ !hasCome ends now) then .finished result else .woken
    | none => .woken

/-- Waits for a task until the first thing happens that ends the wait. If nothing
ever does, the wait has no end. Who gives up at once does not begin. -/
def await (c : Cascade) (limit : Option Seconds) (now : Instant) (p : Prospect α) :
    Option (Waited α) :=
  let unbegun (error : Error) (c : Cascade) : Waited α :=
    { result := .error error, cascade := c, now, progress := .notBegun }
  if hasCome p.givesUp now then some (unbegun (.plain .cancelled "") c)
  else match c.beginWait now with
  | (.error stop, c) => some (unbegun stop c)
  | (.ok (), c) =>
    let start := now
    let ends := c.waitEnd limit start
    let moments := earlier (earlier ends p.token) (earlier p.givesUp (p.finishes.map (·.1)))
    moments.map fun now =>
      let c := if hasCome p.token now then c.cancel else c
      let outcome := outcomeAt p ends start now
      let (result, c) := c.endWait now outcome
      { result, cascade := c, now, progress := outcome.progress }

end Cascade

end Choreography
