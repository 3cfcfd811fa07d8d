import Choreography.Journal

/-! The audit of drained cascades. Each invocation of a cascade is written once: the
recorder remembers, for a limited number of cascades, what it has written. Writing
may fail, which is noted and changes nothing. -/

namespace Choreography

structure Recorder where
  run : Option String := none
  /-- How many cascades are remembered. -/
  tracked : Int := 1000
  /-- What was written of each cascade, the one written last at the end. -/
  saved : List (InvocationId × List InvocationId) := []

/-- What is to be written of a cascade, and what was known to be written before. -/
structure Batch where
  root : InvocationId
  known : List InvocationId
  fresh : List Invocation

namespace Recorder

/-- What is to be written of a cascade, nothing if all of it was written before. -/
def prepare? (r : Recorder) (invocations : List Invocation) : Option Batch :=
  match invocations with
  | [] => none
  | first :: _ =>
    let known := (List.lookup first.root r.saved).getD []
    match invocations.filter fun i => !known.contains i.id with
    | [] => none
    | fresh => some { root := first.root, known, fresh }

def failureNote (root : InvocationId) (e : Error) : LogRecord where
  level := .warning
  logger := "concord.services.invocation_recorder"
  message := s!"Failed to record cascade {root}: {e.text}"
  extra := [("cascade_root", .int root)]

/-- Remembers only as many cascades as are tracked. To forget more than there are is
an error, after everything is forgotten. -/
def trim (r : Recorder) : Recorder × Except Error Unit :=
  let excess := (r.saved.length : Int) - r.tracked
  ({ r with saved := r.saved.drop excess.toNat },
    if (r.saved.length : Int) < excess then .error (.missingKey "dictionary is empty") else .ok ())

/-- Takes note of how writing a batch went. -/
def settle (r : Recorder) (batch : Batch) (result : Except Error Unit) :
    Recorder × List Event × Except Error Unit :=
  match result with
  | .error e => (r, [.note (failureNote batch.root e)], .ok ())
  | .ok () =>
    let written := batch.known ++ batch.fresh.map (·.id)
    let saved := (r.saved.filter (·.1 ≠ batch.root)) ++ [(batch.root, written)]
    let (r, result) := trim { r with saved }
    (r, [.recorded (batch.fresh.map fun i => ⟨r.run, i⟩)], result)

end Recorder

end Choreography
