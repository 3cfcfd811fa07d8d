import Choreography.Log
import Choreography.Pattern.Unify
import Choreography.Rule

/-! Matching a rule around one invocation, its trigger. The trigger takes one of the
places of the when-clause; the others are filled in order, each with an earlier
invocation of the same cascade that is causally related to one already placed. -/

namespace Choreography

/-- Some places filled, and the variables bound so far. -/
structure Partial where
  placed : List (Nat × Invocation)
  bindings : Fields

namespace Partial

/-- Whether an invocation may take a further place: it has none yet, and is
causally related to one that has. -/
def admits (p : Partial) (log : InvocationLog) (candidate : Invocation) : Bool :=
  p.placed.all (·.2.id != candidate.id) &&
    p.placed.any fun entry => log.related candidate.id entry.2.id

/-- The places filled, in the order of the patterns. -/
def support (p : Partial) (places : Nat) : List InvocationId :=
  (List.range places).filterMap fun place => (List.lookup place p.placed).map (·.id)

end Partial

def Pattern.unifyInvocation (p : Pattern) (i : Invocation) (bindings : Fields) : Option Fields :=
  p.unify i.action i.input i.output bindings

/-- Every way to fill one more place with one of the candidates. -/
def fillPlace (log : InvocationLog) (candidates : List Invocation) (place : Nat) (p : Pattern)
    (before : Partial) : List Partial :=
  candidates.filterMap fun candidate =>
    if before.admits log candidate then
      (p.unifyInvocation candidate before.bindings).map fun bindings =>
        { placed := before.placed ++ [(place, candidate)], bindings }
    else none

/-- Every way to fill all places from `place` on but the one the trigger has. -/
def fillPlaces (log : InvocationLog) (trigger : Invocation) (seeded : Nat) :
    Nat → List Pattern → List Partial → List Partial
  | _, [], partials => partials
  | place, p :: rest, partials =>
    if place = seeded then fillPlaces log trigger seeded (place + 1) rest partials
    else
      let candidates := log.candidates p.action trigger.root trigger.id
      fillPlaces log trigger seeded (place + 1) rest
        (partials.flatMap (fillPlace log candidates place p))

/-- The frames in which the trigger has a given place. -/
def seededAt (rule : Rule) (trigger : Invocation) (log : InvocationLog) (seeded : Nat)
    (p : Pattern) : Frames :=
  match p.unifyInvocation trigger [] with
  | none => []
  | some bindings =>
    let start : Partial := { placed := [(seeded, trigger)], bindings }
    (fillPlaces log trigger seeded 0 rule.whens [start]).map fun filled =>
      { bindings := filled.bindings
        support := filled.support rule.whens.length
        root := some trigger.root }

/-- Frames with distinct supports, the first for each. -/
def distinctSupports (frames : Frames) : Frames :=
  frames.foldl (fun seen f => if seen.any (·.support == f.support) then seen else seen ++ [f]) []

/-- All frames of a rule that rest on the trigger and on nothing after it. -/
def Rule.matchAt (rule : Rule) (trigger : Invocation) (log : InvocationLog) : Frames :=
  distinctSupports (rule.whens.zipIdx.flatMap fun entry => seededAt rule trigger log entry.2 entry.1)

end Choreography
