import Choreography.Where

/-! Rules. When invocations match all its when-patterns, a rule calls the actions of
its then-patterns, after an optional where-clause has had its say on the frames. -/

namespace Choreography

structure Rule where
  name : String
  whens : List Pattern
  thens : List Pattern := []
  enrich : Option Where := none

/-- What is offered in the place of a pattern. -/
inductive Offered where
  | pattern (p : Pattern)
  /-- A pattern whose action is no operation, shown exactly. -/
  | actionless (shown : String)
  /-- Anything else, shown exactly. -/
  | other (shown : String)

/-- What is offered as the where-clause. -/
inductive OfferedWhere where
  | absent
  /-- A function that cannot be awaited. -/
  | blocking
  | steps (steps : Where)

namespace Rule

def refuse (name : String) (flaw : RuleFlaw) : Error := .of (.invalidRule name flaw)

/-- Accepts a pattern of an action and nothing else. -/
def accept (name : String) : Offered → Except Error Pattern
  | .other shown => .error (refuse name (.notAPattern shown))
  | .actionless _ => .error (.plain .attribute "")
  | .pattern p =>
    match p.action.kind with
    | .query => .error (refuse name (.mentionsQuery p.action))
    | .action => .ok p

/-- A rule with the given clauses, unless there is something wrong with it. Flaws
are looked for in the order in which the clauses are written. -/
def define (name : String) (whens thens : List Offered) (enrich : OfferedWhere) :
    Except Error Rule := do
  if name.isEmpty then throw (refuse "<unnamed>" .unnamed)
  if whens.isEmpty then throw (refuse name .noPatterns)
  let whens ← whens.mapM (accept name)
  let thens ← thens.mapM (accept name)
  if let some p := thens.find? (!·.outputs.isEmpty) then
    throw (refuse name (.declaresOutputs p.action))
  match enrich with
  | .absent => return { name, whens, thens }
  | .blocking => throw (refuse name .blockingWhere)
  | .steps steps => return { name, whens, thens, enrich := some steps }

/-- The distinct actions of the when-patterns, in their first order. -/
def triggers (r : Rule) : List ActionRef :=
  r.whens.foldl (fun seen p => if p.action ∈ seen then seen else seen ++ [p.action]) []

end Rule

end Choreography
