import Choreography.Rule

/-! Short forms in which rules are written down. A pattern is given by its action,
its inputs and perhaps its outputs; a rule by its clauses. -/

namespace Choreography

/-- What is written for one field: a value, which counts as the literal of itself,
or a pattern. -/
inductive SpecField where
  | value (v : Value)
  | pattern (f : FieldPattern)
deriving Inhabited

def SpecField.exactText : SpecField → String
  | .value v => v.exactText
  | .pattern f => f.text

def SpecField.toPattern : SpecField → FieldPattern
  | .value v => .literal v
  | .pattern f => f

/-- One part of a short form. -/
inductive SpecPart where
  | single (content : SpecField)
  | fields (entries : List (String × SpecField))
  | list (parts : List SpecPart)
deriving Inhabited

namespace SpecPart

/-- A part that is left out. -/
def absent : SpecPart := .single (.value .null)

mutual

def exactText : SpecPart → String
  | .single content => content.exactText
  | .fields entries =>
    bracketed "\x7b" (entries.map fun f => Text.quoted f.1 ++ ": " ++ f.2.exactText) "\x7d"
  | .list parts => bracketed "[" (exactTexts parts) "]"
termination_by structural p => p

def exactTexts : List SpecPart → List String
  | [] => []
  | p :: ps => p.exactText :: exactTexts ps
termination_by structural ps => ps

end

/-- The field patterns that a part gives. Nothing and what counts as false give none. -/
def fields? : SpecPart → Except Error FieldPatterns
  | .fields entries => .ok (entries.map fun f => (f.1, f.2.toPattern))
  | .single (.value v) => if v.isTruthy then .error (.plain .attribute "") else .ok []
  | .list [] => .ok []
  | .list _ | .single (.pattern _) => .error (.plain .attribute "")

end SpecPart

/-- What is written where a pattern is wanted. -/
inductive Spec where
  | ready (p : Pattern)
  | part (p : SpecPart)
  /-- A list, or a tuple, of parts. -/
  | parts (isTuple : Bool) (parts : List SpecPart)

namespace Spec

def exactText : Spec → String
  | .ready p => p.text
  | .part p => p.exactText
  | .parts isTuple ps =>
    let shown := ps.map SpecPart.exactText
    if isTuple then tupleText shown else bracketed "[" shown "]"

def refuse (spec : Spec) : Error :=
  .plain .type ("expected (action, inputs[, outputs]), got " ++ spec.exactText)

/-- A pattern from an action, inputs and outputs. -/
def assemble (action inputs outputs : SpecPart) : Except Error Offered := do
  let action? ← match action with
    | .single (.value (.text s)) => (ActionRef.parse s).map some
    | _ => .ok none
  let inputs ← inputs.fields?
  let outputs ← outputs.fields?
  match action? with
  | some action => return .pattern { action, inputs, outputs }
  | none =>
    return .actionless (bracketed "["
      [action.exactText, FieldPatterns.text inputs, FieldPatterns.text outputs] "]")

/-- The pattern that a short form stands for. A text of two or three letters counts
as that many parts, the first of which names no action. -/
def offer (spec : Spec) : Except Error Offered :=
  match spec with
  | .ready p => .ok (.pattern p)
  | .parts _ [action, inputs] => assemble action inputs .absent
  | .parts _ [action, inputs, outputs] => assemble action inputs outputs
  | .part (.single (.value (.text s))) =>
    match Text.singles s with
    | [first, _] | [first, _, _] => .error (.badAction first)
    | _ => .error spec.refuse
  | _ => .error spec.refuse

end Spec

/-- The patterns that short forms stand for. -/
def offers (specs : List Spec) : Except Error (List Offered) := specs.mapM Spec.offer

def Offered.text : Offered → String
  | .pattern p => p.text
  | .actionless shown => shown
  | .other shown => shown

/-- A rule written as a function with named clauses. -/
structure Sync where
  /-- The name of the function, which the rule takes unless it is given another. -/
  function : String
  name : Option String := none
  /-- The names of all clauses, known ones and others. -/
  clauses : List String
  whens : List Spec := []
  thens : List Spec := []
  enrich : OfferedWhere := .absent

namespace Sync

def knownClauses : List String := ["when", "where", "then"]

def ruleName (s : Sync) : String :=
  match s.name with
  | some name => if name.isEmpty then s.function else name
  | none => s.function

/-- The rule that the function defines. Unknown clauses are refused first. -/
def define (s : Sync) : Except Error Rule := do
  match s.clauses.filter (· ∉ knownClauses) with
  | [] =>
    let whens ← offers s.whens
    let thens ← offers s.thens
    Rule.define s.ruleName whens thens s.enrich
  | unknown => throw (Rule.refuse s.ruleName (.unknownClauses (Text.sorted unknown)))

end Sync

end Choreography
