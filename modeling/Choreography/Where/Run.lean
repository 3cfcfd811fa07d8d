import Choreography.Activity
import Choreography.Value.Membership
import Choreography.Value.Nan
import Choreography.Where

/-! What the steps of a where-clause do. Some steps need frames, some take the things
of any sequence, and some do not care what there is. -/

namespace Choreography

def Item.typeName : Item → String
  | .draft _ => "Frame"
  | .value v => v.typeName
  | .other name => name

namespace Returned

def typeName : Returned → String
  | .drafts _ => "Frames"
  | .sequence isTuple _ => if isTuple then "tuple" else "list"
  | .value v => v.typeName
  | .other name => name

/-- The things one after the other: the letters of a text, and the names in a map. -/
def items : Returned → Except Error (List Item)
  | .drafts ds => .ok (ds.map .draft)
  | .sequence _ items => .ok items
  | .value (.list values) => .ok (values.map .value)
  | .value (.text s) => .ok ((Text.singles s).map fun letter => .value (.text letter))
  | .value (.map fields) => .ok (fields.map fun f => .value (.text f.1))
  | r => .error (.plain .type s!"'{r.typeName}' object is not iterable")

/-- The error when something of another type is put among frames. -/
def notAFrame (typeName : String) : Error :=
  .plain .type ("Frames holds Frame objects, got " ++ typeName)

/-- The error when something lacks an attribute. -/
def lacks (typeName wanted : String) : Error :=
  .plain .attribute s!"'{typeName}' object has no attribute '{wanted}'"

/-- A collection holds frames only. -/
def collect (items : List Item) : Except Error (List Draft) :=
  items.mapM fun item =>
    match item with
    | .draft d => .ok d
    | _ => .error (notAFrame item.typeName)

/-- The frames, of which a method is wanted that nothing else has. -/
def draftsFor (method : String) : Returned → Except Error (List Draft)
  | .drafts ds => .ok ds
  | r => .error (lacks r.typeName method)

/-- The frames before the first thing that is none. -/
def leadingDrafts : List Item → List Draft
  | .draft d :: rest => d :: leadingDrafts rest
  | _ => []

/-- The frames one after the other, each of which must have a root. -/
def rooted (items : List Item) : Except Error (List Draft) :=
  items.mapM fun item =>
    match item with
    | .draft d => .ok d
    | _ => .error (lacks item.typeName "root")

/-- Everything there is, where further things are to be put after it. -/
def spread (returned : Returned) : Except Error (List Item) :=
  returned.items.mapError fun _ =>
    .plain .type ("Value after * must be an iterable, not " ++ returned.typeName)

end Returned

/-- A conflict met while a frame is extended, as an error. -/
def Frame.extendOrRaise (f : Frame) (values : Fields) : Except Error Frame :=
  (f.extend values).mapError fun conflict => .described conflict.failure

/-- Extends a frame with values and, after them, further values by their names alone. -/
def Frame.extendNamed (f : Frame) (values named : Fields) : Except Error Frame :=
  match (Fields.names named).find? Frame.reservedNames.contains with
  | some name =>
    .error (.plain .type s!"Frame.extend() got multiple values for argument '{name}'")
  | none => f.extendOrRaise (values ++ named)

namespace Draft

/-- A draft as a frame. What it rests on is left out, unless these are invocations. -/
def frame (d : Draft) : Frame where
  bindings := d.bindings
  support :=
    match d.basis with
    | .support ids => ids
    | .tuple _ | .value _ => []
  root := d.root

/-- A draft with the bindings of a frame. What it rests on stays. -/
def rebound (d : Draft) (f : Frame) : Draft := { d with bindings := f.bindings }

end Draft

namespace Where.Step

/-- Whether a frame passes a filter. -/
def passes (name : String) (equals : Value) (strict : Bool) (f : Frame) : Except Error Bool :=
  match f.get? name, strict with
  | some bound, _ => .ok (bound.agrees equals)
  | none, true => .error (.missingKey name)
  | none, false => .ok (Value.null.agrees equals)

/-- What a name stands for in one of several things, if it is there. Where texts and
lists hold the name itself, it stands for nothing. -/
def lookUp (name : String) : Item → Except Error (Option Value)
  | .draft d => .ok (d.frame.get? name)
  | .value v => do
    if !(← v.holds name) then return none
    match v with
    | .map fields => return Fields.get? fields name
    | .text _ => throw (.plain .type "string indices must be integers, not 'str'")
    | _ => throw (.plain .type "list indices must be integers or slices, not str")
  | item => .error (.plain .type s!"argument of type '{item.typeName}' is not iterable")

/-- Whether the condition of a raise is met by one of several things. -/
def isMet (name : String) (value : Value) : List Item → Except Error Bool
  | [] => .ok false
  | item :: rest => do
    if (← lookUp name item).any (·.agrees value) then return true else isMet name value rest

/-- What a step makes of what there is. -/
def run (step : Where.Step) (current : Returned) : Activity Returned :=
  match step with
  | .filter name equals strict => do
    let drafts ← Activity.ofExcept (current.draftsFor "filter")
    let kept ← Activity.ofExcept (drafts.filterM fun d => passes name equals strict d.frame)
    return .drafts kept
  | .extend values => do
    let drafts ← Activity.ofExcept (current.draftsFor "map")
    let extended ← drafts.mapM fun d => do
      let values ← Fields.renew Activity.fresh values
      return d.rebound (← Activity.ofExcept (d.frame.extendOrRaise values))
    return .drafts extended
  | .query target inputs outputs => do
    let action ← Activity.ofExcept target
    Activity.ensure action
    let drafts ← Activity.ofExcept (current.draftsFor "query")
    let joined ← drafts.mapM fun d => do
      return (← Frames.query (Activity.ask action) inputs outputs [d.frame]).map d.rebound
    return .drafts joined.flatten
  | .raise error none => .raise error
  | .raise error (some (name, value)) => do
    let items ← Activity.ofExcept current.items
    if ← Activity.ofExcept (isMet name value items) then .raise error else pure current
  | .sleep length => .sleep length (pure current)
  | .cancel => do
    let items ← Activity.ofExcept current.items
    let after := (Activity.ofExcept (Returned.rooted items)).bind fun _ => pure current
    match Returned.leadingDrafts items with
    | [] => after
    | drafts => .cancel (drafts.filterMap (·.root)) after
  | .result returned => pure returned
  | .list items => do
    let spliced ← items.mapM fun item =>
      match item with
      | none => Activity.ofExcept current.items
      | some item => pure [item]
    return .sequence false spliced.flatten
  | .tuple => do return .sequence true (← Activity.ofExcept current.items)
  | .forge draft false => pure (.drafts [draft])
  | .forge draft true => do
    let items ← Activity.ofExcept current.spread
    return .drafts (← Activity.ofExcept (Returned.collect (items ++ [.draft draft])))
  | .rebind values => do
    let drafts ← Activity.ofExcept (current.draftsFor "map")
    let rebound ← drafts.mapM fun d => do
      let values ← Fields.renew Activity.fresh values
      return { d with bindings := Fields.merge d.bindings values }
    return .drafts rebound
  | .clear => do
    let drafts ← Activity.ofExcept (current.draftsFor "map")
    return .drafts (drafts.map fun d => { d with bindings := [] })
  | .replace item => do
    let drafts ← Activity.ofExcept (current.draftsFor "map")
    return .drafts (← Activity.ofExcept (Returned.collect (drafts.map fun _ => item)))
  | .reverse => do
    let items ← Activity.ofExcept current.items
    return .drafts (← Activity.ofExcept (Returned.collect items.reverse))
  | .duplicate => do
    let items ← Activity.ofExcept current.items
    return .drafts (← Activity.ofExcept (Returned.collect (items.flatMap fun i => [i, i])))

end Where.Step

/-- Runs the steps in order. -/
def Where.run : Where → Returned → Activity Returned
  | [], current => pure current
  | step :: rest, current => do
    let next ← step.run current
    Where.run rest next

end Choreography
