import Choreography.Pattern
import Choreography.Value.Agreement

/-! Frames. A frame is one way to satisfy a rule's when-clause: a value for each
variable, and the invocations that justify it. Extending a frame never changes
what a variable stands for. -/

namespace Choreography

structure Frame where
  bindings : Fields := []
  /-- One invocation for each when-pattern, in the order of the patterns. -/
  support : List InvocationId := []
  root : Option InvocationId := none

/-- Why a frame could not be extended: a variable stands for something else. -/
structure Conflict where
  name : String
  bound : Value
  attempted : Value

def Conflict.failure (c : Conflict) : Failure :=
  .of (.bindingConflict c.name c.bound c.attempted) {}

/-- Gives variables their values. A variable that has a value accepts only one that
counts as equal, and takes the new form of it. -/
def bindAll : Fields → List (String × Value) → Except Conflict Fields
  | bindings, [] => .ok bindings
  | bindings, (name, value) :: rest =>
    match Fields.get? bindings name with
    | some bound =>
      if bound.agrees value then bindAll (Fields.set bindings name value) rest
      else .error ⟨name, bound, value⟩
    | none => bindAll (Fields.set bindings name value) rest

namespace Frame

def get? (f : Frame) (name : String) : Option Value := Fields.get? f.bindings name

/-- A frame with further bindings, of which the last for a name counts. -/
def extend (f : Frame) (incoming : Fields) : Except Conflict Frame :=
  match bindAll f.bindings (Fields.ofList incoming) with
  | .ok bindings => .ok { f with bindings }
  | .error conflict => .error conflict

/-- What a frame is asked for: a variable, or a value, of which only a text names a
variable. -/
inductive Key where
  | value (v : Value)
  | pattern (p : FieldPattern)

/-- The variable that is asked for, if one is. -/
def Key.name? : Key → Option String
  | .value (.text name) => some name
  | .pattern p => p.name?
  | _ => none

/-- Why something cannot be asked for, if it cannot. -/
def Key.flaw? : Key → Option Error
  | .value v | .pattern (.literal v) => Error.notAKey? v
  | _ => none

/-- Looks for what is asked for. -/
def lookUp (f : Frame) (key : Key) : Except Error (Option Value) :=
  match key.flaw? with
  | some error => .error error
  | none => .ok (key.name?.bind f.get?)

/-- Whether a frame has what is asked for. It has nothing that is no variable. -/
def has (f : Frame) (key : Key) : Bool := (key.name?.bind f.get?).isSome

/-- The names that variables cannot have when they are given by their names alone. -/
def reservedNames : List String := ["self", "values"]

/-- Frames are equal when they bind alike and rest on the same invocations. -/
def agrees (f g : Frame) : Bool :=
  Fields.agree f.bindings g.bindings && f.support == g.support && f.root == g.root

end Frame

/-- Frames in order; none at all means that a rule does not fire. -/
abbrev Frames := List Frame

def Frames.agree : Frames → Frames → Bool
  | [], [] => true
  | f :: fs, g :: gs => f.agrees g && agree fs gs
  | _, _ => false

/-- The frame at a place, counted from the end when it is negative. -/
def Frames.at? (frames : Frames) (place : Int) : Option Frame :=
  let index := if place < 0 then place + frames.length else place
  if index < 0 then none else frames[index.toNat]?

/-- The frame at a place that any value gives. -/
def Frames.item (frames : Frames) (place : Value) : Except Error Frame :=
  let found (place : Int) : Except Error Frame :=
    match frames.at? place with
    | some frame => .ok frame
    | none => .error (.plain .index "tuple index out of range")
  match place with
  | .int n => found n
  | .bool b => found (if b then 1 else 0)
  | other => .error (.plain .type
      s!"tuple indices must be integers or slices, not {other.typeName}")

end Choreography
