import Choreography.Frame
import Choreography.Frame.Query

/-! Where-clauses. A where-clause is a list of steps, each of which makes new frames
out of the frames before it. What the last step leaves need not be frames: the
engine checks what it is given. -/

namespace Choreography

/-- What a frame rests on that a where-clause has made by itself. -/
inductive Basis where
  | support (ids : List InvocationId)
  /-- A tuple of anything. -/
  | tuple (members : List Value)
  /-- Something that is no tuple. -/
  | value (v : Value)

/-- A frame as a where-clause may make it. It need not rest on invocations. -/
structure Draft where
  bindings : Fields := []
  basis : Basis := .support []
  root : Option InvocationId := none

def Frame.draft (f : Frame) : Draft where
  bindings := f.bindings
  basis := .support f.support
  root := f.root

/-- One of the things in a sequence that a where-clause returns. -/
inductive Item where
  | draft (d : Draft)
  | value (v : Value)
  /-- Something else, known by the name of its type. -/
  | other (typeName : String)

def Item.frame (f : Frame) : Item := .draft f.draft

/-- What a where-clause returns. -/
inductive Returned where
  /-- A collection of frames, those included that the where-clause has made by itself. -/
  | drafts (drafts : List Draft)
  /-- A plain sequence of frames and other things; a tuple cannot be changed. -/
  | sequence (isTuple : Bool) (items : List Item)
  | value (v : Value)
  | other (typeName : String)

def Returned.frames (frames : Frames) : Returned := .drafts (frames.map Frame.draft)

namespace Where

inductive Step where
  /-- Keeps frames whose variable counts as equal to a value. An unbound variable
  counts as null, or is an error when the step is strict. -/
  | filter (name : String) (equals : Value) (strict : Bool)
  | extend (values : Fields)
  /-- Joins with the answers of a query, whose name may turn out to be none. -/
  | query (target : Except Error ActionRef) (inputs : FieldPatterns)
      (outputs : List (String × String))
  /-- Raises an error, if there is a condition only when some frame meets it. -/
  | raise (error : Error) (condition : Option (String × Value))
  | sleep (length : Seconds)
  /-- Cancels the cascade of every frame. -/
  | cancel
  | result (returned : Returned)
  /-- A list, with all that there was in the place of each gap. -/
  | list (items : List (Option Item))
  | tuple
  /-- A frame from nowhere, in the place of the others or after them. -/
  | forge (draft : Draft) (keep : Bool)
  /-- Gives variables new values, whatever they stood for. -/
  | rebind (values : Fields)
  | clear
  /-- Puts something in the place of each frame. -/
  | replace (item : Item)
  | reverse
  | duplicate

end Where

/-- A where-clause. -/
abbrev Where := List Where.Step

end Choreography
