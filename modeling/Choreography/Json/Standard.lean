import Choreography.Value

/-! What JSON that is sent out lacks: standard JSON has no number for a nan or an
infinity, some names are kept back, and nesting has an end. -/

namespace Choreography

mutual

/-- Whether standard JSON can write a value. -/
def Value.isStandard : Value → Bool
  | .float x => x.isFinite
  | .list items => Value.allStandard items
  | .map fields => Fields.areStandard fields
  | _ => true
termination_by structural v => v

def Value.allStandard : List Value → Bool
  | [] => true
  | v :: vs => v.isStandard && Value.allStandard vs
termination_by structural vs => vs

def Fields.areStandard : List (String × Value) → Bool
  | [] => true
  | (_, v) :: rest => v.isStandard && Fields.areStandard rest
termination_by structural fs => fs

end

mutual

/-- A value with null in the place of each number that standard JSON lacks. -/
def Value.standard : Value → Value
  | .float x => if x.isFinite then .float x else .null
  | .list items => .list (Value.eachStandard items)
  | .map fields => .map (Fields.standard fields)
  | v => v
termination_by structural v => v

def Value.eachStandard : List Value → List Value
  | [] => []
  | v :: vs => v.standard :: Value.eachStandard vs
termination_by structural vs => vs

def Fields.standard : List (String × Value) → List (String × Value)
  | [] => []
  | (name, v) :: rest => (name, v.standard) :: Fields.standard rest
termination_by structural fs => fs

end


mutual

/-- A value without the names that a filter drops, at whatever depth they are. -/
def Value.sift (keeps : String → Bool) : Value → Value
  | .list items => .list (Value.siftEach keeps items)
  | .map fields => .map (Fields.sift keeps fields)
  | v => v
termination_by structural v => v

def Value.siftEach (keeps : String → Bool) : List Value → List Value
  | [] => []
  | v :: vs => v.sift keeps :: Value.siftEach keeps vs
termination_by structural vs => vs

def Fields.sift (keeps : String → Bool) : List (String × Value) → List (String × Value)
  | [] => []
  | (name, v) :: rest =>
    if keeps name then (name, v.sift keeps) :: Fields.sift keeps rest
    else Fields.sift keeps rest
termination_by structural fs => fs

end

mutual

/-- How many values are nested in each other, the outermost and the innermost included. -/
def Value.height : Value → Nat
  | .list items => 1 + Value.heightOfEach items
  | .map fields => 1 + Fields.height fields
  | _ => 1
termination_by structural v => v

def Value.heightOfEach : List Value → Nat
  | [] => 0
  | v :: vs => max v.height (Value.heightOfEach vs)
termination_by structural vs => vs

def Fields.height : List (String × Value) → Nat
  | [] => 0
  | (_, v) :: rest => max v.height (Fields.height rest)
termination_by structural fs => fs

end

end Choreography
