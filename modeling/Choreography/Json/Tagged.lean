import Choreography.Json.Reader
import Choreography.Value.Text

/-! Values in JSON that keep what JSON loses. A binary number is tagged and written
as text, so that it is not taken for a whole number; a whole number that other readers
would round is tagged as well; and so is a map whose names are not in their natural
order. Nans are told apart by the order in which they are read. -/

namespace Choreography.Json

/-- A binary number that was written as text, with a mark for a nan. -/
def readDouble (text : String) (mark : Nat) : Value :=
  match Numeral.double? text with
  | some x => .float (if x.isNan then .nan mark else x)
  | none => .null

mutual

/-- Takes the tags away. The state counts the tagged numbers. -/
def untag : Value → StateM Nat Value
  | .list items => return .list (← untagEach items)
  | .map [("$int", .text n)] => return .int (n.toInt?.getD 0)
  | .map [("$float", .text x)] => return readDouble x (← modifyGet fun k => (k, k + 1))
  | .map [("$map", .list entries)] => return .map (Fields.ofList (← untagEntries entries))
  | .map fields => return .map (← untagFields fields)
  | v => return v
termination_by structural v => v

def untagEach : List Value → StateM Nat (List Value)
  | [] => return []
  | v :: vs => return (← untag v) :: (← untagEach vs)
termination_by structural vs => vs

def untagEntries : List Value → StateM Nat (List (String × Value))
  | [] => return []
  | .list [.text name, v] :: rest => return (name, ← untag v) :: (← untagEntries rest)
  | _ :: rest => untagEntries rest
termination_by structural vs => vs

def untagFields : List (String × Value) → StateM Nat (List (String × Value))
  | [] => return []
  | (name, v) :: rest => return (name, ← untag v) :: (← untagFields rest)
termination_by structural fs => fs

end

mutual

/-- Puts tags on the numbers that need them. -/
def tag : Value → Value
  | .int n => if n.natAbs < Nat.pow 2 53 then .int n else .map [("$int", .text (toString n))]
  | .float x => .map [("$float", .text x.text)]
  | .list items => .list (tagEach items)
  | .map fields => .map (tagFields fields)
  | v => v
termination_by structural v => v

def tagEach : List Value → List Value
  | [] => []
  | v :: vs => tag v :: tagEach vs
termination_by structural vs => vs

def tagFields : List (String × Value) → List (String × Value)
  | [] => []
  | (name, v) :: rest => (name, tag v) :: tagFields rest
termination_by structural fs => fs

end

end Choreography.Json
