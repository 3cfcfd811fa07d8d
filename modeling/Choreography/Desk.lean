import Choreography.Journal

/-! The desk where requests from outside are taken in and answered. A request is
pending from the moment it is taken until it is discarded. Its first response
counts, and every later one is refused. -/

namespace Choreography

structure PendingRequest where
  number : Nat
  path : Value
  params : Fields
  response : Option Fields := none

structure Desk where
  /-- How many requests were ever taken in. -/
  taken : Nat := 0
  pending : List PendingRequest := []

/-- The identifier of a request: its number in 32 hexadecimal digits. -/
def requestId (number : Nat) : String := Text.hex 32 number

def PendingRequest.id (r : PendingRequest) : String := requestId r.number

namespace Desk

def find? (d : Desk) (id : String) : Option PendingRequest := d.pending.find? (·.id == id)

/-- Takes a request in. -/
def request (d : Desk) (path : Value) (params : Fields) : Desk × PendingRequest :=
  let taken : PendingRequest := { number := d.taken + 1, path, params }
  ({ taken := d.taken + 1, pending := d.pending ++ [taken] }, taken)

/-- Gives a pending request its response, if it has none. -/
def respond (d : Desk) (id : String) (response : Fields) : Desk :=
  { d with
    pending := d.pending.map fun r =>
      if r.id == id && r.response.isNone then { r with response := some response } else r }

/-- The response to a request, if there is one. -/
def responseOf (d : Desk) (id : String) : Option Fields := (d.find? id).bind (·.response)

/-- The end of a request that nobody answered is worth a note. -/
def discardNote (r : PendingRequest) : LogRecord where
  level := .info
  logger := "concord.concepts.requesting"
  message := s!"Discarded unanswered request {r.id} ({r.path.plainText})"
  extra := [("path", r.path)]

/-- Drops a request, answered or not. -/
def discard (d : Desk) (id : String) : Desk × List Event :=
  let notes := match d.find? id with
    | some r => if r.response.isNone then [.note (discardNote r)] else []
    | none => []
  ({ d with pending := d.pending.filter (·.id != id) }, notes)

/-- The operations of the desk. -/
def methods : List String := ["get_pending", "request", "respond"]

/-- What a desk is called that is asked for its type. -/
def typeName : String := "RequestingConcept"

def operationName (operation : String) : String := typeName ++ "." ++ operation ++ "()"

/-- The argument that an operation of the desk cannot do without. -/
def needed (operation : String) : String := if operation == "request" then "path" else "request"

/-- Whether an operation takes any arguments beside the one it needs. -/
def takesMore (operation : String) : Bool := operation != "get_pending"

/-- Why named arguments are refused, if they are: the first of them that is given twice,
as it was `filled` by its place, or that is not wanted. -/
def refusal? (operation : String) (filled : List String) : List String → Option Error
  | [] => none
  | name :: rest =>
    if filled.contains name then
      some (.plain .type s!"{operationName operation} got multiple values for argument '{name}'")
    else if name = needed operation || takesMore operation then refusal? operation filled rest
    else
      some (.plain .type
        s!"{operationName operation} got an unexpected keyword argument '{name}'")

/-- The place that the desk itself has among the arguments of its operations. -/
def ownPlace : String := "self"

/-- The argument that an operation needs, out of named ones. -/
def subject (operation : String) (input : Fields) : Except Error Value :=
  match refusal? operation [ownPlace] (Fields.names input), Fields.get? input (needed operation) with
  | some error, _ => .error error
  | none, some value => .ok value
  | none, none =>
    .error (.plain .type
      s!"{operationName operation} missing 1 required positional argument: '{needed operation}'")

/-- The pending request that a value names. What cannot be a key is an error. -/
def lookUp (d : Desk) : Value → Except Error (Option PendingRequest)
  | .text id => .ok (d.find? id)
  | v => match Error.notAKey? v with
    | some error => .error error
    | none => .ok none

def errorOutput (text : String) : Value := .map [(errorField, .text text)]

/-- Carries out an operation of the desk for the argument it needs and any others. -/
def carryOut (d : Desk) (operation : String) (subject : Value) (others : Fields) :
    Desk × Except Error Value :=
  if operation == "request" then
    let (d, taken) := d.request subject others
    (d, .ok (.map [("request", .text taken.id)]))
  else
    match d.lookUp subject with
    | .error e => (d, .error e)
    | .ok none => (d, .ok (errorOutput s!"Request {subject.plainText} not found"))
    | .ok (some r) =>
      if operation == "get_pending" then
        (d, .ok (.map
          [("request", .text r.id), ("path", r.path), ("params", .map r.params),
           ("responded", .bool r.response.isSome)]))
      else if r.response.isSome then
        (d, .ok (errorOutput s!"Request {subject.plainText} already responded"))
      else (d.respond r.id others, .ok (.map [("request", subject)]))

/-- Calls an operation of the desk with named arguments. -/
def call (d : Desk) (operation : String) (input : Fields) : Desk × Except Error Value :=
  match subject operation input with
  | .error e => (d, .error e)
  | .ok subject => d.carryOut operation subject (Fields.erase input (needed operation))

/-- Calls an operation with the argument it needs in its place, and others by name. -/
def callAbout (d : Desk) (operation : String) (subject : Value) (others : Fields) :
    Desk × Except Error Value :=
  match refusal? operation [ownPlace, needed operation] (Fields.names others) with
  | some e => (d, .error e)
  | none => d.carryOut operation subject others

end Desk

end Choreography
