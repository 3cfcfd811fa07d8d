import Choreography.Journal
import Choreography.Json.Reader

/-! Which routes lead straight to an operation, past the rules. A policy lists routes
that do, each with its justification, and routes that do not; the latter win, and
a default decides about all others. -/

namespace Choreography

/-- A text without the slashes at its ends. -/
def stripSlashes (s : String) : String :=
  let dropFront := s.toList.dropWhile (· == '/')
  String.ofList (dropFront.reverse.dropWhile (· == '/')).reverse

/-- A route with one slash before it and none after it. -/
def normalRoute (route : String) : String := "/" ++ stripSlashes route

def routeOf (ref : ActionRef) : String := "/" ++ ref.component ++ "/" ++ ref.operation

/-- What stands between the slashes; empty segments do not count. -/
def segments (path : List Char) : List (List Char) := (path.splitOn '/').filter (· != [])

/-- The operation that a path of two segments names. -/
def targetOf? (path : String) : Option ActionRef :=
  match segments path.toList with
  | [component, operation] => some ⟨.ofList component, .ofList operation⟩
  | _ => none

structure Policy where
  /-- Routes that lead to an operation, and why that is safe. -/
  inclusions : Fields := []
  exclusions : List String := []
  default : Bool := false

/-- A configuration as it is found. -/
inductive PolicySource where
  | missing
  | bytes (content : ByteArray)
  | text (content : String)

namespace Policy

def isPassthrough (p : Policy) (path : String) : Bool :=
  let route := normalRoute path
  if p.exclusions.contains route then false
  else if p.inclusions.any (·.1 == route) then true
  else p.default

def unverifiedNote (p : Policy) (route : String) : LogRecord where
  level := .warning
  logger := "concord.services.passthrough"
  message :=
    let default := if p.default then "passthrough" else "engine"
    s!"Passthrough route {route} is unverified (default: {default})"
  extra := [("path", .text route)]

/-- The routes of operations about which the policy says nothing, in order. -/
def unverified (p : Policy) (refs : List ActionRef) : List String :=
  let open_ := (refs.map routeOf).filter fun route =>
    !p.inclusions.any (·.1 == route) && !p.exclusions.contains route
  Text.sorted open_

def content? : PolicySource → Option String
  | .missing => none
  | .bytes content => (String.fromUTF8? content).map Text.ofCharacters
  | .text content => some content

/-- The justifications by route, the last for a route in the place of the first. -/
def readInclusions (fields : Fields) : Fields :=
  Fields.ofList (fields.map fun f => (normalRoute f.1, .text f.2.plainText))

/-- What a sequence of exclusions consists of: a text of its letters, a map of its names. -/
def exclusionItems : Value → Except Error (List Value)
  | .list items => .ok items
  | .text s => .ok ((Text.singles s).map .text)
  | .map fields => .ok ((Fields.names fields).map .text)
  | v => .error (.plain .type s!"'{v.typeName}' object is not iterable")

def readExclusion : Value → Except Error String
  | .text route => .ok (normalRoute route)
  | _ => .error (.plain .attribute "")

/-- Distinct texts, in the order of their first occurrence. -/
def distinct (texts : List String) : List String :=
  texts.foldl (fun seen t => if seen.contains t then seen else seen ++ [t]) []

/-- How many lists and maps may hold each other in a configuration. -/
def deepest : Nat := 990

/-- Reads a policy from a JSON object with inclusions and exclusions. -/
def read (source : PolicySource) (default : Bool) : Except Error Policy := do
  let content ← match content? source with
    | some content => pure content
    | none => throw (.of .unreadablePolicy)
  match Json.parseWithin deepest content with
  | .error refusal =>
    if refusal.objection.isDepth then throw (.plain .recursion refusal.objection.message)
    else throw (.of .unreadablePolicy)
  | .ok (.map fields) =>
    match (Fields.get? fields "inclusions").getD (.map []) with
    | .map inclusions =>
      let items ← exclusionItems ((Fields.get? fields "exclusions").getD (.list []))
      let exclusions ← items.mapM readExclusion
      return { inclusions := readInclusions inclusions, exclusions := distinct exclusions, default }
    | _ => throw (.of .misshapenPolicy)
  | .ok _ => throw (.plain .attribute "")

end Policy

end Choreography
