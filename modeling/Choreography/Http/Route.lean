import Choreography.Http.Shape
import Choreography.Http.Target

/-! The routes of the server. The pages about the server come first, then the fixed
routes, and last those of requests, whose paths may be anything under a base. -/

namespace Choreography.Http

inductive Route where
  /-- A page about the server. -/
  | page
  /-- Is the server alive? -/
  | health
  /-- Can it take requests? -/
  | ready
  | cascade (root : String)
  /-- A request, with its path unless that is a parameter of the query. -/
  | request (path : Option String)
deriving DecidableEq

/-- Where the answer to a method and a path comes from. -/
inductive Found where
  | route (route : Route)
  /-- The path has routes, but none for the method. -/
  | wrongMethod
  /-- There are routes for the path with another end. -/
  | elsewhere
  | nothing
  /-- What the path holds in a place cannot be read. -/
  | failed (error : Error)

/-- A shape of paths, the methods for which they are answered, and the route there. -/
structure Endpoint where
  shape : PathShape
  methods : List String
  route : List (String × String) → Route

/-- The name of a request's path: of its place in the shape of the route, or of the
parameter if the shape does not tell of that place. -/
def pathPlace : String := "path"

namespace Endpoint

def page (path : String) : Endpoint := ⟨PathShape.ofText path, ["GET", "HEAD"], fun _ => .page⟩

def fixed (path : String) (route : Route) : Endpoint := ⟨PathShape.ofText path, ["GET"], fun _ => route⟩

/-- The endpoints in the order of their claims, where requests have a given shape. -/
def all (requests : PathShape) : List Endpoint :=
  let root := "root"
  [page "/openapi.json", page "/docs", page "/docs/oauth2-redirect", page "/redoc",
   fixed "/api/v1/health/" .health, fixed "/api/v1/health/ready" .ready,
   { shape := PathShape.ofText "/api/v1/cascades/" ++ [.place root .segment]
     methods := ["GET"]
     route := fun places => .cascade ((places.lookup root).getD "") },
   { shape := requests
     methods := ["POST", "GET"]
     route := fun places =>
      .request (if requests.tells pathPlace then places.lookup pathPlace else none) }]

end Endpoint

namespace Route

/-- The shape of requests under a base. -/
def requestShape (base : String) : Except Error PathShape := do
  let shape ← PathShape.read (base ++ "/\x7b" ++ pathPlace ++ ":path\x7d")
  if shape.tells "body" then
    throw (.plain .assertion "Cannot use `Body` for path param 'body'")
  return shape

/-- The routes that a path has, each with its methods, in the order of their claims. An
error stands where a route's shape fits but does not hold what it should. -/
def candidates (requests : PathShape) (path : String) : List (Except Error (List String × Route)) :=
  (Endpoint.all requests).filterMap fun endpoint =>
    (endpoint.shape.fit? path.toList).map fun places =>
      match endpoint.shape.overlong? places with
      | some error => .error error
      | none => .ok (endpoint.methods, endpoint.route places)

/-- A path with a slash at its end if it had none, and without slashes there if it had. -/
def otherEnd (path : String) : String :=
  if path.endsWith "/" then String.ofList (path.toList.reverse.dropWhile (· == '/')).reverse
  else path ++ "/"

/-- Finds the route of a method and a path. -/
def find (requests : PathShape) (method path : String) : Found :=
  let isDecisive : Except Error (List String × Route) → Bool
    | .ok (methods, _) => methods.contains method
    | .error _ => true
  match (candidates requests path).find? isDecisive with
  | some (.ok (_, route)) => .route route
  | some (.error error) => .failed error
  | none =>
    if !(candidates requests path).isEmpty then .wrongMethod
    else if path = "/" then .nothing
    else
      match candidates requests (otherEnd path) with
      | [] => .nothing
      | .ok _ :: _ => .elsewhere
      | .error error :: _ => .failed error

end Route

end Choreography.Http
