import Choreography.Database
import Choreography.Http.Reply
import Choreography.Http.Route
import Choreography.Journal.Line
import Choreography.Settings.Source
import Choreography.Simulation.Schedule
import Choreography.Text.Encoding

/-! A server: an engine that is reached over HTTP. The engine is there from the
beginning; the database, if invocations are to be kept, is opened when the server
starts and closed when it stops. -/

namespace Choreography.Http

open Simulation

/-- The database of a server. -/
inductive Store where
  | closed
  | unreachable
  /-- Reached; with its rows, if it has the table for them. -/
  | reached (rows : Option (List AuditRow))

/-- Whether a server has been started and not been stopped. -/
inductive Lifespan where
  | off
  | on
  /-- It could not be started. -/
  | failed
deriving DecidableEq

structure Server where
  settings : Settings
  world : World
  /-- The shape of the paths of requests. -/
  requests : PathShape
  /-- Whether the engine can be asked about. -/
  hasEngine : Bool := true
  lifespan : Lifespan := .off
  store : Store := .closed

/-- What the server is asked. -/
structure Request where
  method : String
  target : Target
  body : Option String := none

namespace Server

def emit (s : Server) (note : LogRecord) : Server := { s with world := s.world.emit (.note note) }

/-- What the log says when a database cannot be opened. -/
def unopenedNote : LogRecord := DatabaseTrouble.operational.note DatabaseTrouble.cannotOpen

/-- The repository that writes to a database. -/
def repositoryOf (store : Store) (recorder : Recorder) : Repository :=
  match store with
  | .closed => .unreachable recorder [] (.plain .runtime "Database not initialized")
  | .unreachable => .unreachable recorder [unopenedNote] DatabaseTrouble.operational.error
  | .reached none => .unreachable recorder [] DatabaseTrouble.operational.error
  | .reached (some _) => .recorder recorder [] 0

/-- The server with another database, and with what its recorder remembers. -/
def withStore (s : Server) (store : Store) : Server :=
  let repository := match s.world.repository with
    | .recorder recorder .. | .unreachable recorder .. => repositoryOf store recorder
    | other => other
  { s with store, world := { s.world with repository } }

/-- Puts the rows that were written into the database. -/
def keepRows (s : Server) : Server :=
  let written := s.world.events.reverse.flatMap fun event =>
    match event with
    | .recorded rows => rows
    | _ => []
  let events := s.world.events.filter fun event =>
    match event with
    | .recorded _ => false
    | _ => true
  let store := match s.store with
    | .reached (some rows) => .reached (some (rows ++ written))
    | other => other
  { s with store, world := { s.world with events } }

/-- The policy that settings ask for, with what the named file holds. -/
def policyOf (settings : Settings) (file : PolicySource) : Except Error Policy :=
  match settings.passthroughPath with
  | none | some "" => .ok { default := settings.passthroughDefault }
  | some _ => Policy.read file settings.passthroughDefault

/-- Components by name: of two with one name the later counts, in the place of the first. -/
def distinct (components : List (String × Component)) : List (String × Component) :=
  components.foldl (fun seen entry =>
    if seen.any (·.1 == entry.1) then
      seen.map fun other => if other.1 = entry.1 then entry else other
    else seen ++ [entry]) []

/-- A server with components and rules. There is always a desk for requests. -/
def create (settings : Settings) (components : List (String × Component))
    (rules : Except Error (List Rule)) (file : PolicySource) : Except Error Server := do
  let components := distinct components
  let desk := if components.any (·.1 == requestingName) then [] else [(requestingName, .desk)]
  let limits : Limits := {
    depth := settings.maxDepth
    enrichment := some (.binary settings.enrichmentTimeout)
    retention := some settings.retention }
  let repository := if settings.persist then
      repositoryOf .closed { tracked := settings.retention }
    else .none
  let world : World := { engine := { limits }, repository, faultsToLog := true }
  let (world, result) := world.establish (components ++ desk) rules true
  result
  let policy ← policyOf settings file
  let refs := (world.engine.catalogue.operations.map (·.ref)).filter (·.component != requestingName)
  let notes := (policy.unverified refs).map fun route => Event.note (policy.unverifiedNote route)
  let gateway : Gateway := { policy, limit := .binary settings.requestTimeout }
  let requests ← Route.requestShape (if settings.baseUrl = "/" then "" else settings.baseUrl)
  return { settings, requests, world := { world.emitAll notes with gateway := some gateway } }

def mainNote (message : String) : LogRecord where
  level := .info
  logger := "concord.main"
  message := message

/-- Opens the database, if invocations are to be kept. -/
def openStore (s : Server) : Except Error Store :=
  let address := s.settings.databaseUrl
  if s.settings.persist then
    (DatabaseAddress.reach address).map fun address =>
      if address.isInMemory then .reached none else .unreachable
  else .ok s.store

/-- Starts the server. It answers with the threshold of its log. -/
def start (s : Server) : Server × Except Error Nat :=
  let result : Except Error (Nat × Store) := do
    return (← Level.threshold s.settings.logLevel, ← s.openStore)
  match result with
  | .error e => ({ s with lifespan := .failed }, .error e)
  | .ok (threshold, store) =>
    let components := s.world.engine.catalogue.components.length
    let rules := s.world.engine.rules.rules.length
    let started := { s.withStore store with lifespan := .on }
    (started.emit (mainNote s!"Concord API started ({components} components, {rules} rules)"),
      .ok threshold)

/-- Nothing is there that could be asked for something. -/
def absent (wanted : String) : Error :=
  .plain .attribute s!"'NoneType' object has no attribute '{wanted}'"

/-- Stops the server, unless there is nothing to stop. -/
def stop (s : Server) : Server × Except Error Unit :=
  let stopped := { s with lifespan := .off }
  match s.lifespan with
  | .off => (s, .error (absent "__aexit__"))
  | .failed => (stopped, .ok ())
  | .on => ((stopped.withStore .closed).emit (mainNote "Concord API shutting down"), .ok ())

/-- Makes a table for rows, if there is none. -/
def createTables (s : Server) : Server × Except Error Unit :=
  match s.store with
  | .closed => (s, .error (absent "engine"))
  | .unreachable => (s, .error (.plain .operational DatabaseTrouble.cannotOpen))
  | .reached none => (s.withStore (.reached (some [])), .ok ())
  | .reached (some _) => (s, .ok ())

/-- The rows in the database. -/
def rows (s : Server) : Server × Except Error (List AuditRow) :=
  let fail (note : LogRecord) : Server × Except Error (List AuditRow) :=
    (s.emit note, .error DatabaseTrouble.operational.error)
  match s.store with
  | .closed => (s, .error (absent "session"))
  | .unreachable => fail unopenedNote
  | .reached none => fail (DatabaseTrouble.operational.note DatabaseTrouble.noTable)
  | .reached (some rows) => (s, .ok rows)

/-- Whether the server can take requests, and what it found out. -/
def readiness (s : Server) : Server × Reply :=
  let notReady (reason : String) : Reply :=
    .ofFields 503 [("status", .text "not_ready"), ("reason", .text reason)]
  let engine : Fields :=
    [("engine", .text "healthy"), ("rules", .ofNat s.world.engine.rules.rules.length),
     ("invocations", .ofNat s.world.engine.log.size)]
  let ready (checks : Fields) : Reply :=
    .ofFields 200 [("status", .text "ready"), ("checks", .map checks)]
  if !s.hasEngine then (s, notReady "engine_unavailable")
  else if !s.settings.persist then (s, ready engine)
  else
    match s.store with
    | .reached _ => (s, ready (engine ++ [("database", .text "healthy")]))
    | .closed => (s, notReady "database_unavailable")
    | .unreachable =>
      let failed : LogRecord :=
        { unopenedNote with
          message := "DB health check failed: " ++ DatabaseTrouble.operational.error.text }
      ((s.emit unopenedNote).emit failed, notReady "database_unavailable")

/-- An invocation as it is shown outside. -/
def shownInvocation (time : String) (i : Invocation) : Except Error Value := do
  return .map [("id", .int i.id), ("component", .text i.action.component),
    ("operation", .text i.action.operation), ("input", ← shownFields i.input),
    ("output", ← shownFields i.output), ("caused_by", .list (i.causes.map .int)),
    ("root", .int i.root), ("depth", .ofNat i.depth), ("timestamp", .text time)]

/-- The invocations of a cascade that is still in the log. -/
def showCascade (s : Server) (time : String) (root : Int) : Except Error Reply :=
  if !s.hasEngine then .error (absent "log")
  else
    match s.world.engine.log.cascade root with
    | [] => .error (.of (.notFound "Cascade" (toString root)))
    | invocations => do
      return .ofFields 200
        [("root", .int root), ("running", .bool (s.world.engine.isRunning root)),
         ("invocations", .list (← invocations.mapM (shownInvocation time)))]

/-- Why a body does not give parameters. -/
inductive BodyFlaw where
  /-- It cannot be read at all. -/
  | unreadable
  | notJson (refusal : Json.Refusal)
  | notAnObject (body : Value)

/-- The text of a body in whatever encoding. A mark before the text that tells its
encoding is no part of it. -/
def bodyText? (body : String) : Option String :=
  let octets := Text.Utf8.encode body
  match Text.Encoding.detect octets with
  | .utf8 => some (if body.startsWith "\ufeff" then (body.drop 1).toString else body)
  | encoding => Text.Encoding.decode? octets encoding

/-- The parameters in a body. No body, an empty one and null have none. -/
def readBody : Option String → Except BodyFlaw Fields
  | none | some "" => .ok []
  | some body =>
    match (bodyText? body).map Json.parse with
    | none => .error .unreadable
    | some (.ok .null) => .ok []
    | some (.ok (.map fields)) => .ok fields
    | some (.ok other) => .error (.notAnObject other)
    | some (.error refusal) =>
      if refusal.objection = .length || refusal.objection.isDepth then .error .unreadable
      else .error (.notJson refusal)

/-- Has a request handled. -/
def handle (s : Server) (path : String) (parameters : Fields) : Server × Except Error Reply :=
  let (world, answer) := s.world.perform (.handle path parameters)
  (keepRows { s with world }, answer.bind fun a =>
    match a with
    | .fields body => Reply.ofAnswer body
    | _ => Reply.ofAnswer [])

/-- Replies where parts of the request are invalid. -/
def refuse (s : Server) (path : String) (parts : List InvalidPart) :
    Server × Except Error Reply :=
  (s.emit (invalidNote parts path), .ok (invalidReply parts))

/-- Follows a route. -/
def follow (s : Server) (time : String) (request : Request) (path : String) :
    Route → Server × Except Error Reply
  | .health =>
    (s, .ok (.ofFields 200
      [("status", .text "healthy"), ("service", .text "concord"), ("version", .text "0.1.0")]))
  | .page => (s, .ok ⟨200, none⟩)
  | .ready =>
    let (s, reply) := s.readiness
    (s, .ok reply)
  | .cascade root =>
    match Coercion.intOfText root with
    | .number root => (s, s.showCascade time root)
    | .tooLong _ => s.refuse path [.tooLong root]
    | .unreadable => s.refuse path [.notANumber root]
  | .request place =>
    let wanted := place.orElse fun _ => request.target.parameter? pathPlace
    let missing := if wanted.isNone then [InvalidPart.missing pathPlace] else []
    let parameters :=
      if request.method = "GET" then .ok request.target.parameters else readBody request.body
    match parameters, wanted with
    | .ok parameters, some wanted => s.handle wanted parameters
    | .ok _, none => s.refuse path missing
    | .error .unreadable, _ => (s, .ok unreadable)
    | .error (.notJson refusal), _ => s.refuse path [.notJson refusal]
    | .error (.notAnObject body), _ => s.refuse path (missing ++ [.notAnObject body])

/-- Logs an error and keeps it from the caller. -/
def hide (s : Server) (path : String) (error : Error) : Server × Except Error Reply :=
  (s.emit (unhandledNote error path), .ok unhandledReply)

/-- Tells the caller of an error. Giving up is not told. -/
def tell (s : Server) (time path : String) : Except Error Reply → Server × Except Error Reply
  | .ok reply => (s, .ok reply)
  | .error (.described f) =>
    let s := s.emit (failureNote f path)
    match (failureReply f time).encoded with
    | .ok reply => (s, .ok reply)
    | .error error => s.hide path error
  | .error (.plain .cancelled text) => (s, .error (.plain .cancelled text))
  | .error error => s.hide path error

/-- Answers a request. -/
def answer (s : Server) (time : String) (request : Request) : Server × Except Error Reply :=
  let path := shownPath request.target.path
  let (s, result) := match Route.find s.requests request.method request.target.path with
    | .route route =>
      let (s, result) := s.follow time request path route
      s.tell time path result
    | .wrongMethod => (s, .ok (.notice 405 "Method Not Allowed"))
    | .elsewhere => (s, .ok ⟨307, none⟩)
    | .nothing => (s, .ok (.notice 404 "Not Found"))
    | .failed error => s.hide path error
  -- a question for the head of a reply gets no body
  (s, result.map fun reply => if request.method = "HEAD" then { reply with body := none } else reply)

end Server

end Choreography.Http
