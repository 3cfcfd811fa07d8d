import Choreography.Database.Connection
import Choreography.Journal
import Choreography.Value.Agreement

/-! The database behind the audit: what is said of its troubles, and how many
connections are kept to it. -/

namespace Choreography

/-- Troubles of a database session. -/
inductive DatabaseTrouble where
  /-- A row breaks a constraint. -/
  | integrity
  /-- The database cannot be reached or fails at work. -/
  | operational
  /-- Anything else that the driver reports. -/
  | driver
  /-- Anything that goes wrong before the driver. -/
  | beforeDriver
deriving DecidableEq

namespace DatabaseTrouble

/-- The trouble that an error of the driver, or of the library over it, is. -/
def ofName : String → DatabaseTrouble
  | "IntegrityError" => .integrity
  | "OperationalError" => .operational
  | "DBAPIError" | "DatabaseError" | "DataError" | "InterfaceError" | "InternalError"
  | "NotSupportedError" | "ProgrammingError" => .driver
  | _ => .beforeDriver

/-- What the log calls the trouble. -/
def title : DatabaseTrouble → String
  | .integrity => "DB integrity error"
  | .operational => "DB operational error"
  | .driver => "DB driver error"
  | .beforeDriver => "SQLAlchemy error"

/-- What the session reports in the place of the trouble. -/
def error : DatabaseTrouble → Error
  | .integrity => .of (.database "commit" "Integrity constraint violated")
  | .operational => .of (.database "execute" "Connection or operational error")
  | .driver => .of (.database "query" "Database driver error")
  | .beforeDriver => .of (.database "unknown" "Database operation failed")

def note (t : DatabaseTrouble) (text : String) : LogRecord where
  level := .error
  logger := "concord.infrastructure.database"
  message := s!"{t.title}: {text}"

end DatabaseTrouble

/-- What a database in a file says when it fails. -/
def DatabaseTrouble.failed (what : String) : String :=
  let page := "sqlalche.me/e/21/e3q8"
  s!"(sqlite3.OperationalError) {what}\n(Background on this error at: https://{page})"

/-- What the database says when the file that it is in cannot be opened. -/
def DatabaseTrouble.cannotOpen : String := failed "unable to open database file"

/-- What the database says when it is asked for rows and has no table for them. -/
def DatabaseTrouble.noTable : String :=
  let table := "invocation_records"
  let columns := ["id", "run_id", "invocation_id", "cascade_root", "depth", "component",
    "operation", "input", "output", "caused_by", "is_error", "created_at"]
  let selected := ", ".intercalate (columns.map fun column => s!"{table}.{column}")
  failed (s!"no such table: {table}\n" ++
    s!"[SQL: SELECT {selected} \nFROM {table} ORDER BY {table}.id]")

/-- The connections to a database. -/
structure Pool where
  size : Value := .int 20
  /-- How many more are opened when all are busy. -/
  overflow : Value := .int 10
  /-- After how many seconds a connection is replaced. -/
  recycle : Int := 3600

/-- Makes sure that a pool can count down from its size. -/
def Pool.checkSize : Value → Except Error Unit
  | .int _ | .bool _ | .float _ => .ok ()
  | size => .error (.plain .type s!"unsupported operand type(s) for -: 'int' and '{size.typeName}'")

/-- The pool for an address and what is said about it. A database in a file needs no pool.
Without a pool there is no end to the connections that are opened beyond it. -/
def Pool.for? (address : Value) (options : Fields) : Except Error (Option Pool) := do
  let known := ["pool_size", "max_overflow"]
  if let some name := (Fields.names options).find? (!known.contains ·) then
    throw (.plain .type
      s!"DatabaseSessionManager.__init__() got an unexpected keyword argument {Text.quoted name}")
  match address with
  | .text address =>
    let address ← DatabaseAddress.reach address
    if address.kind.startsWith "sqlite" then return none
    let size := (Fields.get? options "pool_size").getD (.int 20)
    checkSize size
    let overflow := (Fields.get? options "max_overflow").getD (.int 10)
    return some { size, overflow := if size.agrees (.int 0) then .int (-1) else overflow }
  | _ => throw (.plain .attribute "")

end Choreography
