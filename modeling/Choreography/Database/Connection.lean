import Choreography.Database.Address
import Choreography.Database.Driver
import Choreography.Text.Case

/-! How a database is reached: by a driver, which must be there and able to wait, and with
arguments that are read from the address. -/

namespace Choreography

namespace DatabaseAddress

/-- The name of a database, and the driver for it. -/
def driver (a : DatabaseAddress) : Except Error (String × Driver) := do
  let (database, name) ← match a.kind.splitOn "+" with
    | [database] => .ok (database, "base")
    | [database, name] => .ok (database, name)
    | _ => .error (.plain .value "too many values to unpack (expected 2)")
  match Driver.find? database name with
  | some .other => throw (.plain .attribute "")
  | some driver => return (database, driver)
  | none =>
    let dotted := ".".intercalate (a.kind.splitOn "+")
    throw (.plain .noSuchModule s!"Can't load plugin: sqlalchemy.dialects:{dotted}")

/-- Makes sure that no plugins are wanted. There are none. -/
def withoutPlugins (a : DatabaseAddress) : Except Error Unit :=
  match a.valuesOf "plugin" with
  | [] => .ok ()
  | name :: _ => .error (.plain .noSuchModule ("Can't load plugin: sqlalchemy.plugins:" ++ name))

/-! Arguments of a parameter, which is given once or more. -/

def flagArgument : List String → Except Error Bool
  | [] => .ok false
  | [text] =>
    let word := Text.inSmallLetters (String.ofList (Numeral.unpadded text.toList))
    if ["true", "yes", "on", "y", "t", "1"].contains word then .ok true
    else if ["false", "no", "off", "n", "f", "0"].contains word then .ok false
    else .error (.plain .value ("String is not true/false: " ++ Text.quoted word))
  | _ => .ok true

def numberArgument : List String → Except Error Unit
  | [] => .ok ()
  | [text] =>
    if Numeral.isNumber text then .ok ()
    else .error (.plain .value ("could not convert string to float: " ++ Text.quoted text))
  | _ => .error (.plain .type "float() argument must be a string or a real number, not 'tuple'")

def wholeArgument : List String → Except Error Unit
  | [] => .ok ()
  | [text] => (portNumber.number text).map fun _ => ()
  | _ => .error (.plain .type
      "int() argument must be a string, a bytes-like object or a real number, not 'tuple'")

/-- The parameters of a database in a file, beside those of the name of the file. -/
def fileParameters : List String :=
  ["uri", "timeout", "isolation_level", "detect_types", "check_same_thread", "cached_statements"]

/-- Makes sure that a database in a file can be reached: it has no host, and its
parameters are as they should be. -/
def checkFile (a : DatabaseAddress) : Except Error Unit := do
  let isThere (part : Option String) : Bool := part.any (· != "")
  let port ← a.portNumber
  if isThere a.user || isThere a.password || isThere a.host || port.any (· != 0) then
    throw (.plain .argument (s!"Invalid SQLite URL: {a.shown}\n" ++
      "Valid SQLite URL forms are:\n sqlite:///:memory: (or, sqlite://)\n " ++
      "sqlite:///relative/path/to/file.db\n sqlite:////absolute/path/to/file.db"))
  let isNamed ← flagArgument (a.valuesOf "uri")
  numberArgument (a.valuesOf "timeout")
  wholeArgument (a.valuesOf "detect_types")
  let _ ← flagArgument (a.valuesOf "check_same_thread")
  wholeArgument (a.valuesOf "cached_statements")
  let others := a.parameters.filter fun entry => !fileParameters.contains entry.1
  if isNamed && !others.isEmpty && a.database.isNone then
    throw (.plain .type "unsupported operand type(s) for +=: 'NoneType' and 'str'")

/-- Hosts among the parameters, and ports as they are written, if there are any. -/
structure Hosts where
  names : Option (List String) := none
  ports : Option (List (Option String)) := none

/-- A host and its port, which stands after a colon, as far as there are two such pieces. -/
def hostPieces (text : String) : List (Option String) :=
  match text.splitOn ":" with
  | [host] => [some host, none]
  | pieces => pieces.map some

/-- The host and the port of the only text that gives a host, if it is in that form. -/
def onlyHost? (text : String) : Option Hosts :=
  match text.splitOn ":" with
  | [host, port] =>
    let isHost (c : Char) : Bool := c.isAlphanum || c = '-' || c = '.'
    let isPort (letter : Text.Letter) : Bool := (Text.digit? letter).isSome
    if host.toList.all isHost && (Text.letters port).all isPort then
      some { names := some [host], ports := some [if port = "" then none else some port] }
    else none
  | _ => none

/-- The hosts among the parameters, where ports are given in another place or in none. -/
def hostsAlone (a : DatabaseAddress) : Except Error Hosts :=
  match a.valuesOf "host" with
  | [] => .ok {}
  | [text] =>
    let names := text.splitOn ","
    let only? := if names.length = 1 && a.valuesOf "port" = [] then onlyHost? text else none
    .ok (only?.getD { names := some names })
  | texts =>
    let pieces := texts.map hostPieces
    if pieces.all (2 < ·.length) then
      .error (.plain .value "too many values to unpack (expected 2)")
    else
      let nth (n : Nat) : List (Option String) := pieces.map fun ps => ps[n]?.join
      .ok { names := some ((nth 0).map (·.getD "")), ports := some (nth 1) }

/-- The hosts and ports among the parameters: several hosts, each with its port after a
colon, or hosts and ports apart, with commas between them. -/
def hosts (a : DatabaseAddress) : Except Error Hosts := do
  let hosts ← a.hostsAlone
  match a.valuesOf "port", hosts.ports with
  | [], _ => return hosts
  | _, some _ =>
    throw (.plain .argument ("Can't mix 'multihost' formats together; use " ++
      "\"host=h1,h2,h3&port=p1,p2,p3\" or \"host=h1:p1&host=h2:p2&host=h3:p3\" separately"))
  | [text], none => return { hosts with ports := some ((text.splitOn ",").map some) }
  | texts, none => return { hosts with ports := some (texts.map some) }

/-- The numbers of ports, of which some may be left out. -/
def portNumbers (ports : List (Option String)) : Except Error (List (Option Int)) :=
  ports.mapM fun port =>
    match port with
    | none | some "" => .ok none
    | some text =>
      match Numeral.whole text with
      | .number n => .ok (some n)
      | _ =>
        let shown := tupleText (ports.map fun port => (port.map Text.quoted).getD "None")
        .error (.plain .argument ("Received non-integer port arguments: " ++ shown))

/-- What is wrong with hosts and the numbers of their ports, if anything is. -/
def mismatch? (hosts : Hosts) (numbers : List (Option Int)) : Option String :=
  let names := hosts.names.getD []
  let several := 1 < names.length || 1 < numbers.length
  if hosts.ports.isSome && names.length != numbers.length && several then
    some "number of hosts and ports don't match"
  else if names.length < 2 then none
  else if names.contains "" then
    some "All hosts are required to be present for asyncpg multiple host URL"
  else if numbers.isEmpty || numbers.any (!·.any (· != 0)) then
    some "All ports are required to be present for asyncpg multiple host URL"
  else none

/-- Makes sure that the hosts and ports of a database on other machines go together. -/
def checkHosts (a : DatabaseAddress) : Except Error Unit := do
  let hosts ← a.hosts
  let numbers ← portNumbers (hosts.ports.getD [])
  if let some text := mismatch? hosts numbers then throw (.plain .argument text)
  wholeArgument (a.valuesOf "prepared_statement_cache_size")

/-- Finds out whether a database can be worked with, as far as its address tells. -/
def check (a : DatabaseAddress) : Except Error Unit := do
  let _ ← a.portNumber
  a.withoutPlugins
  let (database, driver) ← a.driver
  if let .missing module := driver then throw (.plain .moduleNotFound s!"No module named '{module}'")
  if database = "sqlite" then a.checkFile else a.checkHosts
  if let .blocking name := driver then
    throw (.plain .invalidRequest ("The asyncio extension requires an async driver to be used. " ++
      s!"The loaded '{name}' is not async."))

/-- The database at an address, if it can be worked with. -/
def reach (text : String) : Except Error DatabaseAddress := do
  match ofText? text with
  | none => throw (.plain .argument "Could not parse SQLAlchemy URL from given URL string")
  | some address =>
    address.check
    return address

/-- Whether a database is in memory, as a file would be: its address names no file, or
says so. -/
def isInMemory (a : DatabaseAddress) : Bool :=
  let file := a.database.getD ""
  let isNamed := (flagArgument (a.valuesOf "uri")).toOption.getD false
  let inside := file.startsWith "file:" &&
    ((a.valuesOf "mode").contains "memory" || file = "file::memory:")
  a.kind.startsWith "sqlite" && (file = "" || file = ":memory:" || isNamed && inside)

end DatabaseAddress

end Choreography
