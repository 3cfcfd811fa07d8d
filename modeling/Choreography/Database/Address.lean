import Choreography.Error
import Choreography.Text.Escape
import Choreography.Text.Numeral

/-! Addresses of databases: the kind of the database, perhaps a user, a host and a port,
the database itself and parameters. -/

namespace Choreography

/-- An address of a database in its parts. -/
structure DatabaseAddress where
  /-- The kind of the database, and perhaps its driver after a plus sign. -/
  kind : String
  user : Option String := none
  password : Option String := none
  host : Option String := none
  /-- The port as it is written. -/
  port : Option String := none
  database : Option String := none
  /-- The values of each parameter. -/
  parameters : List (String × List String) := []

namespace DatabaseAddress

/-- A user and a password before an at sign, and what comes after it. The user ends at
the last at sign before a colon or a slash, unless a password follows, which ends at the
first at sign after it. -/
def splitUser (rest : List Char) : Option (List Char × Option (List Char)) × List Char :=
  let isUser (c : Char) : Bool := c != ':' && c != '/'
  let user := rest.takeWhile isUser
  let others := rest.dropWhile isUser
  let withoutPassword :=
    match user.reverse.dropWhile (· != '@') with
    | _ :: before =>
      (some (before.reverse, none), (user.reverse.takeWhile (· != '@')).reverse ++ others)
    | [] => (none, rest)
  match others with
  | ':' :: password =>
    match password.dropWhile (· != '@') with
    | _ :: after => (some (user, some (password.takeWhile (· != '@'))), after)
    | [] => withoutPassword
  | _ => withoutPassword

/-- A host, and what comes after it. It may stand between brackets, where it may have
colons. -/
def splitHost (rest : List Char) : Option (List Char) × List Char :=
  let isHost (c : Char) : Bool := c != '/' && c != '?' && c != ':'
  let plain :=
    match rest.takeWhile isHost with
    | [] => (none, rest)
    | host => (some host, rest.dropWhile isHost)
  match rest with
  | '[' :: inside =>
    let run := inside.takeWhile fun c => c != '/' && c != '?'
    match run.reverse.dropWhile (· != ']') with
    | _ :: c :: before =>
      let host := (c :: before).reverse
      (some host, inside.drop (host.length + 1))
    | _ => plain
  | _ => plain

/-- A port after a colon, and what comes after it. -/
def splitPort : List Char → Option (List Char) × List Char
  | ':' :: rest =>
    let isPort (c : Char) : Bool := c != '/' && c != '?'
    (some (rest.takeWhile isPort), rest.dropWhile isPort)
  | rest => (none, rest)

/-- Parameters by name, each with all its values. -/
def gather (parameters : List (String × String)) : List (String × List String) :=
  parameters.foldl (fun gathered parameter =>
    if gathered.any (·.1 == parameter.1) then
      gathered.map fun entry =>
        if entry.1 = parameter.1 then (entry.1, entry.2 ++ [parameter.2]) else entry
    else gathered ++ [(parameter.1, [parameter.2])]) []

/-- Takes an address apart. -/
def ofText? (text : String) : Option DatabaseAddress :=
  let letters := Text.letters text
  let isKind (letter : Text.Letter) : Bool := Text.isWordLetter letter || letter = '+'.toNat
  let kind := letters.takeWhile isKind
  match kind, (Text.ofLetters (letters.dropWhile isKind)).toList with
  | _ :: _, ':' :: '/' :: '/' :: rest =>
    let (user, rest) := splitUser rest
    let (host, rest) := splitHost rest
    let (port, rest) := splitPort rest
    let (database, rest) := match rest with
      | '/' :: rest => (some (rest.takeWhile (· != '?')), rest.dropWhile (· != '?'))
      | rest => (none, rest)
    let query := match rest with
      | '?' :: query => query.takeWhile (· != '\n')
      | _ => []
    let parameters := (Text.parameters (String.ofList query)).filter (·.2 != "")
    let text (cs : List Char) : String := Text.unescape (String.ofList cs)
    some
      { kind := Text.ofLetters kind
        user := user.map fun u => text u.1
        password := user.bind fun u => u.2.map text
        host := host.map String.ofList
        port := port.map String.ofList
        database := database.map text
        parameters := gather parameters }
  | _, _ => none

/-- The values of a parameter. -/
def valuesOf (a : DatabaseAddress) (name : String) : List String :=
  (a.parameters.lookup name).getD []

/-- The number of the port, if there is one. -/
def portNumber (a : DatabaseAddress) : Except Error (Option Int) :=
  match a.port with
  | none => .ok none
  | some port => (number port).map some
where
  number (text : String) : Except Error Int :=
    match Numeral.whole text with
    | .number n => .ok n
    | .tooLong digits => .error (.plain .value (Numeral.tooManyDigits digits))
    | .unreadable => .error (.plain .value (Numeral.notWhole text))

/-- The address in its usual form, without the password. -/
def shown (a : DatabaseAddress) : String :=
  let isKept (more : List Char) (c : Char) : Bool := Text.isUnreserved c || more.contains c
  let user := a.user.map fun user =>
    Text.escape (isKept [' ', '+']) user ++ (if a.password.isSome then ":***" else "") ++ "@"
  let host := a.host.map fun host => if host.contains ':' then s!"[{host}]" else host
  let port := (a.portNumber.toOption.join).map fun port => s!":{port}"
  let database := a.database.map fun database => "/" ++ Text.escape (isKept [' ', '+', '/']) database
  let sorted := a.parameters.mergeSort fun x y => Text.le x.1 y.1
  let pairs := sorted.flatMap fun entry =>
    entry.2.map fun value => Text.parameterText entry.1 ++ "=" ++ Text.parameterText value
  let query := if pairs.isEmpty then "" else "?" ++ "&".intercalate pairs
  a.kind ++ "://" ++ user.getD "" ++ host.getD "" ++ port.getD "" ++ database.getD "" ++ query

end DatabaseAddress

end Choreography
