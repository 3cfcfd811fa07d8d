import Choreography.Error
import Choreography.Http.Host
import Choreography.Text.Escape

/-! What a request asks for: a path and the parameters after it, in both of which there
may be escapes. -/

namespace Choreography.Http

/-- A path without its dot segments: one dot means nothing, two dots go up. -/
def dropDots (segments : List String) : List String :=
  segments.foldl (fun kept segment =>
    if segment = "." then kept
    else if segment = ".." then
      if kept = [] ∨ kept = [""] then kept else kept.dropLast
    else kept ++ [segment]) []

/-- The parameters in a query. Of two with one name the later counts. -/
def parameters (query : String) : Fields :=
  Fields.ofList ((Text.parameters query).map fun parameter => (parameter.1, .text parameter.2))

structure Target where
  path : String
  parameters : Fields

/-- What a parameter holds, if there is one with the name. -/
def Target.parameter? (target : Target) (name : String) : Option String :=
  match target.parameters.lookup name with
  | some (.text text) => some text
  | _ => none

/-- An address that nothing can be asked for. -/
def badAddress (text : String) : Error := .plain .invalidUrl text

/-- The most characters of an address. -/
def longestAddress : Nat := 65536

/-- Whether a query keeps a character as it is. -/
def isQueryChar (c : Char) : Bool :=
  '!' ≤ c && c ≤ '~' && !(['"', '#', '<', '>'].contains c)

/-- Whether a path keeps a character as it is. -/
def isPathChar (c : Char) : Bool :=
  isQueryChar c && !(['?', '\x60', '\x7b', '\x7d'].contains c)

/-- An address in its parts. -/
structure Address where
  scheme : List Char := []
  /-- What comes after two slashes: perhaps a user, a host and a port. -/
  authority : List Char := []
  path : List Char
  query : List Char := []
  /-- What comes after a number sign, which is not asked for. -/
  fragment : List Char := []

namespace Address

def isSchemePart (c : Char) : Bool := c.isAlphanum || c = '+' || c = '.' || c = '-'

/-- A scheme before a colon, and what is after it. -/
def splitScheme (cs : List Char) : List Char × List Char :=
  let scheme := cs.takeWhile isSchemePart
  match cs.dropWhile isSchemePart with
  | ':' :: rest => if scheme.head?.all Char.isAlpha then (scheme, rest) else ([], cs)
  | _ => ([], cs)

/-- Takes an address apart. -/
def ofText (text : String) : Address :=
  let fragment := (text.toList.dropWhile (· != '#')).drop 1
  let (scheme, rest) := splitScheme (text.toList.takeWhile (· != '#'))
  let isAuthority (c : Char) : Bool := c != '/' && c != '?'
  let (authority, rest) := match rest with
    | '/' :: '/' :: after => (after.takeWhile isAuthority, after.dropWhile isAuthority)
    | _ => ([], rest)
  { scheme, authority, path := rest.takeWhile (· != '?')
    query := (rest.dropWhile (· != '?')).drop 1, fragment }

/-- The user before the last at sign. -/
def user (a : Address) : List Char := (a.authority.reverse.dropWhile (· != '@')).reverse

/-- The authority without a user, who stands before the last at sign. -/
def server (a : Address) : List Char := (a.authority.reverse.takeWhile (· != '@')).reverse

/-- How many characters of a server are its host: all up to the last closing bracket if
it begins with an opening one, or else up to a colon. -/
def hostLength (server : List Char) : Nat :=
  let afterBracket := server.reverse.takeWhile (· != ']')
  if server.head? = some '[' && server.contains ']' then server.length - afterBracket.length
  else (server.takeWhile (· != ':')).length

def host (a : Address) : List Char := a.server.take (hostLength a.server)

/-- What stands after the host. A colon between them does not count. -/
def port (a : Address) : List Char :=
  match a.server.drop (hostLength a.server) with
  | ':' :: rest => rest
  | rest => rest

/-- Whether the address says by itself where it leads. -/
def isAbsolute (a : Address) : Bool := !a.scheme.isEmpty && !a.host.isEmpty

/-- Whether the address names neither a scheme nor a server. -/
def isLocal (a : Address) : Bool :=
  a.scheme.isEmpty && a.host.isEmpty && a.port.isEmpty && !a.authority.contains '@'

def isPort (port : List Char) : Bool :=
  match Numeral.whole (String.ofList port) with
  | .number _ => true
  | _ => false

/-- What is wrong with the parts of an address, if anything is. -/
def misshapen? (a : Address) : Option String :=
  let host := String.ofList a.host
  if let some flaw := Host.flaw? host then some (flaw ++ ": " ++ Text.quoted host)
  else if !a.port.isEmpty && !isPort a.port then
    some ("Invalid port: " ++ Text.quoted (String.ofList a.port))
  else if a.isLocal && ['/', '/'].isPrefixOf a.path then
    some "Relative URLs cannot have a path starting with '//'"
  else if a.isLocal && [':'].isPrefixOf a.path then
    some "Relative URLs cannot have a path starting with ':'"
  else none

/-- The path without dot segments. -/
def plainPath (path : List Char) : String :=
  "/".intercalate (dropDots ((String.ofList path).splitOn "/"))

/-- The path without dot segments. That of an address which names no place is left. -/
def writtenPath (a : Address) : String :=
  if a.isLocal then String.ofList a.path else plainPath a.path

/-- The path of an address that does not lead anywhere by itself, in the place where it
leads: it begins with one slash. -/
def joinedPath (a : Address) : List Char :=
  '/' :: a.writtenPath.toList.dropWhile (· == '/')

def pathAtServer (a : Address) : String :=
  let path := if a.isAbsolute then a.writtenPath else plainPath a.joinedPath
  if path = "" then "/" else path

/-- A part of an address that gets too long where the address leads. -/
def overlong? (a : Address) : Option String :=
  let part (name : String) (isKept : Char → Bool) (cs : List Char) : Option String :=
    if (Text.escape isKept (String.ofList cs)).length ≤ longestAddress then none
    else some s!"URL component '{name}' too long"
  if a.isAbsolute then none
  else (part "path" isPathChar a.joinedPath).orElse fun _ => part "query" isQueryChar a.query

/-- The error of an address that cannot be followed. -/
def flaw? (a : Address) : Option Error :=
  let encodable (cs : List Char) : Option Error := Error.unencodableLetter? (String.ofList cs)
  (encodable a.user).orElse fun _ =>
  (a.misshapen?.map badAddress).orElse fun _ =>
  (Error.unencodableLetter? a.writtenPath).orElse fun _ =>
  (encodable a.query).orElse fun _ =>
  (encodable a.fragment).orElse fun _ =>
  a.overlong?.map badAddress

end Address

/-- What an address asks for. -/
def Target.ofText (text : String) : Except Error Target :=
  let letters := Text.letters text
  let isPlain (letter : Text.Letter) : Bool := 32 ≤ letter && letter != 127
  if longestAddress < letters.length then .error (badAddress "URL too long")
  else
    match letters.dropWhile isPlain with
    | letter :: _ =>
      let place := (letters.takeWhile isPlain).length
      .error (badAddress (s!"Invalid non-printable ASCII character in URL, " ++
        s!"{Text.quoted (Text.ofLetter letter)} at position {place}."))
    | [] =>
      let address := Address.ofText text
      match address.flaw? with
      | some error => .error error
      | none => .ok
        { path := Text.unescape address.pathAtServer
          parameters := Http.parameters (String.ofList address.query) }

/-- A character of a path as the log shows it. -/
def shownChar (c : Char) : String :=
  match c with
  | '?' => "%3F"
  | '#' => "%23"
  | '\\' => "%5C"
  | '\t' | '\n' | '\r' => ""
  | c => c.toString

/-- The path as the log shows it. -/
def shownPath (path : String) : String := String.join (path.toList.map shownChar)

end Choreography.Http
