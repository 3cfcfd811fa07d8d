import Choreography.Json.Reader
import Choreography.Settings
import Choreography.Settings.CommandLine
import Choreography.Settings.Environment

/-! Where settings come from: the environment, what is given outright, and a command line.
If several of them have a setting, the last of these counts. Among what is given outright
are also directives, which say how the environment and the command line are read. -/

namespace Choreography

inductive SettingsError where
  /-- A list is not given as JSON. -/
  | notJson (name : String)
  /-- A command line cannot be read. -/
  | unreadableLine
  | flawed (flaws : Flaws)
  | failed (error : Error)

/-- What a source of settings gives. -/
abbrev Given := Except SettingsError Fields

/-- How many lists and maps may hold each other in a setting. -/
def deepestSetting : Nat := 980

/-- A list in JSON. -/
def listOf? (name text : String) : Except SettingsError Value :=
  match Json.parseWithin deepestSetting text with
  | .ok value => .ok value
  | .error refusal =>
    if refusal.objection.isDepth then .error (.failed (.plain .recursion refusal.objection.message))
    else .error (.notJson name)

/-! Directives. -/

/-- The names under which the reading of the environment is directed, beside the settings. -/
def environmentDirectives : List String :=
  ["_case_sensitive", "_env_prefix", "_env_prefix_target", "_env_file", "_env_file_encoding",
   "_env_ignore_empty", "_env_nested_delimiter", "_env_nested_max_split", "_env_parse_none_str",
   "_env_parse_enums", "_nested_model_default_partial_update", "_secrets_dir", "_build_sources"]

/-- The names under which the reading of a command line is directed. -/
def lineDirectives : List String :=
  ["prog_name", "parse_args", "settings_source", "parse_none_str", "hide_none_type", "avoid_json",
   "enforce_required", "use_class_docs_for_groups", "exit_on_error", "prefix", "flag_prefix_char",
   "implicit_flags", "ignore_unknown_args", "kebab_case", "shortcuts"].map ("_cli_" ++ ·)

/-- Directives by their names. -/
structure Directives where
  fields : Fields

namespace Directives

def isDirective (name : String) : Bool :=
  environmentDirectives.contains name || lineDirectives.contains name

/-- The directives among what is given. -/
def ofGiven (given : Fields) : Directives := ⟨given.filter fun entry => isDirective entry.1⟩

def get (d : Directives) (name : String) : Value := (Fields.get? d.fields name).getD .null

def text? (d : Directives) (name : String) : Option String :=
  match d.get name with
  | .text s => some s
  | _ => none

def flag (d : Directives) (name : String) : Bool := (d.get name).isTruthy

/-- Whether large and small letters are told apart. -/
def exactNames (d : Directives) : Bool := d.flag "_case_sensitive"

/-- What the names in the environment begin with. -/
def opening (d : Directives) : String := (d.text? "_env_prefix").getD ""

/-- What follows the name of a list before the names of its parts. -/
def delimiter (d : Directives) : String := (d.text? "_env_nested_delimiter").getD ""

/-- A name as it counts. -/
def form (d : Directives) (name : String) : String := if d.exactNames then name else Text.inSmallLetters name

/-- The error of a value of which only texts, lists and maps have what is asked for. -/
def scalarError? (value : Value) (text : String → String) : Option Error :=
  match value with
  | .bool _ | .int _ | .float _ => some (.plain .type (text value.typeName))
  | _ => none

/-- Why the environment and its files cannot be opened, if they cannot: names do not begin
with a text, or files are no list. -/
def unopened? (d : Directives) : Option Error :=
  (scalarError? (d.get "_env_prefix") fun type => s!"object of type '{type}' has no len()").orElse
    fun _ => scalarError? (d.get "_env_file") fun type => s!"'{type}' object is not iterable"

/-- Why names in the environment have no beginning, if so. -/
def unnamed? (d : Directives) : Option Error :=
  match d.get "_env_prefix" with
  | .list _ => some (.plain .type "can only concatenate list (not \"str\") to list")
  | .map _ => some (.plain .type "unsupported operand type(s) for +: 'dict' and 'str'")
  | _ => none

/-- Why there is no directory of secrets, if so. -/
def unsearched? (d : Directives) : Option Error :=
  scalarError? (d.get "_secrets_dir") fun type => s!"'{type}' object is not iterable"

/-! The environment. -/

/-- The parts of a setting that the environment gives one by one. -/
def parts (d : Directives) (environment : Environment) (name : String) : Fields :=
  let opening := name ++ d.delimiter
  if d.delimiter = "" then []
  else (environment.filter fun entry => (d.form entry.1).startsWith opening).map fun entry =>
    (((d.form entry.1).drop opening.length).toString, .text entry.2)

/-- What the environment says about a setting. -/
def find? (d : Directives) (environment : Environment) (setting : Setting) :
    Except SettingsError (Option Value) :=
  let environment := environment.filter fun entry =>
    !(d.flag "_env_ignore_empty" && entry.2.isEmpty)
  let wanted := d.form (d.opening ++ setting.name)
  match (environment.filter fun entry => d.form entry.1 == wanted).getLast? with
  | none =>
    match if setting.inJson then d.parts environment wanted else [] with
    | [] => .ok none
    | parts => .ok (some (.map parts))
  | some (_, text) =>
    if d.text? "_env_parse_none_str" = some text then .ok (some .null)
    else if setting.inJson then
      (listOf? setting.name text).map fun value =>
        match value with
        | .null => none
        | value => some value
    else .ok (some (.text text))

/-- What the environment says about all settings. -/
def inEnvironment (d : Directives) (environment : Environment) : Given := do
  if let some error := d.unnamed? then throw (.failed error)
  let found ← Setting.all.mapM fun setting => do
    return (← d.find? environment setting).map fun value => (setting.name, value)
  return found.filterMap id

/-! What is given outright. -/

/-- What is given outright, each setting under its own name. Of several spellings of a
name the first counts. -/
def outright (d : Directives) (given : Fields) : Fields :=
  let plain := given.filter fun entry => !isDirective entry.1
  let spelled := plain.map fun entry =>
    let name := d.form entry.1
    (if (Setting.find? name).isSome then name else entry.1, entry.2)
  Fields.ofList spelled.reverse

/-! The command line. -/

/-- The words of a command line, if there is one. -/
def words (d : Directives) : Except SettingsError (Option (List String)) :=
  let word (value : Value) : Except SettingsError String :=
    match value with
    | .text s => .ok s
    | value =>
      if value.isTruthy then
        .error (.failed (.plain .type
          s!"expected string or bytes-like object, got '{value.typeName}'"))
      else .ok ""
  match d.get "_cli_parse_args" with
  | .list items => (items.mapM word).map some
  | .bool true => .ok (some [])
  | .null | .bool false | .int 0 => .ok none
  | .float x => if Value.isTruthy (.float x) then .error .unreadableLine else .ok none
  | _ => .error .unreadableLine

/-- What stands before a name in its flag, beside the marks: names that points divide. -/
def lineOpening (d : Directives) : Except SettingsError String :=
  match (d.text? "_cli_prefix").getD "" with
  | "" => .ok ""
  | opening =>
    let isStart (c : Char) : Bool := c.isAlpha || c = '_'
    let named := opening.toList.filter (· != '.')
    if opening.startsWith "." || opening.endsWith "." || !named.head?.any isStart ||
        !named.all fun c => isStart c || c.isDigit then .error .unreadableLine
    else .ok (opening ++ ".")

/-- How the command line is written. -/
def line (d : Directives) (opening : String) : CommandLine :=
  let mark := ((d.text? "_cli_flag_prefix_char").bind (·.toList.head?)).getD '-'
  let flag (name : String) : String :=
    let name := opening ++ name
    let name := if d.flag "_cli_kebab_case" then name.replace "_" "-" else name
    String.ofList [mark, mark] ++ name
  let null := (d.text? "_cli_parse_none_str").getD ""
  { flags := Setting.all.map fun setting => (flag setting.name, setting.name)
    mark
    exactFlags := d.exactNames
    skipsUnknown := d.flag "_cli_ignore_unknown_args"
    null := if null != "" then null
      else if d.get "_cli_avoid_json" matches .bool true then "None" else "null" }

/-- What a command line says about a setting, of whose values the last counts. -/
def findIn? (line : CommandLine) (values : List (String × String)) (setting : Setting) :
    Except SettingsError (Option Value) :=
  match (values.filter (·.1 == setting.name)).map (·.2) with
  | [] => .ok none
  | value :: more =>
    if setting.inJson then
      match line.merged? (value :: more) with
      | some text => (listOf? setting.name text).map some
      | none => .error .unreadableLine
    else
      let last := more.getLast?.getD value
      .ok (some (if last = line.null then .null else .text last))

/-- What a command line says about all settings. -/
def onLine (d : Directives) : Given := do
  match ← d.words with
  | none => return []
  | some words =>
    let line := d.line (← d.lineOpening)
    match line.values? words with
    | none => throw .unreadableLine
    | some values =>
      let found ← Setting.all.mapM fun setting => do
        return (← findIn? line values setting).map fun value => (setting.name, value)
      return found.filterMap id

end Directives

/-- The settings for an environment and what is given outright. Where a name that is no
setting cannot be encoded, nothing else is found to be wrong. -/
def Settings.read (environment given : Fields) : Except SettingsError Settings := do
  let environment ← (Environment.ofFields environment).mapError .failed
  let directives := Directives.ofGiven given
  if let some error := directives.unopened? then throw (.failed error)
  let onLine ← directives.onLine
  let found ← directives.inEnvironment environment
  if let some error := directives.unsearched? then throw (.failed error)
  let given := directives.outright given
  if (Fields.names given).any Text.hasHalf then throw (.flawed [("", .unencodable)])
  match giveAll {} (Fields.merge (Fields.merge found given) onLine) with
  | (settings, []) => return settings
  | (_, flaws) => throw (.flawed flaws)

end Choreography
