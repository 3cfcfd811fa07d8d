import Choreography.Passthrough
import Choreography.Settings.Coercion

/-! Settings. Each has a default and may be given a value, in which case all that is wrong
with the values is found at once. -/

namespace Choreography

structure Settings where
  maxDepth : Int := 32
  enrichmentTimeout : Double := .ofInt 10
  requestTimeout : Double := .ofInt 15
  retention : Int := 1000
  baseUrl : String := "/api"
  passthroughDefault : Bool := false
  passthroughPath : Option String := none
  persist : Bool := false
  databaseUrl : String := "postgresql+asyncpg://concord:concord@db:5432/concord"
  poolSize : Int := 20
  poolOverflow : Int := 10
  corsOrigins : List String := ["http://localhost:5173"]
  logLevel : String := "INFO"
  logFormat : String := "json"

/-- Flaws, and where they are. -/
abbrev Flaws := List (String × Flaw)

/-- One setting: its name, and what becomes of the settings when it is given. -/
structure Setting where
  name : String
  /-- Whether the environment gives it as JSON. -/
  inJson : Bool := false
  give : Settings → Value → Except Flaws Settings

namespace Setting

/-- A setting of one value. -/
def single (name : String) (read : Value → Except Flaw α) (put : Settings → α → Settings) :
    Setting where
  name
  give settings value := ((read value).mapError fun flaw => [(name, flaw)]).map (put settings)

/-- The texts of a list, or the flaw of every other thing in it. -/
def textsFrom (name : String) (index : Nat) : List Value → Except Flaws (List String)
  | [] => .ok []
  | value :: rest =>
    match Coercion.text value, textsFrom name (index + 1) rest with
    | .ok s, .ok more => .ok (s :: more)
    | .ok _, .error flaws => .error flaws
    | .error flaw, .ok _ => .error [(s!"{name}.{index}", flaw)]
    | .error flaw, .error flaws => .error ((s!"{name}.{index}", flaw) :: flaws)

/-- A setting of several texts. -/
def texts (name : String) (put : Settings → List String → Settings) : Setting where
  name
  inJson := true
  give settings value :=
    match value with
    | .list items => (textsFrom name 0 items).map (put settings)
    | _ => .error [(name, .notAList)]

/-- A database address with the driver that is used for its kind. -/
def withDriver (url : String) : String :=
  let plain := "postgresql://"
  if url.startsWith plain then "postgresql+asyncpg://" ++ (url.drop plain.length).toString else url

def all : List Setting :=
  [single "max_cascade_depth" Coercion.int fun s n => { s with maxDepth := n },
   single "enrichment_timeout_seconds" Coercion.float fun s x => { s with enrichmentTimeout := x },
   single "request_timeout_seconds" Coercion.float fun s x => { s with requestTimeout := x },
   single "log_retention_cascades" Coercion.int fun s n => { s with retention := n },
   single "base_url" Coercion.text fun s t => { s with baseUrl := normalRoute t },
   single "passthrough_default" Coercion.flag fun s b => { s with passthroughDefault := b },
   single "passthrough_config_path" Coercion.optionalText fun s t => { s with passthroughPath := t },
   single "persist_invocations" Coercion.flag fun s b => { s with persist := b },
   single "database_url" Coercion.text fun s t => { s with databaseUrl := withDriver t },
   single "database_pool_size" Coercion.int fun s n => { s with poolSize := n },
   single "database_max_overflow" Coercion.int fun s n => { s with poolOverflow := n },
   texts "cors_origins" fun s ts => { s with corsOrigins := ts },
   single "log_level" Coercion.text fun s t => { s with logLevel := t },
   single "log_format" Coercion.text fun s t => { s with logFormat := t }]

def find? (name : String) : Option Setting := all.find? (·.name == name)

end Setting

namespace Settings

/-- Gives settings their values one by one, and collects what is wrong. -/
def giveAll (settings : Settings) : Fields → Settings × Flaws
  | [] => (settings, [])
  | (name, value) :: rest =>
    match Setting.find? name with
    | none =>
      let (settings, flaws) := settings.giveAll rest
      (settings, (name, .unwanted) :: flaws)
    | some setting =>
      match setting.give settings value with
      | .ok settings => settings.giveAll rest
      | .error found =>
        let (settings, flaws) := settings.giveAll rest
        (settings, found ++ flaws)

def toFields (s : Settings) : Fields :=
  [("max_cascade_depth", .int s.maxDepth), ("enrichment_timeout_seconds", .float s.enrichmentTimeout),
   ("request_timeout_seconds", .float s.requestTimeout), ("log_retention_cascades", .int s.retention),
   ("base_url", .text s.baseUrl), ("passthrough_default", .bool s.passthroughDefault),
   ("passthrough_config_path", .ofOption .text s.passthroughPath),
   ("persist_invocations", .bool s.persist), ("database_url", .text s.databaseUrl),
   ("database_pool_size", .int s.poolSize), ("database_max_overflow", .int s.poolOverflow),
   ("cors_origins", .list (s.corsOrigins.map .text)), ("log_level", .text s.logLevel),
   ("log_format", .text s.logFormat)]

end Settings

/-- Flaws by place and then by name. -/
def Flaws.listed (flaws : Flaws) : List (String × String) :=
  (flaws.map fun f => (f.1, f.2.name)).mergeSort fun a b =>
    if a.1 = b.1 then Text.le a.2 b.2 else Text.le a.1 b.1

end Choreography
