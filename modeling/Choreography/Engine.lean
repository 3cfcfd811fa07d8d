import Choreography.Dispatch
import Choreography.Match
import Choreography.Rule.Registry

/-! The engine: components, rules and the log, and what it remembers of the runs of
its cascades. A rule fires at most once for one support, and of the drained
cascades only the latest are kept. -/

namespace Choreography

/-- A rule and the invocations for which it fires. -/
structure Firing where
  rule : String
  support : List InvocationId
deriving DecidableEq

structure Limits where
  depth : Int := 32
  /-- How long a where-clause may take. -/
  enrichment : Option Seconds := some (.binary (.ofInt 10))
  /-- How many drained cascades are kept, if not all are. -/
  retention : Option Int := none

structure Engine where
  catalogue : Catalogue := {}
  rules : RuleRegistry := {}
  log : InvocationLog := {}
  limits : Limits := {}
  fired : List Firing := []
  firedByRoot : List (InvocationId × List Firing) := []
  /-- The latest run of each cascade that is at work. -/
  active : List (InvocationId × Nat) := []
  /-- Drained cascades that were not forgotten, the oldest first. -/
  drained : List InvocationId := []

namespace Engine

/-- A listener for an action that nobody offers. -/
def unheardNote (rule : Rule) (action : ActionRef) : LogRecord where
  level := .warning
  logger := "concord.services.sync_engine"
  message := s!"Rule {rule.name} listens for unregistered action {action.text}"
  extra := [("rule", .text rule.name)]

/-- Checks one rule against the catalogue. -/
def validateRule (e : Engine) (rule : Rule) : List LogRecord × Except Error Unit :=
  match rule.thens.find? fun p => !e.catalogue.has p.action with
  | some p => ([], .error (Rule.refuse rule.name (.unregisteredTarget p.action)))
  | none =>
    let unheard := rule.whens.filter fun p => !e.catalogue.has p.action
    (unheard.map fun p => unheardNote rule p.action, .ok ())

/-- Checks rules up to the first that calls what nobody offers. -/
def validateRules (e : Engine) : List Rule → List LogRecord × Except Error Unit
  | [] => ([], .ok ())
  | rule :: rest =>
    match e.validateRule rule with
    | (notes, .error error) => (notes, .error error)
    | (notes, .ok ()) =>
      let (more, result) := e.validateRules rest
      (notes ++ more, result)

/-- Checks that every then-pattern can be called, and freezes both registries. -/
def validate (e : Engine) : Engine × List LogRecord × Except Error Unit :=
  match e.validateRules e.rules.rules with
  | (notes, .error error) => (e, notes, .error error)
  | (notes, .ok ()) =>
    ({ e with rules := e.rules.freeze, catalogue := e.catalogue.freeze }, notes, .ok ())

/-- Whether some run of a cascade is at work. -/
def isRunning (e : Engine) (root : InvocationId) : Bool := (List.lookup root e.active).isSome

/-- Notes the latest run of a cascade, in the place of an earlier one. -/
def activate (e : Engine) (root : InvocationId) (run : Nat) : Engine :=
  { e with active := (e.active.filter (·.1 ≠ root)) ++ [(root, run)] }

def deactivate (e : Engine) (root : InvocationId) : Engine :=
  { e with active := e.active.filter (·.1 ≠ root) }

def hasFired (e : Engine) (firing : Firing) : Bool := e.fired.contains firing

/-- Notes that a rule fires for a support of a cascade. -/
def claim (e : Engine) (root : InvocationId) (firing : Firing) : Engine :=
  let known := (List.lookup root e.firedByRoot).getD []
  { e with
    fired := e.fired ++ [firing]
    firedByRoot := (e.firedByRoot.filter (·.1 ≠ root)) ++ [(root, known ++ [firing])] }

/-- Matches a rule around a trigger, leaving out what has fired before. -/
def unfired (e : Engine) (rule : Rule) (trigger : Invocation) : Frames :=
  (rule.matchAt trigger e.log).filter fun f => !e.hasFired ⟨rule.name, f.support⟩

/-- Forgets a cascade, together with what has fired in it. -/
def forget (e : Engine) (root : InvocationId) : Engine :=
  let gone := (List.lookup root e.firedByRoot).getD []
  { e with
    drained := e.drained.erase root
    log := e.log.forget root
    fired := e.fired.filter fun f => !gone.contains f
    firedByRoot := e.firedByRoot.filter (·.1 ≠ root) }

/-- The drained cascades that are beyond the retention and have no run at work. -/
def evictable (e : Engine) (retention : Int) : List InvocationId :=
  let excess := (e.drained.length : Int) - retention
  (e.drained.take excess.toNat).filter fun root => !e.isRunning root

/-- Keeps the latest drained cascades, among them the one that has just drained. -/
def retain (e : Engine) (root : InvocationId) : Engine × List Event :=
  match e.limits.retention with
  | none => (e, [])
  | some retention =>
    let e := if e.drained.contains root then e else { e with drained := e.drained ++ [root] }
    let gone := e.evictable retention
    (gone.foldl forget e, gone.map .forgot)

/-- Logs a call that was completed elsewhere as the beginning of a cascade. -/
def record (e : Engine) (action : ActionRef) (input output : Fields) :
    Except Error (Engine × Invocation) :=
  match e.log.append action input output [] with
  | .ok (log, invocation) => .ok ({ e with log }, invocation)
  | .error failure => .error (.described failure)

end Engine

end Choreography
