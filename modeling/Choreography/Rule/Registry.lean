import Choreography.Rule

/-! The rules of an engine, and an index by the actions they listen for. Names are
unique, and once frozen a registry accepts no more rules. -/

namespace Choreography

/-- The rules that listen for each action, in the order of their registration. -/
abbrev RuleIndex := List (ActionRef × List Rule)

namespace RuleIndex

def rulesFor (index : RuleIndex) (action : ActionRef) : List Rule :=
  (List.lookup action index).getD []

/-- Enters a rule under one action. -/
def add (index : RuleIndex) (rule : Rule) (action : ActionRef) : RuleIndex :=
  match index with
  | [] => [(action, [rule])]
  | (listed, rules) :: rest =>
    if listed = action then (listed, rules ++ [rule]) :: rest
    else (listed, rules) :: add rest rule action

end RuleIndex

structure RuleRegistry where
  rules : List Rule := []
  index : RuleIndex := []
  frozen : Bool := false

namespace RuleRegistry

def name : String := "RuleRegistry"

def get? (registry : RuleRegistry) (ruleName : String) : Option Rule :=
  registry.rules.find? (·.name == ruleName)

def rulesFor (registry : RuleRegistry) (action : ActionRef) : List Rule :=
  registry.index.rulesFor action

def register (registry : RuleRegistry) (rule : Rule) : Except Error RuleRegistry :=
  if registry.frozen then .error (.of (.frozen name))
  else if (registry.get? rule.name).isSome then .error (Rule.refuse rule.name .nameTaken)
  else
    .ok { registry with
      rules := registry.rules ++ [rule]
      index := rule.triggers.foldl (fun index action => index.add rule action) registry.index }

/-- Registers rules one by one, each as soon as it is there, up to the first that is
refused or cannot be had. Those before it stay registered. -/
def registerAll (registry : RuleRegistry) :
    List (Except Error Rule) → RuleRegistry × Except Error Unit
  | [] => (registry, .ok ())
  | rule :: rest =>
    match rule >>= registry.register with
    | .ok grown => grown.registerAll rest
    | .error e => (registry, .error e)

/-- The registry of given rules. -/
def ofRules (rules : List Rule) : Except Error RuleRegistry :=
  rules.foldlM register {}

def freeze (registry : RuleRegistry) : RuleRegistry := { registry with frozen := true }

/-- The distinct actions of all patterns. -/
def actions (registry : RuleRegistry) : List ActionRef :=
  let all := registry.rules.flatMap fun r => (r.whens ++ r.thens).map (·.action)
  all.foldl (fun seen a => if a ∈ seen then seen else seen ++ [a]) []

end RuleRegistry

end Choreography
