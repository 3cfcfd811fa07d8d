import Choreography.Error
import Choreography.Log.Slots
import Choreography.Value.Agreement

/-! The invocation log. Every completed call is logged once, with the invocations
that caused it. Identifiers count upwards and are never used again. The log keeps
the whole ancestry of an invocation, so that a causal question is answered by
looking it up, and whole cascades can be forgotten. -/

namespace Choreography

structure Invocation where
  id : InvocationId
  action : ActionRef
  input : Fields
  output : Fields
  /-- The direct causes, in increasing order. -/
  causes : List InvocationId
  /-- The invocation that began the cascade. -/
  root : InvocationId
  /-- The length of the longest chain of causes. -/
  depth : Nat
  /-- The causes, their causes and so on. -/
  ancestors : List InvocationId

def Invocation.failed (i : Invocation) : Bool := isErrorOutput i.output

/-- Numbers in increasing order, each once. -/
def insertSorted (n : InvocationId) : List InvocationId → List InvocationId
  | [] => [n]
  | m :: rest => if n < m then n :: m :: rest else if n = m then m :: rest else
    m :: insertSorted n rest

def sortedSet (ns : List InvocationId) : List InvocationId := ns.foldr insertSorted []

/-- Invocations under a key, in the order of their logging. -/
abbrev LogIndex (κ : Type) := List (κ × List Invocation)

namespace LogIndex

variable {κ : Type} [DecidableEq κ]

def find (index : LogIndex κ) (key : κ) : List Invocation := (List.lookup key index).getD []

def add (index : LogIndex κ) (key : κ) (invocation : Invocation) : LogIndex κ :=
  match index with
  | [] => [(key, [invocation])]
  | (listed, invocations) :: rest =>
    if listed = key then (listed, invocations ++ [invocation]) :: rest
    else (listed, invocations) :: add rest key invocation

def erase (index : LogIndex κ) (key : κ) : LogIndex κ := index.filter (·.1 ≠ key)

/-- Keeps only some invocations under a key, and the key only if any is left. -/
def restrict (index : LogIndex κ) (key : κ) (keep : Invocation → Bool) : LogIndex κ :=
  index.filterMap fun entry =>
    if entry.1 = key then
      match entry.2.filter keep with
      | [] => none
      | kept => some (key, kept)
    else some entry

end LogIndex

structure InvocationLog where
  next : InvocationId := 1
  byId : List (InvocationId × Invocation) := []
  byAction : LogIndex ActionRef := []
  byRoot : LogIndex InvocationId := []
  byRootAction : LogIndex (InvocationId × ActionRef) := []

namespace InvocationLog

def size (log : InvocationLog) : Nat := log.byId.length

def get? (log : InvocationLog) (id : InvocationId) : Option Invocation := List.lookup id log.byId

def contains (log : InvocationLog) (id : InvocationId) : Bool := (log.get? id).isSome

/-- The invocation with an identifier, or the failure to find it. -/
def get (log : InvocationLog) (id : InvocationId) : Except Failure Invocation :=
  match log.get? id with
  | some invocation => .ok invocation
  | none => .error (.of (.unknownInvocation (.int id)) {})

/-- The invocation that any value names. Numbers of every kind name invocations. -/
def item (log : InvocationLog) (id : Value) : Except Error Invocation :=
  match log.byId.find? fun entry => id.agrees (.int entry.1), Error.notAKey? id with
  | some (_, invocation), _ => .ok invocation
  | none, some error => .error error
  | none, none => .error (.of (.unknownInvocation id))

def ofAction (log : InvocationLog) (action : ActionRef) : List Invocation :=
  log.byAction.find action

/-- The invocations of a cascade, in the order of their logging. -/
def cascade (log : InvocationLog) (root : InvocationId) : List Invocation := log.byRoot.find root

/-- Invocations of an action in a cascade, up to a last identifier. -/
def candidates (log : InvocationLog) (action : ActionRef) (root last : InvocationId) : List Invocation :=
  (log.byRootAction.find (root, action)).filter (·.id ≤ last)

/-- The cascades that have invocations in the log. -/
def roots (log : InvocationLog) : List InvocationId := log.byRoot.map (·.1)

/-- The ancestors of an invocation in the log. -/
def ancestorsOf (log : InvocationLog) (id : InvocationId) : List InvocationId :=
  ((log.get? id).map (·.ancestors)).getD []

/-- Whether two invocations are one, or one is among the causes of the other. -/
def related (log : InvocationLog) (a b : InvocationId) : Bool :=
  a == b || a ∈ log.ancestorsOf b || b ∈ log.ancestorsOf a

/-- The same question about invocations that need not be in the log. A missing one
is an error unless the answer is found without it. -/
def related? (log : InvocationLog) (a b : InvocationId) : Except Error Bool :=
  if a = b then .ok true
  else if !log.contains b then .error (.plain .key (toString b))
  else if a ∈ log.ancestorsOf b then .ok true
  else if !log.contains a then .error (.plain .key (toString a))
  else .ok (log.related a b)

/-- Enters an invocation into every index. -/
def enter (log : InvocationLog) (i : Invocation) : InvocationLog where
  next := log.next + 1
  byId := log.byId ++ [(i.id, i)]
  byAction := log.byAction.add i.action i
  byRoot := log.byRoot.add i.root i
  byRootAction := log.byRootAction.add (i.root, i.action) i

/-- The invocation that comes next, given its causes. -/
def describe (log : InvocationLog) (action : ActionRef) (input output : Fields)
    (parents : List Invocation) : Invocation where
  id := log.next
  action
  input
  output
  causes := parents.map (·.id)
  root := (parents.head?.map (·.root)).getD log.next
  depth := parents.foldr (fun p deepest => max (p.depth + 1) deepest) 0
  ancestors := sortedSet (parents.flatMap fun p => p.id :: p.ancestors)

/-- Which of several invocations is the first that is found missing, if any is. -/
def missing? (log : InvocationLog) (ids : List InvocationId) : Option InvocationId :=
  (Slots.order ids).find? (!log.contains ·)

/-- Logs a completed call. Its causes must be in the log and of one cascade; an
attempt that fails leaves no trace, not even a used identifier. Of several causes that
are missing the first that is met is told. -/
def append (log : InvocationLog) (action : ActionRef) (input output : Fields)
    (causes : List InvocationId) : Except Failure (InvocationLog × Invocation) :=
  match (sortedSet causes).mapM log.get with
  | .error failure =>
    match log.missing? causes with
    | some id => .error (.of (.unknownInvocation (.int id)) {})
    | none => .error failure
  | .ok parents =>
    match sortedSet (parents.map (·.root)) with
    | first :: second :: more => .error (.of (.mixedParents (first :: second :: more)) {})
    | _ =>
      let invocation := log.describe action input output parents
      .ok (log.enter invocation, invocation)

/-- Drops a cascade from every index. -/
def forget (log : InvocationLog) (root : InvocationId) : InvocationLog :=
  let dropped := log.cascade root
  let isKept := fun (i : Invocation) => dropped.all (·.id ≠ i.id)
  let actions := dropped.map (·.action)
  { next := log.next
    byId := log.byId.filter fun entry => isKept entry.2
    byAction := actions.foldl (fun index action => index.restrict action isKept) log.byAction
    byRoot := log.byRoot.erase root
    byRootAction :=
      actions.foldl (fun index action => index.erase (root, action)) log.byRootAction }

/-- How many invocations forgetting a cascade drops. -/
def forgottenBy (log : InvocationLog) (root : InvocationId) : Nat := (log.cascade root).length

end InvocationLog

end Choreography
