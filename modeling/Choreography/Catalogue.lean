import Choreography.Journal

/-! The components of an application and the operations they offer. An operation
can be called only if its component was registered, and once frozen a catalogue
takes no more components. -/

namespace Choreography

structure Operation where
  ref : ActionRef
  kind : OperationKind

structure Catalogue where
  components : List String := []
  operations : List Operation := []
  frozen : Bool := false

namespace Catalogue

def name : String := "ConceptRegistry"

/-- The operations that a component offers: its methods by name, private ones left out. -/
def offered (component : String) (methods : List String) : List Operation :=
  let shown := methods.filter fun m => m.toList.head? != some '_'
  (Text.sorted shown).map fun m => ⟨⟨component, m⟩, operationKind m⟩

def hasComponent (c : Catalogue) (component : String) : Bool := c.components.contains component

def registeredNote (component : String) (methods : List String) : LogRecord :=
  let found := offered component methods
  let count (kind : OperationKind) := (found.filter fun operation => operation.kind = kind).length
  { level := .info
    logger := "concord.services.concept_registry"
    message := s!"Registered component {component} ({count .action} actions, " ++
      s!"{count .query} queries)"
    extra := [("component", .text component)] }

/-- Registers a component under a new name. -/
def register (c : Catalogue) (component : String) (methods : List String) :
    Except Error Catalogue :=
  if c.frozen then .error (.of (.frozen name))
  else if c.hasComponent component then
    .error (.plain .value s!"component '{component}' already registered")
  else
    .ok { c with
      components := c.components ++ [component]
      operations := c.operations ++ offered component methods }

def freeze (c : Catalogue) : Catalogue := { c with frozen := true }

def find? (c : Catalogue) (ref : ActionRef) : Option Operation :=
  c.operations.find? fun operation => operation.ref = ref

def has (c : Catalogue) (ref : ActionRef) : Bool := (c.find? ref).isSome

def operation (c : Catalogue) (ref : ActionRef) : Except Error Operation :=
  match c.find? ref with
  | some operation => .ok operation
  | none => .error (.of (.unknownOperation ref.component ref.operation))

/-- The operation that somebody outside wants to start a cascade with. -/
def invocable (c : Catalogue) (ref : ActionRef) : Except Error Operation := do
  let operation ← c.operation ref
  match operation.kind with
  | .query =>
    throw (.of (.invalidInvocation operation.ref.text "queries do not start cascades"))
  | .action => pure operation

/-- The name of a registered component. -/
def component (c : Catalogue) (wanted : String) : Except Error String :=
  if c.hasComponent wanted then .ok wanted else .error (.of (.unknownOperation wanted "*"))

end Catalogue

end Choreography
