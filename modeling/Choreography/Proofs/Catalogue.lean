import Choreography.Catalogue
import Choreography.Proofs.Rule.Definition

/-! What a catalogue offers. The operations of a catalogue are of the kind that their names tell, and
once it is frozen it offers what it offered. -/

namespace Choreography

namespace Catalogue

/-- The catalogues that come about by registering components and by freezing. -/
inductive Reachable : Catalogue → Prop where
  | empty : Reachable {}
  | register {c grown : Catalogue} {component : String} {methods : List String}
      (reached : Reachable c) (accepted : c.register component methods = .ok grown) : Reachable grown
  | freeze {c : Catalogue} (reached : Reachable c) : Reachable c.freeze

/-- An operation is registered, and is an action. -/
def OffersAction (c : Catalogue) (ref : ActionRef) : Prop :=
  ∃ operation, c.operation ref = .ok operation ∧ operation.ref = ref ∧ operation.kind = .action

variable {c grown : Catalogue} {component : String} {methods : List String} {ref : ActionRef}
  {operation : Operation}

theorem register_eq_ok (accepted : c.register component methods = .ok grown) :
    c.frozen = false ∧ grown.operations = c.operations ++ offered component methods := by
  unfold register at accepted
  split at accepted
  · cases accepted
  next unfrozen =>
  split at accepted
  · cases accepted
  · cases accepted
    exact ⟨Bool.eq_false_iff.mpr unfrozen, rfl⟩

theorem register_of_frozen (frozen : c.frozen = true) (component : String) (methods : List String) :
    c.register component methods = .error (.of (.frozen name)) := by
  rw [register, if_pos frozen]

theorem offered_singleton {method : String} (shown : method.toList.head? ≠ some '_') :
    offered component [method] = [⟨⟨component, method⟩, operationKind method⟩] := by
  simp [offered, shown, Text.sorted]

theorem kind_of_mem_offered (inside : operation ∈ offered component methods) :
    operation.kind = operation.ref.kind := by
  obtain ⟨method, _, rfl⟩ := List.mem_map.mp inside
  rfl

theorem Reachable.kind_eq (reached : c.Reachable) (inside : operation ∈ c.operations) :
    operation.kind = operation.ref.kind := by
  induction reached with
  | empty => cases inside
  | register _ accepted ih =>
    rw [(register_eq_ok accepted).2] at inside
    rcases List.mem_append.mp inside with old | isNew
    · exact ih old
    · exact kind_of_mem_offered isNew
  | freeze _ ih => exact ih inside

theorem operation_eq_ok (found : c.operation ref = .ok operation) :
    operation ∈ c.operations ∧ operation.ref = ref := by
  unfold Catalogue.operation at found
  split at found
  · next isFound =>
    cases found
    exact ⟨List.mem_of_find?_eq_some isFound, by simpa using List.find?_some isFound⟩
  · cases found

/-- What can start a cascade is an action that is offered. -/
theorem invocable_eq_ok_iff : c.invocable ref = .ok operation ↔
    c.operation ref = .ok operation ∧ operation.kind = .action := by
  constructor
  · intro admitted
    obtain ⟨wanted, found, admitted⟩ := exists_of_bind_eq_ok admitted
    split at admitted
    · cases admitted
    · next isAction =>
      cases admitted
      exact ⟨found, isAction⟩
  · rintro ⟨found, isAction⟩
    obtain ⟨offered, kind⟩ := operation
    cases isAction
    rw [invocable, found]
    rfl

theorem OffersAction.has (offers : c.OffersAction ref) : c.has ref = true := by
  obtain ⟨operation, found, _⟩ := offers
  unfold Catalogue.operation at found
  split at found
  · next isFound => rw [Catalogue.has, isFound, Option.isSome_some]
  · cases found

/-- Whatever is offered under the name of an action is an action. -/
theorem Reachable.offersAction (reached : c.Reachable) (has : c.has ref = true)
    (isAction : ref.kind = .action) : c.OffersAction ref := by
  obtain ⟨operation, isFound⟩ := Option.isSome_iff_exists.mp has
  have found : c.operation ref = .ok operation := by rw [Catalogue.operation, isFound]
  obtain ⟨inside, isRef⟩ := operation_eq_ok found
  exact ⟨operation, found, isRef, (reached.kind_eq inside).trans (isRef ▸ isAction)⟩

end Catalogue

end Choreography
