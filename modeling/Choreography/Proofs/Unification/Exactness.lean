import Choreography.Proofs.Agreement.Likeness
import Choreography.Proofs.Unification
import Mathlib.Data.List.Forall2
import Mathlib.Data.List.Pairwise

/-! Unification of one pattern is exact and knows no order. A pattern matches an invocation if it
fits it and all occurrences of a variable agree, with each other and with what the variable is
bound to. That condition does not mention the first occurrence, with which the others are
compared, nor the order of the fields. What is bound in the end does depend on the order, but only
among values that are alike. -/

namespace Choreography

/-- A pattern matches an invocation, as far as the bindings that there are allow it. -/
structure Pattern.Matches (p : Pattern) (action : ActionRef) (input output bindings : Fields) :
    Prop where
  fits : p.Fits action input output
  consistent : Consistent (p.observations input output)
  agreeing : ∀ o ∈ p.observations input output, ∀ bound,
    Fields.get? bindings o.1 = some bound → bound.agrees o.2 = true

/-- Bindings that are completed by a match. What was bound is bound to the same value, and besides
that exactly the other variables of the pattern are bound, each to a value that one of its
occurrences met. -/
structure Pattern.Completes (p : Pattern) (input output bindings completed : Fields) : Prop where
  kept : ∀ name value, Fields.get? bindings name = some value →
    Fields.get? completed name = some value
  names : ∀ name, name ∈ Fields.names completed ↔
    name ∈ Fields.names bindings ∨ name ∈ p.occurrences
  met : ∀ name value, Fields.get? bindings name = none →
    Fields.get? completed name = some value → (name, value) ∈ p.observations input output
  unique : (Fields.names bindings).Nodup → (Fields.names completed).Nodup

/-- The same named values in another order, each name once. -/
structure Fields.Reorders (others fields : Fields) : Prop where
  unique : (Fields.names fields).Nodup
  perm : fields.Perm others

/-- The same pattern with its fields in another order. -/
structure Pattern.Reorders (q p : Pattern) : Prop where
  action : p.action = q.action
  inputs : p.inputs.Perm q.inputs
  outputs : p.outputs.Perm q.outputs

/-- Two observations of one variable that met values that are alike. -/
def Observation.Alike (a b : Observation) : Prop := a.1 = b.1 ∧ a.2.Alike b.2

variable {p q : Pattern} {action : ActionRef} {fields reordered : FieldPatterns}
  {observed others input otherInput output otherOutput bindings otherBindings extended : Fields}
  {first second : List Observation} {name : String}

theorem Pattern.Reorders.symm (reorders : q.Reorders p) : p.Reorders q where
  action := reorders.action.symm
  inputs := reorders.inputs.symm
  outputs := reorders.outputs.symm

/-! ### Observing in another order -/

instance : Std.Symm Observation.Compatible where
  symm _ _ := Observation.Compatible.symm

/-- Two observations of one variable met values that are alike, be they the same or not. -/
theorem Consistent.alike (consistent : Consistent first) {v w : Value} (isFirst : (name, v) ∈ first)
    (isSecond : (name, w) ∈ first) : v.Alike w := by
  by_cases same : v = w
  · exact .inl same
  · have apart : ((name, v) : Observation) ≠ (name, w) := by simpa using same
    exact .inr (List.Pairwise.forall consistent isFirst isSecond apart rfl)

/-- Observations can be taken in whatever their order is, and what is bound then is alike. -/
theorem exists_observeAll?_of_perm (same : first.Perm second)
    (observes : observeAll? bindings first = some extended) :
    ∃ other, observeAll? bindings second = some other ∧ Fields.Alike extended other := by
  obtain ⟨consistent, agreed⟩ := exists_observeAll?_iff.mp ⟨extended, observes⟩
  have canObserve : ∃ other, observeAll? bindings second = some other :=
    exists_observeAll?_iff.mpr
      ⟨consistent.perm same, fun o inside => agreed o (same.mem_iff.mpr inside)⟩
  obtain ⟨other, alsoObserves⟩ := canObserve
  have left := observed_of_observeAll? observes
  have right := observed_of_observeAll? alsoObserves
  refine ⟨other, alsoObserves, ⟨fun name => ?_, fun name v w isV isW => ?_⟩⟩
  · rw [left.names, right.names, (same.map _).mem_iff]
  · cases known : Fields.get? bindings name with
    | some value =>
      rw [left.kept name value known] at isV
      rw [right.kept name value known] at isW
      cases isV
      cases isW
      exact .refl _
    | none =>
      -- Each order binds the value that it meets first, and both values were met.
      have metV : (name, v) ∈ first := (left.bound name v isV).resolve_left (by simp [known])
      have metW : (name, w) ∈ second := (right.bound name w isW).resolve_left (by simp [known])
      exact consistent.alike metV (same.mem_iff.mpr metW)

/-- Observations of values that are alike can be taken in together, over bindings that are
alike. -/
theorem exists_observeAll?_of_alike (same : List.Forall₂ Observation.Alike first second)
    (alike : Fields.Alike bindings otherBindings)
    (observes : observeAll? bindings first = some extended) :
    ∃ other, observeAll? otherBindings second = some other ∧ Fields.Alike extended other := by
  induction same generalizing bindings otherBindings with
  | nil =>
    cases observes
    exact ⟨otherBindings, rfl, alike⟩
  | @cons a b rest others head tail ih =>
    obtain ⟨name, v⟩ := a
    obtain ⟨_, w⟩ := b
    obtain ⟨rfl, sameValue⟩ : name = _ ∧ v.Alike w := head
    unfold observeAll? at observes ⊢
    cases known : Fields.get? bindings name with
    | none =>
      rw [known] at observes
      rw [alike.get?_eq_none known]
      exact ih (alike.set sameValue) observes
    | some bound =>
      rw [known] at observes
      obtain ⟨otherBound, otherKnown, sameBound⟩ := alike.exists_get? known
      simp only [otherKnown]
      by_cases agreed : bound.agrees v = true
      · rw [if_pos (sameBound.agrees sameValue agreed)]
        simp only [agreed, ↓reduceIte] at observes
        exact ih alike observes
      · simp [agreed] at observes

/-! ### Fields in another order -/

theorem FieldPattern.Fits.of_alike {pattern : FieldPattern} (alike : Fields.Alike observed others)
    (fits : pattern.Fits (Fields.get? observed name)) : pattern.Fits (Fields.get? others name) := by
  cases pattern with
  | wildcard => trivial
  | literal value =>
    obtain ⟨actual, found, agreed⟩ := fits
    obtain ⟨other, otherFound, same⟩ := alike.exists_get? found
    exact ⟨other, otherFound, same.agrees (.refl value) agreed⟩
  | «variable» =>
    obtain ⟨actual, found⟩ := fits
    obtain ⟨other, otherFound, _⟩ := alike.exists_get? found
    exact ⟨other, otherFound⟩

theorem FieldPattern.observation?_alike (pattern : FieldPattern)
    (alike : Fields.Alike observed others) (name : String) :
    Option.Rel Observation.Alike (pattern.observation? (Fields.get? observed name))
      (pattern.observation? (Fields.get? others name)) := by
  cases pattern with
  | wildcard | literal =>
    cases Fields.get? observed name <;> cases Fields.get? others name <;> exact .none
  | «variable» =>
    cases found : Fields.get? observed name with
    | none =>
      rw [alike.get?_eq_none found]
      exact .none
    | some value =>
      obtain ⟨other, otherFound, same⟩ := alike.exists_get? found
      rw [otherFound]
      exact .some ⟨rfl, same⟩

namespace FieldPatterns

theorem Fit.reorder (same : fields.Perm reordered) (alike : Fields.Alike observed others)
    (fit : fields.Fit observed) : reordered.Fit others :=
  fun f inside => (fit f (same.mem_iff.mpr inside)).of_alike alike

theorem observations_perm (same : fields.Perm reordered) (observed : Fields) :
    (fields.observations observed).Perm (reordered.observations observed) :=
  same.filterMap _

theorem observations_alike (fields : FieldPatterns) (alike : Fields.Alike observed others) :
    List.Forall₂ Observation.Alike (fields.observations observed) (fields.observations others) := by
  refine List.rel_filterMap ?_ (List.forall₂_same.mpr fun _ _ => Eq.refl _)
  rintro f _ rfl
  exact f.2.observation?_alike alike f.1

end FieldPatterns

/-! ### Patterns -/

namespace Pattern

theorem matches_iff : p.Matches action input output bindings ↔
    ∃ extended, p.unify action input output bindings = some extended := by
  simp only [unify_eq_some_iff, exists_and_left, exists_observeAll?_iff]
  exact ⟨fun matched => ⟨matched.fits, matched.consistent, matched.agreeing⟩,
    fun ⟨fits, consistent, agreed⟩ => ⟨fits, consistent, agreed⟩⟩

theorem completes_of_unify (unified : p.unify action input output bindings = some extended) :
    p.Completes input output bindings extended := by
  obtain ⟨fits, observes⟩ := unify_eq_some_iff.mp unified
  obtain ⟨kept, bound, names, unique⟩ := observed_of_observeAll? observes
  refine ⟨kept, fun name => ?_, fun name value unbound held => ?_, unique⟩
  · rw [names, map_fst_observations fits]
  · exact (bound name value held).resolve_left (by simp [unbound])

theorem Fits.reorder (reorders : q.Reorders p) (sameInput : Fields.Alike input otherInput)
    (sameOutput : Fields.Alike output otherOutput) (fits : p.Fits action input output) :
    q.Fits action otherInput otherOutput where
  action := reorders.action ▸ fits.action
  failed named := by
    have alsoNamed : p.matchesErrors = true := by
      rwa [matchesErrors, reorders.outputs.any_eq]
    have isError := fits.failed alsoNamed
    rwa [isErrorOutput, sameOutput.has_eq] at isError
  inputs := fits.inputs.reorder reorders.inputs sameInput
  outputs := fits.outputs.reorder reorders.outputs sameOutput

theorem observations_perm (reorders : q.Reorders p) (input output : Fields) :
    (p.observations input output).Perm (q.observations input output) :=
  (FieldPatterns.observations_perm reorders.inputs input).append
    (FieldPatterns.observations_perm reorders.outputs output)

theorem observations_alike (p : Pattern) (sameInput : Fields.Alike input otherInput)
    (sameOutput : Fields.Alike output otherOutput) :
    List.Forall₂ Observation.Alike (p.observations input output)
      (p.observations otherInput otherOutput) :=
  List.rel_append (p.inputs.observations_alike sameInput) (p.outputs.observations_alike sameOutput)

/-- A match does not depend on the order of the fields, nor on which of several values that are
alike is observed or bound. -/
theorem exists_unify_of_alike (reorders : q.Reorders p) (sameInput : Fields.Alike input otherInput)
    (sameOutput : Fields.Alike output otherOutput) (sameBindings : Fields.Alike bindings otherBindings)
    (unified : p.unify action input output bindings = some extended) :
    ∃ other, q.unify action otherInput otherOutput otherBindings = some other ∧
      Fields.Alike extended other := by
  obtain ⟨fits, observes⟩ := unify_eq_some_iff.mp unified
  obtain ⟨middle, reordered, first⟩ :=
    exists_observeAll?_of_perm (observations_perm reorders input output) observes
  obtain ⟨other, exchanged, second⟩ :=
    exists_observeAll?_of_alike (q.observations_alike sameInput sameOutput) sameBindings reordered
  exact ⟨other, unify_eq_some_iff.mpr ⟨fits.reorder reorders sameInput sameOutput, exchanged⟩,
    first.trans second⟩

/-- Unification is exact. It yields bindings exactly when the pattern matches, and these complete
the ones that there were. If the fields of the pattern and those of the invocation come in another
order, then there is a match as well, or there is none as well, and what is bound is alike. -/
theorem unify_exact (p : Pattern) (action : ActionRef) (input output bindings : Fields) :
    ((∃ extended, p.unify action input output bindings = some extended) ↔
      p.Matches action input output bindings) ∧
    (∀ extended, p.unify action input output bindings = some extended →
      p.Completes input output bindings extended) ∧
    ∀ (q : Pattern) (otherInput otherOutput : Fields), q.Reorders p →
      Fields.Reorders otherInput input → Fields.Reorders otherOutput output →
      Option.Rel Fields.Alike (p.unify action input output bindings)
        (q.unify action otherInput otherOutput bindings) := by
  refine ⟨matches_iff.symm, fun _ => completes_of_unify, ?_⟩
  intro q otherInput otherOutput reorders inputReorders outputReorders
  have sameInput := Fields.alike_of_perm inputReorders.unique inputReorders.perm
  have sameOutput := Fields.alike_of_perm outputReorders.unique outputReorders.perm
  refine rel_of_counterparts (fun extended unified => ?_) (fun extended unified => ?_)
  · exact exists_unify_of_alike reorders sameInput sameOutput (.refl bindings) unified
  · obtain ⟨other, alsoUnified, _⟩ := exists_unify_of_alike reorders.symm sameInput.symm
      sameOutput.symm (.refl bindings) unified
    exact ⟨other, alsoUnified⟩

end Pattern

/-! ### A tandem -/

namespace Tandem

def mount : ActionRef := ⟨"Tandem", "mount"⟩

/-- Asks for two saddles of one height, and for the second gear. -/
def mounting : Pattern where
  action := mount
  inputs := [("front", .variable "height"), ("rear", .variable "height"), ("gear", .literal (.int 2))]

/-- Asks for the same from behind. -/
def turned : Pattern where
  action := mount
  inputs := mounting.inputs.reverse

/-- Two heights that agree, but are not the same value. -/
def heights : Fields := [("front", .int 1), ("gear", .int 2), ("rear", .bool true)]

/-- The kind of value that the height is bound to. -/
def heightKind (bindings : Fields) : Option String :=
  (Fields.get? bindings "height").map Value.typeName

theorem turned_reorders : turned.Reorders mounting where
  action := rfl
  inputs := (List.reverse_perm mounting.inputs).symm
  outputs := .nil

theorem heights_reorder : Fields.Reorders heights.reverse heights where
  unique := by decide
  perm := (List.reverse_perm heights).symm

theorem unify_exact_mounting :
    turned.Reorders mounting ∧ Fields.Reorders heights.reverse heights ∧
    (∃ extended, mounting.unify mount heights [] [] = some extended ∧
      mounting.Matches mount heights [] [] ∧ mounting.Completes heights [] [] extended) ∧
    Option.Rel Fields.Alike (mounting.unify mount heights [] [])
      (turned.unify mount heights.reverse [] []) ∧
    (mounting.unify mount heights [] []).map heightKind = some (some "int") ∧
    (turned.unify mount heights.reverse [] []).map heightKind = some (some "bool") := by
  obtain ⟨exact, completes, orderless⟩ := Pattern.unify_exact mounting mount heights [] []
  have unifies : (mounting.unify mount heights [] []).isSome = true := by decide +kernel
  obtain ⟨extended, unified⟩ := Option.isSome_iff_exists.mp unifies
  refine ⟨turned_reorders, heights_reorder,
    ⟨extended, unified, exact.mp ⟨extended, unified⟩, completes extended unified⟩,
    orderless turned heights.reverse [] turned_reorders heights_reorder ⟨.nil, .nil⟩, ?_, ?_⟩
  · decide +kernel
  · decide +kernel

/-- Two saddles whose height is one and the same nan do not have one height. -/
example : mounting.unify mount
    [("front", .float (.nan 1)), ("gear", .int 2), ("rear", .float (.nan 1))] [] [] = none :=
  Option.isNone_iff_eq_none.mp (by decide +kernel)

end Tandem

end Choreography
