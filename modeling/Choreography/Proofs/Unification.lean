import Choreography.Pattern.Unify
import Choreography.Proofs.Agreement
import Mathlib.Data.List.Basic

/-! Unification without its order. A pattern fits an invocation if the literals agree and
the fields of its variables are there; then every occurrence of a variable is one
observation. Observations that agree with each other and with what is bound already can
all be taken in, whatever their order, and each variable keeps what it met first. -/

namespace Choreography

/-- A variable and the value that one of its occurrences meets. -/
abbrev Observation := String × Value

/-- Two observations of one variable agree. -/
def Observation.Compatible (a b : Observation) : Prop := a.1 = b.1 → a.2.agrees b.2 = true

theorem Observation.Compatible.symm {a b : Observation} (compatible : a.Compatible b) :
    b.Compatible a :=
  fun sameName => Value.agrees_symm (compatible sameName.symm)

/-- Any two observations of one variable agree. -/
def Consistent (observations : List Observation) : Prop :=
  observations.Pairwise Observation.Compatible

/-- Whether observations agree does not depend on their order. -/
theorem Consistent.perm {first second : List Observation} (consistent : Consistent first)
    (same : first.Perm second) : Consistent second :=
  (same.pairwise_iff Observation.Compatible.symm).mp consistent

/-- What a field pattern asks of a field, its variable apart. -/
def FieldPattern.Fits : FieldPattern → Option Value → Prop
  | .literal value, actual? => ∃ actual, actual? = some actual ∧ actual.agrees value = true
  | .wildcard, _ => True
  | .variable _, actual? => ∃ actual, actual? = some actual

/-- What a field observes, if its pattern is a variable. -/
def FieldPattern.observation? : FieldPattern → Option Value → Option Observation
  | .variable name, some actual => some (name, actual)
  | _, _ => none

namespace FieldPatterns

/-- Every field is what its pattern asks for. -/
def Fit (fields : FieldPatterns) (observed : Fields) : Prop :=
  ∀ f ∈ fields, f.2.Fits (Fields.get? observed f.1)

/-- What the variables observe, one entry for each occurrence. -/
def observations (fields : FieldPatterns) (observed : Fields) : List Observation :=
  fields.filterMap fun f => f.2.observation? (Fields.get? observed f.1)

end FieldPatterns

/-- The bindings after further observations, unless one of them disagrees. -/
def observeAll? : Fields → List Observation → Option Fields
  | bindings, [] => some bindings
  | bindings, (name, value) :: rest =>
    match Fields.get? bindings name with
    | none => observeAll? (Fields.set bindings name value) rest
    | some bound => if bound.agrees value then observeAll? bindings rest else none

/-! ### Fields and patterns as observations -/

theorem FieldPattern.unify_eq_some_iff {p : FieldPattern} {actual? : Option Value}
    {bindings extended : Fields} : p.unify actual? bindings = some extended ↔
      p.Fits actual? ∧ observeAll? bindings (p.observation? actual?).toList = some extended := by
  match p, actual? with
  | .wildcard, _ => simp [unify, Fits, observation?, observeAll?]
  | .literal _, none => simp [unify, Fits]
  | .literal value, some actual =>
    by_cases agreed : actual.agrees value = true <;>
      simp [unify, Fits, observation?, observeAll?, agreed]
  | .variable _, none => simp [unify, Fits]
  | .variable name, some actual =>
    cases bound : Fields.get? bindings name <;> simp [unify, Fits, observation?, observeAll?, bound]

theorem observeAll?_append (bindings : Fields) (first second : List Observation) :
    observeAll? bindings (first ++ second) =
      (observeAll? bindings first).bind (observeAll? · second) := by
  induction first generalizing bindings with
  | nil => rfl
  | cons o rest ih =>
    rw [List.cons_append, observeAll?, observeAll?]
    split
    · exact ih _
    · split
      · exact ih _
      · rfl

theorem FieldPatterns.unify_eq_some_iff {fields : FieldPatterns} {observed bindings extended : Fields} :
    fields.unify observed bindings = some extended ↔
      fields.Fit observed ∧ observeAll? bindings (fields.observations observed) = some extended := by
  induction fields generalizing bindings with
  | nil => simp [unify, Fit, observations, observeAll?]
  | cons f rest ih =>
    obtain ⟨name, p⟩ := f
    have split : observations ((name, p) :: rest) observed =
        (p.observation? (Fields.get? observed name)).toList ++ observations rest observed := by
      rw [observations, List.filterMap_cons]
      cases p.observation? (Fields.get? observed name) <;> rfl
    rw [split, observeAll?_append, unify, Fit, List.forall_mem_cons]
    cases first : p.unify (Fields.get? observed name) bindings with
    | none =>
      refine iff_of_false nofun fun ⟨⟨fits, _⟩, observes⟩ => ?_
      obtain ⟨middle, observed, _⟩ := Option.bind_eq_some_iff.mp observes
      rw [FieldPattern.unify_eq_some_iff.mpr ⟨fits, observed⟩] at first
      cases first
    | some middle =>
      obtain ⟨fits, observes⟩ := FieldPattern.unify_eq_some_iff.mp first
      simp only [ih, observes, Option.bind_some, fits, true_and, Fit]

namespace Pattern

/-- An invocation is what a pattern asks for, the variables apart. -/
structure Fits (p : Pattern) (action : ActionRef) (input output : Fields) : Prop where
  action : p.action = action
  failed : p.matchesErrors = true → isErrorOutput output = true
  inputs : p.inputs.Fit input
  outputs : p.outputs.Fit output

/-- What the variables of a pattern observe, inputs before outputs. -/
def observations (p : Pattern) (input output : Fields) : List Observation :=
  p.inputs.observations input ++ p.outputs.observations output

theorem unify_eq_some_iff {p : Pattern} {action : ActionRef} {input output bindings extended : Fields} :
    p.unify action input output bindings = some extended ↔
      p.Fits action input output ∧
        observeAll? bindings (p.observations input output) = some extended := by
  rw [unify, observations, observeAll?_append]
  constructor
  · intro unified
    split at unified
    · next known =>
      cases first : p.inputs.unify input bindings with
      | none =>
        rw [first] at unified
        cases unified
      | some middle =>
        rw [first] at unified
        obtain ⟨inputs, observesInputs⟩ := FieldPatterns.unify_eq_some_iff.mp first
        obtain ⟨outputs, observesOutputs⟩ := FieldPatterns.unify_eq_some_iff.mp unified
        exact ⟨⟨known.1, known.2, inputs, outputs⟩, by rw [observesInputs]; exact observesOutputs⟩
    · cases unified
  · rintro ⟨fits, observes⟩
    obtain ⟨middle, observesInputs, observesOutputs⟩ := Option.bind_eq_some_iff.mp observes
    rw [if_pos ⟨fits.action, fits.failed⟩,
      FieldPatterns.unify_eq_some_iff.mpr ⟨fits.inputs, observesInputs⟩]
    exact FieldPatterns.unify_eq_some_iff.mpr ⟨fits.outputs, observesOutputs⟩

end Pattern

/-! ### Which variables are observed -/

/-- Where all fields fit, every occurrence of a variable observes something. -/
theorem FieldPatterns.map_fst_observations {fields : FieldPatterns} {observed : Fields}
    (fit : fields.Fit observed) :
    (fields.observations observed).map (·.1) = fields.filterMap fun f => f.2.name? := by
  rw [observations, List.map_filterMap]
  apply List.filterMap_congr
  intro f inside
  have fits := fit f inside
  cases isPattern : f.2 with
  | literal => cases Fields.get? observed f.1 <;> rfl
  | wildcard => cases Fields.get? observed f.1 <;> rfl
  | «variable» name =>
    rw [isPattern] at fits
    obtain ⟨actual, found⟩ := fits
    rw [found]
    rfl

theorem Pattern.map_fst_observations {p : Pattern} {action : ActionRef} {input output : Fields}
    (fits : p.Fits action input output) :
    (p.observations input output).map (·.1) = p.occurrences := by
  rw [observations, List.map_append, FieldPatterns.map_fst_observations fits.inputs,
    FieldPatterns.map_fst_observations fits.outputs, occurrences, List.filterMap_append]

/-! ### What can be observed together -/

/-- Observations can be taken in exactly when they agree with each other and with what is
bound. Agreement is transitive, so it does not matter that later ones are compared with the
first only. -/
theorem exists_observeAll?_iff {bindings : Fields} {observations : List Observation} :
    (∃ extended, observeAll? bindings observations = some extended) ↔
      Consistent observations ∧
        ∀ o ∈ observations, ∀ bound, Fields.get? bindings o.1 = some bound → bound.agrees o.2 = true := by
  induction observations generalizing bindings with
  | nil => simp [observeAll?, Consistent]
  | cons o rest ih =>
    obtain ⟨name, value⟩ := o
    rw [observeAll?, Consistent, List.pairwise_cons, List.forall_mem_cons]
    cases known : Fields.get? bindings name with
    | none =>
      simp only [ih, Fields.get?_set, reduceCtorEq, false_implies, implies_true, true_and,
        Observation.Compatible]
      constructor
      · rintro ⟨consistent, agreed⟩
        refine ⟨⟨fun o inside called => ?_, consistent⟩, fun o inside bound held => ?_⟩
        · exact agreed o inside value (if_pos called.symm)
        · refine agreed o inside bound ?_
          rw [if_neg]
          · exact held
          · intro called
            rw [called, known] at held
            cases held
      · rintro ⟨⟨compatible, consistent⟩, agreed⟩
        refine ⟨consistent, ?_⟩
        intro o inside bound held
        split at held
        · next called =>
          cases held
          exact compatible o inside called.symm
        · exact agreed o inside bound held
    | some bound =>
      by_cases agreed : bound.agrees value = true
      · simp only [agreed, ↓reduceIte, ih, Option.some.injEq, forall_eq', true_and]
        apply and_congr_left
        intro agreedRest
        refine ⟨fun consistent => ⟨?_, consistent⟩, And.right⟩
        intro o inside called
        exact Value.agrees_trans (Value.agrees_symm agreed)
          (agreedRest o inside bound (called ▸ known))
      · simp [agreed]

/-- What bindings become: they keep what they bind, and bind every other variable that is
observed to one of the values it was observed with. -/
structure Observed (bindings : Fields) (observations : List Observation) (extended : Fields) :
    Prop where
  kept : ∀ name value, Fields.get? bindings name = some value →
    Fields.get? extended name = some value
  bound : ∀ name value, Fields.get? extended name = some value →
    Fields.get? bindings name = some value ∨ (name, value) ∈ observations
  names : ∀ name, name ∈ Fields.names extended ↔
    name ∈ Fields.names bindings ∨ name ∈ observations.map (·.1)
  unique : (Fields.names bindings).Nodup → (Fields.names extended).Nodup

theorem observed_of_observeAll? {bindings extended : Fields} {observations : List Observation}
    (observes : observeAll? bindings observations = some extended) :
    Observed bindings observations extended := by
  induction observations generalizing bindings with
  | nil =>
    cases observes
    exact ⟨fun _ _ => id, fun _ _ => .inl, fun _ => by simp, id⟩
  | cons o rest ih =>
    obtain ⟨name, value⟩ := o
    unfold observeAll? at observes
    split at observes
    · next unbound =>
      obtain ⟨kept, bound, names, unique⟩ := ih observes
      refine ⟨fun other held known => kept other held ?_, fun other held known => ?_,
        fun other => ?_, fun distinct => unique (Fields.nodup_names_set distinct)⟩
      · rw [Fields.get?_set, if_neg, known]
        rintro rfl
        rw [unbound] at known
        cases known
      · rcases bound other held known with isHeld | inRest
        · rw [Fields.get?_set] at isHeld
          split at isHeld
          · next called =>
            cases isHeld
            exact .inr (called ▸ List.mem_cons_self)
          · exact .inl isHeld
        · exact .inr (List.mem_cons_of_mem _ inRest)
      · rw [names, Fields.mem_names_set, List.map_cons, List.mem_cons]
        exact or_assoc.trans or_left_comm
    · next bound known =>
      split at observes
      · obtain ⟨kept, boundTo, names, unique⟩ := ih observes
        refine ⟨kept, fun other held isHeld => ?_, fun other => ?_, unique⟩
        · exact (boundTo other held isHeld).imp id (List.mem_cons_of_mem _)
        · rw [names, List.map_cons, List.mem_cons]
          refine ⟨Or.imp id .inr, ?_⟩
          rintro (inside | rfl | inRest)
          · exact .inl inside
          · exact .inl (Fields.has_iff_mem_names.mp (by rw [Fields.has, known]; rfl))
          · exact .inr inRest
      · cases observes

end Choreography
