import Choreography.Rule.Definition

/-! What it takes to define a rule. A rule that was defined, in whichever form, has a name, listens
for something, matches and calls actions only, and asks for no outputs of what it calls. -/

namespace Choreography

variable {α β ε : Type} {name : String} {whens thens offers : List Offered} {enrich : OfferedWhere}
  {offer : Offered} {rule : Rule} {p : Pattern} {patterns : List Pattern}

/-- A computation that succeeds, succeeds at every stage. -/
theorem exists_of_bind_eq_ok {first : Except ε α} {next : α → Except ε β} {b : β}
    (succeeds : first >>= next = .ok b) : ∃ a, first = .ok a ∧ next a = .ok b := by
  cases first with
  | error => cases succeeds
  | ok a => exact ⟨a, rfl, succeeds⟩

namespace Rule

/-- What is right about a rule. -/
structure WellFormed (rule : Rule) : Prop where
  named : rule.name.isEmpty = false
  listens : rule.whens ≠ []
  actions : ∀ p ∈ rule.whens ++ rule.thens, p.action.kind = .action
  expectless : ∀ p ∈ rule.thens, p.outputs = []

/-- A rule that was made of a name and clauses, and not refused. -/
def IsDefined (rule : Rule) : Prop :=
  ∃ name whens thens enrich, define name whens thens enrich = .ok rule

theorem kind_of_accept (accepted : accept name offer = .ok p) : p.action.kind = .action := by
  cases offer with
  | other | actionless => cases accepted
  | pattern q =>
    rw [accept] at accepted
    split at accepted
    · cases accepted
    · next isAction =>
      cases accepted
      exact isAction

theorem mapM_accept_eq_ok (accepted : offers.mapM (accept name) = .ok patterns) :
    patterns.length = offers.length ∧ ∀ p ∈ patterns, p.action.kind = .action := by
  induction offers generalizing patterns with
  | nil =>
    cases accepted
    exact ⟨rfl, List.forall_mem_nil _⟩
  | cons offer offers ih =>
    rw [List.mapM_cons] at accepted
    obtain ⟨p, isFirst, accepted⟩ := exists_of_bind_eq_ok accepted
    obtain ⟨rest, areRest, accepted⟩ := exists_of_bind_eq_ok accepted
    cases accepted
    obtain ⟨sameLength, areActions⟩ := ih areRest
    exact ⟨congrArg (· + 1) sameLength, List.forall_mem_cons.mpr ⟨kind_of_accept isFirst, areActions⟩⟩

/-- The clauses of a rule are those it was defined with. -/
theorem define_eq_ok (defined : define name whens thens enrich = .ok rule) :
    name.isEmpty = false ∧ whens ≠ [] ∧ rule.name = name ∧
      whens.mapM (accept name) = .ok rule.whens ∧ thens.mapM (accept name) = .ok rule.thens ∧
      rule.thens.find? (!·.outputs.isEmpty) = none := by
  unfold define at defined
  by_cases unnamed : name.isEmpty = true
  · rw [if_pos unnamed] at defined
    cases defined
  by_cases unheard : whens.isEmpty = true
  · rw [if_neg unnamed, if_pos unheard] at defined
    cases defined
  rw [if_neg unnamed, if_neg unheard] at defined
  obtain ⟨matched, areMatched, defined⟩ := exists_of_bind_eq_ok defined
  obtain ⟨called, areCalled, defined⟩ := exists_of_bind_eq_ok defined
  refine ⟨Bool.eq_false_iff.mpr unnamed, fun isNone => unheard (List.isEmpty_iff.mpr isNone), ?_⟩
  cases found : called.find? (!·.outputs.isEmpty) with
  | some p =>
    rw [found] at defined
    cases enrich <;> cases defined
  | none =>
    rw [found] at defined
    cases enrich <;> cases defined <;> exact ⟨rfl, areMatched, areCalled, found⟩

theorem wellFormed_of_define (defined : define name whens thens enrich = .ok rule) :
    rule.WellFormed := by
  obtain ⟨named, listens, isName, areMatched, areCalled, found⟩ := define_eq_ok defined
  obtain ⟨sameLength, matched⟩ := mapM_accept_eq_ok areMatched
  obtain ⟨_, called⟩ := mapM_accept_eq_ok areCalled
  constructor
  case named => rw [isName, named]
  case listens =>
    intro isNone
    rw [isNone, List.length_nil] at sameLength
    exact listens (List.length_eq_zero_iff.mp sameLength.symm)
  case actions => exact List.forall_mem_append.mpr ⟨matched, called⟩
  case expectless =>
    intro p isPattern
    have isEmpty := List.find?_eq_none.mp found p isPattern
    rwa [Bool.not_eq_true', Bool.not_eq_false, List.isEmpty_iff] at isEmpty

theorem IsDefined.wellFormed (isDefined : rule.IsDefined) : rule.WellFormed := by
  obtain ⟨_, _, _, _, defined⟩ := isDefined
  exact wellFormed_of_define defined

end Rule

/-- A rule that is written as a function is defined like any other. -/
theorem Sync.isDefined {sync : Sync} (defined : sync.define = .ok rule) : rule.IsDefined := by
  unfold define at defined
  split at defined
  · obtain ⟨whens, _, defined⟩ := exists_of_bind_eq_ok defined
    obtain ⟨thens, _, defined⟩ := exists_of_bind_eq_ok defined
    exact ⟨_, whens, thens, _, defined⟩
  · cases defined

end Choreography
