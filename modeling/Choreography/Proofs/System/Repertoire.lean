import Choreography.Proofs.Rule.Registry
import Choreography.Proofs.System.Evaluations

/-! What runs can call. The rules that a run takes are registered, and what it calls are their
then-patterns; so that, once the rules have been validated, everything it calls is offered. -/

namespace Choreography

/-- The rules that a run has in hand, and those that it has before it for its trigger, are
registered. -/
def Point.IsListed (registry : RuleRegistry) : Point → Prop
  | .rules _ left => ∀ rule ∈ left, rule ∈ registry.rules
  | .enriching site _ | .frames site _ _ | .dispatching site _ _ _ _ =>
    ∀ rule ∈ site.rule :: site.later, rule ∈ registry.rules
  | .next | .saving | .ended _ => True

/-- Whatever the rules of an engine call is offered. -/
def Engine.IsValidated (e : Engine) : Prop :=
  ∀ rule ∈ e.rules.rules, ∀ p ∈ rule.thens, e.catalogue.has p.action = true

namespace System

/-- The rules and the components are those of an engine, and runs take no other rules. -/
structure Performs (s : System) (e : Engine) : Prop where
  accountable : s.Accountable
  registered : e.rules.Reachable
  rules : s.engine.rules = e.rules
  catalogue : s.engine.catalogue = e.catalogue
  listed : ∀ w ∈ s.workers, w.run.point.IsListed e.rules

end System

variable {e f : Engine} {c d : Cascade} {p q : Point} {events : List Event}

namespace Engine

private theorem offers_of_validateRule {rule : Rule} {notes : List LogRecord}
    (valid : e.validateRule rule = (notes, .ok ())) :
    ∀ p ∈ rule.thens, e.catalogue.has p.action = true := by
  unfold validateRule at valid
  split at valid
  · cases valid
  · next allOffered =>
    intro p isPattern
    have offered := List.find?_eq_none.mp allOffered p isPattern
    rwa [Bool.not_eq_true', Bool.not_eq_false] at offered

private theorem offers_of_validateRules {rules : List Rule} {notes : List LogRecord}
    (valid : e.validateRules rules = (notes, .ok ())) :
    ∀ rule ∈ rules, ∀ p ∈ rule.thens, e.catalogue.has p.action = true := by
  induction rules generalizing notes with
  | nil => exact List.forall_mem_nil _
  | cons rule rest ih =>
    unfold validateRules at valid
    split at valid
    · cases valid
    · next isValid =>
      refine List.forall_mem_cons.mpr ⟨offers_of_validateRule isValid, ?_⟩
      dsimp only at valid
      cases result : e.validateRules rest with
      | mk more outcome =>
        rw [result] at valid
        cases valid
        exact ih result

/-- A validation that succeeds leaves an engine whose rules call only what is offered. -/
theorem isValidated_of_validate {notes : List LogRecord}
    (valid : e.validate = (f, notes, .ok ())) : f.IsValidated := by
  unfold validate at valid
  split at valid
  · cases valid
  · next isValid =>
    have offered := offers_of_validateRules isValid
    cases valid
    exact offered

end Engine

/-- A run that has taken registered rules goes on to do so. -/
theorem Moves.isListed (moves : Moves e c p f d q events) (registered : e.rules.Reachable)
    (listed : p.IsListed e.rules) : q.IsListed e.rules := by
  cases moves with
  | drain | turn | lose | leave | breakOff | reject | save | fail => trivial
  | pop =>
    intro rule isTaken
    rw [registered.rulesFor_eq] at isTaken
    exact (List.mem_filter.mp isTaken).1
  | settle | close => exact fun rule inside => listed rule (List.mem_cons_of_mem _ inside)
  | evaluate | enrich | answer | skip | dispatch | call | log | finish => exact listed

/-- A run waits for a component if it is in the middle of a call. -/
theorem Run.exists_calling_of_wait {r : Run} (waits : r.wait? e = some (.component action input ends)) :
    ∃ site left claimed work more made,
      r.point = .dispatching site left claimed work (.calling action input more made ends) := by
  unfold wait? at waits
  split at waits <;> cases waits
  exact ⟨_, _, _, _, _, _, by assumption⟩

namespace System

variable {start s t : System} {n : Nat} {w : Worker} {turn : Turn}

theorem Performs.rests (performs : s.Performs e) (rests : s.Rests t) : t.Performs e where
  accountable := performs.accountable.rests rests
  registered := performs.registered
  rules := rests.evolves.rules.trans performs.rules
  catalogue := rests.evolves.catalogue.trans performs.catalogue
  listed w inside := by
    rcases rests.mem_worker inside with ⟨v, before, like⟩ | fresh
    · exact like.point ▸ performs.listed v before
    · rw [fresh.point]
      trivial

theorem Performs.turned (performs : s.Performs e) (working : s.workers[n]? = some w)
    (moves : Run.IsMove s.engine w.run.cascade w.run.point turn) : (s.turned n w turn).Performs e := by
  have inside := List.mem_of_getElem? working
  have orderly := performs.accountable.orderly
  have evolves := (Moves.sound moves orderly.sound (orderly.grounded w inside).point).2
  constructor
  case accountable => exact performs.accountable.turned working moves
  case registered => exact performs.registered
  case rules => exact evolves.rules.trans performs.rules
  case catalogue => exact evolves.catalogue.trans performs.catalogue
  case listed =>
    intro v isWorker
    rcases mem_turned_workers isWorker with old | rfl
    · exact performs.listed v old
    · have listed := performs.listed w inside
      rw [← performs.rules] at listed ⊢
      exact Moves.isListed moves (performs.rules ▸ performs.registered) listed

theorem performs_preserved (e : Engine) : Preserved (Performs · e) where
  coherent performs := performs.accountable.orderly.sound.coherent
  rest := Performs.rests
  turn := Performs.turned

theorem Reaches.performs (reached : start.Reaches s) (initial : start.Initial)
    (registered : start.engine.rules.Reachable) : s.Performs start.engine := by
  refine (performs_preserved start.engine).reaches ⟨initial.accountable, registered, rfl, rfl, ?_⟩ reached
  rw [initial.workers]
  exact List.forall_mem_nil _

/-- What is dispatched, is dispatched for a registered rule. -/
theorem Performs.mem_rules (performs : s.Performs e) (working : s.workers[n]? = some w)
    {site : Site} {left : Frames} {claimed : List Firing} {work : Dispatch} {stage : Dispatching}
    (isPoint : w.run.point = .dispatching site left claimed work stage) :
    work.rule ∈ e.rules.rules := by
  have inside := List.mem_of_getElem? working
  have grounded := (performs.accountable.orderly.grounded w inside).point
  have listed := performs.listed w inside
  rw [isPoint] at grounded listed
  exact grounded.2.1 ▸ listed _ List.mem_cons_self

/-- What a dispatch has still to call are then-patterns of a registered rule. -/
theorem Performs.mem_thens_of_next (performs : s.Performs e) (working : s.workers[n]? = some w)
    {site : Site} {left : Frames} {claimed : List Firing} {work : Dispatch} {patterns : List Pattern}
    {made : List Invocation}
    (isPoint : w.run.point = .dispatching site left claimed work (.next patterns made)) :
    work.rule ∈ e.rules.rules ∧ ∀ p ∈ patterns, p ∈ work.rule.thens := by
  obtain ⟨_, _, underway⟩ := performs.accountable.underway working isPoint
  refine ⟨performs.mem_rules working isPoint, fun p isLeft => ?_⟩
  cases underway with
  | next _ thens => exact thens ▸ List.mem_append_right _ isLeft

/-- What a run calls is what a then-pattern of a registered rule says. -/
theorem Performs.exists_then_of_wait (performs : s.Performs e) (working : s.workers[n]? = some w)
    (waits : w.run.wait? f = some (.component action input ends)) :
    ∃ rule ∈ e.rules.rules, ∃ p ∈ rule.thens, p.action = action := by
  obtain ⟨site, left, claimed, work, more, made, isPoint⟩ := Run.exists_calling_of_wait waits
  obtain ⟨_, _, underway⟩ := performs.accountable.underway working isPoint
  refine ⟨work.rule, performs.mem_rules working isPoint, ?_⟩
  cases underway with
  | calling _ thens => exact ⟨_, thens ▸ List.mem_append_right _ List.mem_cons_self, rfl⟩

end System

end Choreography
