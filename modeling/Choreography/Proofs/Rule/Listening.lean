import Choreography.Proofs.Matching.Stability
import Choreography.Proofs.Rule.Registry

/-! A registry in use. Rules are registered, alone and several together, and the registry is frozen,
in any order, and some of that is refused. Whatever was asked of it, the rules that it lists under
an action are those of its rules that listen for it, so that it makes no difference to what matches
around an invocation whether all rules are asked or only these. -/

namespace Choreography

/-- What can be asked of a registry. Of rules that are registered together, each is made when its
turn comes, which may fail. -/
inductive RuleRequest where
  | register (rule : Rule)
  | registerAll (offers : List (Except Error Rule))
  | freeze

/-- The rules that match around an invocation, each with its frames. -/
def matchings (rules : List Rule) (trigger : Invocation) (log : InvocationLog) :
    List (Rule × Frames) :=
  (rules.map fun rule => (rule, rule.matchAt trigger log)).filter fun found => !found.2.isEmpty

/-- A rule listens for an action. -/
def Rule.ListensFor (rule : Rule) (action : ActionRef) : Prop := ∃ p ∈ rule.whens, p.action = action

instance (rule : Rule) (action : ActionRef) : Decidable (rule.ListensFor action) :=
  inferInstanceAs (Decidable (∃ p ∈ rule.whens, p.action = action))

namespace RuleRegistry

/-- What becomes of a registry that is asked for something, and what is said to whoever asked. -/
def answer (registry : RuleRegistry) : RuleRequest → RuleRegistry × Except Error Unit
  | .register rule =>
    match registry.register rule with
    | .ok grown => (grown, .ok ())
    | .error e => (registry, .error e)
  | .registerAll offers => registry.registerAll offers
  | .freeze => (registry.freeze, .ok ())

/-- A registry after some requests. -/
def after (requests : List RuleRequest) : RuleRegistry :=
  requests.foldl (fun registry request => (registry.answer request).1) {}

/-- A registry takes a rule: it is not frozen, and has no rule of that name. -/
def Takes (registry : RuleRegistry) (rule : Rule) : Prop :=
  registry.frozen = false ∧ ∀ other ∈ registry.rules, other.name ≠ rule.name

/-- Why a registry took no more of the rules that were offered together, and what is said then. -/
inductive EndsAt (registry : RuleRegistry) : List (Except Error Rule) → Except Error Unit → Prop where
  | complete : registry.EndsAt [] (.ok ())
  | unmade (error : Error) (more : List (Except Error Rule)) :
    registry.EndsAt (.error error :: more) (.error error)
  | refused {rule : Rule} {error : Error} (more : List (Except Error Rule)) :
    registry.register rule = .error error → registry.EndsAt (.ok rule :: more) (.error error)

/-- Of rules that are offered together those are taken that come before the first that is refused, or
that cannot be made. -/
structure TakesInTurn (registry : RuleRegistry) (offers : List (Except Error Rule))
    (final : RuleRegistry) (said : Except Error Unit) (taken : List Rule)
    (rest : List (Except Error Rule)) : Prop where
  areOffers : offers = taken.map .ok ++ rest
  rules : final.rules = registry.rules ++ taken
  frozen : final.frozen = registry.frozen
  ends : final.EndsAt rest said

/-- The index of a registry says no more and no less than its rules do. -/
structure IsExact (registry : RuleRegistry) : Prop where
  /-- Under an action stand the rules that listen for it, in the order of their registration. -/
  listed : ∀ action, registry.rulesFor action = registry.rules.filter (·.ListensFor action)
  once : ∀ action, (registry.rulesFor action).Nodup
  takes : ∀ rule, registry.Takes rule → ∃ grown, registry.answer (.register rule) = (grown, .ok ()) ∧
    grown.rules = registry.rules ++ [rule] ∧ grown.frozen = registry.frozen
  /-- What is refused changes nothing. -/
  refuses : ∀ rule, ¬registry.Takes rule →
    ∃ error, registry.answer (.register rule) = (registry, .error error)
  together : ∀ offers, ∃ final said taken rest,
    registry.answer (.registerAll offers) = (final, said) ∧
      registry.TakesInTurn offers final said taken rest
  freezes : ∃ grown, registry.answer .freeze = (grown, .ok ()) ∧ grown.rules = registry.rules ∧
    grown.frozen = true
  /-- To ask the rules that are listed under the action of an invocation is to ask all of them. -/
  matchings : ∀ trigger log, Choreography.matchings (registry.rulesFor trigger.action) trigger log =
    Choreography.matchings registry.rules trigger log

variable {registry : RuleRegistry} {rule : Rule}

/-! ### Requests -/

theorem register_eq_ok_of_takes (takes : registry.Takes rule) :
    ∃ grown, registry.register rule = .ok grown ∧ grown.rules = registry.rules ++ [rule] ∧
      grown.frozen = registry.frozen := by
  obtain ⟨unfrozen, isNew⟩ := takes
  have unnamed : ¬(registry.get? rule.name).isSome = true := by
    rw [Option.not_isSome_iff_eq_none]
    apply List.find?_eq_none.mpr
    intro other inside
    simpa using isNew other inside
  rw [register, unfrozen, if_neg Bool.false_ne_true, if_neg unnamed]
  exact ⟨_, rfl, rfl, rfl⟩

theorem register_eq_error_of_not_takes (refused : ¬registry.Takes rule) :
    ∃ error, registry.register rule = .error error := by
  unfold register
  split
  · exact ⟨_, rfl⟩
  next unfrozen =>
  split
  · exact ⟨_, rfl⟩
  next unnamed =>
  refine absurd ⟨Bool.eq_false_iff.mpr unfrozen, ?_⟩ refused
  intro other inside
  have differs := List.find?_eq_none.mp (Option.not_isSome_iff_eq_none.mp unnamed) other inside
  simpa using differs

theorem answer_register_of_ok {grown : RuleRegistry} (accepted : registry.register rule = .ok grown) :
    registry.answer (.register rule) = (grown, .ok ()) := by
  rw [answer, accepted]

theorem answer_register_of_error {error : Error} (refused : registry.register rule = .error error) :
    registry.answer (.register rule) = (registry, .error error) := by
  rw [answer, refused]

theorem registerAll_cons_of_error {error : Error} (offers : List (Except Error Rule))
    (refused : registry.register rule = .error error) :
    registry.registerAll (.ok rule :: offers) = (registry, .error error) := by
  simp only [registerAll, Bind.bind, Except.bind, refused]

theorem registerAll_cons_of_ok {grown : RuleRegistry} (offers : List (Except Error Rule))
    (accepted : registry.register rule = .ok grown) :
    registry.registerAll (.ok rule :: offers) = grown.registerAll offers := by
  simp only [registerAll, Bind.bind, Except.bind, accepted]

theorem register_adds {grown : RuleRegistry} (accepted : registry.register rule = .ok grown) :
    grown.rules = registry.rules ++ [rule] ∧ grown.frozen = registry.frozen := by
  by_cases takes : registry.Takes rule
  · obtain ⟨same, isSame, rules, frozen⟩ := register_eq_ok_of_takes takes
    cases accepted.symm.trans isSame
    exact ⟨rules, frozen⟩
  · obtain ⟨error, isError⟩ := register_eq_error_of_not_takes takes
    cases accepted.symm.trans isError

theorem exists_takesInTurn (registry : RuleRegistry) (offers : List (Except Error Rule)) :
    ∃ final said taken rest, registry.registerAll offers = (final, said) ∧
      registry.TakesInTurn offers final said taken rest := by
  induction offers generalizing registry with
  | nil => exact ⟨registry, .ok (), [], [], rfl, rfl, (List.append_nil _).symm, rfl, .complete⟩
  | cons offer offers ih =>
    cases offer with
    | error failure =>
      exact ⟨registry, .error failure, [], _, rfl, rfl, (List.append_nil _).symm, rfl, .unmade _ _⟩
    | ok rule =>
      cases registered : registry.register rule with
      | error failure =>
        exact ⟨registry, .error failure, [], _, registerAll_cons_of_error offers registered, rfl,
          (List.append_nil _).symm, rfl, .refused _ registered⟩
      | ok grown =>
        obtain ⟨final, said, taken, rest, isFinal, inTurn⟩ := ih grown
        obtain ⟨rules, frozen⟩ := register_adds registered
        refine ⟨final, said, rule :: taken, rest, ?_, ?_, ?_, ?_, inTurn.ends⟩
        · rw [registerAll_cons_of_ok offers registered, isFinal]
        · rw [inTurn.areOffers, List.map_cons, List.cons_append]
        · rw [inTurn.rules, rules, List.append_assoc, List.singleton_append]
        · rw [inTurn.frozen, frozen]

theorem Reachable.answer (reached : registry.Reachable) (request : RuleRequest) :
    (registry.answer request).1.Reachable := by
  cases request with
  | register rule =>
    cases registered : registry.register rule with
    | ok grown =>
      rw [answer_register_of_ok registered]
      exact reached.register registered
    | error failure =>
      rw [answer_register_of_error registered]
      exact reached
  | registerAll offers => exact reached.registerAll offers
  | freeze => exact reached.freeze

theorem reachable_after (requests : List RuleRequest) : (after requests).Reachable :=
  List.foldlRecOn requests _ (motive := Reachable) .empty fun _ reached request _ =>
    reached.answer request

/-! ### What is listed -/

theorem Reachable.rulesFor_eq_listening (reached : registry.Reachable) (action : ActionRef) :
    registry.rulesFor action = registry.rules.filter (·.ListensFor action) := by
  rw [reached.rulesFor_eq]
  apply List.filter_congr
  intro rule _
  rw [decide_eq_decide]
  exact Rule.mem_triggers

theorem Reachable.nodup_rules (reached : registry.Reachable) : registry.rules.Nodup :=
  List.Nodup.of_map _ reached.nodup_names

end RuleRegistry

/-- Rules that do not listen for the action of an invocation do not count. -/
theorem matchings_filter_listening (rules : List Rule) (trigger : Invocation) (log : InvocationLog) :
    matchings (rules.filter (·.ListensFor trigger.action)) trigger log =
      matchings rules trigger log := by
  induction rules with
  | nil => rfl
  | cons rule rules ih =>
    unfold matchings at ih ⊢
    by_cases listens : rule.ListensFor trigger.action
    · simp only [listens, decide_true, List.filter_cons_of_pos, List.map_cons, List.filter_cons, ih]
    · have deaf : rule.matchAt trigger log = [] := by
        apply matchAt_eq_nil
        intro p inside isAction
        exact listens ⟨p, inside, isAction⟩
      simp [listens, deaf, ih]

namespace RuleRegistry

/-- Whatever was asked of a registry, and whatever it refused, its index says what its rules say. -/
theorem isExact_after (requests : List RuleRequest) : (after requests).IsExact := by
  have reached := reachable_after requests
  constructor
  case listed => exact reached.rulesFor_eq_listening
  case once =>
    intro action
    rw [reached.rulesFor_eq_listening]
    exact reached.nodup_rules.filter _
  case takes =>
    intro rule takes
    obtain ⟨grown, accepted, rules, frozen⟩ := register_eq_ok_of_takes takes
    exact ⟨grown, answer_register_of_ok accepted, rules, frozen⟩
  case refuses =>
    intro rule refused
    obtain ⟨error, isError⟩ := register_eq_error_of_not_takes refused
    exact ⟨error, answer_register_of_error isError⟩
  case together => exact exists_takesInTurn _
  case freezes => exact ⟨_, rfl, rfl, rfl⟩
  case matchings =>
    intro trigger log
    rw [reached.rulesFor_eq_listening]
    exact matchings_filter_listening _ trigger log

end RuleRegistry

end Choreography
