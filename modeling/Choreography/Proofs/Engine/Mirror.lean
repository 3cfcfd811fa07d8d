import Choreography.Engine
import Choreography.Proofs.Matching.Mirror
import Choreography.Proofs.Matching.Stability

/-! A cascade in two engines. The engines have the same rules and components, the cascade takes
the same course in both logs, and what has fired in it is the same, in terms of twins. Then the
engines answer alike whatever is asked about the cascade, and stay like that when the same is
done in both. -/

namespace Choreography

open InvocationLog

/-- The same rule fires for twins. -/
structure Firing.Mirrors (twins : Twins) (firing reflection : Firing) : Prop where
  rule : firing.rule = reflection.rule
  support : List.Forall₂ twins.Name firing.support reflection.support

/-- Two frames bind the same and rest on twins, and on something at all. -/
def Frame.Fires (twins : Twins) (f g : Frame) : Prop := f.support ≠ [] ∧ f.Mirrors twins g

/-- Whatever has fired rests on what was logged before. -/
def Engine.Knows (e : Engine) : Prop := ∀ firing ∈ e.fired, ∀ id ∈ firing.support, id < e.log.next

/-- As far as one cascade is concerned an engine is what it was. Others may have grown meanwhile,
and what else has fired does not rest on this one. -/
structure Engine.SameFor (e g : Engine) (root : InvocationId) : Prop where
  coherent : g.log.Coherent
  cascade : g.log.cascade root = e.log.cascade root
  catalogue : g.catalogue = e.catalogue
  rules : g.rules = e.rules
  limits : g.limits = e.limits
  stays : ∀ firing ∈ e.fired, firing ∈ g.fired
  fired : ∀ firing ∈ g.fired, firing ∈ e.fired ∨
    ∀ i ∈ e.log.entries, i.root = root → i.id ∉ firing.support
  known : g.Knows

/-- A cascade of one engine has a mirror image in another. -/
structure Engine.Mirrors (e f : Engine) (root image : InvocationId) : Prop where
  log : e.log.Mirrors f.log root image
  catalogue : e.catalogue = f.catalogue
  rules : e.rules = f.rules
  depth : e.limits.depth = f.limits.depth
  fired : ∀ firing reflection, firing.Mirrors (e.log.twins f.log root image) reflection →
    firing.support ≠ [] → (firing ∈ e.fired ↔ reflection ∈ f.fired)
  known : e.Knows
  alsoKnown : f.Knows

variable {twins more : Twins} {firing reflection : Firing} {i j : Invocation}

theorem Firing.Mirrors.mono (included : twins ⊆ more) (alike : firing.Mirrors twins reflection) :
    firing.Mirrors more reflection :=
  ⟨alike.rule, alike.support.imp fun _ _ => Twins.Name.mono included⟩

theorem Frame.Fires.mono {f g : Frame} (included : twins ⊆ more) (fires : f.Fires twins g) :
    f.Fires more g :=
  ⟨fires.1, fires.2.mono included⟩

theorem Frame.Fires.toFiring {f g : Frame} (fires : f.Fires twins g) (name : String) :
    Firing.Mirrors twins ⟨name, f.support⟩ ⟨name, g.support⟩ :=
  ⟨rfl, fires.2.support⟩

theorem Twins.Ascending.firing_eq_iff (ascending : twins.Ascending) {other image : Firing}
    (alike : firing.Mirrors twins reflection) (alsoAlike : other.Mirrors twins image) :
    firing = other ↔ reflection = image := by
  obtain ⟨rule, support⟩ := firing
  obtain ⟨rule', support'⟩ := reflection
  obtain ⟨_, _⟩ := other
  obtain ⟨_, _⟩ := image
  obtain ⟨sameRule, names⟩ := alike
  obtain ⟨sameRule', names'⟩ := alsoAlike
  dsimp only at sameRule names sameRule' names'
  rw [Firing.mk.injEq, Firing.mk.injEq, sameRule, sameRule', ascending.list_eq_iff names names']

theorem Twins.Ascending.mem_firings_iff (ascending : twins.Ascending) {claimed mirrored : List Firing}
    (alike : firing.Mirrors twins reflection)
    (areAlike : List.Forall₂ (Firing.Mirrors twins) claimed mirrored) :
    firing ∈ claimed ↔ reflection ∈ mirrored := by
  induction areAlike with
  | nil => exact iff_of_false List.not_mem_nil List.not_mem_nil
  | cons head _ ih => rw [List.mem_cons, List.mem_cons, ascending.firing_eq_iff alike head, ih]

/-- Identifiers that are named by one pair more are that pair, or were named before. -/
theorem Twins.Name.of_append {a b : InvocationId} (name : Twins.Name (twins ++ [(i, j)]) a b) :
    twins.Name a b ∨ a = i.id ∧ b = j.id := by
  obtain ⟨pair, inside, rfl, rfl⟩ := name
  rcases List.mem_append.mp inside with old | isNew
  · exact .inl ⟨pair, old, rfl, rfl⟩
  · rw [List.mem_singleton.mp isNew]
    exact .inr ⟨rfl, rfl⟩

/-- What mirrors with one pair more either did so before, or rests on that pair. -/
theorem Firing.Mirrors.of_append (alike : firing.Mirrors (twins ++ [(i, j)]) reflection) :
    firing.Mirrors twins reflection ∨ i.id ∈ firing.support ∧ j.id ∈ reflection.support := by
  obtain ⟨rule, support⟩ := firing
  obtain ⟨rule', support'⟩ := reflection
  obtain ⟨sameRule, names⟩ := alike
  dsimp only at sameRule names ⊢
  suffices general : List.Forall₂ twins.Name support support' ∨ i.id ∈ support ∧ j.id ∈ support' from
    general.imp_left fun names => ⟨sameRule, names⟩
  induction names with
  | nil => exact .inl .nil
  | cons head _ ih =>
    rcases head.of_append with name | ⟨rfl, rfl⟩
    · exact ih.imp (.cons name) fun isNew =>
        ⟨List.mem_cons_of_mem _ isNew.1, List.mem_cons_of_mem _ isNew.2⟩
    · exact .inr ⟨List.mem_cons_self, List.mem_cons_self⟩

theorem Engine.Knows.claim {e : Engine} (knows : e.Knows) (root : InvocationId)
    (known : ∀ id ∈ firing.support, id < e.log.next) : (e.claim root firing).Knows := by
  intro other fired
  rcases List.mem_append.mp fired with before | isNew
  · exact knows other before
  · rw [List.mem_singleton.mp isNew]
    exact known

namespace Engine.Mirrors

variable {e f : Engine} {root image : InvocationId} {rule : Rule} {support others : List InvocationId}
  (mirrors : e.Mirrors f root image)

include mirrors

theorem activate (a b : InvocationId) (n m : Nat) :
    (e.activate a n).Mirrors (f.activate b m) root image :=
  ⟨mirrors.log, mirrors.catalogue, mirrors.rules, mirrors.depth, mirrors.fired, mirrors.known,
    mirrors.alsoKnown⟩

theorem deactivate (a b : InvocationId) : (e.deactivate a).Mirrors (f.deactivate b) root image :=
  ⟨mirrors.log, mirrors.catalogue, mirrors.rules, mirrors.depth, mirrors.fired, mirrors.known,
    mirrors.alsoKnown⟩

theorem hasFired_eq (alike : firing.Mirrors (e.log.twins f.log root image) reflection)
    (resting : firing.support ≠ []) : e.hasFired firing = f.hasFired reflection := by
  rw [Bool.eq_iff_iff, hasFired, hasFired, List.contains_iff_mem, List.contains_iff_mem]
  exact mirrors.fired firing reflection alike resting

/-- The same frames are left to fire. -/
theorem unfired (pair : (e.log.twins f.log root image).Pair i j) (rule : Rule) :
    List.Forall₂ (Frame.Fires (e.log.twins f.log root image)) (e.unfired rule i) (f.unfired rule j) := by
  have resting : ∀ g ∈ rule.matchAt i e.log, g.support ≠ [] := fun g found =>
    List.ne_nil_of_mem (trigger_mem_support found)
  have matched := (List.forall₂_and_left _ _).mpr ⟨resting, mirrors.log.matchAt_mirrors pair rule⟩
  refine List.rel_filter (fun g h isAlike => ?_) matched
  dsimp only
  rw [mirrors.hasFired_eq (Frame.Fires.toFiring isAlike rule.name) isAlike.1]

theorem depthOf_eq (names : List.Forall₂ (e.log.twins f.log root image).Name support others) :
    Dispatch.depthOf e.log support = Dispatch.depthOf f.log others := by
  obtain ⟨found, seen, areFound, areSeen, pairs⟩ := mirrors.log.exists_pairs names
  have depths : found.foldr (fun k deepest => max k.depth deepest) 0 =
      seen.foldr (fun k deepest => max k.depth deepest) 0 := by
    clear areFound areSeen
    induction pairs with
    | nil => rfl
    | cons head _ ih => rw [List.foldr_cons, List.foldr_cons, ih, (mirrors.log.alike _ head).depth]
  rw [Dispatch.depthOf, Dispatch.depthOf, areFound, areSeen]
  cases pairs with
  | nil => rfl
  | cons => exact congrArg (fun depth : Nat => Except.ok (1 + (depth : Int))) depths

theorem known_of_names (names : List.Forall₂ (e.log.twins f.log root image).Name support others) :
    (∀ id ∈ support, id < e.log.next) ∧ ∀ id ∈ others, id < f.log.next := by
  obtain ⟨held, alsoHeld⟩ := mirrors.log.held_of_names names
  constructor
  · intro id inside
    obtain ⟨k, isHeld, rfl, _⟩ := held id inside
    exact (mirrors.log.coherent.bounded k isHeld).2
  · intro id inside
    obtain ⟨k, isHeld, rfl, _⟩ := alsoHeld id inside
    exact (mirrors.log.mirrored.bounded k isHeld).2

/-- Twin firings are claimed alike. -/
theorem claim (alike : firing.Mirrors (e.log.twins f.log root image) reflection) :
    (e.claim root firing).Mirrors (f.claim image reflection) root image where
  log := mirrors.log
  catalogue := mirrors.catalogue
  rules := mirrors.rules
  depth := mirrors.depth
  fired other shadow isAlike resting := by
    have before := mirrors.fired other shadow isAlike resting
    have same := mirrors.log.ascending.firing_eq_iff isAlike alike
    rw [Engine.claim, Engine.claim]
    dsimp only
    rw [List.mem_append, List.mem_append, List.mem_singleton, List.mem_singleton, before, same]
  known := mirrors.known.claim root (mirrors.known_of_names alike.support).1
  alsoKnown := mirrors.alsoKnown.claim image (mirrors.known_of_names alike.support).2

/-- Both sides go on with a firing that is theirs, or both claim it. -/
theorem claimUnless {claimed mirrored : List Firing}
    (alike : firing.Mirrors (e.log.twins f.log root image) reflection)
    (areAlike : List.Forall₂ (Firing.Mirrors (e.log.twins f.log root image)) claimed mirrored)
    (mine : Bool) :
    Engine.Mirrors (if mine then e else e.claim root firing)
        (if mine then f else f.claim image reflection) root image ∧
      (if mine then e else e.claim root firing).log = e.log ∧
      (if mine then f else f.claim image reflection).log = f.log ∧
      List.Forall₂ (Firing.Mirrors (e.log.twins f.log root image))
        (if mine then claimed else claimed ++ [firing])
        (if mine then mirrored else mirrored ++ [reflection]) := by
  cases mine with
  | false => exact ⟨mirrors.claim alike, rfl, rfl, List.rel_append areAlike (.cons alike .nil)⟩
  | true => exact ⟨mirrors, rfl, rfl, areAlike⟩

/-- Nothing has fired yet for the invocations that come next. -/
theorem enter (isNext : i.id = e.log.next) (isNextThere : j.id = f.log.next)
    (entered : (e.log.enter i).Mirrors (f.log.enter j) root image ∧
      (e.log.enter i).twins (f.log.enter j) root image = e.log.twins f.log root image ++ [(i, j)]) :
    Engine.Mirrors { e with log := e.log.enter i } { f with log := f.log.enter j } root image where
  log := entered.1
  catalogue := mirrors.catalogue
  rules := mirrors.rules
  depth := mirrors.depth
  fired firing reflection alike resting := by
    dsimp only at alike
    rw [entered.2] at alike
    rcases alike.of_append with before | ⟨isNew, isNewThere⟩
    · exact mirrors.fired firing reflection before resting
    -- What rests on the new invocation has not fired: its identifier was not given before.
    · refine iff_of_false (fun fired => ?_) fun fired => ?_
      · exact Int.lt_irrefl _ (isNext ▸ mirrors.known firing fired i.id isNew)
      · exact Int.lt_irrefl _ (isNextThere ▸ mirrors.alsoKnown reflection fired j.id isNewThere)
  known firing fired id inside := Int.lt_trans (mirrors.known firing fired id inside) (Int.lt_succ _)
  alsoKnown firing fired id inside :=
    Int.lt_trans (mirrors.alsoKnown firing fired id inside) (Int.lt_succ _)

/-- The same call is logged with twin causes. -/
theorem append (names : List.Forall₂ (e.log.twins f.log root image).Name support others)
    (isCaused : support ≠ []) (action : ActionRef) (input output : Fields) :
    ∃ grown i reflected j, e.log.append action input output support = .ok (grown, i) ∧
      f.log.append action input output others = .ok (reflected, j) ∧
      Engine.Mirrors { e with log := grown } { f with log := reflected } root image ∧
      grown.twins reflected root image = e.log.twins f.log root image ++ [(i, j)] := by
  obtain ⟨i, j, logged, mirrored, isNext, isNextThere, entered⟩ :=
    mirrors.log.append names isCaused action input output
  exact ⟨_, i, _, j, logged, mirrored, mirrors.enter isNext isNextThere entered, entered.2⟩

/-- What happens in other cascades does not matter. -/
theorem congr {g : Engine} (same : e.SameFor g root) : g.Mirrors f root image ∧
    g.log.twins f.log root image = e.log.twins f.log root image := by
  obtain ⟨log, twins⟩ := mirrors.log.congr same.coherent same.cascade
  refine ⟨?_, twins⟩
  constructor
  case log => exact log
  case catalogue => exact same.catalogue.trans mirrors.catalogue
  case rules => exact same.rules.trans mirrors.rules
  case depth => exact (congrArg Limits.depth same.limits).trans mirrors.depth
  case fired =>
    intro firing reflection alike resting
    rw [twins] at alike
    rw [← mirrors.fired firing reflection alike resting]
    -- What was claimed elsewhere rests on nothing of this cascade, and so has no mirror image.
    refine ⟨fun fired => (same.fired firing fired).resolve_right fun elsewhere => ?_,
      same.stays firing⟩
    obtain ⟨id, inside⟩ := List.exists_mem_of_ne_nil _ resting
    obtain ⟨i, held, rfl, isRoot⟩ := (mirrors.log.held_of_names alike.support).1 id inside
    exact elsewhere i held isRoot inside
  case known => exact same.known
  case alsoKnown => exact mirrors.alsoKnown

end Engine.Mirrors

/-- Calls that begin cascades mirror each other, since nothing can have fired for them. -/
theorem Engine.Mirrors.begin {e f : Engine} (catalogue : e.catalogue = f.catalogue)
    (rules : e.rules = f.rules) (depth : e.limits.depth = f.limits.depth) (knows : e.Knows)
    (alsoKnows : f.Knows) (coherent : e.log.Coherent) (alsoCoherent : f.log.Coherent)
    (isNew : e.log.cascade e.log.next = []) (isNewThere : f.log.cascade f.log.next = [])
    (action : ActionRef) (input output : Fields) :
    Engine.Mirrors { e with log := e.log.enter (e.log.describe action input output []) }
        { f with log := f.log.enter (f.log.describe action input output []) } e.log.next f.log.next ∧
      ((e.log.enter (e.log.describe action input output [])).twins
          (f.log.enter (f.log.describe action input output [])) e.log.next f.log.next).Pair
        (e.log.describe action input output []) (f.log.describe action input output []) := by
  have log := InvocationLog.Mirrors.empty coherent alsoCoherent isNew isNewThere
  -- Before the calls the cascades are empty, and a firing that rests on one of them rests on nothing.
  have before : e.Mirrors f e.log.next f.log.next := by
    refine ⟨log, catalogue, rules, depth, fun firing reflection alike resting => ?_, knows, alsoKnows⟩
    obtain ⟨id, inside⟩ := List.exists_mem_of_ne_nil _ resting
    obtain ⟨i, held, _, isRoot⟩ := (log.held_of_names alike.support).1 id inside
    have present := coherent.mem_cascade.mpr ⟨held, isRoot⟩
    rw [isNew] at present
    cases present
  have alike := log.describe_alike action input output .nil
  have entered := log.enter rfl rfl rfl rfl alike
  refine ⟨before.enter rfl rfl entered, ?_⟩
  rw [entered.2]
  exact List.mem_append_right _ (List.mem_singleton_self _)

end Choreography
