import Choreography.Rule.Registry
import Mathlib.Data.List.Nodup

/-! The rules of a registry. Under each action a registry lists the rules that have it among
their triggers, in the order of their registration, and no two rules have the same
name. -/

namespace Choreography

variable {rule other : Rule} {action listed : ActionRef} {index : RuleIndex}
  {registry grown : RuleRegistry}

/-! ### The triggers of a rule -/

private theorem mem_foldl_actions {patterns : List Pattern} {seen : List ActionRef} :
    action ∈ patterns.foldl (fun seen p => if p.action ∈ seen then seen else seen ++ [p.action]) seen ↔
      action ∈ seen ∨ ∃ p ∈ patterns, p.action = action := by
  induction patterns generalizing seen with
  | nil => simp
  | cons p patterns ih =>
    rw [List.foldl_cons, ih]
    split
    · next known =>
      constructor
      · rintro (inSeen | ⟨q, inside, isAction⟩)
        · exact .inl inSeen
        · exact .inr ⟨q, List.mem_cons_of_mem p inside, isAction⟩
      · rintro (inSeen | ⟨q, inside, rfl⟩)
        · exact .inl inSeen
        · rcases List.mem_cons.mp inside with rfl | inRest
          · exact .inl known
          · exact .inr ⟨q, inRest, rfl⟩
    · simp only [List.mem_append, List.mem_singleton, List.exists_mem_cons_iff, or_assoc, eq_comm]

private theorem nodup_foldl_actions {patterns : List Pattern} {seen : List ActionRef}
    (distinct : seen.Nodup) : (patterns.foldl
      (fun seen p => if p.action ∈ seen then seen else seen ++ [p.action]) seen).Nodup := by
  induction patterns generalizing seen with
  | nil => exact distinct
  | cons p patterns ih =>
    rw [List.foldl_cons]
    split
    · exact ih distinct
    · next isNew =>
      apply ih
      rw [← List.concat_eq_append]
      exact distinct.concat isNew

/-- The triggers of a rule are the actions of its when-patterns. -/
theorem Rule.mem_triggers : action ∈ rule.triggers ↔ ∃ p ∈ rule.whens, p.action = action := by
  rw [triggers, mem_foldl_actions]
  simp

theorem Rule.nodup_triggers (rule : Rule) : rule.triggers.Nodup := nodup_foldl_actions .nil

/-! ### The index -/

namespace RuleIndex

theorem rulesFor_add (index : RuleIndex) (rule : Rule) (listed action : ActionRef) :
    (index.add rule listed).rulesFor action =
      index.rulesFor action ++ if action = listed then [rule] else [] := by
  induction index with
  | nil =>
    rw [add, rulesFor, rulesFor, List.lookup_cons]
    by_cases same : action = listed
    · simp [same]
    · simp [same, beq_eq_false_iff_ne.mpr same]
  | cons entry index ih =>
    obtain ⟨known, rules⟩ := entry
    rw [add]
    by_cases isKnown : known = listed
    · subst isKnown
      rw [if_pos rfl, rulesFor, rulesFor, List.lookup_cons, List.lookup_cons]
      by_cases same : action = known
      · simp [same]
      · simp [same, beq_eq_false_iff_ne.mpr same]
    · rw [if_neg isKnown, rulesFor, rulesFor, List.lookup_cons, List.lookup_cons]
      by_cases same : action = known
      · simp [same, isKnown]
      · rw [beq_eq_false_iff_ne.mpr same]
        exact ih

/-- A rule is entered once under each of its actions, and nowhere else. -/
theorem rulesFor_foldl_add {actions : List ActionRef} (distinct : actions.Nodup) :
    (actions.foldl (fun index action => index.add rule action) index).rulesFor action =
      index.rulesFor action ++ if action ∈ actions then [rule] else [] := by
  induction actions generalizing index with
  | nil => simp
  | cons first actions ih =>
    obtain ⟨isNew, distinct⟩ := List.nodup_cons.mp distinct
    rw [List.foldl_cons, ih distinct, rulesFor_add, List.append_assoc]
    by_cases isFirst : action = first
    · subst isFirst
      simp [isNew]
    · simp [isFirst]

end RuleIndex

/-! ### The registry -/

namespace RuleRegistry

/-- The registries that come about by registering rules and by freezing. -/
inductive Reachable : RuleRegistry → Prop where
  | empty : Reachable {}
  | register {rule : Rule} {registry grown : RuleRegistry} (reached : Reachable registry)
      (accepted : registry.register rule = .ok grown) : Reachable grown
  | freeze {registry : RuleRegistry} (reached : Reachable registry) : Reachable registry.freeze

theorem register_eq_ok (accepted : registry.register rule = .ok grown) :
    registry.get? rule.name = none ∧ grown.rules = registry.rules ++ [rule] ∧
      grown.index =
        rule.triggers.foldl (fun index action => index.add rule action) registry.index := by
  unfold register at accepted
  split at accepted
  · cases accepted
  · split at accepted
    · cases accepted
    · next isNew =>
      cases accepted
      exact ⟨Option.not_isSome_iff_eq_none.mp isNew, rfl, rfl⟩

theorem Reachable.registerAll (reached : registry.Reachable) (offers : List (Except Error Rule)) :
    (registry.registerAll offers).1.Reachable := by
  induction offers generalizing registry with
  | nil => exact reached
  | cons offer offers ih =>
    rw [RuleRegistry.registerAll]
    split
    · next grown accepted =>
      cases offer with
      | error => cases accepted
      | ok rule => exact ih (reached.register accepted)
    · exact reached

/-- The rules that listen for an action are listed under it in the order of their
registration. -/
theorem Reachable.rulesFor_eq (reached : registry.Reachable) (action : ActionRef) :
    registry.rulesFor action = registry.rules.filter (action ∈ ·.triggers) := by
  induction reached with
  | empty => rfl
  | @register rule _ _ _ accepted ih =>
    obtain ⟨_, rules, index⟩ := register_eq_ok accepted
    rw [rulesFor, index, rules, RuleIndex.rulesFor_foldl_add rule.nodup_triggers, List.filter_append,
      List.filter_singleton, ← ih]
    by_cases triggers : action ∈ rule.triggers <;> simp [triggers, rulesFor]
  | freeze _ ih => exact ih

theorem Reachable.nodup_names (reached : registry.Reachable) :
    (registry.rules.map (·.name)).Nodup := by
  induction reached with
  | empty => exact .nil
  | register _ accepted ih =>
    obtain ⟨isNew, rules, _⟩ := register_eq_ok accepted
    rw [rules, List.map_append, List.map_singleton]
    rw [← List.concat_eq_append]
    apply ih.concat
    intro inside
    obtain ⟨other, isOther, same⟩ := List.mem_map.mp inside
    exact List.find?_eq_none.mp isNew other isOther (beq_iff_eq.mpr same)
  | freeze _ ih => exact ih

theorem Reachable.eq_of_name_eq (reached : registry.Reachable) (first : rule ∈ registry.rules)
    (second : other ∈ registry.rules) (same : rule.name = other.name) : rule = other :=
  List.inj_on_of_nodup_map reached.nodup_names first second same

end RuleRegistry

end Choreography
