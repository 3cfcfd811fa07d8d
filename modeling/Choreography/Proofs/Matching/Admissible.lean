import Choreography.Match
import Choreography.Proofs.Log.Lineage
import Choreography.Proofs.Unification
import Mathlib.Data.List.Forall2

/-! What a rule looks for, said without the search for it. A tuple has one invocation for
each when-pattern. It is admissible around a trigger if every pattern fits, all variables
agree, and every other member is earlier, of the same cascade, and causally tied to the
trigger or to a member further left. -/

namespace Choreography

/-- An invocation is what a pattern asks for, the variables apart. -/
def Pattern.FitsInvocation (p : Pattern) (i : Invocation) : Prop := p.Fits i.action i.input i.output

/-- What the variables of a pattern observe in an invocation. -/
def Pattern.observe (p : Pattern) (i : Invocation) : List Observation :=
  p.observations i.input i.output

/-- What all variables of a rule observe in a tuple. -/
def Rule.observe (rule : Rule) (tuple : List Invocation) : List Observation :=
  (List.zipWith Pattern.observe rule.whens tuple).flatten

/-- A tuple satisfies the when-clause around a trigger that has the given seat. -/
structure Rule.Admissible (rule : Rule) (log : InvocationLog) (trigger : Invocation) (seat : Nat)
    (tuple : List Invocation) : Prop where
  seated : tuple[seat]? = some trigger
  fits : List.Forall₂ Pattern.FitsInvocation rule.whens tuple
  consistent : Consistent (rule.observe tuple)
  held : ∀ i ∈ tuple, i ∈ log.entries
  together : ∀ i ∈ tuple, i.root = trigger.root
  earlier : ∀ i ∈ tuple, i.id ≤ trigger.id
  distinct : (tuple.map (·.id)).Nodup
  causal : ∀ (place : Nat) (i : Invocation), place ≠ seat → tuple[place]? = some i →
    log.Akin i.id trigger.id ∨ ∃ j ∈ tuple.take place, log.Akin i.id j.id

/-- A frame that rests on a tuple binds each variable to a value that one of its
occurrences met there. -/
structure Frame.RestsOn (f : Frame) (rule : Rule) (trigger : Invocation) (tuple : List Invocation) :
    Prop where
  support : f.support = tuple.map (·.id)
  root : f.root = some trigger.root
  names : ∀ name, name ∈ Fields.names f.bindings ↔ ∃ p ∈ rule.whens, name ∈ p.occurrences
  unique : (Fields.names f.bindings).Nodup
  met : ∀ name value, Fields.get? f.bindings name = some value →
    (name, value) ∈ rule.observe tuple

/-- The order of the frames of one trigger: by its seat, then lexicographically by the
invocations in the other seats. -/
def Frame.Before (trigger : InvocationId) (f g : Frame) : Prop :=
  f.support.idxOf trigger < g.support.idxOf trigger ∨
    f.support.idxOf trigger = g.support.idxOf trigger ∧
      List.Lex (· < ·) (f.support.erase trigger) (g.support.erase trigger)

theorem Frame.Before.support_ne {f g : Frame} (before : f.Before trigger g) :
    f.support ≠ g.support := by
  intro same
  rcases before with earlier | ⟨_, smaller⟩
  · rw [same] at earlier
    exact Nat.lt_irrefl _ earlier
  · rw [same] at smaller
    exact List.lex_irrefl Int.lt_irrefl _ smaller

/-! ### Variables that a fitting tuple observes -/

/-- The variables observed are exactly those that occur in the when-patterns. -/
theorem mem_map_fst_observe {patterns : List Pattern} {tuple : List Invocation}
    (fits : List.Forall₂ Pattern.FitsInvocation patterns tuple) :
    name ∈ (List.zipWith Pattern.observe patterns tuple).flatten.map (·.1) ↔
      ∃ p ∈ patterns, name ∈ p.occurrences := by
  induction fits with
  | nil => simp
  | cons first _ ih =>
    rw [List.zipWith_cons_cons, List.flatten_cons, List.map_append, List.mem_append, ih,
      Pattern.observe, Pattern.map_fst_observations first, List.exists_mem_cons_iff]

end Choreography
