import Choreography.Proofs.Log.Coherence
import Mathlib.Logic.Relation

/-! The lineage of an invocation. Each was described by its parents when it was logged,
and these stay in the log as long as it does. So the ancestry that is kept with an
invocation is what can be reached by going from effects to causes, and the causal
question that matching asks is answered truly. -/

namespace Choreography.InvocationLog

/-- What these parents make of an invocation that they caused. -/
structure Descends (log : InvocationLog) (parents : List Invocation) (i : Invocation) : Prop where
  held : ∀ p ∈ parents, p ∈ log.entries
  earlier : ∀ p ∈ parents, p.id < i.id
  together : ∀ p ∈ parents, p.root = i.root
  causes : i.causes = parents.map (·.id)
  root : i.root = (parents.head?.map (·.root)).getD i.id
  depth : i.depth = parents.foldr (fun p deepest => max (p.depth + 1) deepest) 0
  ancestors : i.ancestors = sortedSet (parents.flatMap fun p => p.id :: p.ancestors)

/-- One invocation was a direct cause of another. -/
def Causes (log : InvocationLog) (cause effect : InvocationId) : Prop :=
  ∃ i, log.get? effect = some i ∧ cause ∈ i.causes

/-- One invocation was a cause of another, directly or through others. -/
def Precedes (log : InvocationLog) : InvocationId → InvocationId → Prop :=
  Relation.TransGen log.Causes

/-- One invocation is a causal ancestor or descendant of another. -/
def Akin (log : InvocationLog) (a b : InvocationId) : Prop := log.Precedes a b ∨ log.Precedes b a

variable {log grown : InvocationLog} {parents : List Invocation} {i : Invocation}
  {root a b : InvocationId}

theorem Descends.enter (descends : log.Descends parents i) (j : Invocation) :
    (log.enter j).Descends parents i :=
  { descends with
    held := fun p isParent => by
      rw [entries_enter]
      exact List.mem_append_left _ (descends.held p isParent) }

theorem Coherent.describe_descends (coherent : log.Coherent)
    (held : ∀ p ∈ parents, p ∈ log.entries) (together : ∀ p ∈ parents, ∀ q ∈ parents, p.root = q.root) :
    log.Descends parents (log.describe action input output parents) where
  held := held
  earlier p isParent := (coherent.bounded p (held p isParent)).2
  together p isParent := by
    unfold describe
    cases parents with
    | nil => cases isParent
    | cons first rest => exact together p isParent first List.mem_cons_self
  causes := rfl
  root := rfl
  depth := rfl
  ancestors := rfl

theorem Coherent.descends_forget (coherent : log.Coherent) (descends : log.Descends parents i)
    (kept : i.root ≠ root) : (log.forget root).Descends parents i :=
  { descends with
    held := fun p isParent => coherent.mem_entries_forget.mpr
      ⟨descends.held p isParent, (descends.together p isParent).symm ▸ kept⟩ }

/-- Every invocation in the log has the parents that it was described by. -/
theorem Reachable.exists_descends (reached : log.Reachable) (held : i ∈ log.entries) :
    ∃ parents, log.Descends parents i := by
  induction reached with
  | start => cases held
  | append reached logged ih =>
    obtain ⟨parents, _, areHeld, together, rfl, rfl⟩ := reached.coherent.append_eq_ok logged
    rw [entries_enter, List.mem_append, List.mem_singleton] at held
    rcases held with held | rfl
    · obtain ⟨own, descends⟩ := ih held
      exact ⟨own, descends.enter _⟩
    · exact ⟨parents, (reached.coherent.describe_descends areHeld together).enter _⟩
  | forget root reached ih =>
    obtain ⟨held, kept⟩ := reached.coherent.mem_entries_forget.mp held
    obtain ⟨parents, descends⟩ := ih held
    exact ⟨parents, reached.coherent.descends_forget descends kept⟩

theorem Coherent.causes_iff (coherent : log.Coherent) (held : i ∈ log.entries) :
    log.Causes a i.id ↔ a ∈ i.causes := by
  constructor
  · rintro ⟨j, found, isCause⟩
    rw [coherent.get?_of_mem held] at found
    cases found
    exact isCause
  · exact fun isCause => ⟨i, coherent.get?_of_mem held, isCause⟩

/-- The ancestry kept with an invocation is all that precedes it. -/
theorem Reachable.mem_ancestors_iff (reached : log.Reachable) (held : i ∈ log.entries) :
    a ∈ i.ancestors ↔ log.Precedes a i.id := by
  -- causes have smaller identifiers, so the induction is on the identifier
  induction size : i.id.toNat using Nat.strongRecOn generalizing i with
  | _ size ih =>
    have coherent := reached.coherent
    obtain ⟨parents, descends⟩ := reached.exists_descends held
    have ofParent : ∀ p ∈ parents, (a ∈ p.ancestors ↔ log.Precedes a p.id) := by
      intro p isParent
      have earlier : p.id < i.id := descends.earlier p isParent
      have positive : 1 ≤ i.id := (coherent.bounded i held).1
      refine ih p.id.toNat ?_ (descends.held p isParent) rfl
      rw [← size]
      exact (Int.toNat_lt_toNat (Int.lt_of_lt_of_le Int.one_pos positive)).mpr earlier
    rw [descends.ancestors, mem_sortedSet, List.mem_flatMap]
    constructor
    · rintro ⟨p, isParent, inside⟩
      have caused : log.Causes p.id i.id :=
        (coherent.causes_iff held).mpr (descends.causes ▸ List.mem_map_of_mem isParent)
      rcases List.mem_cons.mp inside with rfl | inside
      · exact .single caused
      · exact .tail ((ofParent p isParent).mp inside) caused
    · intro precedes
      have lastStep : ∃ b, log.Causes b i.id ∧ (a = b ∨ log.Precedes a b) := by
        cases precedes with
        | single caused => exact ⟨a, caused, .inl rfl⟩
        | tail earlier caused => exact ⟨_, caused, .inr earlier⟩
      obtain ⟨b, caused, reaches⟩ := lastStep
      rw [coherent.causes_iff held, descends.causes] at caused
      obtain ⟨p, isParent, rfl⟩ := List.mem_map.mp caused
      refine ⟨p, isParent, List.mem_cons.mpr ?_⟩
      exact reaches.imp id (ofParent p isParent).mpr

theorem Reachable.mem_ancestorsOf_iff (reached : log.Reachable) :
    a ∈ log.ancestorsOf b ↔ log.Precedes a b := by
  unfold ancestorsOf
  cases found : log.get? b with
  | none =>
    refine iff_of_false (by simp) ?_
    intro precedes
    have caused : ∃ c, log.Causes c b := by
      cases precedes with
      | single caused => exact ⟨_, caused⟩
      | tail _ caused => exact ⟨_, caused⟩
    obtain ⟨_, _, held, _⟩ := caused
    rw [found] at held
    cases held
  | some i =>
    obtain ⟨held, rfl⟩ := reached.coherent.get?_eq_some_iff.mp found
    exact reached.mem_ancestors_iff held

/-- The causal question is answered truly: the two are one, or one precedes the other. -/
theorem Reachable.related_iff (reached : log.Reachable) :
    log.related a b = true ↔ a = b ∨ log.Akin a b := by
  simp only [related, Bool.or_eq_true, beq_iff_eq, decide_eq_true_eq, reached.mem_ancestorsOf_iff,
    or_assoc, Akin]

end Choreography.InvocationLog
