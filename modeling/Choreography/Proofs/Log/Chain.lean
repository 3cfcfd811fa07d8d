import Choreography.Proofs.Log.Lineage
import Mathlib.Order.Bounds.Defs

/-! Chains of causes. Whatever precedes an invocation is in the log with it and was logged
before it, in the same cascade; of what precedes it only the root has no causes. The depth
of an invocation is the length of the longest chain that leads to it from its root. -/

namespace Choreography.InvocationLog

/-- So many direct causes lead from one invocation to another. -/
inductive Chain (log : InvocationLog) (a : InvocationId) : Nat → InvocationId → Prop where
  | refl : Chain log a 0 a
  | step (chain : Chain log a n b) (caused : log.Causes b c) : Chain log a (n + 1) c

variable {log : InvocationLog} {parents : List Invocation} {i j : Invocation}
  {a b : InvocationId}

/-- What holds of an invocation whenever it holds of its parents holds of all in the log. -/
@[elab_as_elim]
theorem Reachable.induct_parents {motive : (i : Invocation) → i ∈ log.entries → Prop}
    (reached : log.Reachable)
    (described : ∀ i (held : i ∈ log.entries) parents (descends : log.Descends parents i),
      (∀ p (isParent : p ∈ parents), motive p (descends.held p isParent)) → motive i held)
    (i : Invocation) (held : i ∈ log.entries) : motive i held := by
  -- Parents have smaller identifiers.
  induction size : i.id.toNat using Nat.strongRecOn generalizing i with
  | _ bound ih =>
    obtain ⟨parents, descends⟩ := reached.exists_descends held
    refine described i held parents descends fun p isParent => ?_
    have positive : 0 < i.id := Int.lt_of_lt_of_le Int.one_pos (reached.coherent.bounded i held).1
    have smaller : p.id.toNat < i.id.toNat :=
      (Int.toNat_lt_toNat positive).mpr (descends.earlier p isParent)
    exact ih p.id.toNat (size ▸ smaller) p (descends.held p isParent) rfl

/-! ### What precedes an invocation -/

theorem Reachable.held_of_causes (reached : log.Reachable) (held : i ∈ log.entries)
    (caused : log.Causes a i.id) : ∃ j ∈ log.entries, j.id = a ∧ j.root = i.root ∧ j.id < i.id := by
  obtain ⟨parents, descends⟩ := reached.exists_descends held
  rw [reached.coherent.causes_iff held, descends.causes] at caused
  obtain ⟨p, isParent, isCause⟩ := List.mem_map.mp caused
  exact ⟨p, descends.held p isParent, isCause, descends.together p isParent,
    descends.earlier p isParent⟩

/-- What precedes an invocation is in the log, was logged before it, and is of its cascade. -/
theorem Reachable.held_of_precedes (reached : log.Reachable) (held : i ∈ log.entries)
    (precedes : log.Precedes a i.id) :
    ∃ j ∈ log.entries, j.id = a ∧ j.root = i.root ∧ j.id < i.id := by
  -- The induction goes from the effect back to its causes.
  induction precedes using Relation.TransGen.head_induction_on with
  | single caused => exact reached.held_of_causes held caused
  | head caused _ ih =>
    obtain ⟨k, isHeld, rfl, sameRoot, earlier⟩ := ih
    obtain ⟨j, inLog, isCause, ofRoot, before⟩ := reached.held_of_causes isHeld caused
    exact ⟨j, inLog, isCause, ofRoot.trans sameRoot, Int.lt_trans before earlier⟩

theorem Reachable.precedes_of_causes (reached : log.Reachable) (held : i ∈ log.entries)
    (isCause : a ∈ i.causes) : log.Precedes a i.id :=
  .single ((reached.coherent.causes_iff held).mpr isCause)

/-! ### The root -/

theorem Descends.root_eq_of_nil (descends : log.Descends [] i) : i.root = i.id := descends.root

theorem Descends.parents_eq_nil (descends : log.Descends parents i) (uncaused : i.causes = []) :
    parents = [] :=
  List.map_eq_nil_iff.mp (descends.causes.symm.trans uncaused)

theorem Reachable.root_eq_id (reached : log.Reachable) (held : i ∈ log.entries)
    (uncaused : i.causes = []) : i.root = i.id := by
  obtain ⟨parents, descends⟩ := reached.exists_descends held
  rw [descends.parents_eq_nil uncaused] at descends
  exact descends.root_eq_of_nil

/-- Every invocation goes back to an invocation without causes, the root of its cascade. -/
theorem Reachable.exists_uncaused (reached : log.Reachable) (held : i ∈ log.entries) :
    ∃ r ∈ log.entries, r.causes = [] ∧ r.id = i.root ∧ (r = i ∨ log.Precedes r.id i.id) := by
  induction i, held using reached.induct_parents with
  | described i held parents descends ih =>
    cases parents with
    | nil => exact ⟨i, held, descends.causes, descends.root_eq_of_nil.symm, .inl rfl⟩
    | cons p rest =>
      have isParent : p ∈ p :: rest := List.mem_cons_self
      obtain ⟨r, inLog, uncaused, isRoot, reaches⟩ := ih p isParent
      have caused : log.Precedes p.id i.id :=
        reached.precedes_of_causes held (descends.causes ▸ List.mem_map_of_mem isParent)
      refine ⟨r, inLog, uncaused, isRoot.trans (descends.together p isParent), .inr ?_⟩
      rcases reaches with rfl | precedes
      · exact caused
      · exact precedes.trans caused

/-- Of what precedes an invocation, only its root has no causes. -/
theorem Reachable.exists_root_of_caused (reached : log.Reachable) (held : i ∈ log.entries)
    (caused : i.causes ≠ []) : ∃ r ∈ log.entries, r.id ∈ i.ancestors ∧ r.causes = [] ∧
      r.id = i.root ∧ ∀ j ∈ log.entries, j.id ∈ i.ancestors → j.causes = [] → j = r := by
  obtain ⟨r, inLog, uncaused, isRoot, rfl | precedes⟩ := reached.exists_uncaused held
  · exact absurd uncaused caused
  · refine ⟨r, inLog, (reached.mem_ancestors_iff held).mpr precedes, uncaused, isRoot, ?_⟩
    intro j isHeld isAncestor alsoUncaused
    obtain ⟨k, alsoHeld, sameId, sameRoot, _⟩ :=
      reached.held_of_precedes held ((reached.mem_ancestors_iff held).mp isAncestor)
    have same : k = j := reached.coherent.eq_of_id_eq alsoHeld isHeld sameId
    rw [same] at sameRoot
    refine reached.coherent.eq_of_id_eq isHeld inLog ?_
    exact (reached.root_eq_id isHeld alsoUncaused).symm.trans (sameRoot.trans isRoot.symm)

/-! ### The depth -/

theorem le_deepest {p : Invocation} (isParent : p ∈ parents) :
    p.depth + 1 ≤ parents.foldr (fun p deepest => max (p.depth + 1) deepest) 0 := by
  induction parents with
  | nil => cases isParent
  | cons first rest ih =>
    rw [List.foldr_cons]
    rcases List.mem_cons.mp isParent with rfl | inRest
    · exact Nat.le_max_left _ _
    · exact Nat.le_trans (ih inRest) (Nat.le_max_right _ _)

theorem exists_deepest (some : parents ≠ []) : ∃ p ∈ parents,
    parents.foldr (fun p deepest => max (p.depth + 1) deepest) 0 = p.depth + 1 := by
  induction parents with
  | nil => exact absurd rfl some
  | cons first rest ih =>
    rw [List.foldr_cons]
    by_cases alone : rest = []
    · subst alone
      exact ⟨first, List.mem_cons_self, Nat.max_eq_left (Nat.zero_le _)⟩
    · obtain ⟨p, inRest, isDeepest⟩ := ih alone
      rw [isDeepest]
      rcases Nat.le_total (first.depth + 1) (p.depth + 1) with deeper | deeper
      · exact ⟨p, List.mem_cons_of_mem _ inRest, Nat.max_eq_right deeper⟩
      · exact ⟨first, List.mem_cons_self, Nat.max_eq_left deeper⟩

/-- No chain that leads to an invocation is longer than its depth. -/
theorem Reachable.length_le_depth (reached : log.Reachable) (held : i ∈ log.entries)
    (chain : log.Chain a n i.id) : n ≤ i.depth := by
  induction i, held using reached.induct_parents generalizing n with
  | described i held parents descends ih =>
    cases chain with
    | refl => exact Nat.zero_le _
    | step chain caused =>
      rw [reached.coherent.causes_iff held, descends.causes] at caused
      obtain ⟨p, isParent, rfl⟩ := List.mem_map.mp caused
      rw [descends.depth]
      exact Nat.le_trans (Nat.succ_le_succ (ih p isParent chain)) (le_deepest isParent)

/-- A chain as long as the depth of an invocation leads to it from its root. -/
theorem Reachable.exists_chain (reached : log.Reachable) (held : i ∈ log.entries) :
    log.Chain i.root i.depth i.id := by
  induction i, held using reached.induct_parents with
  | described i held parents descends ih =>
    by_cases alone : parents = []
    · subst alone
      rw [descends.depth, descends.root_eq_of_nil]
      exact .refl
    · obtain ⟨p, isParent, isDeepest⟩ := exists_deepest alone
      rw [descends.depth, isDeepest, ← descends.together p isParent]
      refine (ih p isParent).step ((reached.coherent.causes_iff held).mpr ?_)
      rw [descends.causes]
      exact List.mem_map_of_mem isParent

/-- The depth of an invocation is the length of the longest chain from its root to it. -/
theorem Reachable.depth_isGreatest (reached : log.Reachable) (held : i ∈ log.entries) :
    IsGreatest {n | log.Chain i.root n i.id} i.depth :=
  ⟨reached.exists_chain held, fun _ chain => reached.length_le_depth held chain⟩

end Choreography.InvocationLog
