import Choreography.Dispatch
import Choreography.Proofs.Log.Chain
import Choreography.Proofs.Log.History

/-! How deep a call is. A dispatch finds it out from its support before it makes the call, and the
log from the causes when the call is logged. Each on its own finds one more than the deepest of
these, and they are the same invocations. -/

namespace Choreography

/-- One more than the depths of these invocations. -/
def depthsOver (history : List Invocation) (ids : List InvocationId) : Set Int :=
  {n | ∃ i ∈ history, i.id ∈ ids ∧ n = i.depth + 1}

namespace InvocationLog

variable {log grown : InvocationLog} {history causes : List Invocation} {i : Invocation}
  {ids : List InvocationId} {depth : Int}

private theorem one_add_deepest (some : causes ≠ []) :
    1 + causes.foldr (fun i deepest => max i.depth deepest) 0 =
      causes.foldr (fun i deepest => max (i.depth + 1) deepest) 0 := by
  induction causes with
  | nil => exact absurd rfl some
  | cons first rest ih =>
    by_cases alone : rest = []
    · subst alone
      simp [Nat.add_comm]
    · rw [List.foldr_cons, List.foldr_cons, ← ih alone, ← Nat.add_max_add_left, Nat.add_comm first.depth]

/-- What is found from some invocations is one more than the deepest of them. -/
theorem Remembers.deepest_isGreatest (remembers : log.Remembers history) (some : causes ≠ [])
    (known : ∀ i ∈ causes, i ∈ history) (same : ∀ id, id ∈ causes.map (·.id) ↔ id ∈ ids) :
    IsGreatest (depthsOver history ids)
      (causes.foldr (fun i deepest => max (i.depth + 1) deepest) 0 : Nat) := by
  constructor
  · obtain ⟨i, inside, isDeepest⟩ := exists_deepest some
    exact ⟨i, known i inside, (same i.id).mp (List.mem_map_of_mem inside), by rw [isDeepest]; rfl⟩
  · rintro _ ⟨i, inHistory, isMeant, rfl⟩
    obtain ⟨j, inside, sameId⟩ := List.mem_map.mp ((same i.id).mpr isMeant)
    rw [← remembers.eq_of_id_eq (known j inside) inHistory sameId]
    exact Int.ofNat_le.mpr (le_deepest inside)

/-- The depth that a call is given when it is logged. -/
theorem Remembers.append_isGreatest (remembers : log.Remembers history) (some : ids ≠ [])
    (logged : log.append action input output ids = .ok (grown, i)) :
    IsGreatest (depthsOver history ids) i.depth := by
  obtain ⟨parents, areCauses, held, _, rfl, _⟩ := remembers.coherent.append_eq_ok logged
  have same : ∀ id, id ∈ parents.map (·.id) ↔ id ∈ ids := by
    rw [areCauses]
    exact fun id => mem_sortedSet
  refine remembers.deepest_isGreatest ?_ (fun p isParent => remembers.mem_history (held p isParent)) same
  rintro rfl
  obtain ⟨id, isCause⟩ := List.exists_mem_of_ne_nil ids some
  exact nomatch (same id).mpr isCause

/-- The depth that a dispatch is given before it begins. -/
theorem Remembers.depthOf_isGreatest (remembers : log.Remembers history)
    (deep : Dispatch.depthOf log ids = .ok depth) : IsGreatest (depthsOver history ids) depth := by
  rw [Dispatch.depthOf] at deep
  split at deep
  · cases deep
  · cases deep
  · next causes notNone found =>
    cases deep
    obtain ⟨rfl, held⟩ := remembers.coherent.mapM_get_eq_ok found
    have deepest := remembers.deepest_isGreatest notNone
      (fun i inside => remembers.mem_history (held i inside)) fun _ => Iff.rfl
    rw [← one_add_deepest notNone, Int.natCast_add] at deepest
    exact deepest

/-- A cascade begins at no depth. -/
theorem Remembers.depth_of_root (remembers : log.Remembers history) (inside : i ∈ history)
    (isRoot : i.root = i.id) : i.depth = 0 := by
  induction remembers with
  | start => cases inside
  | append remembers logged ih =>
    rcases List.mem_append.mp inside with old | isNew
    · exact ih old
    · cases List.mem_singleton.mp isNew
      obtain ⟨parents, _, held, _, rfl, _⟩ := remembers.coherent.append_eq_ok logged
      cases parents with
      | nil => rfl
      | cons first rest =>
        have below := remembers.root_lt_next (remembers.mem_history (held first List.mem_cons_self))
        exact absurd isRoot (Int.ne_of_lt below)
  | forget _ _ ih => exact ih inside

end InvocationLog

end Choreography
