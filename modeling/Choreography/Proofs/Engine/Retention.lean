import Choreography.Proofs.Engine.Memory

/-! What is left of an engine when cascades are forgotten. Forgetting the cascades beyond the
retention takes from the log, from what has fired and from what was noted for each cascade
exactly what belongs to those, and it never takes a cascade that has a run at work. -/

namespace Choreography

open InvocationLog

/-- A key that is left in a list is found there as before. -/
theorem lookup_filter_ne {α β : Type} [DecidableEq α] (entries : List (α × β)) (key other : α) :
    List.lookup key (entries.filter (·.1 ≠ other)) =
      if key = other then none else List.lookup key entries := by
  induction entries with
  | nil => simp
  | cons entry entries ih =>
    obtain ⟨name, value⟩ := entry
    by_cases isOther : name = other
    · subst isOther
      rw [List.filter_cons_of_neg (by simp), ih, List.lookup_cons]
      by_cases isKey : key = name
      · simp [isKey]
      · simp [isKey, beq_false_of_ne isKey]
    · rw [List.filter_cons_of_pos (by simpa using isOther), List.lookup_cons, List.lookup_cons, ih]
      by_cases isKey : key = name
      · simp [isKey, isOther]
      · simp [beq_false_of_ne isKey]

namespace Engine

variable {e f : Engine} {root other : InvocationId} {roots : List InvocationId} {firing : Firing}
  {i : Invocation}

/-! ### Which cascades have a run at work -/

@[simp] theorem isRunning_activate (e : Engine) (root other : InvocationId) (run : Nat) :
    (e.activate other run).isRunning root = (decide (root = other) || e.isRunning root) := by
  rw [isRunning, activate, List.lookup_append, lookup_filter_ne]
  by_cases same : root = other
  · simp [same]
  · simp [same, isRunning]

@[simp] theorem isRunning_deactivate (e : Engine) (root other : InvocationId) :
    (e.deactivate other).isRunning root = (!decide (root = other) && e.isRunning root) := by
  rw [isRunning, deactivate, lookup_filter_ne]
  by_cases same : root = other <;> simp [same, isRunning]

/-! ### Forgetting some cascades -/

theorem foldl_forget_limits (e : Engine) (roots : List InvocationId) :
    (roots.foldl forget e).limits = e.limits := by
  induction roots generalizing e with
  | nil => rfl
  | cons root roots ih => exact ih _

theorem foldl_forget_active (e : Engine) (roots : List InvocationId) :
    (roots.foldl forget e).active = e.active := by
  induction roots generalizing e with
  | nil => rfl
  | cons root roots ih => exact ih _

theorem mem_entries_foldl_forget (coherent : e.log.Coherent) :
    i ∈ (roots.foldl forget e).log.entries ↔ i ∈ e.log.entries ∧ i.root ∉ roots := by
  induction roots generalizing e with
  | nil => simp
  | cons root roots ih =>
    have kept : i ∈ (e.forget root).log.entries ↔ i ∈ e.log.entries ∧ i.root ≠ root :=
      coherent.mem_entries_forget
    rw [List.foldl_cons, ih (e := e.forget root) (coherent.forget root), kept, List.mem_cons,
      not_or, and_assoc]

theorem lookup_foldl_forget : List.lookup root (roots.foldl forget e).firedByRoot =
    if root ∈ roots then none else List.lookup root e.firedByRoot := by
  induction roots generalizing e with
  | nil => simp
  | cons other roots ih =>
    have kept : List.lookup root (e.forget other).firedByRoot =
        if root = other then none else List.lookup root e.firedByRoot := lookup_filter_ne _ _ _
    rw [List.foldl_cons, ih, kept]
    by_cases isOther : root = other <;> by_cases isLater : root ∈ roots <;> simp [isOther, isLater]

theorem mem_fired_foldl_forget : firing ∈ (roots.foldl forget e).fired ↔
    firing ∈ e.fired ∧ ∀ root ∈ roots, firing ∉ (List.lookup root e.firedByRoot).getD [] := by
  induction roots generalizing e with
  | nil => simp
  | cons other roots ih =>
    have kept : firing ∈ (e.forget other).fired ↔
        firing ∈ e.fired ∧ firing ∉ (List.lookup other e.firedByRoot).getD [] := by
      simp [forget]
    have noted (root : InvocationId) : List.lookup root (e.forget other).firedByRoot =
        if root = other then none else List.lookup root e.firedByRoot := lookup_filter_ne _ _ _
    rw [List.foldl_cons, ih, kept, List.forall_mem_cons, and_assoc]
    refine and_congr_right fun _ => and_congr_right fun unnoted => forall₂_congr fun root _ => ?_
    rw [noted]
    split
    · next same => simp [same, unnoted]
    · rfl

theorem foldl_forget_drained (distinct : e.drained.Nodup) :
    (roots.foldl forget e).drained = e.drained.filter (· ∉ roots) := by
  induction roots generalizing e with
  | nil => simp
  | cons root roots ih =>
    have kept : (e.forget root).drained = e.drained.filter (· ≠ root) := by
      rw [forget, distinct.erase_eq_filter]
      exact List.filter_congr fun r _ => Bool.eq_iff_iff.mpr (by simp)
    have stillDistinct : (e.forget root).drained.Nodup := kept ▸ distinct.filter _
    rw [List.foldl_cons, ih stillDistinct, kept, List.filter_filter]
    refine List.filter_congr fun r _ => ?_
    simp [Bool.and_comm]

/-! ### Keeping the latest -/

/-- The engine once a cascade is listed among the drained ones. -/
def enlist (e : Engine) (root : InvocationId) : Engine :=
  if e.drained.contains root then e else { e with drained := e.drained ++ [root] }

/-- The cascades that are forgotten once a cascade has drained. -/
def evicted (e : Engine) (root : InvocationId) : List InvocationId :=
  match e.limits.retention with
  | none => []
  | some retention => (e.enlist root).evictable retention

theorem enlist_log (e : Engine) (root : InvocationId) : (e.enlist root).log = e.log := by
  unfold enlist
  split <;> rfl

theorem enlist_limits (e : Engine) (root : InvocationId) : (e.enlist root).limits = e.limits := by
  unfold enlist
  split <;> rfl

theorem enlist_active (e : Engine) (root : InvocationId) : (e.enlist root).active = e.active := by
  unfold enlist
  split <;> rfl

theorem isRunning_enlist (e : Engine) (root other : InvocationId) :
    (e.enlist root).isRunning other = e.isRunning other := by
  rw [isRunning, enlist_active, ← isRunning]

theorem enlist_fired (e : Engine) (root : InvocationId) : (e.enlist root).fired = e.fired := by
  unfold enlist
  split <;> rfl

theorem enlist_firedByRoot (e : Engine) (root : InvocationId) :
    (e.enlist root).firedByRoot = e.firedByRoot := by
  unfold enlist
  split <;> rfl

theorem retain_snd (e : Engine) (root : InvocationId) :
    (e.retain root).2 = (e.evicted root).map .forgot := by
  cases retention : e.limits.retention <;> simp only [retain, evicted, retention] <;> rfl

theorem retain_fst (retention : e.limits.retention = some n) (root : InvocationId) :
    (e.retain root).1 = (e.evicted root).foldl forget (e.enlist root) := by
  unfold retain evicted
  rw [retention]
  rfl

theorem retain_eq_self (unlimited : e.limits.retention = none) (root : InvocationId) :
    (e.retain root).1 = e := by
  unfold retain
  rw [unlimited]

theorem evicted_eq_nil (unlimited : e.limits.retention = none) (root : InvocationId) :
    e.evicted root = [] := by
  unfold evicted
  rw [unlimited]

theorem retain_active (e : Engine) (root : InvocationId) : (e.retain root).1.active = e.active := by
  cases retention : e.limits.retention with
  | none => rw [retain_eq_self retention]
  | some => rw [retain_fst retention, foldl_forget_active, enlist_active]

theorem retain_limits (e : Engine) (root : InvocationId) : (e.retain root).1.limits = e.limits := by
  cases retention : e.limits.retention with
  | none => rw [retain_eq_self retention]
  | some => rw [retain_fst retention, foldl_forget_limits, enlist_limits]

/-- Retention forgets no cascade that has a run at work. -/
theorem not_isRunning_of_evicted (isGone : other ∈ e.evicted root) : e.isRunning other = false := by
  unfold evicted at isGone
  split at isGone
  · cases isGone
  · obtain ⟨_, atRest⟩ := List.mem_filter.mp isGone
    rw [isRunning_enlist, Bool.not_eq_true'] at atRest
    exact atRest

theorem mem_entries_retain (coherent : e.log.Coherent) :
    i ∈ (e.retain root).1.log.entries ↔ i ∈ e.log.entries ∧ i.root ∉ e.evicted root := by
  cases retention : e.limits.retention with
  | none => simp [retain_eq_self retention, evicted_eq_nil retention]
  | some =>
    have same := enlist_log e root
    rw [retain_fst retention, mem_entries_foldl_forget (same ▸ coherent), same]

theorem lookup_retain : List.lookup other (e.retain root).1.firedByRoot =
    if other ∈ e.evicted root then none else List.lookup other e.firedByRoot := by
  cases retention : e.limits.retention with
  | none => simp [retain_eq_self retention, evicted_eq_nil retention]
  | some => rw [retain_fst retention, lookup_foldl_forget, enlist_firedByRoot]

theorem mem_fired_retain : firing ∈ (e.retain root).1.fired ↔ firing ∈ e.fired ∧
    ∀ other ∈ e.evicted root, firing ∉ (List.lookup other e.firedByRoot).getD [] := by
  cases retention : e.limits.retention with
  | none => simp [retain_eq_self retention, evicted_eq_nil retention]
  | some =>
    rw [retain_fst retention, mem_fired_foldl_forget, enlist_fired, enlist_firedByRoot]

theorem retain_drained (retention : e.limits.retention = some n)
    (distinct : (e.enlist root).drained.Nodup) : (e.retain root).1.drained =
      (e.enlist root).drained.filter (· ∉ e.evicted root) := by
  rw [retain_fst retention, foldl_forget_drained distinct]

/-! ### What a rule has claimed -/

theorem lookup_claim (e : Engine) (root other : InvocationId) (firing : Firing) :
    List.lookup other (e.claim root firing).firedByRoot =
      if other = root then some ((List.lookup root e.firedByRoot).getD [] ++ [firing])
      else List.lookup other e.firedByRoot := by
  rw [claim, List.lookup_append, lookup_filter_ne]
  by_cases same : other = root
  · simp [same]
  · have elsewhere : (other == root) = false := by simpa using same
    simp [List.lookup_cons, same, elsewhere]

end Engine

end Choreography
