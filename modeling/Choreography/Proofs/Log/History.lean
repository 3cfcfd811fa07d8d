import Choreography.Proofs.Log.Lineage
import Mathlib.Data.List.Nodup
import Mathlib.Data.List.Sort

/-! What became of a log. Identifiers are given once and cascades are forgotten whole, so
everything that was ever logged is either still in the log, or gone for good together
with the rest of its cascade. -/

namespace Choreography.InvocationLog

/-- A log and all that was ever logged in it, whether it was forgotten or not. -/
inductive Remembers : InvocationLog → List Invocation → Prop where
  | start : Remembers {} []
  | append (remembers : Remembers log history)
      (logged : log.append action input output causes = .ok (grown, i)) :
      Remembers grown (history ++ [i])
  | forget (root : InvocationId) (remembers : Remembers log history) :
      Remembers (log.forget root) history

/-- What a log becomes by further calls and by forgetting. -/
inductive Becomes : InvocationLog → InvocationLog → Prop where
  | refl (log : InvocationLog) : Becomes log log
  | append (becomes : Becomes log later)
      (logged : later.append action input output causes = .ok (grown, i)) : Becomes log grown
  | forget (root : InvocationId) (becomes : Becomes log later) : Becomes log (later.forget root)

variable {log later grown : InvocationLog} {history : List Invocation} {i j : Invocation}
  {id root : InvocationId}

/-- An identifier was given to an invocation that is no longer in the log. -/
def Gone (log : InvocationLog) (id : InvocationId) : Prop :=
  id < log.next ∧ ∀ i ∈ log.entries, i.id ≠ id

/-- An identifier was given, and to no other cascade than this one. -/
def Assigned (log : InvocationLog) (root id : InvocationId) : Prop :=
  id < log.next ∧ ∀ i ∈ log.entries, i.id = id → i.root = root

/-! ### Everything that was logged -/

theorem Remembers.reached (remembers : log.Remembers history) : log.Reachable := by
  induction remembers with
  | start => exact .start
  | append _ logged ih => exact ih.append logged
  | forget root _ ih => exact ih.forget root

theorem Remembers.coherent (remembers : log.Remembers history) : log.Coherent :=
  remembers.reached.coherent

/-- The log after a call, and what was logged. -/
theorem Coherent.append_entries (coherent : log.Coherent)
    (logged : log.append action input output causes = .ok (grown, i)) :
    grown.entries = log.entries ++ [i] ∧ i.id = log.next ∧ grown.next = log.next + 1 := by
  obtain ⟨parents, _, _, _, rfl, rfl⟩ := coherent.append_eq_ok logged
  exact ⟨entries_enter, rfl, rfl⟩

theorem Remembers.mem_history (remembers : log.Remembers history) (held : i ∈ log.entries) :
    i ∈ history := by
  induction remembers with
  | start => cases held
  | append remembers logged ih =>
    rw [(remembers.coherent.append_entries logged).1] at held
    exact List.mem_append.mpr ((List.mem_append.mp held).imp_left ih)
  | forget root remembers ih => exact ih (remembers.coherent.mem_entries_forget.mp held).1

theorem Remembers.id_lt_next (remembers : log.Remembers history) (inside : i ∈ history) :
    i.id < log.next := by
  induction remembers with
  | start => cases inside
  | append remembers logged ih =>
    obtain ⟨_, isNext, next⟩ := remembers.coherent.append_entries logged
    rw [next]
    rcases List.mem_append.mp inside with old | new
    · exact Int.lt_trans (ih old) (Int.lt_succ _)
    · rw [List.mem_singleton.mp new, isNext]
      exact Int.lt_succ _
  | forget _ _ ih => exact ih inside

theorem Remembers.ascending (remembers : log.Remembers history) :
    history.Pairwise (·.id < ·.id) := by
  induction remembers with
  | start => exact .nil
  | append remembers logged ih =>
    obtain ⟨_, isNext, _⟩ := remembers.coherent.append_entries logged
    refine List.pairwise_append.mpr ⟨ih, List.pairwise_singleton _ _, ?_⟩
    intro j old k new
    rw [List.mem_singleton.mp new, isNext]
    exact remembers.id_lt_next old
  | forget _ _ ih => exact ih

/-- Of all that was ever logged, an identifier belongs to one invocation only. -/
theorem Remembers.eq_of_id_eq (remembers : log.Remembers history) (first : i ∈ history)
    (second : j ∈ history) (sameId : i.id = j.id) : i = j := by
  have distinct : (history.map (·.id)).Nodup := by
    rw [List.nodup_iff_pairwise_ne, List.pairwise_map]
    exact remembers.ascending.imp Int.ne_of_lt
  exact List.inj_on_of_nodup_map distinct first second sameId

/-- What begins the cascade of an invocation begins its own cascade. -/
theorem Remembers.exists_root (remembers : log.Remembers history) (inside : i ∈ history) :
    ∃ r ∈ history, r.id = i.root ∧ r.root = r.id := by
  induction remembers generalizing i with
  | start => cases inside
  | append remembers logged ih =>
    rcases List.mem_append.mp inside with old | new
    · obtain ⟨r, inHistory, isRoot⟩ := ih old
      exact ⟨r, List.mem_append_left _ inHistory, isRoot⟩
    · cases List.mem_singleton.mp new
      obtain ⟨parents, _, held, _, rfl, _⟩ := remembers.coherent.append_eq_ok logged
      cases parents with
      | nil => exact ⟨_, List.mem_append_right _ (List.mem_singleton_self _), rfl, rfl⟩
      | cons p _ =>
        obtain ⟨r, inHistory, isRoot⟩ := ih (remembers.mem_history (held p List.mem_cons_self))
        exact ⟨r, List.mem_append_left _ inHistory, isRoot⟩
  | forget _ _ ih => exact ih inside

/-- The causes of an invocation were logged in its cascade. -/
theorem Remembers.exists_cause (remembers : log.Remembers history) (inside : i ∈ history)
    (isCause : id ∈ i.causes) : ∃ j ∈ history, j.id = id ∧ j.root = i.root := by
  induction remembers generalizing i with
  | start => cases inside
  | append remembers logged ih =>
    rcases List.mem_append.mp inside with old | new
    · obtain ⟨j, inHistory, isOne⟩ := ih old isCause
      exact ⟨j, List.mem_append_left _ inHistory, isOne⟩
    · cases List.mem_singleton.mp new
      obtain ⟨parents, _, held, together, rfl, _⟩ := remembers.coherent.append_eq_ok logged
      have inParents : id ∈ parents.map (·.id) := isCause
      obtain ⟨p, isParent, rfl⟩ := List.mem_map.mp inParents
      refine ⟨p, List.mem_append_left _ (remembers.mem_history (held p isParent)), rfl, ?_⟩
      cases parents with
      | nil => cases isParent
      | cons first => exact together p isParent first List.mem_cons_self
  | forget _ _ ih => exact ih inside isCause

theorem Remembers.root_eq_of_cause (remembers : log.Remembers history) (inside : i ∈ history)
    (known : j ∈ history) (isCause : j.id ∈ i.causes) : i.root = j.root := by
  obtain ⟨k, inHistory, sameId, sameRoot⟩ := remembers.exists_cause inside isCause
  rw [← sameRoot, remembers.eq_of_id_eq inHistory known sameId]

/-- A cascade is in the log as a whole. -/
theorem Remembers.held_together (remembers : log.Remembers history) (inside : i ∈ history)
    (held : j ∈ log.entries) (sameRoot : i.root = j.root) : i ∈ log.entries := by
  induction remembers generalizing j with
  | start => cases inside
  | @append log history _ _ _ _ grown new remembers logged ih =>
    obtain ⟨entries, isNext, _⟩ := remembers.coherent.append_entries logged
    rw [entries] at held ⊢
    rcases List.mem_append.mp inside with old | isNew
    · refine List.mem_append_left _ ?_
      rcases List.mem_append.mp held with heldBefore | isNew
      · exact ih old heldBefore sameRoot
      · rw [List.mem_singleton.mp isNew] at sameRoot
        obtain ⟨parents, _, areHeld, _, isNew, _⟩ := remembers.coherent.append_eq_ok logged
        cases parents with
        | nil =>
          -- What is logged without a cause has no cascade yet.
          obtain ⟨r, inHistory, isRoot, _⟩ := remembers.exists_root old
          have known := remembers.id_lt_next inHistory
          rw [isRoot, sameRoot, isNew] at known
          exact absurd known (Int.lt_irrefl _)
        | cons p _ =>
          rw [isNew] at sameRoot
          exact ih old (areHeld p List.mem_cons_self) sameRoot
    · exact List.mem_append_right _ isNew
  | forget root remembers ih =>
    obtain ⟨heldBefore, kept⟩ := remembers.coherent.mem_entries_forget.mp held
    exact remembers.coherent.mem_entries_forget.mpr
      ⟨ih inside heldBefore sameRoot, sameRoot ▸ kept⟩

/-- Every cascade began before now. -/
theorem Remembers.root_lt_next (remembers : log.Remembers history) (inside : i ∈ history) :
    i.root < log.next := by
  obtain ⟨r, known, isFirst, _⟩ := remembers.exists_root inside
  exact isFirst ▸ remembers.id_lt_next known

theorem Remembers.assigned (remembers : log.Remembers history) (inside : i ∈ history) :
    log.Assigned i.root i.id :=
  ⟨remembers.id_lt_next inside, fun _ held sameId =>
    congrArg (·.root) (remembers.eq_of_id_eq (remembers.mem_history held) inside sameId)⟩

/-! ### What lasts -/

/-- Logs that agree about what they hold of some kind hold it in the same order. -/
theorem Coherent.filter_congr (coherent : log.Coherent) (laterCoherent : later.Coherent)
    {kind : Invocation → Bool}
    (same : ∀ i : Invocation, kind i = true → (i ∈ later.entries ↔ i ∈ log.entries)) :
    later.entries.filter kind = log.entries.filter kind := by
  have antisymm : Std.Antisymm fun i j : Invocation => i.id < j.id :=
    ⟨fun _ _ below above => absurd (Int.lt_trans below above) (Int.lt_irrefl _)⟩
  have irrefl : Std.Irrefl fun i j : Invocation => i.id < j.id := ⟨fun _ => Int.lt_irrefl _⟩
  refine (laterCoherent.ascending.filter _).eq_of_mem_iff (coherent.ascending.filter _) ?_
  intro i
  rw [List.mem_filter, List.mem_filter]
  exact and_congr_left (same i)

/-- Logs that agree about what is in a cascade list the same cascade. -/
theorem Coherent.cascade_congr (coherent : log.Coherent)
    (laterCoherent : later.Coherent)
    (same : ∀ i : Invocation, i.root = root → (i ∈ later.entries ↔ i ∈ log.entries)) :
    later.cascade root = log.cascade root := by
  rw [coherent.cascade_eq, laterCoherent.cascade_eq]
  exact coherent.filter_congr laterCoherent fun i isRoot => same i (of_decide_eq_true isRoot)

theorem Becomes.trans (first : log.Becomes later) (second : later.Becomes grown) :
    log.Becomes grown := by
  induction second with
  | refl => exact first
  | append _ logged ih => exact ih.append logged
  | forget root _ ih => exact ih.forget root

theorem Becomes.reached (becomes : log.Becomes later) (reached : log.Reachable) : later.Reachable := by
  induction becomes with
  | refl => exact reached
  | append _ logged ih => exact ih.append logged
  | forget root _ ih => exact ih.forget root

theorem Becomes.next_le (becomes : log.Becomes later) (reached : log.Reachable) :
    log.next ≤ later.next := by
  induction becomes with
  | refl => exact Int.le_refl _
  | append becomes logged ih =>
    rw [((becomes.reached reached).coherent.append_entries logged).2.2]
    exact Int.le_trans ih (Int.le_add_one (Int.le_refl _))
  | forget _ _ ih => exact ih

/-- Nothing that was logged before comes into the log again. -/
theorem Becomes.held_before (becomes : log.Becomes later) (reached : log.Reachable)
    (held : i ∈ later.entries) (known : i.id < log.next) : i ∈ log.entries := by
  induction becomes with
  | refl => exact held
  | append becomes logged ih =>
    obtain ⟨entries, isNext, _⟩ := (becomes.reached reached).coherent.append_entries logged
    rw [entries] at held
    rcases List.mem_append.mp held with old | new
    · exact ih old
    · rw [List.mem_singleton.mp new, isNext] at known
      exact absurd (Int.lt_of_lt_of_le known (becomes.next_le reached)) (Int.lt_irrefl _)
  | forget _ becomes ih =>
    exact ih ((becomes.reached reached).coherent.mem_entries_forget.mp held).1

theorem Becomes.gone (becomes : log.Becomes later) (reached : log.Reachable) (gone : log.Gone id) :
    later.Gone id := by
  refine ⟨Int.lt_of_lt_of_le gone.1 (becomes.next_le reached), ?_⟩
  intro i held isId
  exact gone.2 i (becomes.held_before reached held (isId ▸ gone.1)) isId

theorem Becomes.assigned (becomes : log.Becomes later) (reached : log.Reachable)
    (assigned : log.Assigned root id) : later.Assigned root id := by
  refine ⟨Int.lt_of_lt_of_le assigned.1 (becomes.next_le reached), ?_⟩
  intro i held isId
  exact assigned.2 i (becomes.held_before reached held (isId ▸ assigned.1)) isId

/-- What belongs to a cascade is gone when the cascade is forgotten. -/
theorem Assigned.gone_forget (assigned : log.Assigned root id) (coherent : log.Coherent) :
    (log.forget root).Gone id := by
  refine ⟨assigned.1, ?_⟩
  intro i held isId
  obtain ⟨heldBefore, kept⟩ := coherent.mem_entries_forget.mp held
  exact kept (assigned.2 i heldBefore isId)

end Choreography.InvocationLog
