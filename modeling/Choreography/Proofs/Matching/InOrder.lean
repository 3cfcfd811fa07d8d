import Choreography.Proofs.Matching.Exactness

/-! Reading the causality rule from left to right. A tuple may be tied together in the
order of its patterns alone: every member but the first by one further left. The join
starts from the trigger instead, so that it asks the first member for a tie as well. -/

namespace Choreography

variable {log : InvocationLog} {trigger : Invocation} {seat : Nat} {rule : Rule}
  {tuple : List Invocation}

/-- A tuple satisfies the when-clause with every member but the first causally tied to one
further left. -/
structure Rule.InOrder (rule : Rule) (log : InvocationLog) (tuple : List Invocation) : Prop where
  fits : List.Forall₂ Pattern.FitsInvocation rule.whens tuple
  consistent : Consistent (rule.observe tuple)
  held : ∀ i ∈ tuple, i ∈ log.entries
  together : ∀ i ∈ tuple, ∀ j ∈ tuple, i.root = j.root
  distinct : (tuple.map (·.id)).Nodup
  causal : ∀ (place : Nat) (i : Invocation), 0 < place → tuple[place]? = some i →
    ∃ j ∈ tuple.take place, log.Akin i.id j.id

/-- The first member is the trigger or is causally tied to it. -/
def FirstTied (log : InvocationLog) (trigger : Invocation) (tuple : List Invocation) : Prop :=
  ∀ first, tuple.head? = some first → first = trigger ∨ log.Akin first.id trigger.id

/-- What is read from left to right is admissible around its latest member if the first
member is tied to that. -/
theorem Rule.InOrder.admissible (inOrder : rule.InOrder log tuple)
    (seated : tuple[seat]? = some trigger) (latest : ∀ i ∈ tuple, i.id ≤ trigger.id)
    (tied : FirstTied log trigger tuple) : rule.Admissible log trigger seat tuple where
  seated
  fits := inOrder.fits
  consistent := inOrder.consistent
  held := inOrder.held
  together i inside := inOrder.together i inside trigger (List.mem_of_getElem? seated)
  earlier := latest
  distinct := inOrder.distinct
  causal place i elsewhere found := by
    cases place with
    | succ place => exact .inr (inOrder.causal (place + 1) i place.succ_pos found)
    | zero =>
      rcases tied i (List.head?_eq_getElem? ▸ found) with rfl | akin
      · have nonempty := (List.getElem?_eq_some_iff.mp found).1
        have once : tuple.Nodup := inOrder.distinct.of_map _
        exact absurd ((List.getElem?_inj nonempty once).mp (found.trans seated.symm)) elsewhere
      · exact .inl akin

/-- Around an admissible tuple the first member is tied to the trigger. -/
theorem Rule.Admissible.firstTied (admissible : rule.Admissible log trigger seat tuple) :
    FirstTied log trigger tuple := by
  intro first isFirst
  rw [List.head?_eq_getElem?] at isFirst
  by_cases isSeat : 0 = seat
  · subst isSeat
    exact .inl (Option.some.inj (isFirst.symm.trans admissible.seated))
  · rcases admissible.causal 0 first isSeat isFirst with akin | ⟨_, inside, _⟩
    · exact .inr akin
    · cases inside

/-- A tuple read from left to right has a frame around its latest member exactly if its
first member is that or is tied to it. -/
theorem matchAt_finds_iff_firstTied (reached : log.Reachable) (inOrder : rule.InOrder log tuple)
    (inside : trigger ∈ tuple) (latest : ∀ i ∈ tuple, i.id ≤ trigger.id) :
    (∃ f ∈ rule.matchAt trigger log, f.support = tuple.map (·.id)) ↔
      FirstTied log trigger tuple := by
  constructor
  · rintro ⟨f, found, support⟩
    obtain ⟨_, met, admissible, rests⟩ :=
      exists_admissible_of_mem_matchAt reached (inOrder.held trigger inside) found
    have isMet : met = tuple := by
      refine eq_of_map_id_eq reached admissible.held inOrder.held ?_
      rw [← rests.support, support]
    exact isMet ▸ admissible.firstTied
  · intro tied
    obtain ⟨seat, seated⟩ := List.getElem?_of_mem inside
    exact exists_mem_matchAt_of_admissible reached (inOrder.admissible seated latest tied)

/-! ### Both readings of a fork -/

namespace Fork

theorem start_akin_left : forked.Akin 1 2 := .inl (.single ⟨left, rfl, .head []⟩)

theorem start_akin_right : forked.Akin 1 3 := .inl (.single ⟨right, rfl, .head []⟩)

theorem left_fits : leftPattern.FitsInvocation left where
  action := rfl
  failed := nofun
  inputs := by
    rintro f (_ | ⟨_, ⟨⟩⟩)
    exact ⟨.int 1, rfl⟩
  outputs := nofun

theorem start_fits : startPattern.FitsInvocation start where
  action := rfl
  failed := nofun
  inputs := nofun
  outputs := nofun

theorem right_fits : rightPattern.FitsInvocation right where
  action := rfl
  failed := nofun
  inputs := by
    rintro f (_ | ⟨_, ⟨⟩⟩)
    exact ⟨.bool true, rfl⟩
  outputs := nofun

theorem siblings_agree : (Value.int 1).agrees (.bool true) = true := by decide +kernel

theorem siblings_consistent : Consistent [("n", .int 1), ("n", .bool true)] := by
  refine .cons ?_ (.cons nofun .nil)
  intro o inside _
  cases List.mem_singleton.mp inside
  exact siblings_agree

theorem held {i : Invocation} (inside : i ∈ [start, left, right]) : i ∈ forked.entries := inside

theorem root_eq {i : Invocation} (inside : i ∈ [start, left, right]) : i.root = 1 := by
  rcases inside with _ | ⟨_, _ | ⟨_, _ | ⟨_, ⟨⟩⟩⟩⟩ <;> rfl

theorem id_le_right {i : Invocation} (inside : i ∈ [start, left, right]) : i.id ≤ right.id := by
  rcases inside with _ | ⟨_, _ | ⟨_, _ | ⟨_, ⟨⟩⟩⟩⟩ <;> decide

theorem meet_inOrder : meet.InOrder forked [start, left, right] where
  fits := .cons start_fits (.cons left_fits (.cons right_fits .nil))
  consistent := siblings_consistent
  held _ := held
  together _ isI _ isJ := (root_eq isI).trans (root_eq isJ).symm
  distinct := by decide
  causal place i positive found := by
    match place, found with
    | 1, found =>
      cases found
      exact ⟨start, .head _, start_akin_left.symm⟩
    | 2, found =>
      cases found
      exact ⟨start, .head _, start_akin_right.symm⟩

/-- The first member is tied to the trigger, and the frame is found. -/
theorem matchAt_finds_meet : FirstTied forked right [start, left, right] ∧
    ∃ f ∈ meet.matchAt right forked, f.support = [1, 2, 3] := by
  have tied : FirstTied forked right [start, left, right] := by
    intro first isFirst
    cases isFirst
    exact .inr start_akin_right
  have inside : right ∈ [start, left, right] := .tail _ (.tail _ (.head _))
  exact ⟨tied, (matchAt_finds_iff_firstTied forked_reachable meet_inOrder inside
    fun _ => id_le_right).mpr tied⟩

/-- Waits for the same invocations, their start in the middle. -/
def leftFirst : Rule := { name := "meet", whens := [leftPattern, startPattern, rightPattern] }

theorem leftFirst_inOrder : leftFirst.InOrder forked [left, start, right] where
  fits := .cons left_fits (.cons start_fits (.cons right_fits .nil))
  consistent := siblings_consistent
  held _ inside := held ((List.Perm.swap start left [right]).mem_iff.mp inside)
  together _ isI _ isJ := by
    have swapped := List.Perm.swap start left [right]
    exact (root_eq (swapped.mem_iff.mp isI)).trans (root_eq (swapped.mem_iff.mp isJ)).symm
  distinct := by decide
  causal place i positive found := by
    match place, found with
    | 1, found =>
      cases found
      exact ⟨left, .head _, start_akin_left⟩
    | 2, found =>
      cases found
      exact ⟨start, .tail _ (.head _), start_akin_right.symm⟩

/-- Every member but the first is tied to one further left, and still there is no frame
around the latest one. -/
theorem leftFirst_missed : forked.Reachable ∧ leftFirst.InOrder forked [left, start, right] ∧
    right ∈ [left, start, right] ∧ (∀ i ∈ [left, start, right], i.id ≤ right.id) ∧
    ¬ ∃ f ∈ leftFirst.matchAt right forked, f.support = [2, 1, 3] := by
  have none : leftFirst.matchAt right forked = [] := List.isEmpty_iff.mp (by decide +kernel)
  refine ⟨forked_reachable, leftFirst_inOrder, .tail _ (.tail _ (.head _)), fun _ inside => ?_,
    fun ⟨_, found, _⟩ => ?_⟩
  · exact id_le_right ((List.Perm.swap start left [right]).mem_iff.mp inside)
  · rw [none] at found
    cases found

end Fork

end Choreography
