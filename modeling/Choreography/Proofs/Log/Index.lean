import Choreography.Log

/-! An index of the log is described by the invocations it lists: under each key
exactly those with that key, in their order. Adding an invocation, erasing a key and
restricting one keep an index a description of the invocations that are left. -/

namespace Choreography.LogIndex

variable {κ : Type} [DecidableEq κ] {index : LogIndex κ} {key listed : κ}

@[simp] theorem find_nil : find ([] : LogIndex κ) key = [] := rfl

theorem find_cons (entry : κ × List Invocation) :
    find (entry :: index) key = if key = entry.1 then entry.2 else find index key := by
  obtain ⟨first, invocations⟩ := entry
  rw [find, find, List.lookup_cons]
  by_cases called : key = first
  · simp [called]
  · simp [called, beq_false_of_ne called]

theorem find_eq_nil_of_not_mem (absent : key ∉ index.map (·.1)) : find index key = [] := by
  induction index with
  | nil => rfl
  | cons entry rest ih =>
    obtain ⟨notFirst, notRest⟩ := not_or.mp (mt List.mem_cons.mpr absent)
    rw [find_cons, if_neg notFirst, ih notRest]

theorem find_of_mem {entry : κ × List Invocation} (unique : (index.map (·.1)).Nodup)
    (inside : entry ∈ index) : find index entry.1 = entry.2 := by
  induction index with
  | nil => cases inside
  | cons first rest ih =>
    obtain ⟨notInRest, unique⟩ := List.nodup_cons.mp unique
    rw [find_cons]
    rcases List.mem_cons.mp inside with rfl | inRest
    · exact if_pos rfl
    · have notFirst : entry.1 ≠ first.1 := fun isFirst =>
        notInRest (List.mem_map.mpr ⟨entry, inRest, isFirst⟩)
      rw [if_neg notFirst, ih unique inRest]

theorem mem_keys_add : key ∈ (add index listed i).map (·.1) ↔ key = listed ∨ key ∈ index.map (·.1) := by
  induction index with
  | nil => simp [add]
  | cons entry rest ih =>
    rw [add]
    split
    · next called => simp [called]
    · simp only [List.map_cons, List.mem_cons, ih]
      exact or_left_comm

theorem find_add : find (add index listed i) key =
    if key = listed then find index listed ++ [i] else find index key := by
  induction index with
  | nil => simp [add, find_cons]
  | cons entry rest ih =>
    rw [add]
    split
    · next called =>
      subst called
      simp only [find_cons, ↓reduceIte]
      split <;> rfl
    · next notCalled =>
      rw [find_cons, ih, find_cons, find_cons]
      by_cases isFirst : key = entry.1
      · subst isFirst
        simp only [↓reduceIte, if_neg notCalled]
      · simp only [if_neg isFirst, if_neg (Ne.symm notCalled)]

theorem find_erase : find (erase index listed) key = if key = listed then [] else find index key := by
  induction index with
  | nil => simp [erase]
  | cons entry rest ih =>
    rw [erase] at ih
    by_cases called : entry.1 = listed
    · subst called
      rw [erase, List.filter_cons_of_neg (by simp), ih, find_cons]
      split <;> rfl
    · rw [erase, List.filter_cons_of_pos (by simpa using called), find_cons, find_cons, ih]
      by_cases isFirst : key = entry.1
      · subst isFirst
        simp only [↓reduceIte, if_neg called]
      · simp only [if_neg isFirst]

theorem restrict_cons (entry : κ × List Invocation) :
    restrict (entry :: index) listed keep =
      if entry.1 = listed ∧ entry.2.filter keep = [] then restrict index listed keep
      else (entry.1, if entry.1 = listed then entry.2.filter keep else entry.2) ::
        restrict index listed keep := by
  rw [restrict, List.filterMap_cons]
  by_cases called : entry.1 = listed
  · subst called
    simp only [↓reduceIte, true_and]
    cases entry.2.filter keep with
    | nil => rfl
    | cons first rest => rfl
  · simp only [called, false_and, ↓reduceIte]
    rfl

theorem mem_keys_of_mem_keys_restrict (inside : key ∈ (restrict index listed keep).map (·.1)) :
    key ∈ index.map (·.1) := by
  induction index with
  | nil => simp [restrict] at inside
  | cons entry rest ih =>
    rw [restrict_cons] at inside
    split at inside
    · exact List.mem_cons_of_mem _ (ih inside)
    · rcases List.mem_cons.mp inside with rfl | inRest
      · exact List.mem_cons_self
      · exact List.mem_cons_of_mem _ (ih inRest)

theorem find_restrict (unique : (index.map (·.1)).Nodup) : find (restrict index listed keep) key =
    if key = listed then (find index listed).filter keep else find index key := by
  induction index with
  | nil => simp [restrict]
  | cons entry rest ih =>
    obtain ⟨notInRest, unique⟩ := List.nodup_cons.mp unique
    have ih := ih unique
    rw [restrict_cons]
    split
    · next dropped =>
      obtain ⟨rfl, allDropped⟩ := dropped
      rw [ih, find_cons, if_pos rfl, find_cons]
      split
      · next called =>
        rw [find_eq_nil_of_not_mem notInRest, allDropped]
        rfl
      · rfl
    · rw [find_cons, ih, find_cons, find_cons]
      by_cases called : entry.1 = listed
      · subst called
        simp only [↓reduceIte]
        split <;> rfl
      · simp only [if_neg called, if_neg (Ne.symm called)]
        by_cases isFirst : key = entry.1
        · subst isFirst
          simp only [↓reduceIte, if_neg called]
        · simp only [if_neg isFirst]

/-- The index lists these invocations, each under its key. -/
structure Lists (index : LogIndex κ) (keyOf : Invocation → κ) (all : List Invocation) : Prop where
  unique : (index.map (·.1)).Nodup
  inhabited : ∀ entry ∈ index, entry.2 ≠ []
  exact : ∀ key, find index key = all.filter (keyOf · = key)

variable {keyOf : Invocation → κ} {all : List Invocation}

theorem Lists.nil : Lists ([] : LogIndex κ) keyOf [] where
  unique := List.nodup_nil
  inhabited := nofun
  exact _ := rfl

theorem Lists.add (lists : Lists index keyOf all) (i : Invocation) :
    Lists (index.add (keyOf i) i) keyOf (all ++ [i]) where
  unique := by
    have unique := lists.unique
    clear lists
    induction index with
    | nil => simp [LogIndex.add]
    | cons entry rest ih =>
      obtain ⟨notInRest, unique⟩ := List.nodup_cons.mp unique
      rw [LogIndex.add]
      split
      · exact List.nodup_cons.mpr ⟨notInRest, unique⟩
      · next notCalled =>
        refine List.nodup_cons.mpr ⟨?_, ih unique⟩
        intro inside
        rcases mem_keys_add.mp inside with called | inRest
        · exact notCalled called
        · exact notInRest inRest
  inhabited := by
    have inhabited := lists.inhabited
    clear lists
    induction index with
    | nil => simp [LogIndex.add]
    | cons entry rest ih =>
      obtain ⟨first, later⟩ := List.forall_mem_cons.mp inhabited
      rw [LogIndex.add]
      split
      · exact List.forall_mem_cons.mpr ⟨by simp, later⟩
      · exact List.forall_mem_cons.mpr ⟨first, ih later⟩
  exact key := by
    rw [find_add, List.filter_append, lists.exact key, lists.exact (keyOf i)]
    by_cases called : key = keyOf i
    · simp [called]
    · simp [called, Ne.symm called]

theorem Lists.erase (lists : Lists index keyOf all) (listed : κ) :
    Lists (index.erase listed) keyOf (all.filter (keyOf · ≠ listed)) where
  unique := (List.filter_sublist.map _).nodup lists.unique
  inhabited entry inside := lists.inhabited entry (List.mem_filter.mp inside).1
  exact key := by
    rw [find_erase, List.filter_filter]
    split
    · next called =>
      subst called
      exact (List.filter_eq_nil_iff.mpr fun i _ => by simp).symm
    · next notCalled =>
      rw [lists.exact key]
      apply List.filter_congr
      intro i _
      by_cases called : keyOf i = key
      · simp [called, notCalled]
      · simp [called]

theorem Lists.restrict (lists : Lists index keyOf all) (listed : κ) (keep : Invocation → Bool) :
    Lists (index.restrict listed keep) keyOf (all.filter fun i => keyOf i ≠ listed || keep i) where
  unique := by
    have unique := lists.unique
    clear lists
    induction index with
    | nil => simp [LogIndex.restrict]
    | cons entry rest ih =>
      obtain ⟨notInRest, unique⟩ := List.nodup_cons.mp unique
      rw [restrict_cons]
      split
      · exact ih unique
      · exact List.nodup_cons.mpr
          ⟨fun inside => notInRest (mem_keys_of_mem_keys_restrict inside), ih unique⟩
  inhabited := by
    have inhabited := lists.inhabited
    clear lists
    induction index with
    | nil => simp [LogIndex.restrict]
    | cons entry rest ih =>
      obtain ⟨first, later⟩ := List.forall_mem_cons.mp inhabited
      rw [restrict_cons]
      split
      · exact ih later
      · next notDropped =>
        refine List.forall_mem_cons.mpr ⟨?_, ih later⟩
        by_cases called : entry.1 = listed
        · simpa only [called, ↓reduceIte, true_and] using notDropped
        · simpa only [if_neg called] using first
  exact key := by
    rw [find_restrict lists.unique, lists.exact, lists.exact]
    split
    · next called =>
      subst called
      rw [List.filter_filter, List.filter_filter]
      apply List.filter_congr
      intro i _
      by_cases called : keyOf i = key <;> simp [called]
    · next notCalled =>
      rw [List.filter_filter]
      apply List.filter_congr
      intro i _
      by_cases called : keyOf i = key
      · simp [called, notCalled]
      · simp [called]

/-- The keys of an index are those that some invocation has. -/
theorem Lists.mem_keys_iff (lists : Lists index keyOf all) :
    key ∈ index.map (·.1) ↔ ∃ i ∈ all, keyOf i = key := by
  constructor
  · intro isKey
    obtain ⟨entry, inside, rfl⟩ := List.mem_map.mp isKey
    obtain ⟨i, listed⟩ := List.exists_mem_of_ne_nil _ (lists.inhabited entry inside)
    rw [← find_of_mem lists.unique inside, lists.exact, List.mem_filter, decide_eq_true_iff] at listed
    exact ⟨i, listed⟩
  · rintro ⟨i, inside, rfl⟩
    refine Decidable.byContradiction fun absent => ?_
    have listed := lists.exact (keyOf i)
    rw [find_eq_nil_of_not_mem absent] at listed
    simpa using List.filter_eq_nil_iff.mp listed.symm i inside

end Choreography.LogIndex
