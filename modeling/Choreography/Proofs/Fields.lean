import Choreography.Value

/-! Named values by what they hold: looking a name up, giving it a value, and the
names there are. -/

namespace Choreography.Fields

variable {fields : Fields} {name other : String} {value : Value}

theorem has_iff : has fields name = true ↔ ∃ f ∈ fields, f.1 = name := by
  rw [has, get?, List.lookup_isSome_iff]
  simp only [beq_iff_eq, @eq_comm _ name]

theorem has_iff_mem_names : has fields name = true ↔ name ∈ names fields := by
  rw [has_iff, names, List.mem_map]

@[simp] theorem get?_nil : get? [] name = none := rfl

@[simp] theorem names_nil : names [] = [] := rfl

theorem names_cons (entry : String × Value) : names (entry :: fields) = entry.1 :: names fields := rfl

theorem get?_eq_none_iff : get? fields name = none ↔ name ∉ names fields := by
  rw [← has_iff_mem_names, has, Bool.not_eq_true, Option.isSome_eq_false_iff, Option.isNone_iff_eq_none]

theorem get?_cons (entry : String × Value) :
    get? (entry :: fields) name = if name = entry.1 then some entry.2 else get? fields name := by
  obtain ⟨key, held⟩ := entry
  rw [get?, get?, List.lookup_cons]
  by_cases called : name = key
  · simp [called]
  · simp [called, beq_false_of_ne called]

theorem mem_of_get? (found : get? fields name = some value) : (name, value) ∈ fields := by
  induction fields with
  | nil => cases found
  | cons entry rest ih =>
    rw [get?_cons] at found
    split at found
    · next called =>
      cases found
      exact called ▸ List.mem_cons_self
    · exact List.mem_cons_of_mem entry (ih found)

/-- Where each name comes once, an entry is what its name stands for. -/
theorem get?_eq_some_iff_mem (unique : (names fields).Nodup) :
    get? fields name = some value ↔ (name, value) ∈ fields := by
  induction fields with
  | nil => simp
  | cons entry rest ih =>
    obtain ⟨notInRest, unique⟩ := List.nodup_cons.mp unique
    rw [get?_cons, List.mem_cons, Prod.ext_iff]
    split
    · next called =>
      subst called
      have elsewhere : (entry.1, value) ∉ rest := fun inRest =>
        notInRest (List.mem_map.mpr ⟨_, inRest, rfl⟩)
      simp [elsewhere, eq_comm]
    · next notCalled => simp [notCalled, ih unique]

theorem get?_set : get? (set fields name value) other =
    if other = name then some value else get? fields other := by
  induction fields with
  | nil => rw [set, get?_cons]
  | cons entry rest ih =>
    obtain ⟨key, old⟩ := entry
    unfold set
    split
    · next isKey =>
      subst isKey
      rw [get?_cons, get?_cons]
      split <;> rfl
    · next notKey =>
      rw [get?_cons, ih, get?_cons]
      by_cases atKey : other = key
      · subst atKey
        simp only [↓reduceIte, if_neg notKey]
      · simp only [if_neg atKey]

theorem mem_names_set : other ∈ names (set fields name value) ↔ other = name ∨ other ∈ names fields := by
  rw [← has_iff_mem_names, ← has_iff_mem_names, has, has, get?_set]
  split
  · next called => simp [called]
  · next notCalled => simp [notCalled]

theorem nodup_names_set (unique : (names fields).Nodup) : (names (set fields name value)).Nodup := by
  induction fields with
  | nil => simp [set, names]
  | cons entry rest ih =>
    obtain ⟨key, old⟩ := entry
    obtain ⟨notInRest, unique⟩ := List.nodup_cons.mp unique
    unfold set
    split
    · exact List.nodup_cons.mpr ⟨notInRest, unique⟩
    · next notKey =>
      refine List.nodup_cons.mpr ⟨?_, ih unique⟩
      intro inside
      rcases mem_names_set.mp inside with called | inRest
      · exact notKey called
      · exact notInRest inRest

theorem names_set : names (set fields name value) =
    if name ∈ names fields then names fields else names fields ++ [name] := by
  induction fields with
  | nil => rfl
  | cons entry rest ih =>
    obtain ⟨key, old⟩ := entry
    by_cases isKey : key = name
    · simp [set, names_cons, isKey]
    · simp only [set, if_neg isKey, names_cons, ih, List.mem_cons, Ne.symm isKey, false_or]
      split <;> rfl

/-- Named values with the same names, each once and in the same order, are told apart by what
the names stand for. -/
theorem eq_of_get?_eq {others : Fields} (sameNames : names fields = names others)
    (unique : (names fields).Nodup) (same : ∀ name, get? fields name = get? others name) :
    fields = others := by
  induction fields generalizing others with
  | nil => exact (List.map_eq_nil_iff.mp sameNames.symm).symm
  | cons entry rest ih =>
    obtain ⟨other, later, rfl, sameName, sameRest⟩ := List.map_eq_cons_iff.mp sameNames.symm
    obtain ⟨notInRest, unique⟩ := List.nodup_cons.mp unique
    have first := same entry.1
    rw [get?_cons, get?_cons, if_pos rfl, if_pos sameName.symm] at first
    rw [Prod.ext sameName.symm (Option.some.inj first), ih sameRest.symm unique]
    intro name
    by_cases called : name = entry.1
    · have notInLater : entry.1 ∉ names later := fun inside => notInRest (sameRest ▸ inside)
      rw [called, get?_eq_none_iff.mpr notInRest, get?_eq_none_iff.mpr notInLater]
    · have inRest := same name
      rwa [get?_cons, get?_cons, if_neg called, if_neg (sameName ▸ called)] at inRest

/-! ### Giving several names their values -/

section Merging

variable {incoming : Fields}

theorem merge_cons (entry : String × Value) :
    merge fields (entry :: incoming) = merge (set fields entry.1 entry.2) incoming := rfl

/-- What is given last counts. -/
theorem get?_merge :
    get? (merge fields incoming) name = (get? incoming.reverse name).or (get? fields name) := by
  induction incoming generalizing fields with
  | nil => rfl
  | cons entry rest ih =>
    obtain ⟨key, value⟩ := entry
    have last : get? (rest.reverse ++ [(key, value)]) name =
        (get? rest.reverse name).or (get? [(key, value)] name) := List.lookup_append
    rw [merge_cons, ih, get?_set, List.reverse_cons, last, get?_cons, get?_nil]
    by_cases called : name = key
    · cases get? rest.reverse name <;> simp [called]
    · cases get? rest.reverse name <;> simp [called]

theorem nodup_names_merge (unique : (names fields).Nodup) : (names (merge fields incoming)).Nodup := by
  induction incoming generalizing fields with
  | nil => exact unique
  | cons entry rest ih => exact ih (nodup_names_set unique)

theorem prefix_names_merge : names fields <+: names (merge fields incoming) := by
  induction incoming generalizing fields with
  | nil => exact List.prefix_rfl
  | cons entry rest ih =>
    refine List.IsPrefix.trans ?_ ih
    rw [names_set]
    split
    · exact List.prefix_rfl
    · exact List.prefix_append _ _

theorem names_merge (unique : (names incoming).Nodup) :
    names (merge fields incoming) = names fields ++ (names incoming).filter (· ∉ names fields) := by
  induction incoming generalizing fields with
  | nil => exact (List.append_nil _).symm
  | cons entry rest ih =>
    obtain ⟨notInRest, unique⟩ := List.nodup_cons.mp unique
    rw [merge_cons, ih unique, names_cons, names_set]
    by_cases known : entry.1 ∈ names fields
    · simp [known]
    · have elsewhere : (names rest).filter (· ∉ names fields ++ [entry.1]) =
          (names rest).filter (· ∉ names fields) := by
        refine List.filter_congr fun other inRest => ?_
        have isOther : other ≠ entry.1 := by
          rintro rfl
          exact notInRest inRest
        simp [isOther]
      simp only [elsewhere, List.filter_cons, known, not_false_eq_true, decide_true,
        ↓reduceIte, List.append_assoc, List.singleton_append]

theorem nodup_names_ofList : (names (ofList incoming)).Nodup :=
  show (names (merge [] incoming)).Nodup from nodup_names_merge .nil

theorem get?_ofList : get? (ofList incoming) name = get? incoming.reverse name := by
  rw [ofList, get?_merge, get?_nil, Option.or_none]

/-- Where each name comes once, it does not matter which entry counts. -/
theorem get?_reverse (unique : (names incoming).Nodup) : get? incoming.reverse name = get? incoming name := by
  induction incoming with
  | nil => rfl
  | cons entry rest ih =>
    obtain ⟨notInRest, unique⟩ := List.nodup_cons.mp unique
    have last : get? (rest.reverse ++ [entry]) name =
        (get? rest.reverse name).or (get? [entry] name) := List.lookup_append
    rw [List.reverse_cons, last, ih unique, get?_cons, get?_cons, get?_nil]
    by_cases called : name = entry.1
    · rw [called, get?_eq_none_iff.mpr notInRest]
      rfl
    · simp [called]

theorem ofList_eq_self (unique : (names incoming).Nodup) : ofList incoming = incoming := by
  refine eq_of_get?_eq ?_ nodup_names_ofList fun name => ?_
  · rw [ofList, names_merge unique]
    simp
  · rw [get?_ofList, get?_reverse unique]

/-- What begins with the names that there are takes the place of everything. -/
theorem merge_eq_incoming (unique : (names incoming).Nodup) (begins : names fields <+: names incoming) :
    merge fields incoming = incoming := by
  have sameNames : names (merge fields incoming) = names incoming := by
    rw [names_merge unique]
    obtain ⟨more, isIncoming⟩ := begins
    rw [← isIncoming] at unique ⊢
    have apart := (List.nodup_append.mp unique).2.2
    have noneMore : (names fields).filter (· ∉ names fields) = [] := by simp
    have allMore : more.filter (· ∉ names fields) = more :=
      List.filter_eq_self.mpr fun name inMore => decide_eq_true fun inFields =>
        apart name inFields name inMore rfl
    rw [List.filter_append, noneMore, allMore, List.nil_append]
  refine eq_of_get?_eq sameNames (sameNames ▸ unique) fun name => ?_
  rw [get?_merge, get?_reverse unique]
  cases found : get? incoming name with
  | some value => rfl
  | none =>
    have unnamed := get?_eq_none_iff.mp found
    exact get?_eq_none_iff.mpr fun inside => unnamed (begins.subset inside)

end Merging

end Choreography.Fields
