import Choreography.Proofs.Agreement

/-! Likeness of values and of named values. Values are alike if they are the same or agree. That
is agreement with what it lacks for an equivalence, since a nan does not agree with itself. Values
that are alike agree with the same values, so whatever is decided by agreement alone cannot tell
them apart. -/

namespace Choreography

/-- One and the same value, or two that agree. -/
def Value.Alike (v w : Value) : Prop := v = w ∨ v.agrees w = true

/-- The same names stand for something, and for values that are alike. -/
structure Fields.Alike (fields others : Fields) : Prop where
  names : ∀ name, name ∈ Fields.names fields ↔ name ∈ Fields.names others
  values : ∀ name value other, Fields.get? fields name = some value →
    Fields.get? others name = some other → value.Alike other

namespace Value

variable {u v w : Value}

theorem Alike.refl (v : Value) : v.Alike v := .inl rfl

theorem Alike.symm (alike : v.Alike w) : w.Alike v := alike.imp Eq.symm agrees_symm

theorem Alike.trans (first : u.Alike v) (second : v.Alike w) : u.Alike w := by
  rcases first with rfl | first
  · exact second
  · rcases second with rfl | second
    · exact .inr first
    · exact .inr (agrees_trans first second)

/-- Agreement does not depend on which of several values that are alike is asked about. -/
theorem Alike.agrees {v' w' : Value} (left : v.Alike v') (right : w.Alike w')
    (agreed : v.agrees w = true) : v'.agrees w' = true := by
  have leftAgreed : v'.agrees w = true := by
    rcases left with rfl | same
    · exact agreed
    · exact agrees_trans (agrees_symm same) agreed
  rcases right with rfl | same
  · exact leftAgreed
  · exact agrees_trans leftAgreed same

/-- Whatever is found is alike to itself, and so is nothing. -/
theorem rel_alike_refl (found : Option Value) : Option.Rel Alike found found := by
  cases found with
  | none => exact .none
  | some value => exact .some (.refl value)

end Value

namespace Fields

variable {fields others further : Fields} {name : String} {value other : Value}

theorem Alike.refl (fields : Fields) : Alike fields fields where
  names _ := Iff.rfl
  values name value other found sameFound := by
    rw [found] at sameFound
    exact .inl (Option.some.inj sameFound)

theorem Alike.symm (alike : Alike fields others) : Alike others fields where
  names name := (alike.names name).symm
  values name value other found otherFound := (alike.values name other value otherFound found).symm

/-- Where one of them has a value, the other has one that is alike. -/
theorem Alike.exists_get? (alike : Alike fields others) (found : get? fields name = some value) :
    ∃ other, get? others name = some other ∧ value.Alike other := by
  have named : has fields name = true := by simp [has, found]
  have otherNamed : has others name = true := by
    rwa [has_iff_mem_names, ← alike.names, ← has_iff_mem_names]
  obtain ⟨other, otherFound⟩ := Option.isSome_iff_exists.mp otherNamed
  exact ⟨other, otherFound, alike.values name value other found otherFound⟩

theorem Alike.get?_eq_none (alike : Alike fields others) (unnamed : get? fields name = none) :
    get? others name = none := by
  rw [get?_eq_none_iff] at unnamed ⊢
  rwa [← alike.names]

theorem Alike.has_eq (alike : Alike fields others) : has fields name = has others name := by
  rw [Bool.eq_iff_iff, has_iff_mem_names, has_iff_mem_names]
  exact alike.names name

theorem Alike.trans (first : Alike fields others) (second : Alike others further) :
    Alike fields further where
  names name := (first.names name).trans (second.names name)
  values name value other found furtherFound := by
    obtain ⟨middle, isMiddle, alike⟩ := first.exists_get? found
    exact alike.trans (second.values name middle other isMiddle furtherFound)

theorem Alike.of_get? (same : ∀ name, Option.Rel Value.Alike (get? fields name) (get? others name)) :
    Alike fields others where
  names name := by
    have related := same name
    rw [← has_iff_mem_names, ← has_iff_mem_names, has, has]
    generalize get? fields name = found at related ⊢
    generalize get? others name = otherFound at related ⊢
    cases related <;> simp
  values name value other found otherFound := by
    have related := same name
    rw [found, otherFound] at related
    exact Option.rel_some_some.mp related

/-- Giving a name values that are alike keeps what is alike alike. -/
theorem Alike.set (alike : Alike fields others) (same : value.Alike other) :
    Alike (set fields name value) (set others name other) where
  names key := by
    rw [mem_names_set, mem_names_set]
    exact or_congr_right (alike.names key)
  values key v w found otherFound := by
    rw [get?_set] at found otherFound
    by_cases called : key = name
    · rw [if_pos called] at found otherFound
      cases found
      cases otherFound
      exact same
    · rw [if_neg called] at found otherFound
      exact alike.values key v w found otherFound

theorem Alike.merge (alike : Alike fields others) (incoming : Fields) :
    Alike (merge fields incoming) (merge others incoming) := by
  induction incoming generalizing fields others with
  | nil => exact alike
  | cons entry rest ih => exact ih (alike.set (.refl entry.2))

/-- The order in which names come does not matter, as long as each comes once. -/
theorem alike_of_perm (unique : (names fields).Nodup) (same : fields.Perm others) :
    Alike fields others where
  names name := (same.map _).mem_iff
  values name value other found otherFound := by
    have alsoUnique : (names others).Nodup := (same.map _).nodup_iff.mp unique
    rw [get?_eq_some_iff_mem alsoUnique, ← same.mem_iff, ← get?_eq_some_iff_mem unique,
      found] at otherFound
    exact .inl (Option.some.inj otherFound)

end Fields

/-- Results correspond if what either side yields has a counterpart on the other. -/
theorem rel_of_counterparts {α β : Type} {r : α → β → Prop} {first : Option α} {second : Option β}
    (forth : ∀ a, first = some a → ∃ b, second = some b ∧ r a b)
    (back : ∀ b, second = some b → ∃ a, first = some a) : Option.Rel r first second := by
  cases first with
  | some a =>
    obtain ⟨b, rfl, related⟩ := forth a rfl
    exact .some related
  | none =>
    cases second with
    | none => exact .none
    | some b =>
      obtain ⟨a, isSome⟩ := back b rfl
      cases isSome

end Choreography
