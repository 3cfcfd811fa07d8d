import Choreography.Frame
import Choreography.Proofs.Agreement

/-! Extending frames. A frame takes values in as long as none of them stands against what one of
its variables is bound to. It keeps the invocations that it rests on, and whatever it binds stays
bound to the same value or to one that agrees with it. -/

namespace Choreography

/-- Whatever has a value on both sides has values that agree. -/
def Fields.Agreeing (bindings incoming : Fields) : Prop :=
  ∀ name bound value, get? bindings name = some bound → get? incoming name = some value →
    bound.agrees value = true

namespace Frame

/-- Nothing that comes in stands against what a frame binds. -/
def Admits (f : Frame) (incoming : Fields) : Prop :=
  Fields.Agreeing f.bindings (Fields.ofList incoming)

/-- A frame with values put over what it binds. -/
def overlaid (f : Frame) (incoming : Fields) : Frame :=
  { f with bindings := Fields.merge f.bindings (Fields.ofList incoming) }

/-- A frame rests on what another one rests on, and binds all that this one binds, to the same
values or to values that agree with them. -/
structure Refines (g f : Frame) : Prop where
  support : g.support = f.support
  root : g.root = f.root
  kept : ∀ name bound, f.get? name = some bound →
    ∃ value, g.get? name = some value ∧ (value = bound ∨ bound.agrees value = true)

end Frame

/-! ### Bindings -/

section Bindings

variable {bindings incoming extended : Fields} {conflict : Conflict}

theorem Fields.agreeing_cons {name : String} {value : Value}
    (unique : (names ((name, value) :: incoming)).Nodup) :
    Agreeing bindings ((name, value) :: incoming) ↔
      (∀ bound, get? bindings name = some bound → bound.agrees value = true) ∧
        Agreeing (set bindings name value) incoming := by
  have unnamed : get? incoming name = none := get?_eq_none_iff.mpr (List.nodup_cons.mp unique).1
  constructor
  · intro agreeing
    refine ⟨fun bound known => agreeing name bound value known (by rw [get?_cons, if_pos rfl]), ?_⟩
    intro other bound attempted known given
    have isOther : other ≠ name := by
      rintro rfl
      rw [unnamed] at given
      cases given
    rw [get?_set, if_neg isOther] at known
    exact agreeing other bound attempted known (by rwa [get?_cons, if_neg isOther])
  · rintro ⟨here, later⟩ other bound attempted known given
    rw [get?_cons] at given
    split at given
    · next called =>
      subst called
      cases given
      exact here bound known
    · next notCalled => exact later other bound attempted (by rwa [get?_set, if_neg notCalled]) given

theorem bindAll_eq_ok_iff (unique : (Fields.names incoming).Nodup) :
    bindAll bindings incoming = .ok extended ↔
      Fields.Agreeing bindings incoming ∧ extended = Fields.merge bindings incoming := by
  induction incoming generalizing bindings with
  | nil =>
    have nothing : Fields.Agreeing bindings [] := nofun
    rw [bindAll, and_iff_right nothing, Except.ok.injEq]
    exact eq_comm
  | cons entry rest ih =>
    obtain ⟨name, value⟩ := entry
    rw [Fields.agreeing_cons unique, and_assoc, Fields.merge_cons, ← ih (List.nodup_cons.mp unique).2,
      bindAll]
    split
    · next bound known => by_cases agreed : bound.agrees value = true <;> simp [agreed, known]
    · next unbound => simp [unbound]

theorem conflict_of_bindAll (unique : (Fields.names incoming).Nodup)
    (failed : bindAll bindings incoming = .error conflict) :
    Fields.get? bindings conflict.name = some conflict.bound ∧
      Fields.get? incoming conflict.name = some conflict.attempted ∧
        conflict.bound.agrees conflict.attempted = false := by
  induction incoming generalizing bindings with
  | nil => cases failed
  | cons entry rest ih =>
    obtain ⟨name, value⟩ := entry
    have unnamed : Fields.get? rest name = none :=
      Fields.get?_eq_none_iff.mpr (List.nodup_cons.mp unique).1
    have later (failed : bindAll (Fields.set bindings name value) rest = .error conflict) :
        Fields.get? bindings conflict.name = some conflict.bound ∧
          Fields.get? ((name, value) :: rest) conflict.name = some conflict.attempted ∧
            conflict.bound.agrees conflict.attempted = false := by
      obtain ⟨known, given, disagreed⟩ := ih (List.nodup_cons.mp unique).2 failed
      have isOther : conflict.name ≠ name := by
        intro called
        rw [called, unnamed] at given
        cases given
      rw [Fields.get?_set, if_neg isOther] at known
      exact ⟨known, by rwa [Fields.get?_cons, if_neg isOther], disagreed⟩
    unfold bindAll at failed
    split at failed
    · next bound known =>
      split at failed
      · exact later failed
      · next disagreed =>
        cases failed
        exact ⟨known, by rw [Fields.get?_cons, if_pos rfl], Bool.eq_false_iff.mpr disagreed⟩
    · exact later failed

end Bindings

namespace Frame

variable {f g h : Frame} {incoming : Fields} {conflict : Conflict}

theorem extend_eq_ok_iff : f.extend incoming = .ok g ↔ f.Admits incoming ∧ g = f.overlaid incoming := by
  have bound {extended : Fields} : bindAll f.bindings (Fields.ofList incoming) = .ok extended ↔
      f.Admits incoming ∧ extended = Fields.merge f.bindings (Fields.ofList incoming) :=
    bindAll_eq_ok_iff Fields.nodup_names_ofList
  unfold extend
  split
  · next extended isBound =>
    obtain ⟨admits, rfl⟩ := bound.mp isBound
    rw [Except.ok.injEq, and_iff_right (show f.Admits incoming from admits)]
    exact eq_comm
  · next isConflict =>
    refine iff_of_false nofun ?_
    rintro ⟨admits, _⟩
    rw [bound.mpr ⟨admits, rfl⟩] at isConflict
    cases isConflict

instance (f : Frame) (incoming : Fields) : Decidable (f.Admits incoming) :=
  decidable_of_iff ((f.extend incoming).isOk = true) <| by
    constructor
    · intro isOk
      cases isExtended : f.extend incoming with
      | ok => exact (extend_eq_ok_iff.mp isExtended).1
      | error =>
        rw [isExtended] at isOk
        cases isOk
    · intro admits
      rw [extend_eq_ok_iff.mpr ⟨admits, rfl⟩]
      rfl

/-- A conflict is about a variable that is bound, and a value that disagrees. -/
theorem conflict_of_extend (failed : f.extend incoming = .error conflict) :
    f.get? conflict.name = some conflict.bound ∧
      Fields.get? (Fields.ofList incoming) conflict.name = some conflict.attempted ∧
        conflict.bound.agrees conflict.attempted = false := by
  unfold extend at failed
  split at failed
  · cases failed
  · next isConflict =>
    cases failed
    exact conflict_of_bindAll Fields.nodup_names_ofList isConflict

theorem get?_overlaid {name : String} : (f.overlaid incoming).get? name =
    (Fields.get? (Fields.ofList incoming) name).or (f.get? name) := by
  rw [get?, overlaid, Fields.get?_merge, Fields.get?_reverse Fields.nodup_names_ofList]
  rfl

/-! ### Refining -/

theorem Refines.refl (f : Frame) : f.Refines f where
  support := rfl
  root := rfl
  kept _ bound known := ⟨bound, known, .inl rfl⟩

theorem Refines.trans (first : h.Refines g) (second : g.Refines f) : h.Refines f where
  support := first.support.trans second.support
  root := first.root.trans second.root
  kept name bound known := by
    obtain ⟨middle, isMiddle, same⟩ := second.kept name bound known
    obtain ⟨value, isValue, alike⟩ := first.kept name middle isMiddle
    refine ⟨value, isValue, ?_⟩
    rcases same with rfl | agreed
    · exact alike
    · rcases alike with rfl | alsoAgreed
      · exact .inr agreed
      · exact .inr (Value.agrees_trans agreed alsoAgreed)

theorem Admits.refines (admits : f.Admits incoming) : (f.overlaid incoming).Refines f where
  support := rfl
  root := rfl
  kept name bound known := by
    rw [get?_overlaid, known]
    cases given : Fields.get? (Fields.ofList incoming) name with
    | none => exact ⟨bound, rfl, .inl rfl⟩
    | some value => exact ⟨value, rfl, .inr (admits name bound value known given)⟩

end Frame

end Choreography
