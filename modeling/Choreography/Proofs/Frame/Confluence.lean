import Choreography.Proofs.Agreement.Likeness
import Choreography.Proofs.Frame
import Mathlib.Data.List.Perm.Basic

/-! Extending is confluent. Several maps can be put over a frame, or cannot, whatever their order
is: the frame takes them in if they agree with it and with each other. A later map may give a
variable another form of its value, against which the maps after it are then held. As agreement is
transitive, that changes neither what is refused nor, but for the form of the values, what is bound
in the end. -/

namespace Choreography

variable {bindings incoming others : Fields}

theorem Fields.Agreeing.symm (agreeing : Fields.Agreeing bindings incoming) :
    Fields.Agreeing incoming bindings :=
  fun name bound value known given => Value.agrees_symm (agreeing name value bound given known)

/-- What agrees with bindings agrees with others that are alike. -/
theorem Fields.Agreeing.of_alike (alike : Fields.Alike bindings others)
    (agreeing : Fields.Agreeing bindings incoming) : Fields.Agreeing others incoming := by
  intro name bound value known given
  obtain ⟨first, isFirst, same⟩ := alike.symm.exists_get? known
  exact same.symm.agrees (.refl value) (agreeing name first value isFirst given)

theorem toOption_eq_some_iff {ε α : Type} {attempt : Except ε α} {result : α} :
    attempt.toOption = some result ↔ attempt = .ok result := by
  cases attempt <;> simp [Except.toOption]

namespace Frame

/-- Frames that rest on the same invocations and bind the same variables, to values that are
alike. -/
structure Alike (f g : Frame) : Prop where
  support : f.support = g.support
  root : f.root = g.root
  bindings : Fields.Alike f.bindings g.bindings

/-- A map has a value for a variable that a frame binds to one with which it does not agree. -/
def Clashes (f : Frame) (incoming : Fields) : Prop :=
  ∃ name bound value, f.get? name = some bound ∧
    Fields.get? (Fields.ofList incoming) name = some value ∧ bound.agrees value = false

/-- A frame that is extended with several maps, one after the other. -/
def extendAll (f : Frame) (maps : List Fields) : Except Conflict Frame := maps.foldlM extend f

variable {f g h : Frame} {a b : Fields} {maps others : List Fields}

theorem Alike.refl (f : Frame) : f.Alike f := ⟨rfl, rfl, .refl f.bindings⟩

theorem Alike.trans (first : f.Alike g) (second : g.Alike h) : f.Alike h :=
  ⟨first.support.trans second.support, first.root.trans second.root,
    first.bindings.trans second.bindings⟩

/-! ### One map after another -/

theorem extendAll_cons : f.extendAll (a :: maps) = f.extend a >>= (·.extendAll maps) :=
  List.foldlM_cons

theorem extendAll_cons_eq_ok_iff : f.extendAll (a :: maps) = .ok g ↔
    f.Admits a ∧ (f.overlaid a).extendAll maps = .ok g := by
  rw [extendAll_cons]
  cases extended : f.extend a with
  | ok next =>
    obtain ⟨admits, rfl⟩ := extend_eq_ok_iff.mp extended
    exact (and_iff_right admits).symm
  | error conflict =>
    refine iff_of_false nofun ?_
    rintro ⟨admits, _⟩
    rw [extend_eq_ok_iff.mpr ⟨admits, rfl⟩] at extended
    cases extended

theorem extendAll_pair : f.extendAll [a, b] = f.extend a >>= (·.extend b) := by
  rw [extendAll_cons]
  congr 1
  funext g
  exact bind_pure (g.extend b)

/-- Whatever is put over a frame, it keeps what it rests on and what it binds. -/
theorem refines_of_extendAll (extended : f.extendAll maps = .ok g) : g.Refines f := by
  induction maps generalizing f with
  | nil =>
    cases extended
    exact .refl _
  | cons a maps ih =>
    obtain ⟨admits, rest⟩ := extendAll_cons_eq_ok_iff.mp extended
    exact (ih rest).trans admits.refines

/-! ### Frames that are alike -/

theorem Alike.admits (alike : f.Alike g) (admits : f.Admits a) : g.Admits a :=
  Fields.Agreeing.of_alike alike.bindings admits

theorem Alike.overlaid (alike : f.Alike g) (a : Fields) : (f.overlaid a).Alike (g.overlaid a) :=
  ⟨alike.support, alike.root, alike.bindings.merge (Fields.ofList a)⟩

/-- Frames that are alike take in the same maps, and are alike then. -/
theorem exists_extendAll_of_alike (alike : f.Alike g) (extended : f.extendAll maps = .ok h) :
    ∃ other, g.extendAll maps = .ok other ∧ h.Alike other := by
  induction maps generalizing f g with
  | nil =>
    cases extended
    exact ⟨g, rfl, alike⟩
  | cons a maps ih =>
    obtain ⟨admits, rest⟩ := extendAll_cons_eq_ok_iff.mp extended
    obtain ⟨other, alsoExtended, same⟩ := ih (alike.overlaid a) rest
    exact ⟨other, extendAll_cons_eq_ok_iff.mpr ⟨alike.admits admits, alsoExtended⟩, same⟩

/-! ### Maps in another order -/

/-- What agrees with a frame that was extended agrees with the frame and with what came in. -/
theorem admits_overlaid_iff (admits : f.Admits a) : (f.overlaid a).Admits b ↔
    f.Admits b ∧ Fields.Agreeing (Fields.ofList a) (Fields.ofList b) := by
  constructor
  · intro overlaid
    refine ⟨fun name bound value known given => ?_, fun name bound value known given => ?_⟩
    · -- Where a value has come in, it stands between the one below and the one to come.
      cases covered : Fields.get? (Fields.ofList a) name with
      | none =>
        have stillKnown : (f.overlaid a).get? name = some bound := by
          rw [get?_overlaid, covered, Option.none_or]
          exact known
        exact overlaid name bound value stillKnown given
      | some middle =>
        have isMiddle : (f.overlaid a).get? name = some middle := by
          rw [get?_overlaid, covered, Option.some_or]
        exact Value.agrees_trans (admits name bound middle known covered)
          (overlaid name middle value isMiddle given)
    · have isBound : (f.overlaid a).get? name = some bound := by
        rw [get?_overlaid, known, Option.some_or]
      exact overlaid name bound value isBound given
  · rintro ⟨below, above⟩ name bound value known given
    change (f.overlaid a).get? name = some bound at known
    rw [get?_overlaid] at known
    cases covered : Fields.get? (Fields.ofList a) name with
    | none =>
      rw [covered, Option.none_or] at known
      exact below name bound value known given
    | some middle =>
      rw [covered, Option.some_or] at known
      exact above name bound value (known ▸ covered) given

/-- Of two maps that agree it does not matter which is put over a frame first. -/
theorem overlaid_overlaid_alike (agreeing : Fields.Agreeing (Fields.ofList a) (Fields.ofList b)) :
    ((f.overlaid a).overlaid b).Alike ((f.overlaid b).overlaid a) := by
  refine ⟨rfl, rfl, .of_get? fun name => ?_⟩
  change Option.Rel Value.Alike (((f.overlaid a).overlaid b).get? name)
    (((f.overlaid b).overlaid a).get? name)
  simp only [get?_overlaid]
  -- The two differ only where both maps have a value: there the later one counts.
  cases inA : Fields.get? (Fields.ofList a) name with
  | none => exact Value.rel_alike_refl _
  | some fromA =>
    cases inB : Fields.get? (Fields.ofList b) name with
    | none => exact .some (.refl fromA)
    | some fromB => exact .some (.inr (Value.agrees_symm (agreeing name fromA fromB inA inB)))

theorem exists_extendAll_of_swap (extended : f.extendAll (a :: b :: maps) = .ok g) :
    ∃ other, f.extendAll (b :: a :: maps) = .ok other ∧ g.Alike other := by
  obtain ⟨admitsA, rest⟩ := extendAll_cons_eq_ok_iff.mp extended
  obtain ⟨admitsB, rest⟩ := extendAll_cons_eq_ok_iff.mp rest
  obtain ⟨admitsB, agreeing⟩ := (admits_overlaid_iff admitsA).mp admitsB
  obtain ⟨other, alsoExtended, same⟩ :=
    exists_extendAll_of_alike (overlaid_overlaid_alike agreeing) rest
  have admitsBoth : (f.overlaid b).Admits a :=
    (admits_overlaid_iff admitsB).mpr ⟨admitsA, agreeing.symm⟩
  exact ⟨other, extendAll_cons_eq_ok_iff.mpr
    ⟨admitsB, extendAll_cons_eq_ok_iff.mpr ⟨admitsBoth, alsoExtended⟩⟩, same⟩

theorem exists_extendAll_of_perm (same : maps.Perm others) (extended : f.extendAll maps = .ok g) :
    ∃ other, f.extendAll others = .ok other ∧ g.Alike other := by
  -- The frame varies in the induction: what follows the first map is put over another frame.
  induction same generalizing f g with
  | nil => exact ⟨g, extended, .refl g⟩
  | cons a _ ih =>
    obtain ⟨admits, rest⟩ := extendAll_cons_eq_ok_iff.mp extended
    obtain ⟨other, alsoExtended, alike⟩ := ih rest
    exact ⟨other, extendAll_cons_eq_ok_iff.mpr ⟨admits, alsoExtended⟩, alike⟩
  | swap a b maps => exact exists_extendAll_of_swap extended
  | trans _ _ ihFirst ihSecond =>
    obtain ⟨middle, toMiddle, first⟩ := ihFirst extended
    obtain ⟨other, toOther, second⟩ := ihSecond toMiddle
    exact ⟨other, toOther, first.trans second⟩

/-- Maps in one order can be put over a frame exactly if they can be in another, and then the
frames that come out are alike. -/
theorem extendAll_perm (f : Frame) (same : maps.Perm others) :
    Option.Rel (fun g h => g.Refines f ∧ g.Alike h)
      (f.extendAll maps).toOption (f.extendAll others).toOption := by
  refine rel_of_counterparts (fun g isSome => ?_) (fun g isSome => ?_)
  · have extended := toOption_eq_some_iff.mp isSome
    obtain ⟨other, alsoExtended, alike⟩ := exists_extendAll_of_perm same extended
    exact ⟨other, toOption_eq_some_iff.mpr alsoExtended, refines_of_extendAll extended, alike⟩
  · obtain ⟨other, extended, _⟩ :=
      exists_extendAll_of_perm same.symm (toOption_eq_some_iff.mp isSome)
    exact ⟨other, toOption_eq_some_iff.mpr extended⟩

/-! ### What cannot be put over a frame -/

theorem exists_conflict_iff : (∃ conflict, f.extend a = .error conflict) ↔ f.Clashes a := by
  constructor
  · rintro ⟨conflict, failed⟩
    exact ⟨conflict.name, conflict.bound, conflict.attempted, conflict_of_extend failed⟩
  · rintro ⟨name, bound, value, known, given, disagreed⟩
    cases extended : f.extend a with
    | error conflict => exact ⟨conflict, rfl⟩
    | ok g =>
      have agreed := (extend_eq_ok_iff.mp extended).1 name bound value known given
      rw [disagreed] at agreed
      cases agreed

/-- What a map that is taken in has a value for is bound to that value, and the rest as before. -/
theorem get?_of_extend (extended : f.extend a = .ok g) (name : String) :
    g.get? name = (Fields.get? (Fields.ofList a) name).or (f.get? name) := by
  obtain ⟨_, rfl⟩ := extend_eq_ok_iff.mp extended
  exact get?_overlaid

end Frame

/-! ### A dial -/

namespace Dial

/-- A frame in which a level is known. -/
def shown : Frame where
  bindings := [("level", .int 1)]
  support := [1]
  root := some 1

/-- The same level as a truth value. -/
def lit : Fields := [("level", .bool true)]

/-- The same level as a number of another kind, and its unit. -/
def measured : Fields := [("unit", .text "bar"), ("level", .float (.ofParts false 1023 0))]

/-- Another level. -/
def risen : Fields := [("unit", .text "bar"), ("level", .int 2)]

/-- The kind of value that the level is bound to. -/
def levelKind (f : Frame) : Option String := (f.get? "level").map Value.typeName

theorem risen_clashes : shown.Clashes risen :=
  ⟨"level", .int 1, .int 2, rfl, rfl, by decide +kernel⟩

/-- A frame that binds a nan does not take in what it binds itself. -/
example : let unread : Frame := { bindings := [("level", .float (.nan 1))] }
    (unread.extend unread.bindings).isOk = false := by
  decide +kernel

end Dial

end Choreography
