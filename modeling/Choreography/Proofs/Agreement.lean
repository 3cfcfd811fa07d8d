import Choreography.Proofs.Fields
import Choreography.Value.Agreement

/-! Agreement of values is symmetric and transitive. It is not reflexive, as a nan
agrees with nothing; inside collections the same nan is accepted, and there it is
what carries the chain of comparisons on. -/

namespace Choreography.Value

/-- Induction over a value and all that is inside it. -/
@[elab_as_elim]
theorem induct {motive : Value → Prop}
    (leaf : ∀ v, (∀ items, v ≠ .list items) → (∀ fields, v ≠ .map fields) → motive v)
    (list : ∀ items, (∀ v ∈ items, motive v) → motive (.list items))
    (map : ∀ fields, (∀ f ∈ fields, motive f.2) → motive (.map fields)) :
    ∀ v, motive v
  | .null => leaf _ (fun _ => nofun) (fun _ => nofun)
  | .bool _ => leaf _ (fun _ => nofun) (fun _ => nofun)
  | .int _ => leaf _ (fun _ => nofun) (fun _ => nofun)
  | .float _ => leaf _ (fun _ => nofun) (fun _ => nofun)
  | .text _ => leaf _ (fun _ => nofun) (fun _ => nofun)
  | .list items => list items fun v _ => induct leaf list map v
  | .map fields => map fields fun f _ => induct leaf list map f.2
termination_by v => sizeOf v
decreasing_by
  · have := List.sizeOf_lt_of_mem ‹_›
    simp only [Value.list.sizeOf_spec]
    omega
  · have := List.sizeOf_lt_of_mem ‹f ∈ fields›
    have : sizeOf f.2 < sizeOf f := by
      cases f
      simp only [Prod.mk.sizeOf_spec]
      omega
    simp only [Value.map.sizeOf_spec]
    omega

theorem magnitude?_of_isNan (undefined : x.isNan = true) : magnitude? (.float x) = none := by
  rw [magnitude?, if_pos undefined]

/-- What is no collection agrees as null, as the same text, or as the same size. -/
theorem leafAgrees_iff : leafAgrees v w = true ↔
    (v = .null ∧ w = .null) ∨ (∃ s, v = .text s ∧ w = .text s) ∨
      ∃ size, v.magnitude? = some size ∧ w.magnitude? = some size := by
  unfold leafAgrees
  split
  · exact iff_of_true rfl (.inl ⟨rfl, rfl⟩)
  · next s t =>
    constructor
    · intro same
      cases beq_iff_eq.mp same
      exact .inr (.inl ⟨s, rfl, rfl⟩)
    · rintro (⟨⟨⟩, _⟩ | ⟨_, ⟨⟩, ⟨⟩⟩ | ⟨_, ⟨⟩, _⟩)
      exact beq_self_eq_true s
  · next notNull notText =>
    constructor
    · intro same
      split at same
      · next size other ofV ofW =>
        cases beq_iff_eq.mp same
        exact .inr (.inr ⟨size, ofV, ofW⟩)
      · cases same
    · rintro (⟨rfl, rfl⟩ | ⟨s, rfl, rfl⟩ | ⟨size, ofV, ofW⟩)
      · exact absurd rfl (notNull rfl)
      · exact absurd rfl (notText s s rfl)
      · rw [ofV, ofW]
        exact beq_self_eq_true size

theorem leafAgrees_symm (agreed : leafAgrees v w = true) : leafAgrees w v = true := by
  rw [leafAgrees_iff] at agreed ⊢
  rcases agreed with ⟨first, second⟩ | ⟨s, first, second⟩ | ⟨size, first, second⟩
  · exact .inl ⟨second, first⟩
  · exact .inr (.inl ⟨s, second, first⟩)
  · exact .inr (.inr ⟨size, second, first⟩)

theorem leafAgrees_trans (first : leafAgrees u v = true) (second : leafAgrees v w = true) :
    leafAgrees u w = true := by
  rw [leafAgrees_iff] at first
  rcases first with ⟨rfl, rfl⟩ | ⟨s, rfl, rfl⟩ | ⟨size, ofU, ofV⟩
  · exact second
  · exact second
  · rw [leafAgrees_iff] at second ⊢
    rcases second with ⟨rfl, rfl⟩ | ⟨s, rfl, rfl⟩ | ⟨other, sameV, ofW⟩
    · cases ofV
    · cases ofV
    · rw [ofV] at sameV
      cases sameV
      exact .inr (.inr ⟨size, ofU, ofW⟩)

/-! ### Collections -/

theorem agreesAt_iff : agreesAt fs gs = true ↔
    ∀ f ∈ fs, ∀ g ∈ gs, f.1 = g.1 → same f.2 g.2 = true := by
  induction fs with
  | nil => simp [agreesAt]
  | cons f fs ih =>
    obtain ⟨name, v⟩ := f
    have here : (gs.all fun g => g.1 != name || sameNan v g.2 || v.agrees g.2) = true ↔
        ∀ g ∈ gs, name = g.1 → same v g.2 = true := by
      simp only [List.all_eq_true, Bool.or_eq_true, bne_iff_ne, same]
      apply forall₂_congr
      intro g _
      by_cases called : g.1 = name
      · simp [called]
      · simp [called, Ne.symm called]
    simp only [agreesAt, Bool.and_eq_true, here, ih, List.forall_mem_cons]

/-- Maps agree when they name the same things and have the same at each name. -/
theorem agrees_map_iff : agrees (.map fs) (.map gs) = true ↔
    (∀ f ∈ fs, Fields.has gs f.1 = true) ∧ (∀ g ∈ gs, Fields.has fs g.1 = true) ∧
      ∀ f ∈ fs, ∀ g ∈ gs, f.1 = g.1 → same f.2 g.2 = true := by
  simp only [agrees, Bool.and_eq_true, List.all_eq_true, agreesAt_iff, and_assoc]

theorem sameNan_iff : sameNan v w = true ↔ ∃ x, x.isNan = true ∧ v = .float x ∧ w = .float x := by
  unfold sameNan
  split
  · next x y =>
    rw [Bool.and_eq_true, beq_iff_eq]
    constructor
    · rintro ⟨undefined, rfl⟩
      exact ⟨x, undefined, rfl, rfl⟩
    · rintro ⟨_, undefined, ⟨⟩, ⟨⟩⟩
      exact ⟨undefined, rfl⟩
  · next notFloats =>
    refine iff_of_false Bool.false_ne_true ?_
    rintro ⟨x, _, rfl, rfl⟩
    exact notFloats x x rfl rfl

/-- A nan agrees with nothing. -/
theorem not_agrees_nan_left (undefined : x.isNan = true) : agrees (.float x) w ≠ true := by
  intro agreed
  rw [agrees, leafAgrees_iff] at agreed
  · rcases agreed with ⟨⟨⟩, _⟩ | ⟨_, ⟨⟩, _⟩ | ⟨_, sized, _⟩
    rw [magnitude?_of_isNan undefined] at sized
    cases sized
  all_goals exact nofun

/-! ### Symmetry and transitivity -/

section Leaves

variable {v w : Value} (notList : ∀ items, v ≠ .list items) (notMap : ∀ fields, v ≠ .map fields)
include notList notMap

theorem agrees_leaf_left : agrees v w = leafAgrees v w := by
  rw [agrees]
  · exact fun vs _ isList _ => notList vs isList
  · exact fun fs _ isMap _ => notMap fs isMap

theorem agrees_leaf_right : agrees w v = leafAgrees w v := by
  rw [agrees]
  · exact fun _ vs _ isList => notList vs isList
  · exact fun _ fs _ isMap => notMap fs isMap

end Leaves

theorem exists_list_of_agrees (agreed : agrees (.list vs) w = true) :
    ∃ ws, w = .list ws ∧ agreesEach vs ws = true := by
  cases w with
  | list ws => exact ⟨ws, rfl, by simpa only [agrees] using agreed⟩
  | _ =>
    rw [agrees, leafAgrees_iff] at agreed
    · rcases agreed with ⟨⟨⟩, _⟩ | ⟨_, ⟨⟩, _⟩ | ⟨_, ⟨⟩, _⟩
    all_goals exact nofun

theorem exists_map_of_agrees (agreed : agrees (.map fs) w = true) :
    ∃ gs, w = .map gs := by
  cases w with
  | map gs => exact ⟨gs, rfl⟩
  | _ =>
    rw [agrees, leafAgrees_iff] at agreed
    · rcases agreed with ⟨⟨⟩, _⟩ | ⟨_, ⟨⟩, _⟩ | ⟨_, ⟨⟩, _⟩
    all_goals exact nofun

theorem same_iff : same v w = true ↔ sameNan v w = true ∨ agrees v w = true := by
  rw [same, Bool.or_eq_true]

private theorem same_symm_of (symm : ∀ w, agrees v w = true → agrees w v = true)
    (known : same v w = true) : same w v = true := by
  rw [same_iff] at known ⊢
  rcases known with known | agreed
  · obtain ⟨x, undefined, rfl, rfl⟩ := sameNan_iff.mp known
    exact .inl (sameNan_iff.mpr ⟨x, undefined, rfl, rfl⟩)
  · exact .inr (symm w agreed)

private theorem agreesEach_symm_of (symm : ∀ v ∈ vs, ∀ w, agrees v w = true → agrees w v = true)
    (agreed : agreesEach vs ws = true) : agreesEach ws vs = true := by
  induction vs generalizing ws with
  | nil =>
    cases ws with
    | nil => rfl
    | cons w ws => cases agreed
  | cons v vs ih =>
    cases ws with
    | nil => cases agreed
    | cons w ws =>
      rw [agreesEach, Bool.and_eq_true] at agreed ⊢
      exact ⟨same_symm_of (symm v List.mem_cons_self) agreed.1,
        ih (fun u inside => symm u (List.mem_cons_of_mem v inside)) agreed.2⟩

theorem agrees_symm (agreed : agrees v w = true) : agrees w v = true := by
  induction v using induct generalizing w with
  | leaf v notList notMap =>
    rw [agrees_leaf_left notList notMap] at agreed
    rw [agrees_leaf_right notList notMap]
    exact leafAgrees_symm agreed
  | list vs ih =>
    obtain ⟨ws, rfl, each⟩ := exists_list_of_agrees agreed
    unfold agrees
    exact agreesEach_symm_of (fun v inside w => ih v inside) each
  | map fs ih =>
    obtain ⟨gs, rfl⟩ := exists_map_of_agrees agreed
    obtain ⟨left, right, same⟩ := agrees_map_iff.mp agreed
    refine agrees_map_iff.mpr ⟨right, left, ?_⟩
    intro g inG f inF called
    exact same_symm_of (fun w => ih f inF) (same f inF g inG called.symm)

/-- A nan in the middle is the same nan on both sides, as it agrees with nothing. -/
private theorem same_trans_of (trans : ∀ v w, agrees u v = true → agrees v w = true → agrees u w = true)
    (first : same u v = true) (second : same v w = true) : same u w = true := by
  rw [same_iff] at first second ⊢
  rcases first with known | first
  · obtain ⟨x, undefined, rfl, rfl⟩ := sameNan_iff.mp known
    rcases second with known | agreed
    · exact .inl known
    · exact absurd agreed (not_agrees_nan_left undefined)
  · rcases second with known | second
    · obtain ⟨x, undefined, rfl, rfl⟩ := sameNan_iff.mp known
      exact absurd (agrees_symm first) (not_agrees_nan_left undefined)
    · exact .inr (trans v w first second)

private theorem agreesEach_trans_of
    (trans : ∀ u ∈ us, ∀ v w, agrees u v = true → agrees v w = true → agrees u w = true)
    (first : agreesEach us vs = true) (second : agreesEach vs ws = true) :
    agreesEach us ws = true := by
  induction us generalizing vs ws with
  | nil =>
    cases vs with
    | nil => exact second
    | cons v vs => cases first
  | cons u us ih =>
    cases vs with
    | nil => cases first
    | cons v vs =>
      cases ws with
      | nil => cases second
      | cons w ws =>
        rw [agreesEach, Bool.and_eq_true] at first second ⊢
        exact ⟨same_trans_of (trans u List.mem_cons_self) first.1 second.1,
          ih (fun t inside => trans t (List.mem_cons_of_mem u inside)) first.2 second.2⟩

theorem agrees_trans (first : agrees u v = true) (second : agrees v w = true) :
    agrees u w = true := by
  induction u using induct generalizing v w with
  | leaf u notList notMap =>
    rw [agrees_leaf_left notList notMap] at first ⊢
    by_cases isList : ∃ items, v = .list items
    · obtain ⟨items, rfl⟩ := isList
      rw [leafAgrees_iff] at first
      rcases first with ⟨_, ⟨⟩⟩ | ⟨_, _, ⟨⟩⟩ | ⟨_, _, ⟨⟩⟩
    by_cases isMap : ∃ fields, v = .map fields
    · obtain ⟨fields, rfl⟩ := isMap
      rw [leafAgrees_iff] at first
      rcases first with ⟨_, ⟨⟩⟩ | ⟨_, _, ⟨⟩⟩ | ⟨_, _, ⟨⟩⟩
    rw [agrees_leaf_left (fun items h => isList ⟨items, h⟩) (fun fields h => isMap ⟨fields, h⟩)]
      at second
    exact leafAgrees_trans first second
  | list us ih =>
    obtain ⟨vs, rfl, first⟩ := exists_list_of_agrees first
    obtain ⟨ws, rfl, second⟩ := exists_list_of_agrees second
    unfold agrees
    exact agreesEach_trans_of (fun u inside v w => ih u inside) first second
  | map fs ih =>
    obtain ⟨gs, rfl⟩ := exists_map_of_agrees first
    obtain ⟨hs, rfl⟩ := exists_map_of_agrees second
    obtain ⟨inG, inF, firstSame⟩ := agrees_map_iff.mp first
    obtain ⟨inH, inG', secondSame⟩ := agrees_map_iff.mp second
    refine agrees_map_iff.mpr ⟨fun f isF => ?_, fun h isH => ?_, fun f isF h isH called => ?_⟩
    · obtain ⟨g, isG, called⟩ := Fields.has_iff.mp (inG f isF)
      exact called ▸ inH g isG
    · obtain ⟨g, isG, called⟩ := Fields.has_iff.mp (inG' h isH)
      exact called ▸ inF g isG
    · obtain ⟨g, isG, calledG⟩ := Fields.has_iff.mp (inG f isF)
      exact same_trans_of (fun v w => ih f isF) (firstSame f isF g isG calledG.symm)
        (secondSame g isG h isH (calledG.trans called))


/-! ### What agrees with itself -/

/-- A map names everything once, and so do the maps inside. -/
inductive IsProper : Value → Prop where
  | leaf (notList : ∀ items, v ≠ .list items) (notMap : ∀ fields, v ≠ .map fields) : IsProper v
  | list (each : ∀ v ∈ items, IsProper v) : IsProper (.list items)
  | map (each : ∀ f ∈ fields, IsProper f.2) (once : (Fields.names fields).Nodup) :
      IsProper (.map fields)

def isNan : Value → Bool
  | .float x => x.isNan
  | _ => false

private theorem leafAgrees_self {v : Value} (notList : ∀ items, v ≠ .list items)
    (notMap : ∀ fields, v ≠ .map fields) (notNan : v.isNan = false) : leafAgrees v v = true := by
  rw [leafAgrees_iff]
  cases v with
  | null => exact .inl ⟨rfl, rfl⟩
  | text s => exact .inr (.inl ⟨s, rfl, rfl⟩)
  | bool | int => exact .inr (.inr ⟨_, rfl, rfl⟩)
  | float x =>
    have sized : ∃ size, magnitude? (.float x) = some size := by
      rw [magnitude?, if_neg (show ¬ x.isNan = true from Bool.eq_false_iff.mp notNan)]
      split
      · exact ⟨_, rfl⟩
      · exact ⟨_, rfl⟩
    obtain ⟨size, isSize⟩ := sized
    exact .inr (.inr ⟨size, isSize, isSize⟩)
  | list items => exact absurd rfl (notList items)
  | map fields => exact absurd rfl (notMap fields)

/-- Everything agrees with itself but a nan. A collection does so even if there is one inside. -/
theorem agrees_self_iff {v : Value} (proper : v.IsProper) : v.agrees v = true ↔ v.isNan = false := by
  constructor
  · intro agreed
    cases v with
    | float x => exact Bool.eq_false_iff.mpr fun undefined => not_agrees_nan_left undefined agreed
    | _ => rfl
  · intro notNan
    have same_self {w : Value} (ih : w.isNan = false → w.agrees w = true) : same w w = true := by
      rw [same_iff]
      cases isNan : w.isNan with
      | false => exact .inr (ih isNan)
      | true =>
        cases w with
        | float x => exact .inl (sameNan_iff.mpr ⟨x, isNan, rfl, rfl⟩)
        | _ => cases isNan
    induction proper with
    | leaf notList notMap =>
      rw [agrees_leaf_left notList notMap]
      exact leafAgrees_self notList notMap notNan
    | @list items each ih =>
      rw [agrees]
      clear each notNan
      induction items with
      | nil => rfl
      | cons v items later =>
        rw [agreesEach, Bool.and_eq_true]
        exact ⟨same_self (ih v List.mem_cons_self),
          later fun w inside => ih w (List.mem_cons_of_mem v inside)⟩
    | @map fields each once ih =>
      have named (f : String × Value) (inside : f ∈ fields) : Fields.has fields f.1 = true :=
        Fields.has_iff.mpr ⟨f, inside, rfl⟩
      refine agrees_map_iff.mpr ⟨named, named, fun f isF g isG called => ?_⟩
      have heldF := (Fields.get?_eq_some_iff_mem once).mpr isF
      have heldG := (Fields.get?_eq_some_iff_mem once).mpr isG
      rw [← called, heldF] at heldG
      exact Option.some.inj heldG ▸ same_self (ih f isF)

end Choreography.Value
