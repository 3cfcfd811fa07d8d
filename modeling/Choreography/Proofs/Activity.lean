import Choreography.Where.Run
import Mathlib.Data.List.Forall2

/-! What an activity may return, whatever it meets on its way: whatever numbers it draws, whatever
operations are found and whatever they answer. -/

namespace Choreography

namespace Activity

/-- A value that an activity may return. -/
inductive Returns : Activity α → α → Prop where
  | done : Returns (.done (.ok a)) a
  | sleep (later : Returns next a) : Returns (.sleep length next) a
  | cancel (later : Returns next a) : Returns (.cancel roots next) a
  | draw (n : Nat) (later : Returns (next n) a) : Returns (.draw next) a
  | find (found : Except Error Unit) (later : Returns (next found) a) : Returns (.find action next) a
  | call (answer : Except Error Value) (later : Returns (next answer) a) :
      Returns (.call action input next) a

variable {activity : Activity α} {a : α} {b : β} {next : α → Activity β}

theorem bind_pure (activity : Activity α) : activity.bind (fun a => .done (.ok a)) = activity := by
  induction activity with
  | done result => cases result <;> rfl
  | sleep length next ih => rw [bind, ih]
  | cancel roots next ih => rw [bind, ih]
  | draw next ih => rw [bind, funext ih]
  | find action next ih => rw [bind, funext ih]
  | call action input next ih => rw [bind, funext ih]

theorem bind_assoc (activity : Activity α) (first : α → Activity β) (second : β → Activity γ) :
    (activity.bind first).bind second = activity.bind fun a => (first a).bind second := by
  induction activity with
  | done result => cases result <;> rfl
  | sleep length next ih => rw [bind, bind, bind, ih]
  | cancel roots next ih => rw [bind, bind, bind, ih]
  | draw next ih => rw [bind, bind, bind, funext ih]
  | find action next ih => rw [bind, bind, bind, funext ih]
  | call action input next ih => rw [bind, bind, bind, funext ih]

instance : LawfulMonad Activity :=
  .mk' Activity bind_pure (fun _ _ => rfl) bind_assoc

theorem returns_pure_iff {other : α} : (pure other : Activity α).Returns a ↔ a = other := by
  constructor
  · rintro ⟨⟩
    rfl
  · rintro rfl
    exact .done

theorem returns_ofExcept_iff {result : Except Error α} : (ofExcept result).Returns a ↔ result = .ok a := by
  constructor
  · rintro ⟨⟩
    rfl
  · rintro rfl
    exact .done

/-- What comes after an activity sees what that returned. -/
theorem returns_bind_iff : (activity >>= next).Returns b ↔ ∃ a, activity.Returns a ∧ (next a).Returns b := by
  constructor
  · intro returns
    induction activity with
    | done result =>
      cases result with
      | ok a => exact ⟨a, .done, returns⟩
      | error e => cases returns
    | sleep length later ih =>
      cases returns with
      | sleep returns => exact (ih returns).imp fun _ both => ⟨.sleep both.1, both.2⟩
    | cancel roots later ih =>
      cases returns with
      | cancel returns => exact (ih returns).imp fun _ both => ⟨.cancel both.1, both.2⟩
    | draw later ih =>
      cases returns with
      | draw n returns => exact (ih n returns).imp fun _ both => ⟨.draw n both.1, both.2⟩
    | find action later ih =>
      cases returns with
      | find found returns => exact (ih found returns).imp fun _ both => ⟨.find found both.1, both.2⟩
    | call action input later ih =>
      cases returns with
      | call answer returns => exact (ih answer returns).imp fun _ both => ⟨.call answer both.1, both.2⟩
  · rintro ⟨a, returns, more⟩
    induction returns with
    | done => exact more
    | sleep _ ih => exact .sleep (ih more)
    | cancel _ ih => exact .cancel (ih more)
    | draw n _ ih => exact .draw n (ih more)
    | find found _ ih => exact .find found (ih more)
    | call answer _ ih => exact .call answer (ih more)

/-! ### Over the things in a list -/

theorem returns_mapM_iff {f : α → Activity β} {items : List α} {results : List β} :
    (items.mapM f).Returns results ↔
      List.Forall₂ (fun item result => (f item).Returns result) items results := by
  induction items generalizing results with
  | nil => rw [List.mapM_nil, returns_pure_iff, List.forall₂_nil_left_iff]
  | cons item items ih =>
    rw [List.mapM_cons, returns_bind_iff, List.forall₂_cons_left_iff]
    refine exists_congr fun result => ⟨?_, ?_⟩
    · rintro ⟨first, more⟩
      obtain ⟨later, rest, more⟩ := returns_bind_iff.mp more
      cases more
      exact ⟨later, first, ih.mp rest, rfl⟩
    · rintro ⟨later, first, rest, rfl⟩
      exact ⟨first, returns_bind_iff.mpr ⟨later, ih.mpr rest, .done⟩⟩

theorem exists_of_returns_mapM {f : α → Activity β} {items : List α} {results : List β}
    (returns : (items.mapM f).Returns results) :
    ∀ result ∈ results, ∃ item ∈ items, (f item).Returns result := by
  have pairs := returns_mapM_iff.mp returns
  clear returns
  induction pairs with
  | nil => exact nofun
  | cons first _ ih =>
    refine List.forall_mem_cons.mpr ⟨⟨_, List.mem_cons_self, first⟩, fun other inside => ?_⟩
    obtain ⟨source, isItem, made⟩ := ih other inside
    exact ⟨source, List.mem_cons_of_mem _ isItem, made⟩

theorem mem_of_returns_filterAuxM {keeps : α → Activity Bool} {items seen all : List α}
    (returns : (items.filterAuxM keeps seen).Returns all) : ∀ item ∈ all, item ∈ items ∨ item ∈ seen := by
  induction items generalizing seen with
  | nil =>
    cases returns
    exact fun _ => .inr
  | cons first items ih =>
    obtain ⟨isKept, _, returns⟩ := returns_bind_iff.mp returns
    intro item inside
    rcases ih returns item inside with later | inSeen
    · exact .inl (List.mem_cons_of_mem first later)
    · cases isKept with
      | true =>
        rcases List.mem_cons.mp inSeen with rfl | inSeen
        · exact .inl List.mem_cons_self
        · exact .inr inSeen
      | false => exact .inr inSeen

theorem subset_of_returns_filterM {keeps : α → Activity Bool} {items kept : List α}
    (returns : (items.filterM keeps).Returns kept) : kept ⊆ items := by
  obtain ⟨all, filtered, isReversed⟩ := returns_bind_iff.mp returns
  cases isReversed
  intro item inside
  exact (mem_of_returns_filterAuxM filtered item (List.mem_reverse.mp inside)).resolve_right
    List.not_mem_nil

theorem returns_filterAuxM_of_ok {keeps : α → Except Error Bool} {items seen all : List α}
    (isAll : items.filterAuxM keeps seen = .ok all) :
    (items.filterAuxM (fun item => ofExcept (keeps item)) seen).Returns all := by
  induction items generalizing seen with
  | nil =>
    cases isAll
    exact .done
  | cons first items ih =>
    rw [List.filterAuxM] at isAll ⊢
    cases decided : keeps first with
    | error e =>
      rw [decided] at isAll
      cases isAll
    | ok isKept =>
      rw [decided] at isAll
      exact returns_bind_iff.mpr ⟨isKept, .done, ih isAll⟩

/-- What can be filtered without any activity is what an activity may return. -/
theorem returns_filterM_of_ok {keeps : α → Except Error Bool} {items kept : List α}
    (isKept : items.filterM keeps = .ok kept) :
    (items.filterM fun item => ofExcept (keeps item)).Returns kept := by
  cases isAll : items.filterAuxM keeps [] with
  | error e =>
    rw [List.filterM, isAll] at isKept
    cases isKept
  | ok all =>
    rw [List.filterM, isAll] at isKept
    cases isKept
    exact returns_bind_iff.mpr ⟨all, returns_filterAuxM_of_ok isAll, .done⟩

theorem filterAuxM_map {m : Type → Type u} [Monad m] [LawfulMonad m] (f : α → β) (keeps : β → m Bool)
    (items seen : List α) :
    (items.map f).filterAuxM keeps (seen.map f) =
      List.map f <$> items.filterAuxM (fun item => keeps (f item)) seen := by
  induction items generalizing seen with
  | nil => simp [List.filterAuxM]
  | cons item items ih =>
    rw [List.map_cons, List.filterAuxM, List.filterAuxM, map_bind]
    refine bind_congr fun isKept => ?_
    rw [← ih]
    cases isKept <;> rfl

/-- Whether things are filtered before or after something is made of each of them. -/
theorem filterM_map {m : Type → Type u} [Monad m] [LawfulMonad m] (f : α → β) (keeps : β → m Bool)
    (items : List α) :
    (items.map f).filterM keeps = List.map f <$> items.filterM fun item => keeps (f item) := by
  have aux := filterAuxM_map f keeps items []
  rw [List.map_nil] at aux
  rw [List.filterM, List.filterM, aux]
  simp

theorem exists_of_filterM_map {f : α → β} {keeps : β → Except Error Bool} {items : List α} {kept : List β}
    (isKept : (items.map f).filterM keeps = .ok kept) :
    ∃ out, (items.filterM fun item => keeps (f item)) = .ok out ∧ kept = out.map f := by
  rw [filterM_map] at isKept
  cases filtered : items.filterM fun item => keeps (f item) with
  | error =>
    rw [filtered] at isKept
    cases isKept
  | ok out =>
    rw [filtered] at isKept
    cases isKept
    exact ⟨out, rfl, rfl⟩

end Activity

end Choreography
