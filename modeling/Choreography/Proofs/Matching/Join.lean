import Choreography.Proofs.Matching.Admissible

/-! The join behind matching, one row at a time. Places are filled from left to right around
the seat of the trigger; each way to fill them is a row, and rows come out in the
lexicographic order of what they put beside the trigger. -/

namespace Choreography

section Rows

variable (log : InvocationLog) (trigger : Invocation) (seat : Nat)

/-- One more place filled with a candidate, if it may take the place and fits. -/
def Partial.with? (before : Partial) (place : Nat) (p : Pattern) (i : Invocation) : Option Partial :=
  if before.admits log i then
    (p.unifyInvocation i before.bindings).map fun bindings =>
      { placed := before.placed ++ [(place, i)], bindings }
  else none

/-- The ways to fill the places that are left, each with its row of invocations. -/
def rows : Nat → List Pattern → Partial → List (List Invocation × Partial)
  | _, [], before => [([], before)]
  | place, p :: rest, before =>
    if place = seat then (rows (place + 1) rest before).map fun r => (trigger :: r.1, r.2)
    else (log.candidates p.action trigger.root trigger.id).flatMap fun i =>
      match before.with? log place p i with
      | none => []
      | some next => (rows (place + 1) rest next).map fun r => (i :: r.1, r.2)

theorem fillPlaces_eq_rows (place : Nat) (patterns : List Pattern) (partials : List Partial) :
    fillPlaces log trigger seat place patterns partials =
      partials.flatMap fun before => (rows log trigger seat place patterns before).map (·.2) := by
  induction patterns generalizing place partials with
  | nil => simp [fillPlaces, rows]
  | cons p rest ih =>
    unfold fillPlaces
    split
    · next isSeat =>
      rw [ih]
      simp only [rows, if_pos isSeat, List.map_map, Function.comp_def]
    · next notSeat =>
      rw [ih, List.flatMap_assoc]
      refine congrArg (List.flatMap · partials) (funext fun before => ?_)
      rw [rows, if_neg notSeat, List.map_flatMap]
      rw [fillPlace, List.filterMap_eq_flatMap_toList, List.flatMap_assoc]
      refine congrArg (List.flatMap · _) (funext fun i => ?_)
      rw [← Partial.with?]
      cases before.with? log place p i <;> simp

/-- What a row puts beside the trigger, with the places. -/
def others (place : Nat) (row : List Invocation) : List (Nat × Invocation) :=
  ((row.zipIdx place).filter (·.2 ≠ seat)).map fun entry => (entry.2, entry.1)

/-- What the variables observe beside the trigger. -/
def observeOthers : Nat → List Pattern → List Invocation → List Observation
  | place, p :: patterns, i :: row =>
    (if place = seat then [] else p.observe i) ++ observeOthers (place + 1) patterns row
  | _, _, _ => []

/-- A candidate may join those that are placed: it fits, has no place yet, and is causally
tied to one of them. -/
structure Joins (placed : List (Nat × Invocation)) (p : Pattern) (i : Invocation) : Prop where
  candidate : i ∈ log.candidates p.action trigger.root trigger.id
  fits : p.FitsInvocation i
  unplaced : ∀ entry ∈ placed, entry.2.id ≠ i.id
  tied : ∃ entry ∈ placed, log.related i.id entry.2.id = true

/-- Every place of a row is taken by one that may join those before it, and the seat by the
trigger. -/
def Chosen : Nat → List Pattern → List (Nat × Invocation) → List Invocation → Prop
  | _, [], _, [] => True
  | place, p :: patterns, placed, i :: row =>
    if place = seat then i = trigger ∧ Chosen (place + 1) patterns placed row
    else Joins log trigger placed p i ∧ Chosen (place + 1) patterns (placed ++ [(place, i)]) row
  | _, _, _, _ => False

end Rows

variable {log : InvocationLog} {trigger : Invocation} {seat place : Nat}

theorem others_cons (i : Invocation) (row : List Invocation) : others seat place (i :: row) =
    if place = seat then others seat (place + 1) row
    else (place, i) :: others seat (place + 1) row := by
  rw [others, List.zipIdx_cons]
  by_cases isSeat : place = seat
  · rw [if_pos isSeat, List.filter_cons_of_neg (by simpa using isSeat), others]
  · rw [if_neg isSeat, List.filter_cons_of_pos (by simpa using isSeat), List.map_cons, others]

theorem Partial.with?_eq_some_iff {before next : Partial} {p : Pattern} {i : Invocation} :
    before.with? log place p i = some next ↔
      before.admits log i = true ∧ p.FitsInvocation i ∧
        observeAll? before.bindings (p.observe i) = some next.bindings ∧
        next.placed = before.placed ++ [(place, i)] := by
  unfold with?
  split
  · next admitted =>
    rw [Option.map_eq_some_iff]
    constructor
    · rintro ⟨bindings, unified, rfl⟩
      obtain ⟨fits, observes⟩ := Pattern.unify_eq_some_iff.mp unified
      exact ⟨admitted, fits, observes, rfl⟩
    · rintro ⟨_, fits, observes, placed⟩
      refine ⟨next.bindings, Pattern.unify_eq_some_iff.mpr ⟨fits, observes⟩, ?_⟩
      rw [← placed]
  · next refused => exact iff_of_false nofun fun ⟨admitted, _⟩ => refused admitted

theorem Partial.admits_iff {before : Partial} {i : Invocation} : before.admits log i = true ↔
    (∀ entry ∈ before.placed, entry.2.id ≠ i.id) ∧
      ∃ entry ∈ before.placed, log.related i.id entry.2.id = true := by
  rw [admits, Bool.and_eq_true, List.all_eq_true, List.any_eq_true]
  simp only [bne_iff_ne]

theorem mem_rows_seat {p : Pattern} {rest : List Pattern} {before filled : Partial} {i : Invocation}
    {row : List Invocation} (isSeat : place = seat) :
    (i :: row, filled) ∈ rows log trigger seat place (p :: rest) before ↔
      i = trigger ∧ (row, filled) ∈ rows log trigger seat (place + 1) rest before := by
  rw [rows, if_pos isSeat, List.mem_map]
  constructor
  · rintro ⟨r, inside, same⟩
    cases same
    exact ⟨rfl, inside⟩
  · rintro ⟨rfl, inside⟩
    exact ⟨_, inside, rfl⟩

theorem mem_rows_candidate {p : Pattern} {rest : List Pattern} {before filled : Partial}
    {i : Invocation} {row : List Invocation} (notSeat : place ≠ seat) :
    (i :: row, filled) ∈ rows log trigger seat place (p :: rest) before ↔
      i ∈ log.candidates p.action trigger.root trigger.id ∧
        ∃ next, before.with? log place p i = some next ∧
          (row, filled) ∈ rows log trigger seat (place + 1) rest next := by
  rw [rows, if_neg notSeat, List.mem_flatMap]
  constructor
  · rintro ⟨j, isCandidate, inside⟩
    split at inside
    · cases inside
    · next next stepped =>
      obtain ⟨r, inRest, same⟩ := List.mem_map.mp inside
      cases same
      exact ⟨isCandidate, next, stepped, inRest⟩
  · rintro ⟨isCandidate, next, stepped, inRest⟩
    refine ⟨i, isCandidate, ?_⟩
    rw [stepped]
    exact List.mem_map.mpr ⟨_, inRest, rfl⟩

theorem not_mem_rows_nil {p : Pattern} {rest : List Pattern} {before filled : Partial} :
    ([], filled) ∉ rows log trigger seat place (p :: rest) before := by
  intro inside
  unfold rows at inside
  split at inside
  · simp at inside
  · obtain ⟨i, _, inside⟩ := List.mem_flatMap.mp inside
    split at inside <;> simp at inside

/-- The rows are exactly those that can be chosen, with all they observe taken in. -/
theorem mem_rows_iff {patterns : List Pattern} {before filled : Partial} {row : List Invocation} :
    (row, filled) ∈ rows log trigger seat place patterns before ↔
      Chosen log trigger seat place patterns before.placed row ∧
        filled.placed = before.placed ++ others seat place row ∧
        observeAll? before.bindings (observeOthers seat place patterns row) = some filled.bindings := by
  induction patterns generalizing place before row with
  | nil =>
    cases row with
    | nil =>
      obtain ⟨placed, bindings⟩ := before
      obtain ⟨filledPlaces, filledBindings⟩ := filled
      simp [rows, Chosen, others, observeOthers, observeAll?, eq_comm]
    | cons => simp [rows, Chosen]
  | cons p rest ih =>
    cases row with
    | nil => exact iff_of_false not_mem_rows_nil fun chosen => chosen.1
    | cons i row =>
      rw [Chosen, observeOthers, others_cons]
      by_cases isSeat : place = seat
      · rw [mem_rows_seat isSeat, ih, if_pos isSeat, if_pos isSeat, if_pos isSeat, List.nil_append,
          and_assoc]
      · rw [mem_rows_candidate isSeat, if_neg isSeat, if_neg isSeat, if_neg isSeat, observeAll?_append]
        constructor
        · rintro ⟨isCandidate, next, stepped, inRest⟩
          obtain ⟨admitted, fits, observes, placed⟩ := Partial.with?_eq_some_iff.mp stepped
          obtain ⟨unplaced, tied⟩ := Partial.admits_iff.mp admitted
          obtain ⟨chosen, filledPlaces, observesRest⟩ := ih.mp inRest
          rw [placed] at chosen filledPlaces
          refine ⟨⟨⟨isCandidate, fits, unplaced, tied⟩, chosen⟩, ?_, ?_⟩
          · rw [filledPlaces, List.append_assoc, List.singleton_append]
          · rw [observes]
            exact observesRest
        · rintro ⟨⟨joins, chosen⟩, placed, observes⟩
          obtain ⟨bindings, observesFirst, observesRest⟩ := Option.bind_eq_some_iff.mp observes
          have admitted := Partial.admits_iff.mpr ⟨joins.unplaced, joins.tied⟩
          have stepped : before.with? log place p i =
              some { placed := before.placed ++ [(place, i)], bindings } :=
            Partial.with?_eq_some_iff.mpr ⟨admitted, joins.fits, observesFirst, rfl⟩
          refine ⟨joins.candidate, _, stepped, ih.mpr ⟨chosen, ?_, observesRest⟩⟩
          rw [placed, List.append_assoc, List.singleton_append]

/-- Rows come in the lexicographic order of what they put beside the trigger. -/
theorem rows_pairwise (coherent : log.Coherent) (patterns : List Pattern) (before : Partial) :
    (rows log trigger seat place patterns before).Pairwise fun r s =>
      List.Lex (· < ·) ((others seat place r.1).map (·.2.id)) ((others seat place s.1).map (·.2.id)) := by
  induction patterns generalizing place before with
  | nil => exact List.pairwise_singleton _ _
  | cons p rest ih =>
    unfold rows
    split
    · next isSeat =>
      rw [List.pairwise_map]
      refine (ih before).imp ?_
      intro r s smaller
      rw [others_cons, others_cons, if_pos isSeat, if_pos isSeat]
      exact smaller
    · next notSeat =>
      rw [List.pairwise_flatMap]
      constructor
      · intro i _
        split
        · exact .nil
        · rw [List.pairwise_map]
          refine (ih _).imp ?_
          intro r s smaller
          rw [others_cons, others_cons, if_neg notSeat, if_neg notSeat]
          exact .cons smaller
      · apply coherent.candidates_ascending.imp
        intro i j earlier r fromI s fromJ
        split at fromI
        · cases fromI
        · split at fromJ
          · cases fromJ
          · obtain ⟨r, _, rfl⟩ := List.mem_map.mp fromI
            obtain ⟨s, _, rfl⟩ := List.mem_map.mp fromJ
            rw [others_cons, others_cons, if_neg notSeat, if_neg notSeat]
            exact .rel earlier

end Choreography
