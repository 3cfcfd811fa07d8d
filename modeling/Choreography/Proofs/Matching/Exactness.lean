import Choreography.Proofs.Matching.Join
import Mathlib.Data.List.Nodup

/-! Matching is exact. Around a trigger the join finds one frame for each admissible tuple
and nothing else; every frame binds the variables of the rule to what they met, and the
frames come by the seat of the trigger and then in lexicographic order. -/

namespace Choreography

variable {log : InvocationLog} {trigger : Invocation} {seat place : Nat} {rule : Rule}

/-! ### What a row puts beside the trigger -/

theorem mem_others_iff {row : List Invocation} {entry : Nat × Invocation} :
    entry ∈ others seat place row ↔
      entry.1 ≠ seat ∧ ∃ k, entry.1 = place + k ∧ row[k]? = some entry.2 := by
  induction row generalizing place with
  | nil => simp [others]
  | cons i row ih =>
    have shift : (∃ k, entry.1 = place + k ∧ (i :: row)[k]? = some entry.2) ↔
        entry = (place, i) ∨ ∃ k, entry.1 = place + 1 + k ∧ row[k]? = some entry.2 := by
      constructor
      · rintro ⟨k, atPlace, found⟩
        cases k with
        | zero => exact .inl (Prod.ext atPlace (Option.some.inj found).symm)
        | succ k => exact .inr ⟨k, by omega, found⟩
      · rintro (rfl | ⟨k, atPlace, found⟩)
        · exact ⟨0, rfl, rfl⟩
        · exact ⟨k + 1, by omega, found⟩
    rw [others_cons, shift]
    split
    · next isSeat =>
      subst isSeat
      rw [ih]
      refine and_congr_right fun notSeat => ⟨.inr, ?_⟩
      rintro (rfl | later)
      · exact absurd rfl notSeat
      · exact later
    · next notSeat =>
      rw [List.mem_cons, ih]
      constructor
      · rintro (rfl | ⟨elsewhere, later⟩)
        · exact ⟨notSeat, .inl rfl⟩
        · exact ⟨elsewhere, .inr later⟩
      · rintro ⟨elsewhere, rfl | later⟩
        · exact .inl rfl
        · exact .inr ⟨elsewhere, later⟩

theorem lookup_others {row : List Invocation} {k : Nat} (elsewhere : place + k ≠ seat) :
    List.lookup (place + k) (others seat place row) = row[k]? := by
  induction row generalizing place k with
  | nil => simp [others]
  | cons i row ih =>
    rw [others_cons]
    cases k with
    | zero => rw [if_neg (by omega), List.lookup_cons]; simp
    | succ k =>
      have later : List.lookup (place + 1 + k) (others seat (place + 1) row) = row[k]? := ih (by omega)
      rw [show place + 1 + k = place + (k + 1) by omega] at later
      rw [List.getElem?_cons_succ, ← later]
      split
      · rfl
      · rw [List.lookup_cons, beq_false_of_ne (by omega)]

/-- Beside the trigger there is what is left of a row without it. -/
theorem map_id_others {row : List Invocation} (seated : row[seat]? = some trigger)
    (distinct : (row.map (·.id)).Nodup) :
    (others seat 0 row).map (·.2.id) = (row.map (·.id)).erase trigger.id := by
  have general : ∀ {place k : Nat} {row : List Invocation}, place + k = seat →
      row[k]? = some trigger → (row.map (·.id)).Nodup →
      (others seat place row).map (·.2.id) = (row.map (·.id)).erase trigger.id := by
    intro place k row atSeat seated distinct
    induction row generalizing place k with
    | nil => simp at seated
    | cons i row ih =>
      obtain ⟨notInRest, distinct⟩ := List.nodup_cons.mp distinct
      rw [others_cons, List.map_cons]
      cases k with
      | zero =>
        cases seated
        rw [if_pos (show place = seat from atSeat), List.erase_cons_head, others,
          List.filter_eq_self.mpr, List.map_map]
        · conv_rhs => rw [← List.zipIdx_map_fst (place + 1) row, List.map_map]
          rfl
        · intro entry inside
          have := (List.mem_zipIdx inside).1
          simp only [ne_eq, decide_eq_true_eq]
          omega
      | succ k =>
        have inRest : trigger ∈ row := List.mem_of_getElem? seated
        have notFirst : i.id ≠ trigger.id := by
          exact fun same => notInRest (List.mem_map.mpr ⟨trigger, inRest, same.symm⟩)
        rw [if_neg (by omega), List.map_cons, List.erase_cons_tail (by simpa using notFirst),
          ih (by omega) seated distinct]
  exact general (Nat.zero_add seat) seated distinct

/-! ### Rows that can be chosen are admissible tuples -/

/-- What the place may hold that comes some places further on. -/
def Takes (log : InvocationLog) (trigger : Invocation) (seat place : Nat)
    (placed : List (Nat × Invocation)) (row : List Invocation) (k : Nat) (p : Pattern)
    (i : Invocation) : Prop :=
  if place + k = seat then i = trigger
  else Joins log trigger (placed ++ others seat place (row.take k)) p i

section Taking

variable {placed : List (Nat × Invocation)} {row : List Invocation} {patterns : List Pattern}
  {p : Pattern} {i first : Invocation} {k : Nat}

theorem takes_zero : Takes log trigger seat place placed row 0 p i ↔
    if place = seat then i = trigger else Joins log trigger placed p i := by
  simp [Takes, others]

theorem takes_succ : Takes log trigger seat place placed (first :: row) (k + 1) p i ↔
    Takes log trigger seat (place + 1) (if place = seat then placed else placed ++ [(place, first)])
      row k p i := by
  rw [Takes, Takes, List.take_succ_cons, others_cons, show place + (k + 1) = place + 1 + k by omega]
  by_cases isSeat : place = seat
  · rw [if_pos isSeat, if_pos isSeat]
  · rw [if_neg isSeat, if_neg isSeat, List.append_assoc, List.singleton_append]

theorem chosen_cons : Chosen log trigger seat place (p :: patterns) placed (i :: row) ↔
    Takes log trigger seat place placed (i :: row) 0 p i ∧
      Chosen log trigger seat (place + 1) patterns
        (if place = seat then placed else placed ++ [(place, i)]) row := by
  rw [Chosen, takes_zero]
  split <;> exact Iff.rfl

theorem chosen_iff : Chosen log trigger seat place patterns placed row ↔
    row.length = patterns.length ∧ ∀ (k : Nat) p i, patterns[k]? = some p → row[k]? = some i →
      Takes log trigger seat place placed row k p i := by
  induction patterns generalizing place placed row with
  | nil => cases row <;> simp [Chosen]
  | cons p patterns ih =>
    cases row with
    | nil => simp [Chosen]
    | cons i row =>
      rw [chosen_cons, ih]
      constructor
      · rintro ⟨first, sameLength, each⟩
        refine ⟨by simp [sameLength], ?_⟩
        intro k q j isPattern isMember
        cases k with
        | zero =>
          cases isPattern
          cases isMember
          exact first
        | succ k => exact takes_succ.mpr (each k q j isPattern isMember)
      · rintro ⟨sameLength, each⟩
        refine ⟨each 0 p i rfl rfl, by simpa using sameLength, ?_⟩
        intro k q j isPattern isMember
        exact takes_succ.mp (each (k + 1) q j isPattern isMember)

end Taking

theorem observeOthers_of_lt {patterns : List Pattern} {row : List Invocation} (beyond : seat < place) :
    observeOthers seat place patterns row = (List.zipWith Pattern.observe patterns row).flatten := by
  induction patterns generalizing place row with
  | nil => rfl
  | cons q patterns ih =>
    cases row with
    | nil => rfl
    | cons i row =>
      rw [observeOthers, if_neg (by omega), ih (by omega)]
      rfl

theorem observe_perm_of_add {patterns : List Pattern} {row : List Invocation} {p : Pattern} {k : Nat}
    (atSeat : place + k = seat) (isPattern : patterns[k]? = some p) (seated : row[k]? = some trigger) :
    (p.observe trigger ++ observeOthers seat place patterns row).Perm
      (List.zipWith Pattern.observe patterns row).flatten := by
  induction patterns generalizing place k row with
  | nil => simp at isPattern
  | cons q patterns ih =>
    cases row with
    | nil => simp at seated
    | cons i row =>
      rw [observeOthers, List.zipWith_cons_cons, List.flatten_cons]
      cases k with
      | zero =>
        cases isPattern
        cases seated
        rw [if_pos (show place = seat from atSeat), observeOthers_of_lt (by omega), List.nil_append]
      | succ k =>
        rw [if_neg (by omega)]
        have rest : (p.observe trigger ++ observeOthers seat (place + 1) patterns row).Perm
            (List.zipWith Pattern.observe patterns row).flatten := ih (by omega) isPattern seated
        have swap : (p.observe trigger ++ (q.observe i ++ observeOthers seat (place + 1) patterns row)).Perm
            (q.observe i ++ (p.observe trigger ++ observeOthers seat (place + 1) patterns row)) := by
          rw [← List.append_assoc, ← List.append_assoc]
          exact List.perm_append_comm.append_right _
        exact swap.trans (rest.append_left _)

/-- What is observed beside the trigger, with what its own pattern observes in front, is all
that is observed. -/
theorem observe_perm {patterns : List Pattern} {row : List Invocation} {p : Pattern}
    (isPattern : patterns[seat]? = some p) (seated : row[seat]? = some trigger) :
    (p.observe trigger ++ observeOthers seat 0 patterns row).Perm
      (List.zipWith Pattern.observe patterns row).flatten :=
  observe_perm_of_add (Nat.zero_add seat) isPattern seated

private theorem mem_take_iff {row : List Invocation} {k : Nat} {i : Invocation} :
    i ∈ row.take k ↔ ∃ place, place < k ∧ row[place]? = some i := by
  rw [List.mem_iff_getElem?]
  apply exists_congr
  intro place
  rw [List.getElem?_take]
  split
  · next before => simp [before]
  · next beyond => simp [beyond]

private theorem mem_placed_iff {row : List Invocation} {k : Nat} {entry : Nat × Invocation} :
    entry ∈ [(seat, trigger)] ++ others seat 0 (row.take k) ↔
      entry = (seat, trigger) ∨ entry.1 ≠ seat ∧ entry.1 < k ∧ row[entry.1]? = some entry.2 := by
  rw [List.singleton_append, List.mem_cons, mem_others_iff]
  refine or_congr_right (and_congr_right fun _ => ?_)
  simp only [Nat.zero_add, List.getElem?_take]
  constructor
  · rintro ⟨k, rfl, found⟩
    split at found
    · exact ⟨‹_›, found⟩
    · cases found
  · rintro ⟨before, found⟩
    exact ⟨_, rfl, by rw [if_pos before, found]⟩

section Choosing

variable {patterns : List Pattern} {row : List Invocation} {p : Pattern} {i : Invocation} {k : Nat}
  (chosen : Chosen log trigger seat 0 patterns [(seat, trigger)] row)

include chosen

theorem Chosen.seated (inside : seat < patterns.length) : row[seat]? = some trigger := by
  obtain ⟨sameLength, each⟩ := chosen_iff.mp chosen
  have inRow : seat < row.length := sameLength ▸ inside
  have takes := each seat patterns[seat] row[seat] (List.getElem?_eq_getElem inside)
    (List.getElem?_eq_getElem inRow)
  rw [Takes, if_pos (Nat.zero_add seat)] at takes
  rw [List.getElem?_eq_getElem inRow, takes]

theorem Chosen.joins (elsewhere : k ≠ seat) (isMember : row[k]? = some i) :
    ∃ q, patterns[k]? = some q ∧
      Joins log trigger ([(seat, trigger)] ++ others seat 0 (row.take k)) q i := by
  obtain ⟨sameLength, each⟩ := chosen_iff.mp chosen
  have inside : k < patterns.length := sameLength ▸ (List.getElem?_eq_some_iff.mp isMember).1
  have takes := each k patterns[k] i (List.getElem?_eq_getElem inside) isMember
  rw [Takes, if_neg (by omega)] at takes
  exact ⟨patterns[k], List.getElem?_eq_getElem inside, takes⟩

/-- Every member of a row is a candidate, or the trigger itself. -/
theorem Chosen.candidate (coherent : log.Coherent) (held : trigger ∈ log.entries)
    (seated : row[seat]? = some trigger) :
    ∀ i ∈ row, i ∈ log.entries ∧ i.root = trigger.root ∧ i.id ≤ trigger.id := by
  intro i inside
  obtain ⟨k, isMember⟩ := List.mem_iff_getElem?.mp inside
  by_cases isSeat : k = seat
  · rw [isSeat, seated] at isMember
    cases isMember
    exact ⟨held, rfl, Int.le_refl _⟩
  · obtain ⟨q, _, joined⟩ := chosen.joins isSeat isMember
    obtain ⟨isHeld, sameRoot, _, earlier⟩ := coherent.mem_candidates.mp joined.candidate
    exact ⟨isHeld, sameRoot, earlier⟩

theorem Chosen.fits (isPattern : patterns[seat]? = some p) (fits : p.FitsInvocation trigger)
    (seated : row[seat]? = some trigger) : List.Forall₂ Pattern.FitsInvocation patterns row := by
  obtain ⟨sameLength, _⟩ := chosen_iff.mp chosen
  refine List.forall₂_iff_get.mpr ⟨sameLength.symm, ?_⟩
  intro k inPatterns inRow
  by_cases isSeat : k = seat
  · subst isSeat
    rw [List.getElem?_eq_getElem inPatterns] at isPattern
    rw [List.getElem?_eq_getElem inRow] at seated
    cases isPattern
    cases seated
    exact fits
  · obtain ⟨q, isQ, joined⟩ := chosen.joins isSeat (List.getElem?_eq_getElem inRow)
    rw [List.getElem?_eq_getElem inPatterns] at isQ
    cases isQ
    exact joined.fits

/-- Whoever takes a place has none to the left, and is not the trigger. -/
theorem Chosen.distinct (seated : row[seat]? = some trigger) : (row.map (·.id)).Nodup := by
  apply List.pairwise_iff_getElem.mpr
  intro j k inJ inK before
  rw [List.length_map] at inJ inK
  rw [List.getElem_map, List.getElem_map]
  by_cases isSeat : k = seat
  · subst isSeat
    obtain ⟨_, _, joined⟩ := chosen.joins (Nat.ne_of_lt before) (List.getElem?_eq_getElem inJ)
    have unplaced := joined.unplaced (k, trigger) (mem_placed_iff.mpr (.inl rfl))
    rw [List.getElem?_eq_getElem inK] at seated
    cases seated
    exact Ne.symm unplaced
  · obtain ⟨_, _, joined⟩ := chosen.joins isSeat (List.getElem?_eq_getElem inK)
    by_cases wasSeat : j = seat
    · subst wasSeat
      have unplaced := joined.unplaced (j, trigger) (mem_placed_iff.mpr (.inl rfl))
      rw [List.getElem?_eq_getElem inJ] at seated
      cases seated
      exact unplaced
    · have found : row[j]? = some row[j] := List.getElem?_eq_getElem inJ
      exact joined.unplaced (j, row[j]) (mem_placed_iff.mpr (.inr ⟨wasSeat, before, found⟩))

theorem Chosen.causal (reached : log.Reachable) (elsewhere : k ≠ seat)
    (isMember : row[k]? = some i) :
    log.Akin i.id trigger.id ∨ ∃ j ∈ row.take k, log.Akin i.id j.id := by
  obtain ⟨_, _, joined⟩ := chosen.joins elsewhere isMember
  obtain ⟨entry, placed, related⟩ := joined.tied
  have akin : log.Akin i.id entry.2.id := by
    rcases reached.related_iff.mp related with same | akin
    · exact absurd same.symm (joined.unplaced entry placed)
    · exact akin
  rcases mem_placed_iff.mp placed with rfl | ⟨_, before, found⟩
  · exact .inl akin
  · exact .inr ⟨entry.2, mem_take_iff.mpr ⟨entry.1, before, found⟩, akin⟩

end Choosing

/-- A row that can be chosen, and that agrees in its variables, is an admissible tuple. -/
theorem admissible_of_chosen (reached : log.Reachable) {row : List Invocation} {p : Pattern}
    (held : trigger ∈ log.entries) (isPattern : rule.whens[seat]? = some p)
    (fits : p.FitsInvocation trigger) (chosen : Chosen log trigger seat 0 rule.whens [(seat, trigger)] row)
    (consistent : Consistent (rule.observe row)) : rule.Admissible log trigger seat row := by
  have seated := chosen.seated (List.getElem?_eq_some_iff.mp isPattern).1
  have candidate := chosen.candidate reached.coherent held seated
  exact {
    seated
    consistent
    fits := chosen.fits isPattern fits seated
    held := fun i inside => (candidate i inside).1
    together := fun i inside => (candidate i inside).2.1
    earlier := fun i inside => (candidate i inside).2.2
    distinct := chosen.distinct seated
    causal := fun k i elsewhere isMember => chosen.causal reached elsewhere isMember }

namespace Rule.Admissible

variable {tuple : List Invocation} {p : Pattern} {i j : Invocation} {k m : Nat}
  (admissible : rule.Admissible log trigger seat tuple)

include admissible

theorem fits_of_getElem? (isPattern : rule.whens[k]? = some p) (isMember : tuple[k]? = some i) :
    p.FitsInvocation i := by
  obtain ⟨inWhens, rfl⟩ := List.getElem?_eq_some_iff.mp isPattern
  obtain ⟨inTuple, rfl⟩ := List.getElem?_eq_some_iff.mp isMember
  exact (List.forall₂_iff_get.mp admissible.fits).2 k inWhens inTuple

theorem id_ne (differ : m ≠ k) (isFirst : tuple[m]? = some j) (isSecond : tuple[k]? = some i) :
    j.id ≠ i.id := by
  intro sameId
  obtain ⟨inM, rfl⟩ := List.getElem?_eq_some_iff.mp isFirst
  obtain ⟨inK, rfl⟩ := List.getElem?_eq_some_iff.mp isSecond
  rw [← List.length_map (·.id)] at inM inK
  have sameIds : (tuple.map (·.id))[m] = (tuple.map (·.id))[k] := by
    rw [List.getElem_map, List.getElem_map]
    exact sameId
  exact differ ((List.Nodup.getElem_inj_iff admissible.distinct).mp sameIds)

/-- The tie of a member is to somebody who is placed before it. -/
theorem tied (reached : log.Reachable) (elsewhere : k ≠ seat) (isMember : tuple[k]? = some i) :
    ∃ entry ∈ [(seat, trigger)] ++ others seat 0 (tuple.take k),
      log.related i.id entry.2.id = true := by
  rcases admissible.causal k i elsewhere isMember with akin | ⟨j, inTake, akin⟩
  · exact ⟨(seat, trigger), mem_placed_iff.mpr (.inl rfl), reached.related_iff.mpr (.inr akin)⟩
  · obtain ⟨place, before, found⟩ := mem_take_iff.mp inTake
    have related := reached.related_iff.mpr (.inr akin)
    by_cases isSeat : place = seat
    · subst isSeat
      rw [admissible.seated] at found
      cases found
      exact ⟨_, mem_placed_iff.mpr (.inl rfl), related⟩
    · exact ⟨(place, j), mem_placed_iff.mpr (.inr ⟨isSeat, before, found⟩), related⟩

end Rule.Admissible

/-- An admissible tuple can be chosen as a row around its seat. -/
theorem chosen_of_admissible (reached : log.Reachable) {row : List Invocation}
    (admissible : rule.Admissible log trigger seat row) :
    Chosen log trigger seat 0 rule.whens [(seat, trigger)] row := by
  refine chosen_iff.mpr ⟨admissible.fits.length_eq.symm, ?_⟩
  intro k p i isPattern isMember
  rw [Takes, Nat.zero_add]
  split
  · next isSeat =>
    subst isSeat
    rw [admissible.seated] at isMember
    exact (Option.some.inj isMember).symm
  · next elsewhere =>
    have inRow : i ∈ row := List.mem_of_getElem? isMember
    have fits := admissible.fits_of_getElem? isPattern isMember
    constructor
    case candidate =>
      exact reached.coherent.mem_candidates.mpr ⟨admissible.held i inRow,
        admissible.together i inRow, fits.action.symm, admissible.earlier i inRow⟩
    case fits => exact fits
    case unplaced =>
      intro entry placed
      rcases mem_placed_iff.mp placed with rfl | ⟨_, before, found⟩
      · exact admissible.id_ne (Ne.symm elsewhere) admissible.seated isMember
      · exact admissible.id_ne (Nat.ne_of_lt before) found isMember
    case tied => exact admissible.tied reached elsewhere isMember

/-! ### The frames of one seat -/

theorem support_of_placed {row : List Invocation} {filled : Partial} (seated : row[seat]? = some trigger)
    (placed : filled.placed = [(seat, trigger)] ++ others seat 0 row) :
    filled.support row.length = row.map (·.id) := by
  have found : ∀ k, List.lookup k filled.placed = row[k]? := by
    intro k
    rw [placed, List.singleton_append, List.lookup_cons]
    by_cases isSeat : k = seat
    · simp [isSeat, seated]
    · rw [beq_false_of_ne isSeat]
      have elsewhere : List.lookup (0 + k) (others seat 0 row) = row[k]? := lookup_others (by omega)
      rwa [Nat.zero_add] at elsewhere
  simp only [Partial.support, found]
  clear placed found seated
  induction row with
  | nil => rfl
  | cons i row ih =>
    rw [List.length_cons, List.range_succ_eq_map, List.filterMap_cons, List.filterMap_map]
    simp only [List.getElem?_cons_zero, Option.map_some, Function.comp_def,
      List.getElem?_cons_succ, List.map_cons]
    rw [ih]

/-- Every row of a seat is an admissible tuple, all of which has been observed. -/
theorem admissible_of_mem_rows (reached : log.Reachable) {p : Pattern} {bindings : Fields}
    {row : List Invocation} {filled : Partial} (held : trigger ∈ log.entries)
    (isPattern : rule.whens[seat]? = some p) (seeded : p.unifyInvocation trigger [] = some bindings)
    (isRow : (row, filled) ∈ rows log trigger seat 0 rule.whens
      { placed := [(seat, trigger)], bindings }) :
    rule.Admissible log trigger seat row ∧ filled.support rule.whens.length = row.map (·.id) ∧
      observeAll? [] (p.observe trigger ++ observeOthers seat 0 rule.whens row) =
        some filled.bindings := by
  obtain ⟨fits, observesSeat⟩ := Pattern.unify_eq_some_iff.mp seeded
  obtain ⟨chosen, placed, observesOthers⟩ := mem_rows_iff.mp isRow
  have sameLength := (chosen_iff.mp chosen).1
  have observes : observeAll? [] (p.observe trigger ++ observeOthers seat 0 rule.whens row) =
      some filled.bindings := by
    rw [observeAll?_append, Pattern.observe, observesSeat]
    exact observesOthers
  have seated := chosen.seated (List.getElem?_eq_some_iff.mp isPattern).1
  have consistent : Consistent (rule.observe row) :=
    (exists_observeAll?_iff.mp ⟨_, observes⟩).1.perm (observe_perm isPattern seated)
  exact ⟨admissible_of_chosen reached held isPattern fits chosen consistent,
    sameLength ▸ support_of_placed seated placed, observes⟩

/-- Every frame of a seat rests on an admissible tuple. -/
theorem exists_admissible_of_mem_seededAt (reached : log.Reachable) {p : Pattern} {f : Frame}
    (held : trigger ∈ log.entries) (isPattern : rule.whens[seat]? = some p)
    (found : f ∈ seededAt rule trigger log seat p) :
    ∃ tuple, rule.Admissible log trigger seat tuple ∧ f.RestsOn rule trigger tuple := by
  unfold seededAt at found
  split at found
  · cases found
  · next bindings seeded =>
    obtain ⟨filled, isFilled, rfl⟩ := List.mem_map.mp found
    rw [fillPlaces_eq_rows, List.flatMap_singleton] at isFilled
    obtain ⟨⟨row, filled⟩, isRow, rfl⟩ := List.mem_map.mp isFilled
    obtain ⟨admissible, support, observes⟩ :=
      admissible_of_mem_rows reached held isPattern seeded isRow
    have perm := observe_perm isPattern admissible.seated
    obtain ⟨_, bound, names, unique⟩ := observed_of_observeAll? observes
    refine ⟨row, admissible, support, rfl, fun name => ?_, unique List.nodup_nil,
      fun name value known => ?_⟩
    · rw [names, (perm.map _).mem_iff, mem_map_fst_observe admissible.fits]
      simp
    · rcases bound name value known with isBound | inside
      · cases isBound
      · exact perm.mem_iff.mp inside

/-- Every admissible tuple has a frame of its seat. -/
theorem exists_mem_seededAt_of_admissible (reached : log.Reachable) {p : Pattern}
    {tuple : List Invocation} (isPattern : rule.whens[seat]? = some p)
    (admissible : rule.Admissible log trigger seat tuple) :
    ∃ f ∈ seededAt rule trigger log seat p, f.support = tuple.map (·.id) := by
  have fits := admissible.fits_of_getElem? isPattern admissible.seated
  have perm := observe_perm isPattern admissible.seated
  have canObserve : ∃ extended, observeAll? []
      (p.observe trigger ++ observeOthers seat 0 rule.whens tuple) = some extended :=
    exists_observeAll?_iff.mpr ⟨admissible.consistent.perm perm.symm, fun _ _ _ known => nomatch known⟩
  obtain ⟨extended, observes⟩ := canObserve
  rw [observeAll?_append] at observes
  obtain ⟨bindings, observesSeat, observesOthers⟩ := Option.bind_eq_some_iff.mp observes
  have seeded : p.unifyInvocation trigger [] = some bindings :=
    Pattern.unify_eq_some_iff.mpr ⟨fits, observesSeat⟩
  let filled : Partial :=
    { placed := [(seat, trigger)] ++ others seat 0 tuple, bindings := extended }
  have isRow : (tuple, filled) ∈ rows log trigger seat 0 rule.whens
      { placed := [(seat, trigger)], bindings } :=
    mem_rows_iff.mpr ⟨chosen_of_admissible reached admissible, rfl, observesOthers⟩
  rw [seededAt, seeded]
  dsimp only
  rw [fillPlaces_eq_rows, List.flatMap_singleton]
  refine ⟨_, List.mem_map_of_mem (List.mem_map_of_mem isRow), ?_⟩
  rw [admissible.fits.length_eq]
  exact support_of_placed admissible.seated rfl

theorem Rule.Admissible.idxOf_trigger {tuple : List Invocation}
    (admissible : rule.Admissible log trigger seat tuple) :
    (tuple.map (·.id)).idxOf trigger.id = seat := by
  obtain ⟨inside, isTrigger⟩ := List.getElem?_eq_some_iff.mp admissible.seated
  have inIds : seat < (tuple.map (·.id)).length := by rwa [List.length_map]
  have atSeat : (tuple.map (·.id))[seat] = trigger.id := by rw [List.getElem_map, isTrigger]
  rw [← atSeat]
  exact List.Nodup.idxOf_getElem admissible.distinct seat inIds

/-- The frames of one seat come in the lexicographic order of their other members. -/
theorem seededAt_pairwise (reached : log.Reachable) {p : Pattern} (held : trigger ∈ log.entries)
    (isPattern : rule.whens[seat]? = some p) :
    (seededAt rule trigger log seat p).Pairwise (Frame.Before trigger.id) := by
  unfold seededAt
  split
  · exact .nil
  · next bindings seeded =>
    dsimp only
    rw [fillPlaces_eq_rows, List.flatMap_singleton, List.map_map, List.pairwise_map]
    refine (rows_pairwise reached.coherent _ _).imp_of_mem fun {r s} isR isS smaller => .inr ?_
    obtain ⟨admissibleR, supportR, _⟩ := admissible_of_mem_rows reached held isPattern seeded isR
    obtain ⟨admissibleS, supportS, _⟩ := admissible_of_mem_rows reached held isPattern seeded isS
    simp only [Function.comp_apply, supportR, supportS, admissibleR.idxOf_trigger,
      admissibleS.idxOf_trigger, true_and]
    rw [← map_id_others admissibleR.seated admissibleR.distinct,
      ← map_id_others admissibleS.seated admissibleS.distinct]
    exact smaller

/-! ### The frames of a trigger -/

theorem distinctSupports_eq_self {frames : Frames} (distinct : frames.Pairwise (·.support ≠ ·.support)) :
    distinctSupports frames = frames := by
  have general : ∀ seen : Frames, (seen ++ frames).Pairwise (·.support ≠ ·.support) →
      frames.foldl (fun seen f => if seen.any (·.support == f.support) then seen else seen ++ [f]) seen =
        seen ++ frames := by
    clear distinct
    induction frames with
    | nil => simp
    | cons f frames ih =>
      intro seen distinct
      have unseen : seen.any (·.support == f.support) = false := by
        rw [List.any_eq_false]
        intro g inSeen same
        exact (List.pairwise_append.mp distinct).2.2 g inSeen f List.mem_cons_self (beq_iff_eq.mp same)
      rw [List.foldl_cons, unseen, if_neg Bool.false_ne_true,
        ih (seen ++ [f]) (by simpa using distinct), List.append_assoc, List.singleton_append]
  exact general [] distinct

/-- The frames of all seats come in their order, so that no support comes twice. -/
theorem seeds_pairwise (reached : log.Reachable) (held : trigger ∈ log.entries) (rule : Rule) :
    (rule.whens.zipIdx.flatMap fun entry => seededAt rule trigger log entry.2 entry.1).Pairwise
      (Frame.Before trigger.id) := by
  rw [List.pairwise_flatMap]
  constructor
  · exact fun entry inside => seededAt_pairwise reached held (List.mem_zipIdx_iff_getElem?.mp inside)
  · have ascending : rule.whens.zipIdx.Pairwise (·.2 < ·.2) := by
      rw [← List.pairwise_map, List.zipIdx_map_snd]
      exact List.pairwise_lt_range'
    refine ascending.imp_of_mem fun {a b} isA isB before f fromA g fromB => .inl ?_
    obtain ⟨_, admissibleF, restsF⟩ := exists_admissible_of_mem_seededAt reached held
      (List.mem_zipIdx_iff_getElem?.mp isA) fromA
    obtain ⟨_, admissibleG, restsG⟩ := exists_admissible_of_mem_seededAt reached held
      (List.mem_zipIdx_iff_getElem?.mp isB) fromB
    rw [restsF.support, restsG.support, admissibleF.idxOf_trigger, admissibleG.idxOf_trigger]
    exact before

/-- No support is met twice, so leaving out repeated ones leaves all frames. -/
theorem matchAt_eq_seeds (reached : log.Reachable) (held : trigger ∈ log.entries) (rule : Rule) :
    rule.matchAt trigger log =
      rule.whens.zipIdx.flatMap fun entry => seededAt rule trigger log entry.2 entry.1 :=
  distinctSupports_eq_self ((seeds_pairwise reached held rule).imp Frame.Before.support_ne)

theorem matchAt_pairwise (reached : log.Reachable) (held : trigger ∈ log.entries) (rule : Rule) :
    (rule.matchAt trigger log).Pairwise (Frame.Before trigger.id) := by
  rw [matchAt_eq_seeds reached held]
  exact seeds_pairwise reached held rule

/-- Tuples of a log are told apart by their ids. -/
theorem eq_of_map_id_eq (reached : log.Reachable) {tuple other : List Invocation}
    (held : ∀ i ∈ tuple, i ∈ log.entries) (otherHeld : ∀ i ∈ other, i ∈ log.entries)
    (same : tuple.map (·.id) = other.map (·.id)) : tuple = other := by
  induction tuple generalizing other with
  | nil => exact (List.map_eq_nil_iff.mp same.symm).symm
  | cons i tuple ih =>
    obtain ⟨j, rest, rfl, sameId, sameRest⟩ := List.map_eq_cons_iff.mp same.symm
    rw [reached.coherent.eq_of_id_eq (held i List.mem_cons_self) (otherHeld j List.mem_cons_self)
      sameId.symm, ih (fun k inside => held k (List.mem_cons_of_mem i inside))
      (fun k inside => otherHeld k (List.mem_cons_of_mem j inside)) sameRest.symm]

/-- Every frame of a trigger rests on an admissible tuple. -/
theorem exists_admissible_of_mem_matchAt (reached : log.Reachable) {f : Frame}
    (held : trigger ∈ log.entries) (found : f ∈ rule.matchAt trigger log) :
    ∃ seat tuple, rule.Admissible log trigger seat tuple ∧ f.RestsOn rule trigger tuple := by
  rw [matchAt_eq_seeds reached held] at found
  obtain ⟨entry, isEntry, found⟩ := List.mem_flatMap.mp found
  exact ⟨entry.2, exists_admissible_of_mem_seededAt reached held
    (List.mem_zipIdx_iff_getElem?.mp isEntry) found⟩

/-- Every admissible tuple has a frame. -/
theorem exists_mem_matchAt_of_admissible (reached : log.Reachable) {tuple : List Invocation}
    (admissible : rule.Admissible log trigger seat tuple) :
    ∃ f ∈ rule.matchAt trigger log, f.support = tuple.map (·.id) := by
  have held : trigger ∈ log.entries :=
    admissible.held trigger (List.mem_of_getElem? admissible.seated)
  have inWhens : seat < rule.whens.length :=
    admissible.fits.length_eq ▸ (List.getElem?_eq_some_iff.mp admissible.seated).1
  obtain ⟨f, found, support⟩ := exists_mem_seededAt_of_admissible reached
    (List.getElem?_eq_getElem inWhens) admissible
  refine ⟨f, ?_, support⟩
  rw [matchAt_eq_seeds reached held]
  exact List.mem_flatMap.mpr ⟨(rule.whens[seat], seat),
    List.mem_zipIdx_iff_getElem?.mpr (List.getElem?_eq_getElem inWhens), found⟩

theorem eq_of_mem_matchAt (reached : log.Reachable) {f g : Frame} (held : trigger ∈ log.entries)
    (isF : f ∈ rule.matchAt trigger log) (isG : g ∈ rule.matchAt trigger log)
    (same : f.support = g.support) : f = g := by
  have distinct : ((rule.matchAt trigger log).map (·.support)).Nodup := by
    rw [List.nodup_iff_pairwise_ne, List.pairwise_map]
    exact (matchAt_pairwise reached held rule).imp Frame.Before.support_ne
  exact List.inj_on_of_nodup_map distinct isF isG same

/-- The frames of a trigger are exactly the admissible tuples around it, one frame for each,
in the order of the seat of the trigger and then of the other members. -/
theorem matchAt_exact (reached : log.Reachable) (held : trigger ∈ log.entries) (rule : Rule) :
    (∀ seat tuple, rule.Admissible log trigger seat tuple →
      ∃! f, f ∈ rule.matchAt trigger log ∧ f.RestsOn rule trigger tuple) ∧
    (∀ f ∈ rule.matchAt trigger log,
      ∃ seat tuple, rule.Admissible log trigger seat tuple ∧ f.RestsOn rule trigger tuple) ∧
    (rule.matchAt trigger log).Pairwise (Frame.Before trigger.id) := by
  refine ⟨fun seat tuple admissible => ?_, fun f found => ?_, matchAt_pairwise reached held rule⟩
  · obtain ⟨f, found, support⟩ := exists_mem_matchAt_of_admissible reached admissible
    obtain ⟨_, met, metAdmissible, rests⟩ := exists_admissible_of_mem_matchAt reached held found
    have sameTuple : met = tuple := by
      refine eq_of_map_id_eq reached metAdmissible.held admissible.held ?_
      rw [← rests.support, support]
    refine ⟨f, ⟨found, sameTuple ▸ rests⟩, ?_⟩
    rintro g ⟨isG, restsG⟩
    exact eq_of_mem_matchAt reached held isG found (restsG.support.trans support.symm)
  · exact exists_admissible_of_mem_matchAt reached held found

/-! ### A cascade that forks -/

namespace Fork

/-- The first invocation of a cascade, the cause of the two others. -/
def start : Invocation where
  id := 1
  action := ⟨"C", "start"⟩
  input := []
  output := []
  causes := []
  root := 1
  depth := 0
  ancestors := []

def left : Invocation where
  id := 2
  action := ⟨"C", "left"⟩
  input := [("n", .int 1)]
  output := []
  causes := [1]
  root := 1
  depth := 1
  ancestors := [1]

/-- The sibling of `left`, with an input that counts as equal. -/
def right : Invocation where
  id := 3
  action := ⟨"C", "right"⟩
  input := [("n", .bool true)]
  output := []
  causes := [1]
  root := 1
  depth := 1
  ancestors := [1]

def forked : InvocationLog := ((({} : InvocationLog).enter start).enter left).enter right

theorem forked_reachable : forked.Reachable := by
  have isStart : ({} : InvocationLog).append ⟨"C", "start"⟩ [] [] [] =
      .ok (({} : InvocationLog).enter start, start) := rfl
  have isLeft : (({} : InvocationLog).enter start).append ⟨"C", "left"⟩ [("n", .int 1)] [] [1] =
      .ok ((({} : InvocationLog).enter start).enter left, left) := rfl
  have isRight : ((({} : InvocationLog).enter start).enter left).append ⟨"C", "right"⟩
      [("n", .bool true)] [] [1] = .ok (forked, right) := rfl
  exact ((InvocationLog.Reachable.start.append isStart).append isLeft).append isRight

theorem right_held : right ∈ forked.entries := .tail start (.tail left (.head []))

/-- Asks for an operation, and for the variable of the siblings. -/
def leftPattern : Pattern := { action := ⟨"C", "left"⟩, inputs := [("n", .variable "n")] }

def startPattern : Pattern := { action := ⟨"C", "start"⟩ }

def rightPattern : Pattern := { action := ⟨"C", "right"⟩, inputs := [("n", .variable "n")] }

/-- Waits for the whole fork, its start first. -/
def meet : Rule := { name := "meet", whens := [startPattern, leftPattern, rightPattern] }

theorem matchAt_exact_fork :
    ((meet.matchAt right forked).map (·.support) = [[1, 2, 3]]) ∧
    (∀ seat tuple, meet.Admissible forked right seat tuple →
      ∃! f, f ∈ meet.matchAt right forked ∧ f.RestsOn meet right tuple) ∧
    (∀ f ∈ meet.matchAt right forked,
      ∃ seat tuple, meet.Admissible forked right seat tuple ∧ f.RestsOn meet right tuple) ∧
    (meet.matchAt right forked).Pairwise (Frame.Before right.id) :=
  ⟨by decide +kernel, matchAt_exact forked_reachable right_held meet⟩

end Fork

end Choreography
