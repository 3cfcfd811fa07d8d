import Choreography.Proofs.Audit
import Mathlib.Data.List.Dedup
import Mathlib.Data.List.DropRight
import Mathlib.Data.List.Perm.Basic

/-! How often the audit writes an invocation. Saves of whole cascades write each invocation once, as
long as a save is begun in time: while no other save of the cascade is underway, and while the
recorder still remembers the cascade if it has written of it. The first save that is not begun in
time writes something once more. -/

namespace Choreography

open InvocationLog

/-! ### The end of a list -/

/-- To take something out of the end of a list shortens it by one at most. -/
theorem rtake_filter_ne {α : Type} [DecidableEq α] {items : List α} (distinct : items.Nodup)
    (item : α) (count : Nat) : ((items.rtake (count + 1)).filter (· ≠ item)).rtake count =
      (items.filter (· ≠ item)).rtake count := by
  induction items using List.reverseRecOn generalizing count with
  | nil => simp
  | append_singleton items last ih =>
    rw [← List.concat_eq_append, List.nodup_concat] at distinct
    obtain ⟨isNew, distinct⟩ := distinct
    rw [List.rtake_concat_succ, List.filter_append, List.filter_append]
    by_cases isLast : last = item
    · subst isLast
      have without {part : List α} (inside : part.Sublist items) : part.filter (· ≠ last) = part :=
        List.filter_eq_self.mpr fun other isOther => by
          simpa using fun same : other = last => isNew (same ▸ inside.subset isOther)
      have isTail : (items.rtake count).Sublist items := List.drop_sublist _ _
      rw [without isTail, without (.refl _)]
      simp [List.rtake_eq_reverse_take_reverse, List.take_take]
    · cases count with
      | zero => rw [List.rtake_zero, List.rtake_zero]
      | succ count =>
        have kept : [last].filter (· ≠ item) = [last] := by simpa using isLast
        rw [kept, List.rtake_concat_succ, List.rtake_concat_succ, ih distinct]

theorem dedup_concat {α : Type} [DecidableEq α] (items : List α) (item : α) :
    (items ++ [item]).dedup = items.dedup.filter (· ≠ item) ++ [item] := by
  induction items with
  | nil => simp
  | cons first items ih =>
    rw [List.cons_append]
    by_cases isOld : first ∈ items
    · rw [List.dedup_cons_of_mem (List.mem_append_left _ isOld), List.dedup_cons_of_mem isOld, ih]
    · rw [List.dedup_cons_of_notMem isOld]
      by_cases isLast : first = item
      · subst isLast
        rw [List.dedup_cons_of_mem (List.mem_append_right _ List.mem_cons_self), ih,
          List.filter_cons_of_neg (by simp)]
      · rw [List.dedup_cons_of_notMem (by simp [isOld, isLast]), ih,
          List.filter_cons_of_pos (by simpa using isLast), List.cons_append]

/-! ### Saves of whole cascades -/

/-- The batch that a save is about to write. -/
def SaveStage.batch? : SaveStage → Option Batch
  | .writing batch => some batch
  | .ended _ => none

namespace Archive

/-- The batches that have not been written yet. -/
def underway (a : Archive) : List Batch := a.saves.filterMap (·.stage.batch?)

/-- The cascades of which something was written, in the order in which this was last done. -/
def order (a : Archive) : List InvocationId := (a.commits.map (·.root)).dedup

/-- The cascades that were written last, as many as are tracked. -/
def lastWritten (a : Archive) : List InvocationId := a.order.rtake a.recorder.tracked.toNat

/-- The identifiers under which something was written. -/
def written (a : Archive) : List InvocationId := a.rows.map (·.invocation.id)

/-- The identifiers under which something was written, or is about to be written. -/
def claimed (a : Archive) : List InvocationId :=
  a.written ++ a.underway.flatMap fun batch => batch.fresh.map (·.id)

/-- A save of a cascade is in time if no other save of it is underway, and if it is among those that
were written last if it was written before. -/
structure InTime (a : Archive) (root : InvocationId) : Prop where
  alone : ∀ batch ∈ a.underway, batch.root ≠ root
  tracked : root ∈ a.order → root ∈ a.lastWritten

instance (a : Archive) (root : InvocationId) : Decidable (a.InTime root) :=
  decidable_of_iff
    ((∀ batch ∈ a.underway, batch.root ≠ root) ∧ (root ∈ a.order → root ∈ a.lastWritten))
    ⟨fun ⟨alone, tracked⟩ => ⟨alone, tracked⟩, fun inTime => ⟨inTime.alone, inTime.tracked⟩⟩

/-- Whole cascades are saved in sessions that accept every row, and all saves are punctual that are
begun in time. -/
inductive Runs (start : Archive) : Archive → Prop → Prop where
  | start : Runs start start True
  | log (runs : Runs start a punctual)
      (logged : a.log.append action input output causes = .ok (grown, i)) :
      Runs start { a with log := grown, history := a.history ++ [i] } punctual
  | forget (runs : Runs start a punctual) (root : InvocationId) :
      Runs start { a with log := a.log.forget root } punctual
  | save (runs : Runs start a punctual) (retained : a.log.cascade root ≠ []) :
      Runs start (a.begun (a.log.cascade root)) (punctual ∧ a.InTime root)
  | settle (runs : Runs start a punctual)
      (waits : a.saves[n]? = some ⟨handed, .writing batch⟩) :
      Runs start (a.settled n handed batch (.ok ())) punctual

/-- What is underway or was written belongs together, and the recorder remembers the cascades that
were written last. -/
structure Filed (a : Archive) : Prop where
  sound : a.Sound
  tracked : a.recorder.saved.map (·.1) = a.lastWritten
  batches : ∀ batch ∈ a.underway, batch.fresh ≠ [] ∧
    ∀ i ∈ batch.fresh, i ∈ a.history ∧ i.root = batch.root
  commits : ∀ commit ∈ a.commits, commit.rows ≠ [] ∧
    ∀ row ∈ commit.rows, row.invocation.root = commit.root

/-- Each cascade is written by one save at a time, which knows all of it that was written before. -/
structure Tidy (a : Archive) : Prop where
  distinct : (a.underway.map (·.root)).Nodup
  complete : ∀ batch ∈ a.underway, ∀ row ∈ a.rows, row.invocation.root = batch.root →
    row.invocation.id ∈ batch.known
  remembered : ∀ root ids, (root, ids) ∈ a.recorder.saved → ∀ row ∈ a.rows,
    row.invocation.root = root → row.invocation.id ∈ ids
  once : a.claimed.Nodup

variable {start a b : Archive} {n : Nat} {handed : List Invocation} {batch : Batch} {i : Invocation}
  {root : InvocationId} {punctual : Prop}

/-! ### What is underway -/

theorem underway_begun (a : Archive) (handed : List Invocation) :
    (a.begun handed).underway = a.underway ++ (a.recorder.prepare? handed).toList := by
  rw [underway, begun, List.filterMap_append, ← underway]
  cases a.recorder.prepare? handed <;> rfl

/-- A save that ends leaves what else is underway. -/
theorem exists_underway (waits : a.saves[n]? = some ⟨handed, .writing batch⟩) :
    ∃ before after, a.underway = before ++ batch :: after ∧
      (a.settled n handed batch (.ok ())).underway = before ++ after := by
  obtain ⟨inside, isSave⟩ := List.getElem?_eq_some_iff.mp waits
  have split : a.saves = a.saves.take n ++ ⟨handed, .writing batch⟩ :: a.saves.drop (n + 1) := by
    rw [← isSave, List.getElem_cons_drop, List.take_append_drop]
  have later : (a.settled n handed batch (.ok ())).saves = a.saves.take n ++
      ⟨handed, .ended (a.recorder.grown batch).trim.2⟩ :: a.saves.drop (n + 1) := by
    rw [settled_ok]
    exact List.set_eq_take_append_cons_drop.trans (if_pos inside)
  have isUnderway := congrArg (List.filterMap (·.stage.batch?)) split
  rw [List.filterMap_append] at isUnderway
  refine ⟨_, _, isUnderway, ?_⟩
  rw [underway, later, List.filterMap_append]
  rfl

theorem mem_written {id : InvocationId} : id ∈ a.written ↔ a.HasWritten id := List.mem_map

theorem written_settled (a : Archive) (n : Nat) (handed : List Invocation) (batch : Batch) :
    (a.settled n handed batch (.ok ())).written = a.written ++ batch.fresh.map (·.id) := by
  rw [written, rows_settled_ok, List.map_append, List.map_map, written]
  rfl

theorem claimed_begun (a : Archive) (handed : List Invocation) :
    (a.begun handed).claimed = a.claimed ++
      (a.recorder.prepare? handed).toList.flatMap fun batch => batch.fresh.map (·.id) := by
  rw [claimed, underway_begun, List.flatMap_append, ← List.append_assoc]
  rfl

/-- A save that ends has written what it was about to write. -/
theorem claimed_settled (waits : a.saves[n]? = some ⟨handed, .writing batch⟩) :
    (a.settled n handed batch (.ok ())).claimed.Perm a.claimed := by
  obtain ⟨before, after, isUnderway, isLeft⟩ := exists_underway waits
  rw [claimed, claimed, written_settled, isUnderway, isLeft, List.flatMap_append,
    List.flatMap_append, List.flatMap_cons, List.append_assoc]
  exact (List.perm_append_comm_assoc _ _ _).append_left _

/-- What a save of a cascade is about to write. -/
theorem Sound.prepared_cascade (sound : a.Sound)
    (prepared : a.recorder.prepare? (a.log.cascade root) = some batch) :
    batch.root = root ∧ batch.known = a.recorder.memory root ∧ batch.fresh ≠ [] ∧
      (batch.fresh.map (·.id)).Nodup ∧
      ∀ i, i ∈ batch.fresh ↔ i ∈ a.log.cascade root ∧ i.id ∉ batch.known := by
  have coherent := sound.remembers.coherent
  obtain ⟨first, isFirst, isRoot, isKnown, isFresh, left⟩ := Recorder.prepare?_eq_some prepared
  have ofRoot := (coherent.mem_cascade.mp (List.mem_of_mem_head? isFirst)).2
  rw [ofRoot] at isRoot isKnown
  refine ⟨isRoot, isKnown, left, ?_, fun i => ?_⟩
  · rw [isFresh, coherent.cascade_eq, List.nodup_iff_pairwise_ne, List.pairwise_map]
    exact ((coherent.ascending.filter _).filter _).imp Int.ne_of_lt
  · rw [isFresh, List.mem_filter, decide_eq_true_iff]

/-! ### What the recorder remembers -/

theorem trim_saved (r : Recorder) :
    r.trim.1.saved.map (·.1) = (r.saved.map (·.1)).rtake r.tracked.toNat := by
  rw [List.rtake, List.length_map, Recorder.trim, List.map_drop]
  by_cases tracks : 0 ≤ r.tracked
  · congr 1
    omega
  · rw [List.drop_of_length_le (by simp; omega), List.drop_of_length_le (by simp; omega)]

theorem order_settled (a : Archive) (n : Nat) (handed : List Invocation) (batch : Batch) :
    (a.settled n handed batch (.ok ())).order = a.order.filter (· ≠ batch.root) ++ [batch.root] := by
  rw [order, settled_ok, List.map_append, List.map_singleton, dedup_concat, order]

theorem Filed.tracked_settled (filed : a.Filed) (n : Nat) (handed : List Invocation) (batch : Batch) :
    (a.settled n handed batch (.ok ())).recorder.saved.map (·.1) =
      (a.settled n handed batch (.ok ())).lastWritten := by
  have grown : (a.recorder.grown batch).saved.map (·.1) =
      a.lastWritten.filter (· ≠ batch.root) ++ [batch.root] := by
    rw [Recorder.grown, List.map_append, ← filed.tracked, List.filter_map]
    rfl
  rw [lastWritten, order_settled, settled_ok, trim_saved, grown]
  change (_ ++ [_]).rtake a.recorder.tracked.toNat = List.rtake _ a.recorder.tracked.toNat
  rw [lastWritten]
  cases a.recorder.tracked.toNat with
  | zero => rw [List.rtake_zero, List.rtake_zero]
  | succ count =>
    have distinct : a.order.Nodup := List.nodup_dedup _
    rw [List.rtake_concat_succ, List.rtake_concat_succ, rtake_filter_ne distinct]

/-- The recorder remembers something of the cascades that were written last. -/
theorem Filed.exists_saved (filed : a.Filed) (isLast : root ∈ a.lastWritten) :
    ∃ ids, (root, ids) ∈ a.recorder.saved ∧ a.recorder.memory root = ids := by
  rw [← filed.tracked] at isLast
  obtain ⟨⟨key, _⟩, isEntry, rfl⟩ := List.mem_map.mp isLast
  cases found : List.lookup key a.recorder.saved with
  | none =>
    have isNew := List.lookup_eq_none_iff.mp found _ isEntry
    simp at isNew
  | some ids =>
    obtain ⟨before, after, isFound, _⟩ := List.lookup_eq_some_iff.mp found
    refine ⟨ids, isFound ▸ List.mem_append_right _ List.mem_cons_self, ?_⟩
    rw [Recorder.memory, found, Option.getD_some]

theorem Filed.memory_eq_nil (filed : a.Filed) (gone : root ∉ a.lastWritten) :
    a.recorder.memory root = [] := by
  rw [← filed.tracked] at gone
  have notFound : List.lookup root a.recorder.saved = none := by
    apply List.lookup_eq_none_iff.mpr
    intro entry isEntry
    exact bne_iff_ne.mpr fun same => gone (same ▸ List.mem_map_of_mem isEntry)
  rw [Recorder.memory, notFound, Option.getD_none]

/-- What was written of a cascade was written for it. -/
theorem Filed.mem_order (filed : a.Filed) {row : AuditRow} (inside : row ∈ a.rows) :
    row.invocation.root ∈ a.order := by
  obtain ⟨commit, isCommit, inCommit⟩ := List.mem_flatMap.mp inside
  rw [(filed.commits commit isCommit).2 row inCommit, order, List.mem_dedup]
  exact List.mem_map_of_mem isCommit

/-- What is claimed of an invocation was written, or is underway. -/
theorem Filed.of_mem_claimed (filed : a.Filed) (known : i ∈ a.history) (inside : i.id ∈ a.claimed) :
    (∃ row ∈ a.rows, row.invocation = i) ∨ ∃ batch ∈ a.underway, i ∈ batch.fresh := by
  have unique {j : Invocation} (inHistory : j ∈ a.history) (sameId : j.id = i.id) : j = i :=
    filed.sound.remembers.eq_of_id_eq inHistory known sameId
  rcases List.mem_append.mp inside with written | waits
  · obtain ⟨row, isRow, isId⟩ := mem_written.mp written
    exact .inl ⟨row, isRow, unique (filed.sound.logged row isRow) isId⟩
  · obtain ⟨batch, isBatch, isFresh⟩ := List.mem_flatMap.mp waits
    obtain ⟨j, isFresh, sameId⟩ := List.mem_map.mp isFresh
    exact .inr ⟨batch, isBatch, unique ((filed.batches batch isBatch).2 j isFresh).1 sameId ▸ isFresh⟩

/-! ### What every step preserves -/

theorem Filed.begun (filed : a.Filed) (root : InvocationId) :
    (a.begun (a.log.cascade root)).Filed := by
  have remembers := filed.sound.remembers
  have ofCascade {i : Invocation} (inside : i ∈ a.log.cascade root) :
      i ∈ a.history ∧ i.root = root := by
    obtain ⟨held, isRoot⟩ := remembers.coherent.mem_cascade.mp inside
    exact ⟨remembers.mem_history held, isRoot⟩
  refine ⟨filed.sound.begun fun i inside => (ofCascade inside).1, filed.tracked, ?_, filed.commits⟩
  intro batch isBatch
  rw [underway_begun] at isBatch
  rcases List.mem_append.mp isBatch with old | new
  · exact filed.batches batch old
  · obtain ⟨isRoot, _, left, _, isFresh⟩ := filed.sound.prepared_cascade (Option.mem_toList.mp new)
    exact ⟨left, fun i inside => isRoot ▸ ofCascade ((isFresh i).mp inside).1⟩

theorem Filed.settled (filed : a.Filed) (waits : a.saves[n]? = some ⟨handed, .writing batch⟩) :
    (a.settled n handed batch (.ok ())).Filed := by
  obtain ⟨before, after, isUnderway, isLeft⟩ := exists_underway waits
  have isBatch : batch ∈ a.underway := isUnderway ▸ List.mem_append_right _ List.mem_cons_self
  obtain ⟨left, ofBatch⟩ := filed.batches batch isBatch
  refine ⟨filed.sound.settled waits _, filed.tracked_settled n handed batch, ?_, ?_⟩
  · intro other isOther
    refine filed.batches other ?_
    rw [isLeft] at isOther
    rw [isUnderway]
    exact List.mem_append.mpr ((List.mem_append.mp isOther).imp_right (List.mem_cons_of_mem batch))
  · intro commit isCommit
    rw [settled_ok] at isCommit
    rcases List.mem_append.mp isCommit with old | new
    · exact filed.commits commit old
    · cases List.mem_singleton.mp new
      refine ⟨by simpa using left, fun row inside => ?_⟩
      obtain ⟨i, isFresh, rfl⟩ := List.mem_map.mp inside
      exact (ofBatch i isFresh).2

/-- A save that is in time finds everything remembered that was written of its cascade. -/
theorem Tidy.remembered_of_inTime (tidy : a.Tidy) (filed : a.Filed) (inTime : a.InTime root) :
    ∀ row ∈ a.rows, row.invocation.root = root → row.invocation.id ∈ a.recorder.memory root := by
  intro row inside ofRoot
  have isLast := inTime.tracked (ofRoot ▸ filed.mem_order inside)
  obtain ⟨ids, isEntry, isMemory⟩ := filed.exists_saved isLast
  rw [isMemory]
  exact tidy.remembered root ids isEntry row inside ofRoot

/-- A save that is in time writes only what was not written before. -/
theorem Tidy.begun (tidy : a.Tidy) (filed : a.Filed) (inTime : a.InTime root) :
    (a.begun (a.log.cascade root)).Tidy := by
  have remembers := filed.sound.remembers
  cases prepared : a.recorder.prepare? (a.log.cascade root) with
  | none =>
    have same : (a.begun (a.log.cascade root)).underway = a.underway := by
      rw [underway_begun, prepared]
      exact List.append_nil _
    refine ⟨same ▸ tidy.distinct, same ▸ tidy.complete, tidy.remembered, ?_⟩
    rw [claimed_begun, prepared]
    exact (List.append_nil a.claimed).symm ▸ tidy.once
  | some batch =>
    obtain ⟨isRoot, isKnown, _, distinct, isFresh⟩ := filed.sound.prepared_cascade prepared
    have same : (a.begun (a.log.cascade root)).underway = a.underway ++ [batch] := by
      rw [underway_begun, prepared]
      rfl
    have complete := isKnown ▸ tidy.remembered_of_inTime filed inTime
    constructor
    case distinct =>
      rw [same, List.map_append, List.map_singleton, ← List.concat_eq_append]
      refine tidy.distinct.concat fun isOther => ?_
      obtain ⟨other, isOther, sameRoot⟩ := List.mem_map.mp isOther
      exact inTime.alone other isOther (sameRoot.trans isRoot)
    case complete =>
      intro other isOther
      rw [same] at isOther
      rcases List.mem_append.mp isOther with old | new
      · exact tidy.complete other old
      · rw [List.mem_singleton.mp new, isRoot]
        exact complete
    case remembered => exact tidy.remembered
    case once =>
      rw [claimed_begun, prepared]
      have isNew : (a.claimed ++ batch.fresh.map (·.id)).Nodup := by
        refine List.nodup_append.mpr ⟨tidy.once, distinct, ?_⟩
        rintro _ isClaimed _ isAdded rfl
        obtain ⟨i, inside, rfl⟩ := List.mem_map.mp isAdded
        obtain ⟨inCascade, isNew⟩ := (isFresh i).mp inside
        obtain ⟨held, ofRoot⟩ := remembers.coherent.mem_cascade.mp inCascade
        rcases filed.of_mem_claimed (remembers.mem_history held) isClaimed with
          ⟨row, isRow, rfl⟩ | ⟨other, isOther, isToo⟩
        · exact isNew (complete row isRow ofRoot)
        · have sameRoot := ((filed.batches other isOther).2 i isToo).2
          exact inTime.alone other isOther (sameRoot.symm.trans ofRoot)
      simpa using isNew

/-- A save that is not in time does not know of something that is claimed already: of what another
save of the cascade is about to write, or of what was written and has been forgotten. -/
theorem Tidy.exists_unknown (tidy : a.Tidy) (filed : a.Filed) (late : ¬a.InTime root) :
    ∃ i ∈ a.history, i.root = root ∧ i.id ∈ a.claimed ∧ i.id ∉ a.recorder.memory root := by
  by_cases alone : ∀ batch ∈ a.underway, batch.root ≠ root
  · have forgotten : ¬(root ∈ a.order → root ∈ a.lastWritten) :=
      fun tracked => late ⟨alone, tracked⟩
    obtain ⟨wasWritten, gone⟩ := Classical.not_imp.mp forgotten
    obtain ⟨commit, isCommit, rfl⟩ := List.mem_map.mp (List.mem_dedup.mp wasWritten)
    obtain ⟨some, ofCommit⟩ := filed.commits commit isCommit
    obtain ⟨row, inCommit⟩ := List.exists_mem_of_ne_nil _ some
    have isRow : row ∈ a.rows := List.mem_flatMap.mpr ⟨commit, isCommit, inCommit⟩
    refine ⟨row.invocation, filed.sound.logged row isRow, ofCommit row inCommit, ?_, ?_⟩
    · exact List.mem_append_left _ (List.mem_map_of_mem isRow)
    · rw [filed.memory_eq_nil gone]
      exact List.not_mem_nil
  · obtain ⟨batch, isBatch, sameRoot⟩ : ∃ batch ∈ a.underway, batch.root = root := by
      simpa using alone
    obtain ⟨some, ofBatch⟩ := filed.batches batch isBatch
    obtain ⟨i, isFresh⟩ := List.exists_mem_of_ne_nil _ some
    have waits : i.id ∈ a.underway.flatMap fun batch => batch.fresh.map (·.id) :=
      List.mem_flatMap.mpr ⟨batch, isBatch, List.mem_map_of_mem isFresh⟩
    obtain ⟨known, ofRoot⟩ := ofBatch i isFresh
    refine ⟨i, known, ofRoot.trans sameRoot, List.mem_append_right _ waits, fun isKnown => ?_⟩
    -- What is remembered was written, and so far nothing is claimed twice.
    have written := mem_written.mpr (filed.sound.hasWritten_of_memory isKnown)
    exact (List.nodup_append.mp tidy.once).2.2 _ written _ waits rfl

/-- A save that is not in time writes something once more. -/
theorem Tidy.claims_again (tidy : a.Tidy) (filed : a.Filed) (retained : a.log.cascade root ≠ [])
    (late : ¬a.InTime root) : ¬(a.begun (a.log.cascade root)).claimed.Nodup := by
  have remembers := filed.sound.remembers
  obtain ⟨i, known, ofRoot, isClaimed, isForgotten⟩ := tidy.exists_unknown filed late
  -- A cascade is held as a whole or not at all, so that the save is handed this invocation.
  have inCascade : i ∈ a.log.cascade root := by
    obtain ⟨j, isHeld⟩ := List.exists_mem_of_ne_nil _ retained
    obtain ⟨held, sameRoot⟩ := remembers.coherent.mem_cascade.mp isHeld
    have stays := remembers.held_together known held (ofRoot.trans sameRoot.symm)
    exact remembers.coherent.mem_cascade.mpr ⟨stays, ofRoot⟩
  intro once
  cases prepared : a.recorder.prepare? (a.log.cascade root) with
  | none =>
    obtain ⟨first, isFirst, isKnown⟩ := Recorder.prepare?_eq_none prepared i inCascade
    rw [(remembers.coherent.mem_cascade.mp (List.mem_of_mem_head? isFirst)).2] at isKnown
    exact isForgotten isKnown
  | some batch =>
    obtain ⟨_, isKnown, _, _, isFresh⟩ := filed.sound.prepared_cascade prepared
    rw [claimed_begun, prepared] at once
    have isAdded : i.id ∈ batch.fresh.map (·.id) :=
      List.mem_map_of_mem ((isFresh i).mpr ⟨inCascade, isKnown ▸ isForgotten⟩)
    exact (List.nodup_append.mp once).2.2 _ isClaimed _ (by simpa using isAdded) rfl

theorem Tidy.settled (tidy : a.Tidy) (filed : a.Filed)
    (waits : a.saves[n]? = some ⟨handed, .writing batch⟩) :
    (a.settled n handed batch (.ok ())).Tidy := by
  obtain ⟨before, after, isUnderway, isLeft⟩ := exists_underway waits
  have isBatch : batch ∈ a.underway := isUnderway ▸ List.mem_append_right _ List.mem_cons_self
  obtain ⟨_, ofBatch⟩ := filed.batches batch isBatch
  have distinct := tidy.distinct
  rw [isUnderway, List.map_append, List.map_cons, List.nodup_middle, List.nodup_cons,
    ← List.map_append] at distinct
  have isOld {other : Batch} (isOther : other ∈ before ++ after) : other ∈ a.underway := by
    rw [isUnderway]
    exact List.mem_append.mpr ((List.mem_append.mp isOther).imp_right (List.mem_cons_of_mem batch))
  constructor
  case distinct =>
    rw [isLeft]
    exact distinct.2
  case complete =>
    intro other isOther row inside ofRoot
    rw [isLeft] at isOther
    rw [rows_settled_ok] at inside
    rcases List.mem_append.mp inside with old | new
    · exact tidy.complete other (isOld isOther) row old ofRoot
    · obtain ⟨i, isFresh, rfl⟩ := List.mem_map.mp new
      have sameRoot : other.root = batch.root := ofRoot.symm.trans (ofBatch i isFresh).2
      exact absurd (sameRoot ▸ List.mem_map_of_mem isOther) distinct.1
  case remembered =>
    intro root ids isEntry row inside ofRoot
    rw [rows_settled_ok] at inside
    rcases Recorder.mem_saved_of_written isEntry with ⟨old, isOther⟩ | new
    · rcases List.mem_append.mp inside with before | added
      · exact tidy.remembered root ids old row before ofRoot
      · obtain ⟨i, isFresh, rfl⟩ := List.mem_map.mp added
        exact absurd (ofRoot.symm.trans (ofBatch i isFresh).2) isOther
    · cases new
      rcases List.mem_append.mp inside with before | added
      · exact List.mem_append_left _ (tidy.complete batch isBatch row before ofRoot)
      · obtain ⟨i, isFresh, rfl⟩ := List.mem_map.mp added
        exact List.mem_append_right _ (List.mem_map_of_mem isFresh)
  case once => exact (claimed_settled waits).nodup_iff.mpr tidy.once

theorem Initial.filed (initial : start.Initial) : start.Filed where
  sound := initial.sound
  tracked := by simp [initial.saved, lastWritten, order, initial.commits]
  batches := by simp [underway, initial.saves]
  commits := by simp [initial.commits]

theorem Initial.tidy (initial : start.Initial) : start.Tidy where
  distinct := by simp [underway, initial.saves]
  complete := by simp [underway, initial.saves]
  remembered := by simp [initial.saved]
  once := by simp [claimed, written, rows, underway, initial.commits, initial.saves]

/-- The archive is tidy until the first save that is not in time, from which on something is claimed
twice. -/
theorem Runs.tidy_or_again (initial : start.Initial) (runs : start.Runs a punctual) :
    a.Filed ∧ (punctual ∧ a.Tidy ∨ ¬punctual ∧ ¬a.claimed.Nodup) := by
  induction runs with
  | start => exact ⟨initial.filed, .inl ⟨trivial, initial.tidy⟩⟩
  | log _ logged ih =>
    obtain ⟨⟨sound, tracked, batches, commits⟩, result⟩ := ih
    refine ⟨⟨sound.step (.log logged), tracked, fun batch isBatch => ?_, commits⟩, ?_⟩
    · obtain ⟨left, ofBatch⟩ := batches batch isBatch
      exact ⟨left, fun i isFresh => (ofBatch i isFresh).imp_left (List.mem_append_left _)⟩
    · exact result.imp_left (And.imp_right fun tidy =>
        ⟨tidy.distinct, tidy.complete, tidy.remembered, tidy.once⟩)
  | forget _ root ih =>
    obtain ⟨⟨sound, tracked, batches, commits⟩, result⟩ := ih
    refine ⟨⟨sound.step (.forget root), tracked, batches, commits⟩, ?_⟩
    exact result.imp_left (And.imp_right fun tidy =>
      ⟨tidy.distinct, tidy.complete, tidy.remembered, tidy.once⟩)
  | @save a _ root _ retained ih =>
    obtain ⟨filed, result⟩ := ih
    refine ⟨filed.begun root, ?_⟩
    rcases result with ⟨punctual, tidy⟩ | ⟨late, again⟩
    · by_cases inTime : a.InTime root
      · exact .inl ⟨⟨punctual, inTime⟩, tidy.begun filed inTime⟩
      · exact .inr ⟨fun both => inTime both.2, tidy.claims_again filed retained inTime⟩
    · refine .inr ⟨fun both => late both.1, fun once => again ?_⟩
      rw [claimed_begun] at once
      exact (List.nodup_append.mp once).1
  | settle _ waits ih =>
    obtain ⟨filed, result⟩ := ih
    refine ⟨filed.settled waits, result.imp ?_ ?_⟩
    · exact And.imp_right fun tidy => tidy.settled filed waits
    · exact And.imp_right fun again once => again ((claimed_settled waits).nodup_iff.mp once)

/-- Where whole cascades are saved, however often and however much they grow in between, nothing is
written twice, and nothing that is underway was written, if and only if every save was begun in
time: while no other save of its cascade was underway, and the recorder still remembered the
cascade if it had written of it, so that it was among the last ones written, as many as are
tracked. -/
theorem writes_once_iff (initial : start.Initial) (runs : start.Runs a punctual) :
    (a.claimed.Nodup ↔ punctual) ∧ (punctual → a.written.Nodup) ∧
      (a.underway = [] → (a.written.Nodup ↔ punctual)) := by
  have exactly : a.claimed.Nodup ↔ punctual := by
    rcases (runs.tidy_or_again initial).2 with ⟨punctual, tidy⟩ | ⟨late, again⟩
    · exact ⟨fun _ => punctual, fun _ => tidy.once⟩
    · exact ⟨fun once => absurd once again, fun punctual => absurd punctual late⟩
  refine ⟨exactly, fun punctual => (List.nodup_append.mp (exactly.mpr punctual)).1, fun isOver => ?_⟩
  rw [← exactly, claimed, isOver, List.flatMap_nil, List.append_nil]

/-! ### Saves one after the other -/

/-- The archive after a session was closed that has accepted its rows. -/
def closed (a : Archive) (n : Nat) : Archive :=
  match a.saves[n]? with
  | some ⟨handed, .writing batch⟩ => a.settled n handed batch (.ok ())
  | _ => a

theorem Runs.close (runs : start.Runs a punctual) (n : Nat) : start.Runs (a.closed n) punctual := by
  unfold closed
  split
  · next waits => exact runs.settle waits
  · exact runs

end Archive

namespace Guestbook

open Archive

/-- The guest was recorded, has taken a seat, and was recorded again. -/
def seating : Invocation where
  id := 2
  action := ⟨"Guest", "sit"⟩
  input := []
  output := []
  causes := [1]
  root := 1
  depth := 1
  ancestors := [1]

def recorded : Archive := (arrived.begun (arrived.log.cascade 1)).closed 0

def seated : Archive :=
  { recorded with log := recorded.log.enter seating, history := recorded.history ++ [seating] }

def recordedAgain : Archive := (seated.begun (seated.log.cascade 1)).closed 1

theorem runs_arrived : Runs {} arrived True := .log .start logs_arriving

theorem runs_recorded : Runs {} recorded (True ∧ arrived.InTime 1) :=
  (runs_arrived.save (by decide +kernel)).close 0

theorem runs_recordedAgain :
    Runs {} recordedAgain ((True ∧ arrived.InTime 1) ∧ seated.InTime 1) := by
  have logged : recorded.log.append ⟨"Guest", "sit"⟩ [] [] [1] = .ok (seated.log, seating) := rfl
  have retained : seated.log.cascade 1 ≠ [] := by decide +kernel
  exact ((runs_recorded.log logged).save retained).close 1

/-- The second time only what is new is written. -/
theorem writes_once_seated : recordedAgain.written = [1, 2] ∧ recordedAgain.written.Nodup := by
  have punctual : (True ∧ arrived.InTime 1) ∧ seated.InTime 1 := by decide +kernel
  exact ⟨by decide +kernel, (writes_once_iff empty_initial runs_recordedAgain).2.1 punctual⟩

/-- Two saves of the arrival were underway at once. -/
def hurried : Archive :=
  (((arrived.begun (arrived.log.cascade 1)).begun (arrived.log.cascade 1)).closed 0).closed 1

/-- A recorder that remembers one cascade, and another guest. -/
def narrow : Archive where
  recorder := { tracked := 1 }

def visiting : Invocation := { arriving with id := 2, root := 2 }

def visited : Archive where
  log := arrived.log.enter visiting
  history := [arriving, visiting]
  recorder := { tracked := 1 }

/-- Both guests were recorded, and then the first one again. -/
def crowded : Archive :=
  let first := (visited.begun (visited.log.cascade 1)).closed 0
  let second := (first.begun (first.log.cascade 2)).closed 1
  (second.begun (second.log.cascade 1)).closed 2

theorem runs_hurried : ∃ punctual, Runs {} hurried punctual := by
  have retained : arrived.log.cascade 1 ≠ [] := by decide +kernel
  exact ⟨_, (((runs_arrived.save retained).save retained).close 0).close 1⟩

theorem runs_crowded : ∃ punctual, Runs narrow crowded punctual := by
  have logged : arrived.log.append ⟨"Guest", "arrive"⟩ [] [] [] = .ok (visited.log, visiting) := rfl
  have visits : Runs narrow visited True := .log (.log .start logs_arriving) logged
  have first : visited.log.cascade 1 ≠ [] := by decide +kernel
  have second : visited.log.cascade 2 ≠ [] := by decide +kernel
  exact ⟨_, (((((visits.save first).close 0).save second).close 1).save first).close 2⟩

/-- An arrival is written twice, because it was saved by two at once, or because the recorder has
forgotten it over another, although it is still in the log. -/
theorem writes_arrival_again :
    Initial {} ∧ (∃ punctual, Runs {} hurried punctual) ∧ hurried.written = [1, 1] ∧
      Initial narrow ∧ (∃ punctual, Runs narrow crowded punctual) ∧ crowded.written = [1, 2, 1] :=
  ⟨empty_initial, runs_hurried, by decide +kernel, ⟨.start, rfl, rfl, rfl⟩, runs_crowded,
    by decide +kernel⟩

end Guestbook

end Choreography
