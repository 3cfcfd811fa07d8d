import Choreography.Dispatch
import Choreography.Proofs.Log.Chain
import Choreography.Proofs.Log.History
import Choreography.Proofs.Matching.Exactness

/-! Matching sees the past of its trigger only. What is logged later, and what becomes of
other cascades, changes neither the frames of a trigger nor the depth of their calls. -/

namespace Choreography

/-- What the cascade of an invocation had come to when that was logged. -/
def InvocationLog.past (log : InvocationLog) (trigger : Invocation) : List Invocation :=
  log.entries.filter fun i => i.root = trigger.root ∧ i.id ≤ trigger.id

variable {log later : InvocationLog} {trigger i : Invocation} {seat place : Nat} {rule : Rule}
  {f : Frame} {id : InvocationId}

open InvocationLog

theorem mem_past_iff : i ∈ log.past trigger ↔
    i ∈ log.entries ∧ i.root = trigger.root ∧ i.id ≤ trigger.id := by
  rw [past, List.mem_filter, decide_eq_true_iff]

theorem InvocationLog.Coherent.candidates_eq_past (coherent : log.Coherent) (action : ActionRef) :
    log.candidates action trigger.root trigger.id =
      (log.past trigger).filter (·.action = action) := by
  rw [coherent.candidates_eq, past, List.filter_filter]
  apply List.filter_congr
  intro i _
  by_cases isRoot : i.root = trigger.root <;> by_cases isAction : i.action = action <;>
    simp [isRoot, isAction]

/-! ### Logs with the same past -/

section SamePast

variable (reached : log.Reachable) (laterReached : later.Reachable)
  (same : later.past trigger = log.past trigger)

include reached laterReached same

theorem ancestorsOf_congr (inPast : i ∈ log.past trigger) :
    later.ancestorsOf i.id = log.ancestorsOf i.id := by
  have inLater : i ∈ later.past trigger := same ▸ inPast
  rw [ancestorsOf, ancestorsOf, reached.coherent.get?_of_mem (mem_past_iff.mp inPast).1,
    laterReached.coherent.get?_of_mem (mem_past_iff.mp inLater).1]

/-- What descends from the past, and is not later than the trigger, belongs to the past itself. -/
theorem mem_ancestorsOf_of_past (inPast : i ∈ log.past trigger) (early : id ≤ trigger.id)
    (descends : i.id ∈ log.ancestorsOf id) : i.id ∈ later.ancestorsOf id := by
  obtain ⟨held, isRoot, _⟩ := mem_past_iff.mp inPast
  cases found : log.get? id with
  | none => simp [ancestorsOf, found] at descends
  | some j =>
    rw [ancestorsOf, found] at descends
    obtain ⟨alsoHeld, rfl⟩ := reached.coherent.get?_eq_some_iff.mp found
    obtain ⟨k, kHeld, sameId, sameRoot, _⟩ :=
      reached.held_of_precedes alsoHeld ((reached.mem_ancestors_iff alsoHeld).mp descends)
    have isI : k = i := reached.coherent.eq_of_id_eq kHeld held sameId
    have alsoInPast : j ∈ log.past trigger :=
      mem_past_iff.mpr ⟨alsoHeld, by rw [← sameRoot, isI, isRoot], early⟩
    rw [ancestorsOf_congr reached laterReached same alsoInPast, ancestorsOf, found]
    exact descends

theorem related_congr (inPast : i ∈ log.past trigger) (early : id ≤ trigger.id) :
    later.related i.id id = log.related i.id id := by
  have inLater : i ∈ later.past trigger := same ▸ inPast
  rw [Bool.eq_iff_iff]
  simp only [related, ancestorsOf_congr reached laterReached same inPast, Bool.or_eq_true,
    decide_eq_true_eq]
  refine or_congr_left (or_congr_right ⟨?_, ?_⟩)
  · exact mem_ancestorsOf_of_past laterReached reached same.symm inLater early
  · exact mem_ancestorsOf_of_past reached laterReached same inPast early

theorem with?_congr {before : Partial} (p : Pattern) (inPast : i ∈ log.past trigger)
    (early : ∀ entry ∈ before.placed, entry.2.id ≤ trigger.id) :
    before.with? later place p i = before.with? log place p i := by
  have admits : before.admits later i = before.admits log i := by
    rw [Bool.eq_iff_iff, Partial.admits_iff, Partial.admits_iff]
    refine and_congr_right fun _ => exists_congr fun entry => and_congr_right fun inside => ?_
    rw [related_congr reached laterReached same inPast (early entry inside)]
  rw [Partial.with?, Partial.with?, admits]

theorem rows_congr (patterns : List Pattern) {before : Partial}
    (early : ∀ entry ∈ before.placed, entry.2.id ≤ trigger.id) :
    rows later trigger seat place patterns before = rows log trigger seat place patterns before := by
  induction patterns generalizing place before with
  | nil => rfl
  | cons p rest ih =>
    rw [rows, rows]
    split
    · rw [ih early]
    · rw [reached.coherent.candidates_eq_past, laterReached.coherent.candidates_eq_past, same]
      apply List.flatMap_congr
      intro i isCandidate
      have inPast := (List.mem_filter.mp isCandidate).1
      rw [with?_congr reached laterReached same p inPast early]
      split
      · rfl
      · next next stepped =>
        rw [ih]
        rw [(Partial.with?_eq_some_iff.mp stepped).2.2.2]
        intro entry inside
        rcases List.mem_append.mp inside with before | new
        · exact early entry before
        · rw [List.mem_singleton.mp new]
          exact (mem_past_iff.mp inPast).2.2

/-- Logs with the same past of a trigger give it the same frames. -/
theorem matchAt_congr : rule.matchAt trigger later = rule.matchAt trigger log := by
  rw [Rule.matchAt, Rule.matchAt]
  refine congrArg distinctSupports (List.flatMap_congr fun entry _ => ?_)
  rw [seededAt, seededAt]
  split
  · rfl
  · dsimp only
    rw [fillPlaces_eq_rows, fillPlaces_eq_rows, List.flatMap_singleton, List.flatMap_singleton,
      rows_congr reached laterReached same]
    intro entry inside
    rw [List.mem_singleton.mp inside]

end SamePast

/-! ### Logs that come later -/

theorem InvocationLog.Becomes.past_eq (becomes : log.Becomes later) (reached : log.Reachable)
    (held : trigger ∈ log.entries) (stays : trigger ∈ later.entries) :
    later.past trigger = log.past trigger := by
  induction becomes with
  | refl => rfl
  | @append between _ _ _ _ grown i becomes logged ih =>
    obtain ⟨entries, isNext, _⟩ := (becomes.reached reached).coherent.append_entries logged
    have known := (reached.coherent.bounded trigger held).2
    have below := Int.lt_of_lt_of_le known (becomes.next_le reached)
    have heldBefore : trigger ∈ between.entries := by
      rw [entries] at stays
      rcases List.mem_append.mp stays with old | new
      · exact old
      · rw [List.mem_singleton.mp new, isNext] at below
        exact absurd below (Int.lt_irrefl _)
    rw [past, entries, List.filter_append, ← past, ih heldBefore, List.append_right_eq_self,
      List.filter_eq_nil_iff]
    intro j isNew
    rw [List.mem_singleton.mp isNew, isNext, decide_eq_true_iff]
    exact fun ⟨_, notBelow⟩ => Int.not_lt.mpr notBelow below
  | forget root becomes ih =>
    have between := (becomes.reached reached).coherent
    obtain ⟨heldBefore, kept⟩ := between.mem_entries_forget.mp stays
    rw [past, between.entries_forget, List.filter_filter, ← ih heldBefore, past]
    apply List.filter_congr
    intro i _
    by_cases isRoot : i.root = trigger.root
    · simp [isRoot, kept]
    · simp [isRoot]

/-- As long as a trigger is in the log, a rule has the same frames around it. -/
theorem InvocationLog.Becomes.matchAt_eq (becomes : log.Becomes later) (reached : log.Reachable)
    (held : trigger ∈ log.entries) (stays : trigger ∈ later.entries) (rule : Rule) :
    rule.matchAt trigger later = rule.matchAt trigger log :=
  matchAt_congr reached (becomes.reached reached) (becomes.past_eq reached held stays)

theorem InvocationLog.Coherent.mapM_get_of_mem (coherent : log.Coherent) {causes : List Invocation}
    (held : ∀ i ∈ causes, i ∈ log.entries) : (causes.map (·.id)).mapM log.get = .ok causes := by
  induction causes with
  | nil => rfl
  | cons i causes ih =>
    have found := get_eq_ok_iff.mpr (coherent.get?_of_mem (held i List.mem_cons_self))
    rw [List.map_cons, List.mapM_cons, found, ih fun j inside => held j (List.mem_cons_of_mem i inside)]
    rfl

/-- As long as a support is in the log, its calls have the same depth. -/
theorem InvocationLog.Becomes.depthOf_eq (becomes : log.Becomes later) (reached : log.Reachable)
    {support : List InvocationId} (found : Dispatch.depthOf log support = .ok depth)
    (stays : ∀ id ∈ support, ∃ i ∈ later.entries, i.id = id) :
    Dispatch.depthOf later support = .ok depth := by
  rw [Dispatch.depthOf] at found ⊢
  split at found
  · cases found
  · cases found
  · next causes notEmpty isCauses =>
    obtain ⟨rfl, held⟩ := reached.coherent.mapM_get_eq_ok isCauses
    have stillHeld : ∀ i ∈ causes, i ∈ later.entries := by
      intro i inside
      obtain ⟨j, isHeld, sameId⟩ := stays i.id (List.mem_map_of_mem inside)
      have known := (reached.coherent.bounded i (held i inside)).2
      have before := becomes.held_before reached isHeld (sameId ▸ known)
      exact reached.coherent.eq_of_id_eq before (held i inside) sameId ▸ isHeld
    rw [(becomes.reached reached).coherent.mapM_get_of_mem stillHeld]
    cases causes with
    | nil => exact absurd rfl notEmpty
    | cons => exact found

/-! ### What every frame of a trigger has in common -/

theorem distinctSupports_subset (frames : Frames) : ∀ f ∈ distinctSupports frames, f ∈ frames := by
  unfold distinctSupports
  apply List.foldlRecOn (motive := fun seen : Frames => ∀ f ∈ seen, f ∈ frames)
  · exact List.forall_mem_nil _
  · intro seen included g isFrame
    split
    · exact included
    · intro f inside
      rcases List.mem_append.mp inside with inSeen | isNew
      · exact included f inSeen
      · rw [List.mem_singleton.mp isNew]
        exact isFrame

/-- What comes out of matching rests on distinct supports, whatever went in. -/
theorem nodup_distinctSupports (frames : Frames) :
    ((distinctSupports frames).map (·.support)).Nodup := by
  unfold distinctSupports
  apply List.foldlRecOn (motive := fun seen : Frames => (seen.map (·.support)).Nodup)
  · exact .nil
  · intro seen distinct g _
    split
    · exact distinct
    · next isNew =>
      rw [List.map_append, List.map_singleton]
      refine distinct.append (List.nodup_singleton _) ?_
      intro support inSeen isSame
      obtain ⟨f, inside, same⟩ := List.mem_map.mp inSeen
      rw [List.mem_singleton.mp isSame] at same
      exact isNew (List.any_eq_true.mpr ⟨f, inside, beq_iff_eq.mpr same⟩)

theorem nodup_matchAt (rule : Rule) (trigger : Invocation) (log : InvocationLog) :
    ((rule.matchAt trigger log).map (·.support)).Nodup :=
  nodup_distinctSupports _

/-- A frame comes from a row that was begun with the trigger in its seat. -/
theorem exists_row (found : f ∈ rule.matchAt trigger log) :
    ∃ seat < rule.whens.length, ∃ bindings row filled,
      (row, filled) ∈ rows log trigger seat 0 rule.whens { placed := [(seat, trigger)], bindings } ∧
        f.support = filled.support rule.whens.length := by
  obtain ⟨⟨p, seat⟩, isEntry, inSeat⟩ := List.mem_flatMap.mp (distinctSupports_subset _ f found)
  obtain ⟨inWhens, _⟩ := List.getElem?_eq_some_iff.mp (List.mem_zipIdx_iff_getElem?.mp isEntry)
  unfold seededAt at inSeat
  split at inSeat
  · cases inSeat
  · next bindings _ =>
    obtain ⟨filled, isFilled, rfl⟩ := List.mem_map.mp inSeat
    rw [fillPlaces_eq_rows, List.flatMap_singleton] at isFilled
    obtain ⟨⟨row, filled⟩, isRow, rfl⟩ := List.mem_map.mp isFilled
    exact ⟨seat, inWhens, bindings, row, filled, isRow, rfl⟩

/-- A trigger is in the support of its frames, whether it is in the log or not. -/
theorem trigger_mem_support (found : f ∈ rule.matchAt trigger log) : trigger.id ∈ f.support := by
  obtain ⟨seat, inWhens, bindings, row, filled, isRow, support⟩ := exists_row found
  rw [support]
  refine List.mem_filterMap.mpr ⟨seat, List.mem_range.mpr inWhens, ?_⟩
  rw [(mem_rows_iff.mp isRow).2.1]
  simp

/-- A frame rests on a tuple that fits, of the trigger and of what is logged, whether the trigger is
in the log or not. -/
theorem exists_restsOn_of_mem_matchAt (coherent : log.Coherent) (found : f ∈ rule.matchAt trigger log) :
    ∃ tuple, f.RestsOn rule trigger tuple ∧ ∀ i ∈ tuple, i = trigger ∨ i ∈ log.entries := by
  obtain ⟨⟨p, seat⟩, isEntry, inSeat⟩ := List.mem_flatMap.mp (distinctSupports_subset _ f found)
  have isPattern : rule.whens[seat]? = some p := List.mem_zipIdx_iff_getElem?.mp isEntry
  unfold seededAt at inSeat
  split at inSeat
  · cases inSeat
  · next bindings seeded =>
    obtain ⟨filled, isFilled, rfl⟩ := List.mem_map.mp inSeat
    rw [fillPlaces_eq_rows, List.flatMap_singleton] at isFilled
    obtain ⟨⟨row, filled⟩, isRow, rfl⟩ := List.mem_map.mp isFilled
    obtain ⟨chosen, placed, observesOthers⟩ := mem_rows_iff.mp isRow
    obtain ⟨fitsTrigger, observesSeat⟩ := Pattern.unify_eq_some_iff.mp seeded
    have seated := chosen.seated (List.getElem?_eq_some_iff.mp isPattern).1
    have perm := observe_perm isPattern seated
    have observes : observeAll? [] (p.observe trigger ++ observeOthers seat 0 rule.whens row) =
        some filled.bindings := by
      rw [observeAll?_append, Pattern.observe, observesSeat]
      exact observesOthers
    obtain ⟨_, bound, names, unique⟩ := observed_of_observeAll? observes
    refine ⟨row, ⟨?_, rfl, fun name => ?_, unique List.nodup_nil, fun name value known => ?_⟩,
      fun i inside => ?_⟩
    · exact (chosen_iff.mp chosen).1 ▸ support_of_placed seated placed
    · rw [names, (perm.map _).mem_iff, mem_map_fst_observe (chosen.fits isPattern fitsTrigger seated)]
      simp
    · rcases bound name value known with isBound | inTuple
      · cases isBound
      · exact perm.mem_iff.mp inTuple
    · obtain ⟨k, isMember⟩ := List.mem_iff_getElem?.mp inside
      by_cases isSeat : k = seat
      · rw [isSeat, seated] at isMember
        exact .inl (Option.some.inj isMember).symm
      · obtain ⟨_, _, joins⟩ := chosen.joins isSeat isMember
        exact .inr (coherent.mem_candidates.mp joins.candidate).1

/-- Every place of a row is taken by something that had one before, or by some of the past of
the trigger. -/
theorem placed_of_mem_rows (coherent : log.Coherent) {patterns : List Pattern}
    {before filled : Partial} {row : List Invocation} {entry : Nat × Invocation}
    (isRow : (row, filled) ∈ rows log trigger seat place patterns before)
    (inside : entry ∈ filled.placed) : entry ∈ before.placed ∨ entry.2 ∈ log.past trigger := by
  induction patterns generalizing place before row with
  | nil =>
    cases List.mem_singleton.mp isRow
    exact .inl inside
  | cons p rest ih =>
    cases row with
    | nil => exact absurd isRow not_mem_rows_nil
    | cons i row =>
      by_cases isSeat : place = seat
      · exact ih ((mem_rows_seat isSeat).mp isRow).2
      · obtain ⟨isCandidate, next, stepped, isRest⟩ := (mem_rows_candidate isSeat).mp isRow
        rw [coherent.candidates_eq_past] at isCandidate
        rcases ih isRest with placed | inPast
        · rw [(Partial.with?_eq_some_iff.mp stepped).2.2.2] at placed
          rcases List.mem_append.mp placed with before | isNew
          · exact .inl before
          · rw [List.mem_singleton.mp isNew]
            exact .inr (List.mem_filter.mp isCandidate).1
        · exact .inr inPast

/-- A frame rests on its trigger and on some of the past of that. -/
theorem mem_past_of_mem_support (coherent : log.Coherent) (found : f ∈ rule.matchAt trigger log)
    {id : InvocationId} (inside : id ∈ f.support) :
    id = trigger.id ∨ ∃ i ∈ log.past trigger, i.id = id := by
  obtain ⟨seat, _, bindings, row, filled, isRow, support⟩ := exists_row found
  rw [support] at inside
  obtain ⟨place, _, isPlaced⟩ := List.mem_filterMap.mp inside
  obtain ⟨i, found, rfl⟩ := Option.map_eq_some_iff.mp isPlaced
  obtain ⟨before, after, isEntry, _⟩ := List.lookup_eq_some_iff.mp found
  have placed : (place, i) ∈ filled.placed := isEntry ▸ List.mem_append_right _ List.mem_cons_self
  rcases placed_of_mem_rows coherent isRow placed with isSeat | inPast
  · cases List.mem_singleton.mp isSeat
    exact .inl rfl
  · exact .inr ⟨i, inPast, rfl⟩

/-- A frame rests on nothing that is later than its trigger. -/
theorem id_le_of_mem_support (coherent : log.Coherent) (found : f ∈ rule.matchAt trigger log)
    {id : InvocationId} (inside : id ∈ f.support) : id ≤ trigger.id := by
  rcases mem_past_of_mem_support coherent found inside with rfl | ⟨i, inPast, rfl⟩
  · exact Int.le_refl _
  · exact (mem_past_iff.mp inPast).2.2

/-- The trigger of a frame is the latest of its support, and so no other. -/
theorem trigger_eq_of_matched {other : Rule} {g : Frame} {first : Invocation} (coherent : log.Coherent)
    (held : trigger ∈ log.entries) (firstHeld : first ∈ log.entries)
    (found : f ∈ rule.matchAt trigger log) (alsoFound : g ∈ other.matchAt first log)
    (same : f.support = g.support) : trigger = first := by
  refine coherent.eq_of_id_eq held firstHeld (Int.le_antisymm ?_ ?_)
  · exact id_le_of_mem_support coherent alsoFound (same ▸ trigger_mem_support found)
  · exact id_le_of_mem_support coherent found (same ▸ trigger_mem_support alsoFound)

/-- A rule that does not listen for the action of a trigger has no frames around it. -/
theorem matchAt_eq_nil (deaf : ∀ p ∈ rule.whens, p.action ≠ trigger.action) :
    rule.matchAt trigger log = [] := by
  apply List.eq_nil_iff_forall_not_mem.mpr
  intro f found
  obtain ⟨⟨p, seat⟩, isEntry, inSeat⟩ := List.mem_flatMap.mp (distinctSupports_subset _ f found)
  have isPattern : p ∈ rule.whens := List.mem_of_getElem? (List.mem_zipIdx_iff_getElem?.mp isEntry)
  unfold seededAt at inSeat
  split at inSeat
  · cases inSeat
  · next unified =>
    exact deaf p isPattern (Pattern.unify_eq_some_iff.mp unified).1.action

end Choreography
