import Choreography.Proofs.Log.Index

/-! The log is coherent: it holds its invocations in the order of their identifiers,
all below the next one, and every index lists exactly these. Logging a call adds one
invocation at the end; forgetting a cascade takes out exactly the invocations of it. -/

namespace Choreography

/-! ### Sorted sets -/

theorem mem_insertSorted : m ∈ insertSorted n ns ↔ m = n ∨ m ∈ ns := by
  induction ns with
  | nil => simp [insertSorted]
  | cons first rest ih =>
    unfold insertSorted
    split
    · simp
    · split
      · next same => simp [same]
      · simp only [List.mem_cons, ih]
        exact or_left_comm

theorem mem_sortedSet : m ∈ sortedSet ns ↔ m ∈ ns := by
  induction ns with
  | nil => simp [sortedSet]
  | cons first rest ih =>
    rw [sortedSet] at ih ⊢
    rw [List.foldr_cons, mem_insertSorted, ih, List.mem_cons]

theorem insertSorted_pairwise (sorted : ns.Pairwise (· < ·)) : (insertSorted n ns).Pairwise (· < ·) := by
  induction ns with
  | nil => simp [insertSorted]
  | cons first rest ih =>
    obtain ⟨below, restSorted⟩ := List.pairwise_cons.mp sorted
    unfold insertSorted
    split
    · next before =>
      refine List.pairwise_cons.mpr ⟨?_, sorted⟩
      intro m inside
      rcases List.mem_cons.mp inside with rfl | inRest
      · exact before
      · exact Int.lt_trans before (below m inRest)
    · next notBefore =>
      split
      · exact sorted
      · next notSame =>
        refine List.pairwise_cons.mpr ⟨?_, ih restSorted⟩
        intro m inside
        rcases mem_insertSorted.mp inside with rfl | inRest
        · exact Int.lt_iff_le_and_ne.mpr ⟨Int.not_lt.mp notBefore, Ne.symm notSame⟩
        · exact below m inRest

theorem sortedSet_pairwise (ns : List InvocationId) : (sortedSet ns).Pairwise (· < ·) := by
  induction ns with
  | nil => exact .nil
  | cons first rest ih => exact insertSorted_pairwise ih

namespace InvocationLog

/-- Logs that come about by logging calls and forgetting cascades. -/
inductive Reachable : InvocationLog → Prop where
  | start : Reachable {}
  | append (reached : Reachable log) (logged : log.append action input output causes = .ok (grown, i)) :
      Reachable grown
  | forget (root : InvocationId) (reached : Reachable log) : Reachable (log.forget root)

variable {log grown : InvocationLog} {id root last : InvocationId} {i j : Invocation}

/-- The invocations in the log, in the order of their logging. -/
def entries (log : InvocationLog) : List Invocation := log.byId.map (·.2)

/-- What the log holds, it holds in order and in every index. -/
structure Coherent (log : InvocationLog) : Prop where
  keyed : ∀ entry ∈ log.byId, entry.1 = entry.2.id
  ascending : log.entries.Pairwise (·.id < ·.id)
  positive : 1 ≤ log.next
  bounded : ∀ i ∈ log.entries, 1 ≤ i.id ∧ i.id < log.next
  byAction : log.byAction.Lists (·.action) log.entries
  byRoot : log.byRoot.Lists (·.root) log.entries
  byRootAction : log.byRootAction.Lists (fun i => (i.root, i.action)) log.entries

/-! ### Looking up -/

theorem Coherent.get?_eq_some_iff (coherent : log.Coherent) :
    log.get? id = some i ↔ i ∈ log.entries ∧ i.id = id := by
  have keyed := coherent.keyed
  have ascending := coherent.ascending
  rw [get?, entries] at *
  generalize log.byId = byId at *
  induction byId with
  | nil => simp
  | cons entry rest ih =>
    obtain ⟨key, held⟩ := entry
    obtain ⟨isKey, restKeyed⟩ := List.forall_mem_cons.mp keyed
    obtain ⟨below, restAscending⟩ := List.pairwise_cons.mp ascending
    obtain rfl : key = held.id := isKey
    rw [List.lookup_cons]
    by_cases called : id = held.id
    · subst called
      simp only [beq_self_eq_true, Option.some.injEq, List.map_cons, List.mem_cons]
      constructor
      · rintro rfl
        exact ⟨.inl rfl, rfl⟩
      · rintro ⟨rfl | inRest, sameId⟩
        · rfl
        · exact absurd sameId (Int.ne_of_gt (below i (by simpa using inRest)))
    · simp only [beq_false_of_ne called, ih restKeyed restAscending, List.map_cons, List.mem_cons]
      constructor
      · exact fun ⟨inRest, sameId⟩ => ⟨.inr inRest, sameId⟩
      · rintro ⟨rfl | inRest, sameId⟩
        · exact absurd sameId.symm called
        · exact ⟨inRest, sameId⟩

theorem Coherent.get?_of_mem (coherent : log.Coherent) (held : i ∈ log.entries) :
    log.get? i.id = some i :=
  coherent.get?_eq_some_iff.mpr ⟨held, rfl⟩

/-- An identifier belongs to one invocation only. -/
theorem Coherent.eq_of_id_eq (coherent : log.Coherent) (first : i ∈ log.entries)
    (second : j ∈ log.entries) (sameId : i.id = j.id) : i = j := by
  have found := coherent.get?_of_mem first
  rw [sameId, coherent.get?_of_mem second] at found
  exact (Option.some.inj found).symm

theorem Coherent.cascade_eq (coherent : log.Coherent) (root : InvocationId) :
    log.cascade root = log.entries.filter (·.root = root) :=
  coherent.byRoot.exact root

theorem Coherent.mem_cascade (coherent : log.Coherent) :
    i ∈ log.cascade root ↔ i ∈ log.entries ∧ i.root = root := by
  rw [coherent.cascade_eq, List.mem_filter, decide_eq_true_iff]

theorem Coherent.candidates_eq (coherent : log.Coherent) (action : ActionRef)
    (root last : InvocationId) : log.candidates action root last =
      log.entries.filter fun i => i.root = root ∧ i.action = action ∧ i.id ≤ last := by
  rw [candidates, coherent.byRootAction.exact, List.filter_filter]
  apply List.filter_congr
  intro i _
  simp only [Prod.mk.injEq, Bool.decide_and, Bool.and_comm, Bool.and_assoc]

theorem Coherent.mem_candidates (coherent : log.Coherent) :
    i ∈ log.candidates action root last ↔
      i ∈ log.entries ∧ i.root = root ∧ i.action = action ∧ i.id ≤ last := by
  rw [coherent.candidates_eq, List.mem_filter, decide_eq_true_iff]

theorem Coherent.candidates_ascending (coherent : log.Coherent) :
    (log.candidates action root last).Pairwise (·.id < ·.id) := by
  rw [coherent.candidates_eq]
  exact coherent.ascending.filter _

/-! ### Logging a call -/

theorem get_eq_ok_iff : log.get id = .ok i ↔ log.get? id = some i := by
  unfold get
  split
  · next found => simp [found]
  · next missing => simp [missing]

/-- Looking up several identifiers finds one invocation for each. -/
theorem Coherent.mapM_get_eq_ok (coherent : log.Coherent) {ids : List InvocationId}
    (found : ids.mapM log.get = .ok parents) :
    parents.map (·.id) = ids ∧ ∀ p ∈ parents, p ∈ log.entries := by
  induction ids generalizing parents with
  | nil =>
    cases found
    exact ⟨rfl, nofun⟩
  | cons id ids ih =>
    rw [List.mapM_cons] at found
    cases first : log.get id with
    | error failure =>
      rw [first] at found
      cases found
    | ok p =>
      cases others : ids.mapM log.get with
      | error failure =>
        rw [first, others] at found
        cases found
      | ok ps =>
        rw [first, others] at found
        cases found
        obtain ⟨held, isId⟩ := coherent.get?_eq_some_iff.mp (get_eq_ok_iff.mp first)
        obtain ⟨areIds, allHeld⟩ := ih others
        exact ⟨by rw [List.map_cons, isId, areIds], List.forall_mem_cons.mpr ⟨held, allHeld⟩⟩

theorem mapM_get_of_held {ids : List InvocationId} (held : ∀ id ∈ ids, ∃ i, log.get? id = some i) :
    ∃ parents, ids.mapM log.get = .ok parents := by
  induction ids with
  | nil => exact ⟨[], rfl⟩
  | cons id ids ih =>
    obtain ⟨p, found⟩ := held id List.mem_cons_self
    obtain ⟨ps, others⟩ := ih fun other inside => held other (List.mem_cons_of_mem id inside)
    refine ⟨p :: ps, ?_⟩
    rw [List.mapM_cons, get_eq_ok_iff.mpr found, others]
    rfl

private theorem eq_of_mem_of_length_le_one {ns : List InvocationId} (few : (sortedSet ns).length ≤ 1)
    (first : m ∈ ns) (second : n ∈ ns) : m = n := by
  rw [← mem_sortedSet] at first second
  match distinct : sortedSet ns with
  | [] =>
    rw [distinct] at first
    cases first
  | [only] =>
    rw [distinct] at first second
    exact (List.mem_singleton.mp first).trans (List.mem_singleton.mp second).symm
  | _ :: _ :: _ =>
    rw [distinct] at few
    simp at few

/-- What a logged call consists of: its causes are in the log and of one cascade. -/
theorem Coherent.append_eq_ok (coherent : log.Coherent)
    (logged : log.append action input output causes = .ok (grown, i)) :
    ∃ parents, parents.map (·.id) = sortedSet causes ∧ (∀ p ∈ parents, p ∈ log.entries) ∧
      (∀ p ∈ parents, ∀ q ∈ parents, p.root = q.root) ∧
      i = log.describe action input output parents ∧ grown = log.enter i := by
  rw [append] at logged
  split at logged
  · split at logged <;> cases logged
  · next parents found =>
    obtain ⟨areCauses, held⟩ := coherent.mapM_get_eq_ok found
    split at logged
    · cases logged
    · next oneRoot =>
      cases logged
      refine ⟨parents, areCauses, held, ?_, rfl, rfl⟩
      intro p isP q isQ
      have few : (sortedSet (parents.map (·.root))).length ≤ 1 := by
        match distinct : sortedSet (parents.map (·.root)) with
        | [] => simp [distinct]
        | [_] => simp [distinct]
        | first :: second :: more => exact absurd distinct (oneRoot first second more)
      exact eq_of_mem_of_length_le_one few (List.mem_map_of_mem isP) (List.mem_map_of_mem isQ)

/-- A call whose causes are in the log and of one cascade can be logged. -/
theorem Coherent.append_ok (coherent : log.Coherent)
    (held : ∀ id ∈ causes, ∃ p ∈ log.entries, p.id = id ∧ p.root = root) :
    ∃ i, log.append action input output causes = .ok (log.enter i, i) := by
  have inLog : ∀ id ∈ sortedSet causes, ∃ p, log.get? id = some p := by
    intro id inside
    obtain ⟨p, isHeld, isId, _⟩ := held id (mem_sortedSet.mp inside)
    exact ⟨p, coherent.get?_eq_some_iff.mpr ⟨isHeld, isId⟩⟩
  obtain ⟨parents, found⟩ := mapM_get_of_held inLog
  obtain ⟨areCauses, areHeld⟩ := coherent.mapM_get_eq_ok found
  have ofRoot : ∀ r ∈ sortedSet (parents.map (·.root)), r = root := by
    intro r inside
    obtain ⟨p, isParent, rfl⟩ := List.mem_map.mp (mem_sortedSet.mp inside)
    have isCause : p.id ∈ sortedSet causes := areCauses ▸ List.mem_map_of_mem isParent
    obtain ⟨q, isHeld, sameId, rfl⟩ := held p.id (mem_sortedSet.mp isCause)
    rw [coherent.eq_of_id_eq (areHeld p isParent) isHeld sameId.symm]
  rw [append, found]
  dsimp only
  split
  · next first second more distinct =>
    have sorted := sortedSet_pairwise (parents.map (·.root))
    rw [distinct] at sorted ofRoot
    have below := (List.pairwise_cons.mp sorted).1 second List.mem_cons_self
    rw [ofRoot first (by simp), ofRoot second (by simp)] at below
    exact absurd below (Int.lt_irrefl root)
  · exact ⟨_, rfl⟩

@[simp] theorem entries_enter : (log.enter i).entries = log.entries ++ [i] := by
  simp [entries, enter]

theorem Coherent.enter (coherent : log.Coherent) (isNext : i.id = log.next) :
    (log.enter i).Coherent where
  keyed entry inside := by
    rcases List.mem_append.mp inside with inside | inside
    · exact coherent.keyed entry inside
    · rw [List.mem_singleton.mp inside]
  ascending := by
    rw [entries_enter, List.pairwise_append]
    refine ⟨coherent.ascending, List.pairwise_singleton _ _, ?_⟩
    intro j held k isNew
    rw [List.mem_singleton.mp isNew, isNext]
    exact (coherent.bounded j held).2
  positive := Int.le_add_one coherent.positive
  bounded j inside := by
    rw [entries_enter, List.mem_append, List.mem_singleton] at inside
    rcases inside with held | rfl
    · obtain ⟨low, high⟩ := coherent.bounded j held
      exact ⟨low, Int.lt_trans high (Int.lt_succ _)⟩
    · rw [isNext]
      exact ⟨coherent.positive, Int.lt_succ _⟩
  byAction := by
    rw [entries_enter]
    exact coherent.byAction.add i
  byRoot := by
    rw [entries_enter]
    exact coherent.byRoot.add i
  byRootAction := by
    rw [entries_enter]
    exact coherent.byRootAction.add i

/-! ### Forgetting a cascade -/

private theorem foldl_restrict_lists {index : LogIndex κ} [DecidableEq κ] {keyOf : Invocation → κ}
    (lists : index.Lists keyOf all) (keys : List κ) (keep : Invocation → Bool) :
    (keys.foldl (fun index key => index.restrict key keep) index).Lists keyOf
      (all.filter fun i => keyOf i ∉ keys || keep i) := by
  induction keys generalizing index all with
  | nil =>
    rw [List.filter_eq_self.mpr fun _ _ => by simp]
    exact lists
  | cons key keys ih =>
    have later := ih (lists.restrict key keep)
    rw [List.filter_filter] at later
    rw [List.foldl_cons, List.filter_congr fun i _ => ?_]
    · exact later
    · by_cases isKey : keyOf i = key <;> cases keep i <;> simp [isKey]

private theorem foldl_erase_lists {index : LogIndex κ} [DecidableEq κ] {keyOf : Invocation → κ}
    (lists : index.Lists keyOf all) (keys : List κ) :
    (keys.foldl (fun index key => index.erase key) index).Lists keyOf
      (all.filter fun i => keyOf i ∉ keys) := by
  induction keys generalizing index all with
  | nil =>
    rw [List.filter_eq_self.mpr fun _ _ => by simp]
    exact lists
  | cons key keys ih =>
    have later := ih (lists.erase key)
    rw [List.filter_filter] at later
    rw [List.foldl_cons, List.filter_congr fun i _ => ?_]
    · exact later
    · by_cases isKey : keyOf i = key <;> simp [isKey]

/-- What is kept when a cascade is forgotten: all that does not belong to it. -/
private theorem Coherent.isKept_eq (coherent : log.Coherent) (held : i ∈ log.entries) :
    (log.cascade root).all (·.id ≠ i.id) = decide (i.root ≠ root) := by
  rw [Bool.eq_iff_iff, List.all_eq_true, decide_eq_true_iff]
  constructor
  · intro kept isRoot
    simpa using kept i (coherent.mem_cascade.mpr ⟨held, isRoot⟩)
  · intro notRoot j inCascade
    obtain ⟨isHeld, isRoot⟩ := coherent.mem_cascade.mp inCascade
    refine decide_eq_true fun sameId => notRoot ?_
    rw [← coherent.eq_of_id_eq isHeld held sameId]
    exact isRoot

@[simp] theorem Coherent.entries_forget (coherent : log.Coherent) (root : InvocationId) :
    (log.forget root).entries = log.entries.filter (·.root ≠ root) := by
  rw [entries, entries, List.filter_map, forget]
  refine congrArg _ (List.filter_congr fun entry inside => ?_)
  exact coherent.isKept_eq (List.mem_map_of_mem inside)

theorem Coherent.mem_entries_forget (coherent : log.Coherent) :
    i ∈ (log.forget root).entries ↔ i ∈ log.entries ∧ i.root ≠ root := by
  rw [coherent.entries_forget, List.mem_filter, decide_eq_true_iff]

theorem Coherent.forget (coherent : log.Coherent) (root : InvocationId) :
    (log.forget root).Coherent where
  keyed entry inside := coherent.keyed entry (List.mem_filter.mp inside).1
  ascending := by
    rw [coherent.entries_forget]
    exact coherent.ascending.filter _
  positive := coherent.positive
  bounded i inside := coherent.bounded i (coherent.mem_entries_forget.mp inside).1
  byAction := by
    rw [coherent.entries_forget,
      ← List.filter_congr (p := fun i => i.action ∉ (log.cascade root).map (·.action) ||
        (log.cascade root).all (·.id ≠ i.id)) fun i held => ?_]
    · exact foldl_restrict_lists coherent.byAction _ _
    · rw [coherent.isKept_eq held]
      by_cases isRoot : i.root = root
      · have dropped := List.mem_map_of_mem (f := (·.action)) (coherent.mem_cascade.mpr ⟨held, isRoot⟩)
        simp only [dropped, not_true_eq_false, decide_false, Bool.false_or]
      · simp [isRoot]
  byRoot := by
    rw [coherent.entries_forget]
    exact coherent.byRoot.erase root
  byRootAction := by
    have lists := foldl_erase_lists coherent.byRootAction
      (((log.cascade root).map (·.action)).map fun action => (root, action))
    rw [List.foldl_map] at lists
    rw [coherent.entries_forget, ← List.filter_congr fun i held => ?_]
    · exact lists
    · refine decide_eq_decide.mpr (not_congr ⟨fun inside => ?_, fun isRoot => ?_⟩)
      · obtain ⟨action, _, isKey⟩ := List.mem_map.mp inside
        exact (congrArg Prod.fst isKey).symm
      · exact List.mem_map.mpr ⟨i.action,
          List.mem_map_of_mem (coherent.mem_cascade.mpr ⟨held, isRoot⟩), by rw [isRoot]⟩

theorem Coherent.start : ({} : InvocationLog).Coherent where
  keyed := nofun
  ascending := .nil
  positive := Int.le_refl 1
  bounded := nofun
  byAction := .nil
  byRoot := .nil
  byRootAction := .nil

theorem Coherent.append (coherent : log.Coherent)
    (logged : log.append action input output causes = .ok (grown, i)) : grown.Coherent := by
  obtain ⟨parents, _, _, _, rfl, rfl⟩ := coherent.append_eq_ok logged
  exact coherent.enter rfl

theorem Reachable.coherent (reached : log.Reachable) : log.Coherent := by
  induction reached with
  | start => exact .start
  | append _ logged ih => exact ih.append logged
  | forget root _ ih => exact ih.forget root

end InvocationLog

end Choreography
