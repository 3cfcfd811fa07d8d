import Choreography.Proofs.Log.Ledger

/-! What a log holds, against a plain list. The requests alone tell what is retained: a call that
is taken adds one invocation at the end, and forgetting a cascade takes out what belongs to it.
Whatever was asked of a log, it answers as a search of that list does, although it never searches
it but keeps one index for each question. -/

namespace Choreography

namespace InvocationLog

/-- A log answers as a search of these invocations does. -/
structure Indexes (log : InvocationLog) (retained : List Invocation) : Prop where
  ascending : retained.Pairwise (·.id < ·.id)
  size : log.size = retained.length
  get : ∀ id i, log.get id = .ok i ↔ i ∈ retained ∧ i.id = id
  cascade : ∀ root, log.cascade root = retained.filter (·.root = root)
  ofAction : ∀ action, log.ofAction action = retained.filter (·.action = action)
  candidates : ∀ action root last, log.candidates action root last =
    (log.cascade root).filter fun i => i.action = action ∧ i.id ≤ last
  cascade_ascending : ∀ root, (log.cascade root).Pairwise (·.id < ·.id)
  ofAction_ascending : ∀ action, (log.ofAction action).Pairwise (·.id < ·.id)
  candidates_ascending : ∀ action root last,
    (log.candidates action root last).Pairwise (·.id < ·.id)
  roots_nodup : log.roots.Nodup
  mem_roots : ∀ root, root ∈ log.roots ↔ ∃ i ∈ retained, i.root = root
  /-- No index keeps a key twice, or one under which nothing is left. -/
  byAction : log.byAction.Lists (·.action) retained
  byRoot : log.byRoot.Lists (·.root) retained
  byRootAction : log.byRootAction.Lists (fun i => (i.root, i.action)) retained

/-- Forgetting a cascade takes out of a log with these invocations all that belongs to it, and
nothing else. -/
structure Forgets (log : InvocationLog) (retained : List Invocation) (root : InvocationId) :
    Prop where
  count : log.forgottenBy root = (retained.filter (·.root = root)).length
  indexes : (log.forget root).Indexes (retained.filter (·.root ≠ root))
  gone : ∀ i ∈ retained, i.root = root → (log.forget root).contains i.id = false
  next : (log.forget root).next = log.next
  get : ∀ id, (∀ i ∈ retained, i.id = id → i.root ≠ root) →
    (log.forget root).get id = log.get id
  related : ∀ a b, (∀ i ∈ retained, i.id = a ∨ i.id = b → i.root ≠ root) →
    (log.forget root).related? a b = log.related? a b
  cascade : ∀ other, other ≠ root → (log.forget root).cascade other = log.cascade other
  candidates : ∀ action other last, other ≠ root →
    (log.forget root).candidates action other last = log.candidates action other last
  ofAction : ∀ action,
    (log.forget root).ofAction action = (log.ofAction action).filter (·.root ≠ root)

variable {log later : InvocationLog} {i : Invocation} {id root other a b : InvocationId}

/-! ### Looking up -/

theorem Coherent.candidates_eq_cascade (coherent : log.Coherent) (action : ActionRef)
    (root last : InvocationId) : log.candidates action root last =
      (log.cascade root).filter fun i => i.action = action ∧ i.id ≤ last := by
  rw [coherent.candidates_eq, coherent.cascade_eq, List.filter_filter]
  apply List.filter_congr
  intro i _
  rw [Bool.eq_iff_iff]
  simp only [decide_eq_true_eq, Bool.and_eq_true]
  exact and_comm

/-- A coherent log answers as a search of what it holds does. -/
theorem Coherent.indexes (coherent : log.Coherent) : log.Indexes log.entries := by
  constructor
  case ascending => exact coherent.ascending
  case size => rw [size, entries, List.length_map]
  case get => exact fun id i => get_eq_ok_iff.trans coherent.get?_eq_some_iff
  case cascade => exact coherent.cascade_eq
  case ofAction => exact coherent.byAction.exact
  case candidates => exact coherent.candidates_eq_cascade
  case cascade_ascending =>
    intro root
    rw [coherent.cascade_eq]
    exact coherent.ascending.filter _
  case ofAction_ascending =>
    intro action
    rw [ofAction, coherent.byAction.exact]
    exact coherent.ascending.filter _
  case candidates_ascending => exact fun _ _ _ => coherent.candidates_ascending
  case roots_nodup => exact coherent.byRoot.unique
  case mem_roots => exact fun _ => coherent.byRoot.mem_keys_iff
  case byAction => exact coherent.byAction
  case byRoot => exact coherent.byRoot
  case byRootAction => exact coherent.byRootAction

/-! ### Forgetting -/

theorem get_congr (same : later.get? id = log.get? id) : later.get id = log.get id := by
  rw [get, get, same]

/-- The causal question reads two invocations of the log, and nothing else. -/
theorem related?_congr (same : later.get? a = log.get? a) (alsoSame : later.get? b = log.get? b) :
    later.related? a b = log.related? a b := by
  unfold related? related contains ancestorsOf
  rw [same, alsoSame]

theorem Coherent.get?_forget (coherent : log.Coherent)
    (spared : ∀ i ∈ log.entries, i.id = id → i.root ≠ root) :
    (log.forget root).get? id = log.get? id := by
  ext i
  simp only [(coherent.forget root).get?_eq_some_iff, coherent.get?_eq_some_iff,
    coherent.mem_entries_forget]
  constructor
  · exact fun ⟨⟨held, _⟩, isId⟩ => ⟨held, isId⟩
  · exact fun ⟨held, isId⟩ => ⟨⟨held, spared i held isId⟩, isId⟩

theorem Coherent.contains_forget (coherent : log.Coherent) (held : i ∈ log.entries)
    (isRoot : i.root = root) : (log.forget root).contains i.id = false := by
  rw [contains, Option.isSome_eq_false_iff, Option.isNone_iff_eq_none, Option.eq_none_iff_forall_ne_some]
  intro j found
  obtain ⟨inRest, sameId⟩ := (coherent.forget root).get?_eq_some_iff.mp found
  obtain ⟨alsoHeld, notRoot⟩ := coherent.mem_entries_forget.mp inRest
  exact notRoot (coherent.eq_of_id_eq alsoHeld held sameId ▸ isRoot)

theorem cascade_forget (isOther : other ≠ root) :
    (log.forget root).cascade other = log.cascade other := by
  rw [cascade, InvocationLog.forget, LogIndex.find_erase, if_neg isOther, cascade]

/-- Forgetting a cascade takes out what belongs to it, and leaves all that is asked about others
as it was. -/
theorem Coherent.forgets (coherent : log.Coherent) (root : InvocationId) :
    log.Forgets log.entries root := by
  have later := coherent.forget root
  constructor
  case count => rw [forgottenBy, coherent.cascade_eq]
  case indexes =>
    rw [← coherent.entries_forget]
    exact later.indexes
  case gone => exact fun i held isRoot => coherent.contains_forget held isRoot
  case next => rfl
  case get => exact fun id spared => get_congr (coherent.get?_forget spared)
  case related =>
    intro a b spared
    apply related?_congr
    · exact coherent.get?_forget fun i held isFirst => spared i held (.inl isFirst)
    · exact coherent.get?_forget fun i held isSecond => spared i held (.inr isSecond)
  case cascade => exact fun other isOther => cascade_forget isOther
  case candidates =>
    intro action other last isOther
    rw [later.candidates_eq_cascade, coherent.candidates_eq_cascade, cascade_forget isOther]
  case ofAction =>
    intro action
    rw [ofAction, later.byAction.exact, coherent.entries_forget, ofAction, coherent.byAction.exact,
      List.filter_filter, List.filter_filter]
    exact List.filter_congr fun _ _ => Bool.and_comm _ _

end InvocationLog

namespace Ledger

/-- What is retained after one more request. -/
def retain (l : Ledger) (retained : List Invocation) : LogRequest → List Invocation
  | .append action input output causes =>
    match l.log.append action input output causes with
    | .ok (_, i) => retained ++ [i]
    | .error _ => retained
  | .forget root => retained.filter (·.root ≠ root)

def retainedFrom (l : Ledger) (retained : List Invocation) : List LogRequest → List Invocation
  | [] => retained
  | request :: requests => retainedFrom (l.answer request) (l.retain retained request) requests

/-- The invocations that were logged and have not been forgotten since. -/
def retainedAfter (requests : List LogRequest) : List Invocation := retainedFrom {} [] requests

variable {l : Ledger}

theorem entries_answer (coherent : l.log.Coherent) (request : LogRequest) :
    (l.answer request).log.entries = l.retain l.log.entries request := by
  cases request with
  | append action input output causes =>
    cases logged : l.log.append action input output causes with
    | ok result =>
      rw [answer, retain, logged]
      exact (coherent.append_entries logged).1
    | error failure => rw [answer, retain, logged]
  | forget root => exact coherent.entries_forget root

theorem entries_foldl_answer (remembers : l.log.Remembers l.logged) (requests : List LogRequest) :
    (requests.foldl answer l).log.entries = retainedFrom l l.log.entries requests := by
  induction requests generalizing l with
  | nil => rfl
  | cons request requests ih =>
    rw [List.foldl_cons, ih (remembers_answer remembers request), entries_answer remembers.coherent]
    rfl

/-- What is in a log is what its requests have left. -/
theorem entries_after (requests : List LogRequest) :
    (after requests).log.entries = retainedAfter requests :=
  entries_foldl_answer .start requests

/-- Whatever was asked of a log, it answers as a search of what was retained does, to forget any
cascade takes out exactly what belongs to it, and what is retained of a call that is accepted is what
that was given. -/
theorem indexes_retained (requests : List LogRequest) :
    (after requests).log.Indexes (retainedAfter requests) ∧
      (∀ root, (after requests).log.Forgets (retainedAfter requests) root) ∧
        ∀ action input output causes grown i,
          (after requests).log.append action input output causes = .ok (grown, i) →
            i.Stores action input output causes ∧ grown.Indexes (retainedAfter requests ++ [i]) := by
  have coherent := (remembers_after requests).coherent
  rw [← entries_after]
  refine ⟨coherent.indexes, coherent.forgets, fun action input output causes grown i logged => ?_⟩
  rw [← (coherent.append_entries logged).1]
  exact ⟨coherent.stores logged, (coherent.append logged).indexes⟩

end Ledger

/-! ### A shelf -/

namespace Shelf

def put : ActionRef := ⟨"Shelf", "put"⟩

def lend : ActionRef := ⟨"Shelf", "lend"⟩

/-- Two books are put on a shelf, the second one because of the first; a third one is forgotten. -/
def requests : List LogRequest :=
  [.append put [("book", .int 1)] [] [], .append put [("book", .int 2)] [] [1],
    .append put [("book", .int 3)] [] [], .forget 3]

theorem indexes_retained_lent : (Ledger.retainedAfter requests).map (·.id) = [1, 2] ∧
    ∃ grown i, (Ledger.after requests).log.append lend [("books", .int 2)] [] [2, 1, 2] = .ok (grown, i) ∧
      i.id = 4 ∧ i.causes = [1, 2] ∧ i.Stores lend [("books", .int 2)] [] [2, 1, 2] ∧
        grown.Indexes (Ledger.retainedAfter requests ++ [i]) := by
  obtain ⟨_, _, takes⟩ := Ledger.indexes_retained requests
  exact ⟨rfl, _, _, rfl, rfl, rfl, takes lend _ _ _ _ _ rfl⟩

end Shelf

end Choreography
