import Choreography.Proofs.Log.Chain
import Choreography.Proofs.Log.History

/-! A log in use. Calls are logged and cascades forgotten in any order, and some calls are
refused. Whatever was asked of it, identifiers count the calls that were logged, and the
ancestors, the root and the depth that are kept with an invocation are those of the graph
of causes, although they were found out once, when it was logged, and never since. -/

namespace Choreography

/-- What can be asked of a log. -/
inductive LogRequest where
  | append (action : ActionRef) (input output : Fields) (causes : List InvocationId)
  | forget (root : InvocationId)

/-- A log, and everything that was ever logged in it, in order. -/
structure Ledger where
  log : InvocationLog := {}
  logged : List Invocation := []

/-- An invocation holds what its call was given, each of its causes once and in ascending order. -/
structure Invocation.Stores (i : Invocation) (action : ActionRef) (input output : Fields)
    (causes : List InvocationId) : Prop where
  action : i.action = action
  input : i.input = input
  output : i.output = output
  causes : ∀ id, id ∈ i.causes ↔ id ∈ causes
  ascending : i.causes.Pairwise (· < ·)

namespace InvocationLog

variable {log : InvocationLog} {history : List Invocation} {i j : Invocation} {a b : InvocationId}

/-! ### Identifiers -/

theorem Remembers.next_eq (remembers : log.Remembers history) : log.next = history.length + 1 := by
  induction remembers with
  | start => rfl
  | append remembers logged ih =>
    rw [(remembers.coherent.append_entries logged).2.2, ih, List.length_append]
    rfl
  | forget _ _ ih => exact ih

/-- Identifiers count what was logged. -/
theorem Remembers.id_eq (remembers : log.Remembers history) {n : Nat} (isNth : history[n]? = some i) :
    i.id = n + 1 := by
  induction remembers with
  | start => cases isNth
  | @append log history _ _ _ _ _ new remembers logged ih =>
    rcases Nat.lt_or_ge n history.length with old | isNew
    · rw [List.getElem?_append_left old] at isNth
      exact ih isNth
    · rw [List.getElem?_append_right isNew, List.getElem?_singleton] at isNth
      split at isNth
      · next isLast =>
        cases isNth
        have last : n = history.length := Nat.le_antisymm (Nat.le_of_sub_eq_zero isLast) isNew
        rw [(remembers.coherent.append_entries logged).2.1, remembers.next_eq, last]
      · cases isNth
  | forget _ _ ih => exact ih isNth

/-! ### What is accepted and what is refused -/

theorem Coherent.stores (coherent : log.Coherent)
    (logged : log.append action input output causes = .ok (grown, i)) :
    i.Stores action input output causes := by
  obtain ⟨parents, areCauses, _, _, rfl, _⟩ := coherent.append_eq_ok logged
  have sorted : (log.describe action input output parents).causes = sortedSet causes := areCauses
  exact ⟨rfl, rfl, rfl, fun _ => sorted ▸ mem_sortedSet, sorted ▸ sortedSet_pairwise causes⟩

theorem Coherent.exists_of_get?_ne_none (coherent : log.Coherent) (known : log.get? a ≠ none) :
    ∃ p ∈ log.entries, p.id = a := by
  obtain ⟨p, found⟩ := Option.ne_none_iff_exists'.mp known
  exact ⟨p, coherent.get?_eq_some_iff.mp found⟩

/-- A call is refused if one of its causes is not in the log, or if they are of several
cascades, and for no other reason. -/
theorem Coherent.append_error_iff (coherent : log.Coherent) {causes : List InvocationId} :
    (∃ failure, log.append action input output causes = .error failure) ↔
      (∃ id ∈ causes, log.get? id = none) ∨
        ∃ p ∈ log.entries, ∃ q ∈ log.entries, p.id ∈ causes ∧ q.id ∈ causes ∧ p.root ≠ q.root := by
  constructor
  · rintro ⟨failure, refused⟩
    by_contra fine
    obtain ⟨known, together⟩ := not_or.mp fine
    have held : ∀ id ∈ causes, ∃ p ∈ log.entries, p.id = id := by
      intro id isCause
      exact coherent.exists_of_get?_ne_none fun missing => known ⟨id, isCause, missing⟩
    have ofRoot : ∃ root, ∀ id ∈ causes, ∃ p ∈ log.entries, p.id = id ∧ p.root = root := by
      cases causes with
      | nil => exact ⟨log.next, List.forall_mem_nil _⟩
      | cons first rest =>
        obtain ⟨p, isHeld, rfl⟩ := held first List.mem_cons_self
        refine ⟨p.root, fun id isCause => ?_⟩
        obtain ⟨q, alsoHeld, rfl⟩ := held id isCause
        refine ⟨q, alsoHeld, rfl, ?_⟩
        by_contra mixed
        exact together ⟨q, alsoHeld, p, isHeld, isCause, List.mem_cons_self, mixed⟩
    obtain ⟨root, ofRoot⟩ := ofRoot
    obtain ⟨i, accepted⟩ := coherent.append_ok ofRoot
    rw [accepted] at refused
    cases refused
  · intro reason
    cases logged : log.append action input output causes with
    | error failure => exact ⟨failure, rfl⟩
    | ok result =>
      obtain ⟨parents, areCauses, held, together, _⟩ := coherent.append_eq_ok logged
      have parent : ∀ id ∈ causes, ∃ p ∈ parents, p.id = id := by
        intro id isCause
        exact List.mem_map.mp (areCauses ▸ mem_sortedSet.mpr isCause)
      rcases reason with ⟨id, isCause, missing⟩ | ⟨p, isHeld, q, alsoHeld, isCause, alsoCause, mixed⟩
      · obtain ⟨p, isParent, rfl⟩ := parent id isCause
        rw [coherent.get?_of_mem (held p isParent)] at missing
        cases missing
      · obtain ⟨r, isParent, isP⟩ := parent p.id isCause
        obtain ⟨t, alsoParent, isQ⟩ := parent q.id alsoCause
        have same := together r isParent t alsoParent
        rw [coherent.eq_of_id_eq (held r isParent) isHeld isP,
          coherent.eq_of_id_eq (held t alsoParent) alsoHeld isQ] at same
        exact absurd same mixed

/-! ### The causal question -/

/-- Whoever precedes an invocation or is preceded by one is in the log. -/
theorem Reachable.get?_of_precedes (reached : log.Reachable) (precedes : log.Precedes a b) :
    (log.get? a).isSome ∧ (log.get? b).isSome := by
  obtain ⟨c, ⟨i, found, _⟩⟩ : ∃ c, log.Causes c b := by
    cases precedes with
    | single caused => exact ⟨_, caused⟩
    | tail _ caused => exact ⟨_, caused⟩
  obtain ⟨held, rfl⟩ := reached.coherent.get?_eq_some_iff.mp found
  obtain ⟨j, isHeld, rfl, _⟩ := reached.held_of_precedes held precedes
  rw [reached.coherent.get?_of_mem isHeld, found]
  exact ⟨rfl, rfl⟩

/-- The question is answered with yes if the two are one or one precedes the other, and only
then. -/
theorem Reachable.related?_iff (reached : log.Reachable) :
    log.related? a b = .ok true ↔ a = b ∨ log.Akin a b := by
  rw [related?, ← reached.related_iff]
  have first (missing : ¬log.contains a = true) : ¬log.Akin a b := by
    rintro (precedes | precedes)
    · exact missing (reached.get?_of_precedes precedes).1
    · exact missing (reached.get?_of_precedes precedes).2
  have second (missing : ¬log.contains b = true) : ¬log.Akin a b := by
    rintro (precedes | precedes)
    · exact missing (reached.get?_of_precedes precedes).2
    · exact missing (reached.get?_of_precedes precedes).1
  split
  · next same => simp [same, related]
  · next other =>
    split
    · next missing =>
      refine iff_of_false (fun answered => by cases answered) ?_
      rw [reached.related_iff]
      exact not_or.mpr ⟨other, second (by simpa using missing)⟩
    · split
      · next isAncestor => simp [related, isAncestor]
      · split
        · next missing =>
          refine iff_of_false (fun answered => by cases answered) ?_
          rw [reached.related_iff]
          exact not_or.mpr ⟨other, first (by simpa using missing)⟩
        · simp

/-- About invocations in the log there always is an answer. -/
theorem related?_eq_ok (known : log.contains a = true) (alsoKnown : log.contains b = true) :
    ∃ answer, log.related? a b = .ok answer := by
  rw [related?, known, alsoKnown, Bool.not_true, if_neg Bool.false_ne_true]
  split
  · exact ⟨true, rfl⟩
  · split <;> exact ⟨_, rfl⟩

end InvocationLog

namespace Ledger

/-- What becomes of a log that is asked for something. A call that is refused leaves it as
it is. -/
def answer (l : Ledger) : LogRequest → Ledger
  | .append action input output causes =>
    match l.log.append action input output causes with
    | .ok (log, i) => { log, logged := l.logged ++ [i] }
    | .error _ => l
  | .forget root => { l with log := l.log.forget root }

/-- A log after some requests. -/
def after (requests : List LogRequest) : Ledger := requests.foldl answer {}

/-- What is kept with the invocations of a log is true, and the log takes what it should. -/
structure IsTrue (l : Ledger) : Prop where
  /-- Identifiers count what was logged, without a gap. -/
  numbered : ∀ (n : Nat) (i : Invocation), l.logged[n]? = some i → i.id = n + 1
  next : l.log.next = l.logged.length + 1
  /-- What is in the log was logged. -/
  known : ∀ i ∈ l.log.entries, i ∈ l.logged
  /-- The ancestors are what can be reached by going from effects to causes. -/
  ancestors : ∀ i ∈ l.log.entries, ∀ a, a ∈ i.ancestors ↔ l.log.Precedes a i.id
  held : ∀ i ∈ l.log.entries, ∀ a ∈ i.ancestors,
    ∃ j ∈ l.log.entries, j.id = a ∧ j.root = i.root ∧ j.id < i.id
  begins : ∀ i ∈ l.log.entries, i.causes = [] → i.root = i.id
  /-- Of its ancestors only the root of an invocation has no causes. -/
  root : ∀ i ∈ l.log.entries, i.causes ≠ [] → ∃ r ∈ l.log.entries, r.id ∈ i.ancestors ∧
    r.causes = [] ∧ r.id = i.root ∧ ∀ j ∈ l.log.entries, j.id ∈ i.ancestors → j.causes = [] → j = r
  depth : ∀ i ∈ l.log.entries, IsGreatest {n | l.log.Chain i.root n i.id} i.depth
  related : ∀ a b, l.log.related? a b = .ok true ↔ a = b ∨ l.log.Precedes a b ∨ l.log.Precedes b a
  answers : ∀ i ∈ l.log.entries, ∀ j ∈ l.log.entries, ∃ answer, l.log.related? i.id j.id = .ok answer
  /-- A call that is accepted is logged as it was given. -/
  stores : ∀ action input output causes grown i,
    l.log.append action input output causes = .ok (grown, i) →
      i.Stores action input output causes ∧ grown.entries = l.log.entries ++ [i] ∧
        l.answer (.append action input output causes) = { log := grown, logged := l.logged ++ [i] }
  /-- A call is refused for its causes, and then nothing changes. -/
  refuses : ∀ action input output causes,
    ((∃ failure, l.log.append action input output causes = .error failure) ↔
      (∃ id ∈ causes, l.log.get? id = none) ∨
        ∃ p ∈ l.log.entries, ∃ q ∈ l.log.entries, p.id ∈ causes ∧ q.id ∈ causes ∧ p.root ≠ q.root) ∧
    ((∃ failure, l.log.append action input output causes = .error failure) →
      l.answer (.append action input output causes) = l)

variable {l : Ledger}

theorem remembers_answer (remembers : l.log.Remembers l.logged) (request : LogRequest) :
    (l.answer request).log.Remembers (l.answer request).logged := by
  cases request with
  | append action input output causes =>
    rw [answer]
    split
    · next logged => exact remembers.append logged
    · exact remembers
  | forget root => exact remembers.forget root

theorem remembers_after (requests : List LogRequest) :
    (after requests).log.Remembers (after requests).logged :=
  List.foldlRecOn requests answer (motive := fun l => l.log.Remembers l.logged) .start
    fun _ remembers request _ => remembers_answer remembers request

/-- Whatever was asked of a log, and whatever it refused, what it keeps is true. -/
theorem isTrue_after (requests : List LogRequest) : (after requests).IsTrue := by
  have remembers := remembers_after requests
  have reached := remembers.reached
  constructor
  case numbered => exact fun n i isNth => remembers.id_eq isNth
  case next => exact remembers.next_eq
  case known => exact fun i held => remembers.mem_history held
  case ancestors => exact fun i held a => reached.mem_ancestors_iff held
  case held =>
    intro i held a isAncestor
    exact reached.held_of_precedes held ((reached.mem_ancestors_iff held).mp isAncestor)
  case begins => exact fun i held uncaused => reached.root_eq_id held uncaused
  case root => exact fun i held caused => reached.exists_root_of_caused held caused
  case depth => exact fun i held => reached.depth_isGreatest held
  case related => exact fun a b => reached.related?_iff
  case answers =>
    intro i held j alsoHeld
    apply InvocationLog.related?_eq_ok
    · rw [InvocationLog.contains, reached.coherent.get?_of_mem held]
      rfl
    · rw [InvocationLog.contains, reached.coherent.get?_of_mem alsoHeld]
      rfl
  case stores =>
    intro action input output causes grown i logged
    refine ⟨reached.coherent.stores logged, (reached.coherent.append_entries logged).1, ?_⟩
    rw [answer, logged]
  case refuses =>
    intro action input output causes
    refine ⟨reached.coherent.append_error_iff, ?_⟩
    rintro ⟨failure, refused⟩
    rw [answer, refused]

end Ledger

end Choreography
