import Choreography.Proofs.System.Firings
import Mathlib.Data.List.Flatten
import Mathlib.Data.List.Pairwise

/-! Where everything that was logged comes from. Since the system began, an invocation is
either the root of a cascade or what some firing has led to; and it has its place among the
postings of one firing only. -/

namespace Choreography

open InvocationLog

variable {e f : Engine} {c d : Cascade} {p q : Point} {events : List Event} {i : Invocation}

/-- What a move logs is about the firing it dispatches for, and has its support as its causes. -/
theorem Moves.firing_of_posted (moves : Moves e c p f d q events) (coherent : e.log.Coherent)
    (evaluation : Evaluation) (isPosted : i ∈ posted events) :
    ∃ firing, Deed.firing? ⟨evaluation, p, q, events⟩ = some firing ∧
      i.causes = sortedSet firing.support := by
  rcases moves.posts with none | ⟨_, _, _, work, _, _, _, rfl, one, _, _, _, logged⟩
  · rw [none] at isPosted
    cases isPosted
  · rw [one] at isPosted
    obtain ⟨parents, areCauses, _, _, rfl, _⟩ := coherent.append_eq_ok logged
    rw [List.mem_singleton.mp isPosted]
    exact ⟨work.firing, rfl, areCauses⟩

namespace System

/-- Everything that was logged in the course of the runs. -/
def yielded (s : System) : List Invocation := s.chronicle.flatMap fun d => posted d.events

/-- What was logged since a moment is the root of a cascade or was logged by a run, and runs
log nothing twice. -/
structure Booked (s : System) (since : InvocationId) : Prop where
  orderly : s.Orderly
  booked : ∀ i ∈ s.history, since ≤ i.root → i.root = i.id ∨ i ∈ s.yielded
  logged : ∀ i ∈ s.yielded, i ∈ s.history
  once : s.yielded.Nodup
  told : ∀ deed ∈ s.chronicle, ∀ i ∈ posted deed.events,
    ∃ firing, deed.firing? = some firing ∧ i.causes = sortedSet firing.support

variable {s t start : System} {since : InvocationId} {firing other : Firing}

theorem Booked.rests (booked : s.Booked since) (rests : s.Rests t) : t.Booked since := by
  obtain ⟨added, history, areRoots⟩ := rests.history
  have same : t.yielded = s.yielded := by simp [yielded, rests.chronicle]
  constructor
  case orderly => exact booked.orderly.rests rests
  case booked =>
    intro i inside isLater
    rw [history] at inside
    rw [same]
    rcases List.mem_append.mp inside with old | isNew
    · exact booked.booked i old isLater
    · exact .inl (areRoots i isNew)
  case logged =>
    intro i isPosted
    rw [same] at isPosted
    rw [history]
    exact List.mem_append_left _ (booked.logged i isPosted)
  case once =>
    rw [same]
    exact booked.once
  case told =>
    rw [rests.chronicle]
    exact booked.told

/-- A move logs nothing that was logged before. -/
theorem Booked.nodup_append (booked : s.Booked since)
    (moves : Moves s.engine c p f d q events) : (s.yielded ++ posted events).Nodup := by
  rcases moves.posts with none | ⟨_, _, _, _, _, _, i, _, one, _, _, _, logged⟩
  · rw [none, List.append_nil]
    exact booked.once
  · rw [one, ← List.concat_eq_append]
    apply booked.once.concat
    intro isOld
    have below := booked.orderly.sound.log.id_lt_next (booked.logged i isOld)
    rw [(booked.orderly.sound.coherent.append_entries logged).2.1] at below
    exact Int.lt_irrefl _ below

theorem Booked.turned {n : Nat} {w : Worker} {turn : Turn} (booked : s.Booked since)
    (working : s.workers[n]? = some w)
    (moves : Run.IsMove s.engine w.run.cascade w.run.point turn) :
    (s.turned n w turn).Booked since := by
  have coherent := booked.orderly.sound.coherent
  have more : (s.turned n w turn).yielded = s.yielded ++ posted turn.events := by
    simp [yielded, Worker.deed]
  constructor
  case orderly => exact booked.orderly.turned working moves
  case booked =>
    intro i inside isLater
    rw [more, List.mem_append]
    rcases List.mem_append.mp inside with old | new
    · exact (booked.booked i old isLater).imp_right .inl
    · exact .inr (.inr new)
  case logged =>
    intro i isPosted
    rw [more] at isPosted
    exact List.mem_append.mpr ((List.mem_append.mp isPosted).imp_left (booked.logged i))
  case once =>
    rw [more]
    exact booked.nodup_append moves
  case told =>
    intro deed made i isPosted
    rcases mem_turned_chronicle.mp made with old | rfl
    · exact booked.told deed old i isPosted
    · exact Moves.firing_of_posted moves coherent ⟨n, w.number⟩ isPosted

theorem booked_preserved (since : InvocationId) : Preserved (Booked · since) where
  coherent booked := booked.orderly.sound.coherent
  rest := Booked.rests
  turn := Booked.turned

/-- Whatever was logged since the start is accounted for. -/
theorem Reaches.booked (reached : start.Reaches s) (initial : start.Initial) :
    s.Booked start.engine.log.next := by
  have nothing : start.yielded = [] := by simp [yielded, initial.chronicle]
  refine (booked_preserved _).reaches ?_ reached
  constructor
  case orderly => exact initial.orderly
  case booked =>
    intro i inside isLater
    obtain ⟨r, inHistory, isRoot, _⟩ := initial.log.exists_root inside
    have below := initial.log.id_lt_next inHistory
    exact absurd below (Int.not_lt.mpr (isRoot ▸ isLater))
  case logged => simp [nothing]
  case once => simp [nothing]
  case told => simp [initial.chronicle]

/-! ### Places -/

/-- What was logged for a firing was logged by a run. -/
theorem postings_sublist (s : System) (firing : Firing) : (s.postings firing).Sublist s.yielded :=
  List.filter_sublist.flatMap _

theorem Booked.exists_place (booked : s.Booked since) (inside : i ∈ s.history)
    (isLater : since ≤ i.root) (notRoot : i.root ≠ i.id) :
    ∃ (firing : Firing) (place : Nat), (∃ deed ∈ s.chronicle, deed.firing? = some firing) ∧
      i.causes = sortedSet firing.support ∧ (s.postings firing)[place]? = some i := by
  obtain ⟨deed, made, isPosted⟩ :=
    List.mem_flatMap.mp ((booked.booked i inside isLater).resolve_left notRoot)
  obtain ⟨firing, about, causes⟩ := booked.told deed made i isPosted
  have concerns : deed ∈ s.concerning firing := List.mem_filter.mpr ⟨made, decide_eq_true about⟩
  have inPostings : i ∈ s.postings firing := List.mem_flatMap.mpr ⟨deed, concerns, isPosted⟩
  obtain ⟨place, found⟩ := List.getElem?_of_mem inPostings
  exact ⟨firing, place, ⟨deed, made, about⟩, causes, found⟩

/-- No invocation has two places. -/
theorem Booked.place_unique {m n : Nat} (booked : s.Booked since)
    (first : (s.postings firing)[m]? = some i) (second : (s.postings other)[n]? = some i) :
    firing = other ∧ m = n := by
  have same : firing = other := by
    obtain ⟨a, isFirst, inFirst⟩ := List.mem_flatMap.mp (List.mem_of_getElem? first)
    obtain ⟨b, isSecond, inSecond⟩ := List.mem_flatMap.mp (List.mem_of_getElem? second)
    obtain ⟨madeFirst, aboutFirst⟩ := List.mem_filter.mp isFirst
    obtain ⟨madeSecond, aboutSecond⟩ := List.mem_filter.mp isSecond
    have apart := (List.nodup_flatMap.mp booked.once).2
    by_contra differ
    have deeds : a ≠ b := fun same => differ (Option.some.inj
      ((of_decide_eq_true aboutFirst).symm.trans (same ▸ of_decide_eq_true aboutSecond)))
    have symmetric : Std.Symm (Function.onFun List.Disjoint fun d : Deed => posted d.events) :=
      ⟨fun _ _ disjoint i isFirst isSecond => disjoint isSecond isFirst⟩
    exact apart.forall madeFirst madeSecond deeds inFirst inSecond
  subst same
  have distinct := (s.postings_sublist firing).nodup booked.once
  refine ⟨rfl, ?_⟩
  obtain ⟨inside, _⟩ := List.getElem?_eq_some_iff.mp first
  exact (List.getElem?_inj inside distinct).mp (first.trans second.symm)

end System

end Choreography
