import Choreography.Proofs.System.Sequence

/-! What can be asked of a cascade, and what its cancellation reaches. A cascade has a single
mark for all its runs: a run that is begun replaces it, and the first run that leaves its work
loop takes it away. So the mark means the run that was begun last, for as long as no run of the
cascade leaves. -/

namespace Choreography

variable {e f : Engine} {c d : Cascade} {p q : Point} {events : List Event} {root : InvocationId}
  {m : Nat}

/-! ### Marks -/

theorem Engine.lookup_activate (e : Engine) (root other : InvocationId) (run : Nat) :
    List.lookup root (e.activate other run).active =
      if root = other then some run else List.lookup root e.active := by
  rw [activate, List.lookup_append, lookup_filter_ne]
  by_cases same : root = other
  · simp [same]
  · simp [same, List.lookup_cons, beq_false_of_ne same]

/-- A mark after a move was there before, and no run of its cascade has left in the move. -/
theorem Moves.lookup_active (moves : Moves e c p f d q events)
    (marked : List.lookup root f.active = some m) : List.lookup root e.active = some m ∧
      (p.isAtWork = true ∧ q.isAtWork = false → c.root ≠ root) := by
  rcases moves.active with ⟨stays, same⟩ | ⟨_, _, gone⟩
  · refine ⟨same ▸ marked, ?_⟩
    rintro ⟨atWork, notAtWork⟩ _
    exact Bool.false_ne_true (notAtWork.symm.trans (stays.trans atWork))
  · rw [gone, Engine.deactivate, lookup_filter_ne] at marked
    split at marked
    · cases marked
    · next other => exact ⟨marked, fun _ isRoot => other isRoot.symm⟩

namespace System

/-- A run of a cascade is at work. -/
structure Works (s : System) (root : InvocationId) (n : Nat) (w : Worker) : Prop where
  working : s.workers[n]? = some w
  isRoot : w.run.cascade.root = root
  atWork : w.run.point.isAtWork = true

/-- A run of a cascade is at work, and is the one that was begun last. -/
structure Leads (s : System) (root : InvocationId) (n : Nat) (w : Worker) : Prop extends
    s.Works root n w where
  latest : ∀ m v, s.workers[m]? = some v → v.run.cascade.root = root → m ≤ n

/-- A run of a cascade was begun at some moment, and no run of the cascade has left its work loop
since. -/
def Unbroken (start t : System) (root : InvocationId) (n : Nat) : Prop :=
  ∃ s i limit now, start.Reaches s ∧ i ∈ s.history ∧ i.root = root ∧ s.workers.length = n ∧
    (s.begun i limit now).Reaches t ∧ t.Undisturbed s.chronicle.length root

/-- A cascade counts as running exactly if a run of it is at work, and a cancellation reaches all
runs of it that are. -/
structure IsExact (s : System) (root : InvocationId) : Prop where
  running : s.engine.isRunning root = true ↔ s.IsAtWork root
  reached : ∀ n w, (s.cancelled root).Works root n w → w.run.cascade.cancelled = true

variable {start s t : System} {i : Invocation} {n : Nat} {w v : Worker} {turn : Turn} {moment : Nat}

theorem isAtWork_iff : s.IsAtWork root ↔ ∃ n w, s.Works root n w := by
  constructor
  · rintro ⟨w, inside, isRoot, atWork⟩
    obtain ⟨n, working⟩ := List.getElem?_of_mem inside
    exact ⟨n, w, working, isRoot, atWork⟩
  · rintro ⟨n, w, works⟩
    exact ⟨w, List.mem_of_getElem? works.working, works.isRoot, works.atWork⟩

/-! ### The run that was begun last -/

theorem Leads.rests (leads : s.Leads root n w) (rests : s.Rests t)
    (sameRuns : t.workers.length = s.workers.length) : ∃ v, t.Leads root n v := by
  obtain ⟨v, isWorker, like⟩ := rests.kept n w leads.working
  refine ⟨v, ⟨isWorker, like.work.root.trans leads.isRoot, like.point ▸ leads.atWork⟩, ?_⟩
  intro m u isOther isRoot
  obtain ⟨before, wasOther, alike⟩ := rests.exists_before sameRuns isOther
  exact leads.latest m before wasOther (alike.work.root.symm.trans isRoot)

theorem Leads.begun (leads : s.Leads root n w) (other : i.root ≠ root) (limit : Option Seconds)
    (now : Instant) : (s.begun i limit now).Leads root n w := by
  have inside := (List.getElem?_eq_some_iff.mp leads.working).1
  refine ⟨⟨(List.getElem?_append_left inside).trans leads.working, leads.isRoot, leads.atWork⟩, ?_⟩
  intro m v working isRoot
  rcases mem_begun_workers working with before | ⟨_, isFresh, _⟩
  · exact leads.latest m v before isRoot
  · exact absurd (isFresh.symm.trans isRoot) other

theorem leads_begun (s : System) (i : Invocation) (limit : Option Seconds) (now : Instant) :
    ∃ w, (s.begun i limit now).Leads i.root s.workers.length w := by
  refine ⟨_, ⟨List.getElem?_concat_length, rfl, rfl⟩, ?_⟩
  intro m v working _
  rcases mem_begun_workers working with before | ⟨isLast, _, _⟩
  · exact Nat.le_of_lt (List.getElem?_eq_some_iff.mp before).1
  · exact Nat.le_of_eq isLast

theorem Leads.turned (leads : s.Leads root m v) (working : s.workers[n]? = some w)
    (moves : Run.IsMove s.engine w.run.cascade w.run.point turn)
    (stays : (w.deed n turn).Leaves → w.run.cascade.root ≠ root) :
    ∃ u, (s.turned n w turn).Leads root m u := by
  have latest : ∀ k u, (s.turned n w turn).workers[k]? = some u →
      u.run.cascade.root = root → k ≤ m := by
    intro k u isWorker isRoot
    rcases turned_worker working isWorker with ⟨rfl, rfl⟩ | ⟨_, before⟩
    · exact leads.latest k w working ((Moves.root_eq moves).symm.trans isRoot)
    · exact leads.latest k u before isRoot
  by_cases isMover : m = n
  · subst isMover
    cases working.symm.trans leads.working
    refine ⟨_, ⟨turned_mover working, (Moves.root_eq moves).trans leads.isRoot, ?_⟩, latest⟩
    by_contra hasLeft
    exact stays ⟨leads.atWork, Bool.eq_false_iff.mpr hasLeft⟩ leads.isRoot
  · exact ⟨v, ⟨turned_other isMover leads.working, leads.isRoot, leads.atWork⟩, latest⟩

/-! ### As long as no run of a cascade leaves -/

theorem Undisturbed.rests (undisturbed : s.Undisturbed moment root) (orderly : s.Orderly)
    (rests : s.Rests t) : t.Undisturbed moment root := by
  intro deed made
  obtain ⟨since, w, working, isRoot⟩ := mem_deedsSince.mp made
  rw [rests.chronicle] at since
  obtain ⟨v, isWorker, _⟩ := orderly.numbered deed (List.mem_of_mem_drop since)
  obtain ⟨u, isNow, like⟩ := rests.kept _ v isWorker
  cases working.symm.trans isNow
  exact undisturbed deed (mem_deedsSince.mpr ⟨since, v, isWorker, like.work.root.symm.trans isRoot⟩)

theorem Undisturbed.turned (undisturbed : s.Undisturbed moment root) (orderly : s.Orderly)
    (inside : moment ≤ s.chronicle.length) (working : s.workers[n]? = some w)
    (moves : Run.IsMove s.engine w.run.cascade w.run.point turn)
    (stays : (w.deed n turn).Leaves → w.run.cascade.root ≠ root) :
    (s.turned n w turn).Undisturbed moment root := by
  intro deed made leaves
  obtain ⟨since, u, isWorker, isRoot⟩ := mem_deedsSince.mp made
  rw [drop_turned_chronicle inside] at since
  rcases List.mem_append.mp since with old | new
  · obtain ⟨v, wasWorker, _⟩ := orderly.numbered deed (List.mem_of_mem_drop old)
    obtain ⟨_, isNow, sameRoot⟩ := exists_turned working (Moves.root_eq moves) wasWorker
    cases isWorker.symm.trans isNow
    exact undisturbed deed
      (mem_deedsSince.mpr ⟨old, v, wasWorker, sameRoot.symm.trans isRoot⟩) leaves
  · cases List.mem_singleton.mp new
    cases isWorker.symm.trans (turned_mover working)
    exact stays leaves ((Moves.root_eq moves).symm.trans isRoot)

/-- What has become of a mark: it is there unless some run of its cascade has left. -/
structure Marks (s t : System) (root : InvocationId) : Prop where
  orderly : t.Orderly
  later : s.chronicle.length ≤ t.chronicle.length
  running : t.Undisturbed s.chronicle.length root → t.engine.isRunning root = true

theorem Marks.keeps (marks : start.Marks s root) (keeps : s.Keeps t) : start.Marks t root where
  orderly := marks.orderly.rests keeps.rests
  later := keeps.rests.chronicle ▸ marks.later
  running undisturbed := keeps.marks root (marks.running (undisturbed.of_rests keeps.rests))

theorem Marks.turned (marks : start.Marks s root) (working : s.workers[n]? = some w)
    (moves : Run.IsMove s.engine w.run.cascade w.run.point turn) :
    start.Marks (s.turned n w turn) root where
  orderly := marks.orderly.turned working moves
  later := by
    rw [turned_chronicle, List.length_append]
    exact Nat.le_add_right_of_le marks.later
  running undisturbed := by
    refine Moves.isRunning moves ?_
      (marks.running (undisturbed.of_turned marks.later working moves))
    intro atWork notAtWork isRoot
    refine undisturbed (w.deed n turn) (mem_deedsSince.mpr ⟨?_, _, turned_mover working, ?_⟩)
      ⟨atWork, notAtWork⟩
    · rw [drop_turned_chronicle marks.later]
      exact List.mem_append_right _ (List.mem_singleton_self _)
    · exact (Moves.root_eq moves).trans isRoot

theorem Reaches.marks (orderly : s.Orderly) (running : s.engine.isRunning root = true)
    (later : s.Reaches t) : s.Marks t root := by
  induction later with
  | start => exact ⟨orderly, Nat.le_refl _, fun _ => running⟩
  | step _ next ih =>
    rcases next.keeps_or_turns ih.orderly.sound.coherent with
      ⟨v, first, rfl | second⟩ | ⟨n, w, turn, working, turns, _, rfl⟩
    · exact ih.keeps first
    · exact (ih.keeps first).keeps second
    · exact ih.turned working turns.isMove

/-- A run that was just begun marks its cascade. -/
theorem begun_marks (initial : start.Initial) (reached : start.Reaches s) (known : i ∈ s.history)
    {limit : Option Seconds} {now : Instant} (later : (s.begun i limit now).Reaches t) :
    (s.begun i limit now).Marks t i.root := by
  have orderly := (reached.step (.process known limit now)).orderly initial
  refine later.marks orderly ?_
  exact (s.engine.isRunning_activate i.root i.root s.workers.length).trans (by simp)

theorem Unbroken.isRunning (initial : start.Initial) (unbroken : start.Unbroken t root n) :
    t.engine.isRunning root = true := by
  obtain ⟨s, i, limit, now, reached, known, rfl, _, later, undisturbed⟩ := unbroken
  exact (begun_marks initial reached known later).running undisturbed

theorem Unbroken.later (initial : start.Initial) (unbroken : start.Unbroken s root n)
    (next : s.Step t) (stays : ∀ moment ≤ s.chronicle.length,
      s.Undisturbed moment root → t.Undisturbed moment root) : start.Unbroken t root n := by
  obtain ⟨u, i, limit, now, reached, known, rfl, isPlace, later, undisturbed⟩ := unbroken
  have inside := (begun_marks initial reached known later).later
  exact ⟨u, i, limit, now, reached, known, rfl, isPlace, later.step next,
    stays _ inside undisturbed⟩

theorem unbroken_begun (reached : start.Reaches s) (known : i ∈ s.history) (limit : Option Seconds)
    (now : Instant) : start.Unbroken (s.begun i limit now) i.root s.workers.length := by
  refine ⟨s, i, limit, now, reached, known, rfl, rfl, .start, ?_⟩
  intro deed made
  have since := (mem_deedsSince.mp made).1
  rw [(begun_rests known limit now).chronicle, List.drop_length] at since
  cases since

/-! ### What a mark means -/

/-- Every mark is of the run of its cascade that was begun last, and no run of the cascade has left
since. -/
structure Tracks (start s : System) : Prop where
  leads : ∀ root n, List.lookup root s.engine.active = some n → ∃ w, s.Leads root n w
  unbroken : ∀ root n, List.lookup root s.engine.active = some n → start.Unbroken s root n

theorem Tracks.rests (initial : start.Initial) (reached : start.Reaches s) (tracks : start.Tracks s)
    (next : s.Step t) (rests : s.Rests t) (sameRuns : t.workers.length = s.workers.length)
    (sameMarks : t.engine.active = s.engine.active) : start.Tracks t where
  leads root n marked := by
    obtain ⟨w, leads⟩ := tracks.leads root n (sameMarks ▸ marked)
    exact leads.rests rests sameRuns
  unbroken root n marked :=
    (tracks.unbroken root n (sameMarks ▸ marked)).later initial next
      fun _ _ undisturbed => undisturbed.rests (reached.orderly initial) rests

theorem Tracks.recorded (initial : start.Initial) (reached : start.Reaches s)
    (tracks : start.Tracks s) (logged : s.engine.record action input output = .ok (e, i)) :
    start.Tracks (s.recorded e i) := by
  have coherent := (reached.orderly initial).sound.coherent
  refine tracks.rests initial reached (.record logged) (recorded_rests coherent logged) rfl ?_
  obtain ⟨grown, _, rfl⟩ := Engine.record_eq_ok logged
  rfl

theorem Tracks.cancelled (initial : start.Initial) (reached : start.Reaches s)
    (tracks : start.Tracks s) (root : InvocationId) : start.Tracks (s.cancelled root) := by
  refine tracks.rests initial reached (.cancel root) (s.cancelled_rests root) ?_ ?_
  · unfold System.cancelled
    split
    · exact List.length_modify ..
    · rfl
  · unfold System.cancelled
    split <;> rfl

theorem Tracks.begun (initial : start.Initial) (reached : start.Reaches s) (tracks : start.Tracks s)
    (known : i ∈ s.history) (limit : Option Seconds) (now : Instant) :
    start.Tracks (s.begun i limit now) := by
  have lookup (root : InvocationId) : List.lookup root (s.begun i limit now).engine.active =
      if root = i.root then some s.workers.length else List.lookup root s.engine.active :=
    s.engine.lookup_activate root i.root s.workers.length
  constructor
  case leads =>
    intro root n marked
    rw [lookup] at marked
    split at marked
    · next isRoot =>
      cases marked
      exact isRoot ▸ s.leads_begun i limit now
    · next other =>
      obtain ⟨w, leads⟩ := tracks.leads root n marked
      exact ⟨w, leads.begun (Ne.symm other) limit now⟩
  case unbroken =>
    intro root n marked
    rw [lookup] at marked
    split at marked
    · next isRoot =>
      cases marked
      exact isRoot ▸ unbroken_begun reached known limit now
    · exact (tracks.unbroken root n marked).later initial (.process known limit now)
        fun _ _ undisturbed =>
          undisturbed.rests (reached.orderly initial) (begun_rests known limit now)

theorem Tracks.turned (initial : start.Initial) (reached : start.Reaches s) (tracks : start.Tracks s)
    (working : s.workers[n]? = some w) (moves : Run.IsMove s.engine w.run.cascade w.run.point turn)
    (next : s.Step (s.turned n w turn)) : start.Tracks (s.turned n w turn) where
  leads root m marked := by
    obtain ⟨before, stays⟩ := Moves.lookup_active moves marked
    obtain ⟨v, leads⟩ := tracks.leads root m before
    exact leads.turned working moves stays
  unbroken root m marked := by
    obtain ⟨before, stays⟩ := Moves.lookup_active moves marked
    exact (tracks.unbroken root m before).later initial next fun _ inside undisturbed =>
      undisturbed.turned (reached.orderly initial) inside working moves stays

theorem Reaches.tracks (initial : start.Initial) (reached : start.Reaches t) : start.Tracks t := by
  induction reached with
  | start =>
    constructor <;>
    · intro root n marked
      rw [initial.active] at marked
      cases marked
  | step reached next ih =>
    cases next with
    | record logged => exact ih.recorded initial reached logged
    | invoke _ _ _ _ logged limit now =>
      refine (ih.recorded initial reached logged).begun initial (reached.step (.record logged)) ?_ _ _
      exact List.mem_append_right _ (List.mem_singleton_self _)
    | process known limit now => exact ih.begun initial reached known limit now
    | cancel root => exact ih.cancelled initial reached root
    | go working ready going now =>
      exact ih.turned initial reached working (Run.step_isMove _ now ready going)
        (.go working ready going now)
    | hear working waits answered now =>
      exact ih.turned initial reached working (Run.resume_isMove _ now waits answered)
        (.hear working waits answered now)

/-! ### What a cancellation reaches -/

theorem cancelled_of_unmarked (unmarked : s.engine.isRunning root = false) : s.cancelled root = s := by
  rw [Engine.isRunning, Option.isSome_eq_false_iff, Option.isNone_iff_eq_none] at unmarked
  rw [cancelled, unmarked]

theorem cancelled_of_marked (marked : List.lookup root s.engine.active = some n)
    (working : s.workers[n]? = some w) :
    s.cancelled root = { s with workers := s.workers.set n w.cancel } := by
  have same : s.workers.modify n Worker.cancel = s.workers.set n w.cancel := by
    apply List.ext_getElem?
    intro m
    by_cases isMeant : n = m
    · subst isMeant
      rw [List.getElem?_modify_eq, working,
        List.getElem?_set_self (List.getElem?_eq_some_iff.mp working).1]
      rfl
    · rw [List.getElem?_modify_ne _ _ isMeant, List.getElem?_set_ne isMeant]
  rw [cancelled, marked, ← same]

theorem Leads.unique (leads : s.Leads root n w) (other : s.Leads root m v) : n = m :=
  Nat.le_antisymm (other.latest n w leads.working leads.isRoot)
    (leads.latest m v other.working other.isRoot)

/-- The mark of a cascade that counts as running. -/
theorem Tracks.exists_marked (tracks : start.Tracks s) (running : s.engine.isRunning root = true) :
    ∃ n w, List.lookup root s.engine.active = some n ∧ start.Unbroken s root n ∧
      s.Leads root n w := by
  obtain ⟨n, marked⟩ := Option.isSome_iff_exists.mp running
  obtain ⟨w, leads⟩ := tracks.leads root n marked
  exact ⟨n, w, marked, tracks.unbroken root n marked, leads⟩

/-- A cancellation leaves the other runs of a cascade as they are. -/
theorem Works.of_cancelled (marked : List.lookup root s.engine.active = some n)
    (leads : s.Leads root n w) (works : (s.cancelled root).Works root m v) :
    m = n ∧ v = w.cancel ∨ m ≠ n ∧ s.Works root m v := by
  obtain ⟨working, isRoot, atWork⟩ := works
  rw [cancelled_of_marked marked leads.working] at working
  by_cases isMeant : n = m
  · subst isMeant
    have inside := (List.getElem?_eq_some_iff.mp leads.working).1
    exact .inl ⟨rfl, Option.some.inj (working.symm.trans (List.getElem?_set_self inside))⟩
  · have before := (List.getElem?_set_ne isMeant).symm.trans working
    exact .inr ⟨Ne.symm isMeant, before, isRoot, atWork⟩

/-- A cascade counts as running, and whoever cancels it is told so, exactly if one of its runs was
begun and no run of the cascade has left its work loop since. Then the cancellation sets the token
of the run that was begun last, which is at work, and changes nothing else; otherwise it changes
nothing at all. So it reaches all runs that are at work exactly if they are that run, or have been
cancelled before. -/
theorem cancellation_reaches_latest (initial : start.Initial) (reached : start.Reaches t)
    (root : InvocationId) :
    (t.engine.isRunning root = true ↔ ∃ n, start.Unbroken t root n) ∧
      (t.engine.isRunning root = true → ∃ n w, start.Unbroken t root n ∧ t.Leads root n w ∧
        t.cancelled root = { t with workers := t.workers.set n w.cancel }) ∧
      (t.engine.isRunning root = false → t.cancelled root = t) ∧
      (t.IsExact root ↔ ∀ m v, t.Works root m v → ∃ n w, start.Unbroken t root n ∧
        t.Leads root n w ∧ (m = n ∨ v.run.cascade.cancelled = true)) := by
  have tracks := reached.tracks initial
  refine ⟨⟨?running, ?unbroken⟩, ?marked, cancelled_of_unmarked, ⟨?exact, ?covered⟩⟩
  case running =>
    intro running
    obtain ⟨n, _, _, unbroken, _⟩ := tracks.exists_marked running
    exact ⟨n, unbroken⟩
  case unbroken => exact fun ⟨n, unbroken⟩ => unbroken.isRunning initial
  case marked =>
    intro running
    obtain ⟨n, w, marked, unbroken, leads⟩ := tracks.exists_marked running
    exact ⟨n, w, unbroken, leads, cancelled_of_marked marked leads.working⟩
  -- A run that is not the last one is left as it was, so that it must have been cancelled before.
  case exact =>
    intro exact m v works
    have running := exact.running.mpr (isAtWork_iff.mpr ⟨m, v, works⟩)
    obtain ⟨n, w, marked, unbroken, leads⟩ := tracks.exists_marked running
    refine ⟨n, w, unbroken, leads, ?_⟩
    by_cases isMeant : m = n
    · exact .inl isMeant
    · refine .inr (exact.reached m v ⟨?_, works.isRoot, works.atWork⟩)
      rw [cancelled_of_marked marked leads.working]
      exact (List.getElem?_set_ne (Ne.symm isMeant)).trans works.working
  case covered =>
    intro covered
    constructor
    case running =>
      constructor
      · intro running
        obtain ⟨n, w, _, _, leads⟩ := tracks.exists_marked running
        exact isAtWork_iff.mpr ⟨n, w, leads.toWorks⟩
      · intro atWork
        obtain ⟨m, v, works⟩ := isAtWork_iff.mp atWork
        obtain ⟨_, _, unbroken, _⟩ := covered m v works
        exact unbroken.isRunning initial
    case reached =>
      intro m v works
      cases running : t.engine.isRunning root with
      | false =>
        rw [cancelled_of_unmarked running] at works
        obtain ⟨_, _, unbroken, _⟩ := covered m v works
        exact absurd (unbroken.isRunning initial) (Bool.eq_false_iff.mp running)
      | true =>
        obtain ⟨n, w, marked, _, leads⟩ := tracks.exists_marked running
        rcases works.of_cancelled marked leads with ⟨_, rfl⟩ | ⟨other, before⟩
        · rfl
        · obtain ⟨k, u, _, alsoLeads, isLast | before⟩ := covered m v before
          · exact absurd (isLast.trans (alsoLeads.unique leads)) other
          · exact before

/-- Where each cascade has one run at a time, nothing escapes a cancellation. -/
theorem isExact_of_sequential (initial : start.Initial)
    (reached : Relation.ReflTransGen Sequential start t) (root : InvocationId) : t.IsExact root := by
  have guarded := initial.guarded.reaches reached
  have tracks := (initial.guarded.reaches_later reached).tracks initial
  refine ⟨guarded.marked root, fun m v works => ?_⟩
  cases running : t.engine.isRunning root with
  | false =>
    rw [cancelled_of_unmarked running] at works
    have isRunning := (guarded.marked root).mpr (isAtWork_iff.mpr ⟨m, v, works⟩)
    exact absurd isRunning (Bool.eq_false_iff.mp running)
  | true =>
    obtain ⟨n, w, marked, _, leads⟩ := tracks.exists_marked running
    rcases works.of_cancelled marked leads with ⟨_, rfl⟩ | ⟨other, before⟩
    · rfl
    · have same := guarded.single m n v w before.working leads.working
        (before.isRoot.trans leads.isRoot.symm) (Run.hasEnded_of_isAtWork before.atWork)
        (Run.hasEnded_of_isAtWork leads.atWork)
      exact absurd same other

end System

/-! ### Two runs of one cascade -/

namespace Door

theorem reaches_overtaking : start.Reaches overtaking :=
  ((start.reaches_after _).step (.process (i := opening) List.mem_cons_self none 0)).trans
    opened_reaches_overtaking

/-- The lamp is still warming up in the first run when its cascade is cancelled, but it is the
second run that is stopped. -/
theorem cancellation_reaches_overtaker : start.Initial ∧ start.Reaches overtaking ∧
    overtaking.engine.isRunning 1 = true ∧
    ∃ w, overtaking.Leads 1 1 w ∧
      overtaking.cancelled 1 = { overtaking with workers := overtaking.workers.set 1 w.cancel } := by
  have told := System.cancellation_reaches_latest start_initial reaches_overtaking 1
  have running : overtaking.engine.isRunning 1 = true := by decide +kernel
  obtain ⟨n, w, _, leads, stops⟩ := told.2.1 running
  have isLast : n = 1 := by
    have second : ∃ v ∈ overtaking.workers[1]?, v.run.cascade.root = 1 := by decide +kernel
    have two : overtaking.workers.length = 2 := by decide +kernel
    obtain ⟨v, working, isRoot⟩ := second
    have := leads.latest 1 v working isRoot
    have := (List.getElem?_eq_some_iff.mp leads.working).1
    omega
  subst isLast
  exact ⟨start_initial, reaches_overtaking, running, w, leads, stops⟩

/-- As long as both runs are at work, a cancellation leaves the first one untouched. Once the
second has left, the cascade does not count as running any more, and nothing can cancel the run
that waits for the lamp. -/
theorem overtaken_escapes : start.Reaches overtaking ∧ start.Reaches overtaken ∧
    (∃ w, (overtaking.cancelled 1).Works 1 0 w ∧ w.run.cascade.cancelled = false) ∧
    (∃ w, overtaken.Works 1 0 w ∧ w.run.cascade.cancelled = false) ∧
    overtaken.engine.isRunning 1 = false ∧ overtaken.cancelled 1 = overtaken := by
  have untouched : ∃ w ∈ (overtaking.cancelled 1).workers[0]?, w.run.cascade.root = 1 ∧
      w.run.point.isAtWork = true ∧ w.run.cascade.cancelled = false := by decide +kernel
  have waiting : ∃ w ∈ overtaken.workers[0]?, w.run.cascade.root = 1 ∧
      w.run.point.isAtWork = true ∧ w.run.cascade.cancelled = false := by decide +kernel
  have unmarked : overtaken.engine.isRunning 1 = false := by decide +kernel
  obtain ⟨w, working, isRoot, atWork, uncancelled⟩ := untouched
  obtain ⟨v, isWorker, sameRoot, stillAtWork, alsoUncancelled⟩ := waiting
  exact ⟨reaches_overtaking, reaches_overtaking.trans (overtaking.reaches_after _),
    ⟨w, ⟨working, isRoot, atWork⟩, uncancelled⟩,
    ⟨v, ⟨isWorker, sameRoot, stillAtWork⟩, alsoUncancelled⟩,
    unmarked, System.cancelled_of_unmarked unmarked⟩

end Door

end Choreography
