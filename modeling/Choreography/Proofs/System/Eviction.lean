import Choreography.Proofs.Run.Faults
import Choreography.Proofs.Run.Forgetting
import Choreography.Proofs.System.Schedule

/-! Retention and the runs that are at work. A cascade is marked as running when a run of it
is begun, and the first of its runs that leaves its work loop takes the mark away, for the
others as well. Until then it is not forgotten; afterwards it may be, although another run of
it is still at work. -/

namespace Choreography

open InvocationLog

/-- A run has left its work loop. -/
def Deed.Leaves (d : Deed) : Prop := d.before.isAtWork = true ∧ d.after.isAtWork = false

instance (d : Deed) : Decidable d.Leaves :=
  inferInstanceAs (Decidable (d.before.isAtWork = true ∧ d.after.isAtWork = false))

variable {e f : Engine} {c d : Cascade} {p q : Point} {events : List Event} {i : Invocation}
  {root : InvocationId}

/-- A run that has left its work loop does not come back to it. -/
theorem Moves.not_isAtWork (moves : Moves e c p f d q events) (left : p.isAtWork = false) :
    q.isAtWork = false := by
  cases moves with
  | leave | lose | breakOff | reject | drain | save | fail => rfl
  | _ => cases left

namespace System

/-- The deeds of a cascade's runs since a moment of the chronicle. -/
def deedsSince (s : System) (moment : Nat) (root : InvocationId) : List Deed :=
  (s.chronicle.drop moment).filter fun d =>
    (s.workers[d.evaluation.worker]?.map (·.run.cascade.root)) = some root

/-- What happens between the moves of the runs forgets nothing, and takes no mark away. -/
structure Keeps (s t : System) : Prop where
  rests : s.Rests t
  marks : ∀ root, s.engine.isRunning root = true → t.engine.isRunning root = true
  entries : ∀ i ∈ s.engine.log.entries, i ∈ t.engine.log.entries
  noted : t.engine.firedByRoot = s.engine.firedByRoot
  listed : t.engine.drained = s.engine.drained

variable {start s t u : System} {n m : Nat} {w v : Worker} {turn : Turn} {moment : Nat}

theorem recorded_keeps (coherent : s.engine.log.Coherent)
    (recorded : s.engine.record action input output = .ok (e, i)) : s.Keeps (s.recorded e i) where
  rests := recorded_rests coherent recorded
  marks root running := by
    obtain ⟨grown, _, rfl⟩ := Engine.record_eq_ok recorded
    exact running
  entries j held := by
    obtain ⟨grown, logged, rfl⟩ := Engine.record_eq_ok recorded
    have grows : grown.entries = s.engine.log.entries ++ [i] := (coherent.append_entries logged).1
    exact grows ▸ List.mem_append_left _ held
  noted := by
    obtain ⟨grown, _, rfl⟩ := Engine.record_eq_ok recorded
    rfl
  listed := by
    obtain ⟨grown, _, rfl⟩ := Engine.record_eq_ok recorded
    rfl

theorem begun_keeps (known : i ∈ s.history) (limit : Option Seconds) (now : Instant) :
    s.Keeps (s.begun i limit now) where
  rests := begun_rests known limit now
  marks root running := by
    have marked := s.engine.isRunning_activate root i.root s.workers.length
    rw [running, Bool.or_true] at marked
    exact marked
  entries _ held := held
  noted := rfl
  listed := rfl

theorem cancelled_keeps (s : System) (root : InvocationId) : s.Keeps (s.cancelled root) where
  rests := s.cancelled_rests root
  marks other running := by
    unfold cancelled
    split <;> exact running
  entries i held := by
    unfold cancelled
    split <;> exact held
  noted := by
    unfold cancelled
    split <;> rfl
  listed := by
    unfold cancelled
    split <;> rfl

/-- A step is one or two of what happens between the moves, or a turn of a run, which forgets
nothing that is marked. -/
theorem Step.keeps_or_turns (coherent : s.engine.log.Coherent) (next : s.Step t) :
    (∃ u, s.Keeps u ∧ (u = t ∨ u.Keeps t)) ∨
      ∃ n w turn, s.workers[n]? = some w ∧ w.run.Turns s.engine turn ∧
        (∀ root ∈ forgotten turn.events, s.engine.isRunning root = false) ∧
        t = s.turned n w turn := by
  cases next with
  | record recorded => exact .inl ⟨_, recorded_keeps coherent recorded, .inl rfl⟩
  | invoke _ _ _ _ recorded limit now =>
    refine .inl ⟨_, recorded_keeps coherent recorded, .inr (begun_keeps ?_ limit now)⟩
    exact List.mem_append_right _ (List.mem_singleton_self _)
  | process known limit now => exact .inl ⟨_, begun_keeps known limit now, .inl rfl⟩
  | cancel root => exact .inl ⟨_, s.cancelled_keeps root, .inl rfl⟩
  | go working ready going now =>
    refine .inr ⟨_, _, _, working, .step now ready going, ?_, rfl⟩
    rw [Run.step_forgotten]
    exact fun _ inside => nomatch inside
  | hear working waits answered now =>
    refine .inr ⟨_, _, _, working, .resume now waits answered, ?_, rfl⟩
    intro root isGone
    rcases Run.resume_forgotten _ _ now _ with none | ⟨_, _, evicted⟩
    · rw [none] at isGone
      cases isGone
    · exact Engine.not_isRunning_of_evicted (evicted ▸ isGone)

/-! ### Runs that have left -/

/-- The runs that have left their work loop are not at work. -/
structure Settled (s : System) : Prop where
  orderly : s.Orderly
  left : ∀ deed ∈ s.chronicle, deed.Leaves →
    ∃ w, s.workers[deed.evaluation.worker]? = some w ∧ w.run.point.isAtWork = false

theorem Settled.rests (settled : s.Settled) (rests : s.Rests t) : t.Settled := by
  refine ⟨settled.orderly.rests rests, ?_⟩
  intro deed made leaves
  obtain ⟨v, isWorker, atRest⟩ := settled.left deed (rests.chronicle ▸ made) leaves
  obtain ⟨w, working, like⟩ := rests.kept _ v isWorker
  exact ⟨w, working, like.point ▸ atRest⟩

theorem Settled.turned (settled : s.Settled) (working : s.workers[n]? = some w)
    (moves : Run.IsMove s.engine w.run.cascade w.run.point turn) : (s.turned n w turn).Settled := by
  refine ⟨settled.orderly.turned working moves, ?_⟩
  intro deed made leaves
  rcases mem_turned_chronicle.mp made with old | rfl
  · obtain ⟨v, isWorker, atRest⟩ := settled.left deed old leaves
    by_cases isMover : deed.evaluation.worker = n
    · rw [isMover] at isWorker ⊢
      cases working.symm.trans isWorker
      exact ⟨_, turned_mover working, Moves.not_isAtWork moves atRest⟩
    · exact ⟨v, turned_other isMover isWorker, atRest⟩
  · exact ⟨_, turned_mover working, leaves.2⟩

theorem settled_preserved : Preserved Settled where
  coherent settled := settled.orderly.sound.coherent
  rest := Settled.rests
  turn := Settled.turned

theorem Initial.settled (initial : start.Initial) : start.Settled where
  orderly := initial.orderly
  left deed made := by simp [initial.chronicle] at made

/-! ### Until a run leaves -/

/-- What holds of a cascade as long as none of its runs has left since a moment at which it was
marked and an invocation of it was in the log. -/
structure Spared (s : System) (moment : Nat) (i : Invocation) : Prop where
  running : s.engine.isRunning i.root = true
  held : i ∈ s.engine.log.entries
  silent : ∀ deed ∈ s.chronicle.drop moment, i.root ∉ forgotten deed.events

/-- Since a moment, no run of a cascade has left its work loop. -/
def Undisturbed (s : System) (moment : Nat) (root : InvocationId) : Prop :=
  ∀ deed ∈ s.deedsSince moment root, ¬deed.Leaves

theorem mem_deedsSince {deed : Deed} : deed ∈ s.deedsSince moment root ↔
    deed ∈ s.chronicle.drop moment ∧
      ∃ w, s.workers[deed.evaluation.worker]? = some w ∧ w.run.cascade.root = root := by
  simp [deedsSince]

theorem Spared.keeps (spared : s.Spared moment i) (keeps : s.Keeps t) : t.Spared moment i where
  running := keeps.marks _ spared.running
  held := keeps.entries i spared.held
  silent deed made := spared.silent deed (keeps.rests.chronicle ▸ made)

theorem Undisturbed.of_rests (rests : s.Rests t) (undisturbed : t.Undisturbed moment root) :
    s.Undisturbed moment root := by
  intro deed made
  obtain ⟨since, v, isWorker, isRoot⟩ := mem_deedsSince.mp made
  obtain ⟨w, working, like⟩ := rests.kept _ v isWorker
  rw [← rests.chronicle] at since
  exact undisturbed deed (mem_deedsSince.mpr ⟨since, w, working, like.work.root.trans isRoot⟩)

theorem drop_turned_chronicle (inside : moment ≤ s.chronicle.length) :
    (s.turned n w turn).chronicle.drop moment = s.chronicle.drop moment ++ [w.deed n turn] :=
  List.drop_append_of_le_length inside

theorem Undisturbed.of_turned (inside : moment ≤ s.chronicle.length)
    (working : s.workers[n]? = some w)
    (moves : Run.IsMove s.engine w.run.cascade w.run.point turn)
    (undisturbed : (s.turned n w turn).Undisturbed moment root) : s.Undisturbed moment root := by
  intro deed made
  obtain ⟨since, v, isWorker, isRoot⟩ := mem_deedsSince.mp made
  obtain ⟨u, isNow, sameRoot⟩ := exists_turned working (Moves.root_eq moves) isWorker
  refine undisturbed deed (mem_deedsSince.mpr ⟨?_, u, isNow, sameRoot.trans isRoot⟩)
  rw [drop_turned_chronicle inside]
  exact List.mem_append_left _ since

/-- What follows a moment at which a cascade was marked. -/
structure Follows (s t : System) (i : Invocation) : Prop where
  orderly : t.Orderly
  later : s.chronicle.length ≤ t.chronicle.length
  spared : t.Undisturbed s.chronicle.length i.root → t.Spared s.chronicle.length i

theorem Follows.keeps (follows : s.Follows t i) (keeps : t.Keeps u) : s.Follows u i where
  orderly := follows.orderly.rests keeps.rests
  later := keeps.rests.chronicle ▸ follows.later
  spared undisturbed := (follows.spared (undisturbed.of_rests keeps.rests)).keeps keeps

theorem Follows.turned (follows : s.Follows t i) (working : t.workers[n]? = some w)
    (moves : Run.IsMove t.engine w.run.cascade w.run.point turn)
    (forgets : ∀ root ∈ forgotten turn.events, t.engine.isRunning root = false) :
    s.Follows (t.turned n w turn) i where
  orderly := follows.orderly.turned working moves
  later := by
    rw [turned_chronicle, List.length_append]
    exact Nat.le_add_right_of_le follows.later
  spared undisturbed := by
    have before := follows.spared (undisturbed.of_turned follows.later working moves)
    constructor
    case running =>
      refine Moves.isRunning moves ?_ before.running
      intro atWork notAtWork sameRoot
      refine undisturbed (w.deed n turn) (mem_deedsSince.mpr ⟨?_, _, turned_mover working, ?_⟩)
        ⟨atWork, notAtWork⟩
      · rw [drop_turned_chronicle follows.later]
        exact List.mem_append_right _ (List.mem_singleton_self _)
      · exact (Moves.root_eq moves).trans sameRoot
    case held => exact Moves.held moves follows.orderly.sound.coherent before.held before.running
    case silent =>
      intro deed made
      rw [drop_turned_chronicle follows.later] at made
      rcases List.mem_append.mp made with old | new
      · exact before.silent deed old
      · rw [List.mem_singleton.mp new]
        exact fun isGone => Bool.false_ne_true ((forgets i.root isGone).symm.trans before.running)

/-- From a moment at which a cascade is marked it is spared until one of its runs leaves. -/
theorem Reaches.follows (orderly : s.Orderly) (running : s.engine.isRunning i.root = true)
    (held : i ∈ s.engine.log.entries) (later : s.Reaches t) : s.Follows t i := by
  induction later with
  | start =>
    refine ⟨orderly, Nat.le_refl _, fun _ => ⟨running, held, ?_⟩⟩
    rw [List.drop_length]
    exact fun _ inside => nomatch inside
  | step _ next ih =>
    rcases next.keeps_or_turns ih.orderly.sound.coherent with
      ⟨v, first, rfl | second⟩ | ⟨n, w, turn, working, turns, forgets, rfl⟩
    · exact ih.keeps first
    · exact (ih.keeps first).keeps second
    · exact ih.turned working turns.isMove forgets

/-- A run is begun for an invocation that is in the log. As long as it has not left its work
loop, and no other run of its cascade has left since it was begun, the cascade is not
forgotten: all of it stays in the log. -/
theorem spares_running (initial : start.Initial) (reached : start.Reaches s)
    (held : i ∈ s.engine.log.entries) (limit : Option Seconds) (now : Instant)
    (later : (s.begun i limit now).Reaches t) (working : t.workers[s.workers.length]? = some w)
    (atWork : w.run.point.isAtWork = true)
    (others : ∀ deed ∈ t.deedsSince s.chronicle.length i.root,
      deed.evaluation.worker ≠ s.workers.length → ¬deed.Leaves) :
    (∀ deed ∈ t.chronicle.drop s.chronicle.length, i.root ∉ forgotten deed.events) ∧
      ∀ j ∈ t.history, j.root = i.root → j ∈ t.engine.log.entries := by
  have orderly := reached.orderly initial
  have known := orderly.sound.log.mem_history held
  have begun : start.Reaches (s.begun i limit now) := reached.step (.process known limit now)
  have marked : (s.begun i limit now).engine.isRunning i.root = true := by
    have isMarked := s.engine.isRunning_activate i.root i.root s.workers.length
    rw [decide_eq_true rfl, Bool.true_or] at isMarked
    exact isMarked
  have settled := settled_preserved.reaches initial.settled (begun.trans later)
  have follows : (s.begun i limit now).Follows t i :=
    Reaches.follows (begun.orderly initial) marked held later
  have undisturbed : t.Undisturbed s.chronicle.length i.root := by
    intro deed made leaves
    by_cases isOwn : deed.evaluation.worker = s.workers.length
    · have isMade := List.mem_of_mem_drop (mem_deedsSince.mp made).1
      obtain ⟨v, isWorker, atRest⟩ := settled.left deed isMade leaves
      rw [isOwn] at isWorker
      cases working.symm.trans isWorker
      exact Bool.false_ne_true (atRest.symm.trans atWork)
    · exact others deed made isOwn leaves
  have spared := follows.spared undisturbed
  refine ⟨spared.silent, fun j inHistory sameRoot => ?_⟩
  exact settled.orderly.sound.log.held_together inHistory spared.held sameRoot

end System

/-! ### Two runs at work in one cascade -/

namespace Door

/-- Whenever the door is opened, a lamp is lit. -/
def light : Rule where
  name := "light"
  whens := [{ action := ⟨"Door", "open"⟩, inputs := [] }]
  thens := [{ action := ⟨"Lamp", "warm"⟩, inputs := [] }]

def start : System where
  engine :=
    { catalogue := { operations := [⟨⟨"Door", "open"⟩, .action⟩, ⟨⟨"Lamp", "warm"⟩, .action⟩] }
      rules := { rules := [light], index := [(⟨"Door", "open"⟩, [light])] }
      limits := { retention := some 0 } }

theorem start_initial : start.Initial where
  log := .start
  fired := rfl
  firedByRoot := rfl
  active := rfl
  workers := rfl
  chronicle := rfl

/-- The door has been opened, and nobody has noticed yet. -/
def opened : System := start.after [.record ⟨"Door", "open"⟩ [] []]

def opening : Invocation where
  id := 1
  action := ⟨"Door", "open"⟩
  input := []
  output := []
  causes := []
  root := 1
  depth := 0
  ancestors := []

/-- A run of the cascade is waiting for the lamp. -/
def warming : System := (opened.begun opening none 0).after (List.replicate 5 (.go 0))

/-- Meanwhile another run of it finds nothing left to do, and is about to leave. -/
def overtaking : System := warming.after (.process 0 :: List.replicate 3 (.go 1))

/-- The other run has left, and has come back from the repository. -/
def overtaken : System := overtaking.after [.go 1, .hear 1 (.repository (.ok ()))]

theorem opened_entries : opened.engine.log.entries = [opening] := rfl

theorem opened_reaches_overtaking : (opened.begun opening none 0).Reaches overtaking :=
  (System.reaches_after _ _).trans (warming.reaches_after _)

theorem spares_running_overtaking :
    (∃ w ∈ overtaking.workers[0]?, w.run.point.isAtWork = true) ∧
      (∀ deed ∈ overtaking.chronicle.drop opened.chronicle.length, 1 ∉ forgotten deed.events) ∧
      ∀ j ∈ overtaking.history, j.root = 1 → j ∈ overtaking.engine.log.entries := by
  have held : opening ∈ opened.engine.log.entries := opened_entries ▸ List.mem_singleton_self _
  have atWork : ∃ w ∈ overtaking.workers[0]?, w.run.point.isAtWork = true := by decide +kernel
  have others : ∀ deed ∈ overtaking.deedsSince opened.chronicle.length opening.root,
      deed.evaluation.worker ≠ opened.workers.length → ¬deed.Leaves := by decide +kernel
  refine ⟨atWork, ?_⟩
  obtain ⟨w, working, atWork⟩ := atWork
  exact System.spares_running start_initial (start.reaches_after _) held none 0
    opened_reaches_overtaking working atWork others

/-- Both runs were begun for an invocation in the log, and the first is still waiting for the lamp
when its cascade is forgotten. -/
theorem forgets_at_work : start.Reaches overtaken ∧
    opened.engine.log.entries = [opening] ∧ warming.engine.log.entries = [opening] ∧
      (∃ w ∈ overtaken.workers[0]?, w.run.cascade.root = 1 ∧ w.run.point.isAtWork = true) ∧
      (∃ deed ∈ overtaken.chronicle, 1 ∈ forgotten deed.events) ∧
      overtaken.engine.log.entries.length = 0 := by
  refine ⟨?_, rfl, rfl, by decide +kernel, by decide +kernel, by decide +kernel⟩
  have begun : start.Reaches (opened.begun opening none 0) :=
    (start.reaches_after _).step (.process (i := opening) List.mem_cons_self none 0)
  exact (begun.trans opened_reaches_overtaking).trans (overtaking.reaches_after _)

end Door

end Choreography
