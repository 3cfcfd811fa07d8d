import Choreography.Proofs.System.Closure
import Choreography.Proofs.System.Eviction

/-! Cascades that have one run at a time. Runs are begun for invocations in the log only, and
no cascade is processed again before its last run has ended. Then a cascade is marked as
running exactly as long as a run of it is at work, and it stays in the log meanwhile. -/

namespace Choreography

open InvocationLog

/-- A run that is at work has not ended. -/
theorem Run.hasEnded_of_isAtWork {r : Run} (atWork : r.point.isAtWork = true) :
    r.hasEnded = false := by
  obtain ⟨c, p⟩ := r
  cases p <;> first | rfl | cases atWork

/-- A run that has ended makes no move. -/
theorem Moves.not_hasEnded (moves : Moves e c p f d q events) : Run.hasEnded ⟨c, p⟩ = false := by
  cases moves with
  | leave _ busy => cases p <;> first | rfl | cases busy
  | _ => rfl

theorem Worker.Like.hasEnded_eq {w v : Worker} (like : w.Like v) :
    w.run.hasEnded = v.run.hasEnded := by
  rw [Run.hasEnded, Run.hasEnded, like.point]

namespace System

/-- All runs of a cascade have ended. -/
def AtRest (s : System) (root : InvocationId) : Prop :=
  ∀ w ∈ s.workers, w.run.cascade.root = root → w.run.hasEnded = true

/-- A run of a cascade is at work. -/
def IsAtWork (s : System) (root : InvocationId) : Prop :=
  ∃ w ∈ s.workers, w.run.cascade.root = root ∧ w.run.point.isAtWork = true

/-- What can happen if every cascade has one run at a time, and only what is in the log is
processed. -/
inductive Sequential : System → System → Prop where
  | record {s : System} (logged : s.engine.record action input output = .ok (e, i)) :
      Sequential s (s.recorded e i)
  | invoke {s : System} (offered : s.engine.catalogue.operation action = .ok operation)
      (isAction : operation.kind = .action) (result : Except Error Value)
      (called : CallEnd.ofResult action result = .ok call)
      (logged : s.engine.record action input call.output = .ok (e, i))
      (limit : Option Seconds) (now : Instant) : Sequential s ((s.recorded e i).begun i limit now)
  | process {s : System} (held : i ∈ s.engine.log.entries) (atRest : s.AtRest i.root)
      (limit : Option Seconds) (now : Instant) : Sequential s (s.begun i limit now)
  | cancel {s : System} (root : InvocationId) : Sequential s (s.cancelled root)
  | go {s : System} (working : s.workers[n]? = some w) (ready : w.run.wait? s.engine = none)
      (going : w.run.hasEnded = false) (now : Instant) :
      Sequential s (s.turned n w (w.run.step s.engine now))
  | hear {s : System} (working : s.workers[n]? = some w) (waits : w.run.wait? s.engine = some wait)
      (answered : wait.IsAnsweredBy reply) (now : Instant) :
      Sequential s (s.turned n w (w.run.resume s.engine now reply))

/-- Each cascade has one run that has not ended at most, and is marked exactly as long as that
run is at work. -/
structure Guarded (s : System) : Prop where
  orderly : s.Orderly
  known : ∀ w ∈ s.workers, ∃ i ∈ s.history, i.root = w.run.cascade.root
  single : ∀ (n m : Nat) (v w : Worker), s.workers[n]? = some v → s.workers[m]? = some w →
    v.run.cascade.root = w.run.cascade.root → v.run.hasEnded = false → w.run.hasEnded = false → n = m
  marked : ∀ root, s.engine.isRunning root = true ↔ s.IsAtWork root
  held : ∀ root, s.IsAtWork root → s.Holds root

variable {start s t : System} {e : Engine} {i : Invocation} {root : InvocationId} {n m : Nat}
  {w v : Worker} {turn : Turn}

/-! ### Cascades in the log -/

theorem Holds.of_entries (kept : ∀ i ∈ s.engine.log.entries, i.root = root → i ∈ t.engine.log.entries)
    (holds : s.Holds root) : t.Holds root := by
  obtain ⟨i, held, isId, isRoot⟩ := holds
  exact ⟨i, kept i held isRoot, isId, isRoot⟩

/-- A cascade is in the log if any of its invocations is. -/
theorem Orderly.holds (orderly : s.Orderly) (held : i ∈ s.engine.log.entries) : s.Holds i.root := by
  have remembers := orderly.sound.log
  obtain ⟨r, known, isId, isFirst⟩ := remembers.exists_root (remembers.mem_history held)
  have sameRoot : r.root = i.root := isFirst.trans isId
  exact ⟨r, remembers.held_together known held sameRoot, isId, sameRoot⟩

/-- What a cascade in the log has ever logged is in the log. -/
theorem Orderly.mem_entries_of_holds (orderly : s.Orderly) (holds : s.Holds root)
    (known : i ∈ s.history) (isRoot : i.root = root) : i ∈ s.engine.log.entries := by
  obtain ⟨r, held, _, sameRoot⟩ := holds
  exact orderly.sound.log.held_together known held (isRoot.trans sameRoot.symm)

/-- A cascade that was known once and is in the log later was there all the time. -/
theorem Holds.before (orderly : s.Orderly) (later : t.Orderly) (evolves : s.engine.Evolves t.engine)
    (history : ∃ added, t.history = s.history ++ added) (known : ∃ j ∈ s.history, j.root = root)
    (holds : t.Holds root) : s.Holds root := by
  obtain ⟨i, held, isId, isRoot⟩ := holds
  obtain ⟨added, history⟩ := history
  obtain ⟨j, inHistory, sameRoot⟩ := known
  obtain ⟨r, isKnown, isFirst, _⟩ := orderly.sound.log.exists_root inHistory
  have isLater : r ∈ t.history := history ▸ List.mem_append_left _ isKnown
  have same : i = r := later.sound.log.eq_of_id_eq (later.sound.log.mem_history held) isLater
    (isId.trans (isFirst.trans sameRoot).symm)
  exact ⟨i, evolves.held_before orderly.sound (same ▸ isKnown) held, isId, isRoot⟩

/-! ### Between the moves -/

theorem IsAtWork.rests (rests : s.Rests t) (atWork : s.IsAtWork root) : t.IsAtWork root := by
  obtain ⟨v, inside, isRoot, atWork⟩ := atWork
  obtain ⟨w, isWorker, like⟩ := rests.mem_kept inside
  exact ⟨w, isWorker, like.work.root.trans isRoot, like.point ▸ atWork⟩

/-- A worker of a system in which no run was begun was there before. -/
theorem Rests.exists_before (rests : s.Rests t) (sameRuns : t.workers.length = s.workers.length)
    (working : t.workers[n]? = some w) : ∃ v, s.workers[n]? = some v ∧ w.Like v := by
  rcases rests.worker n w working with before | ⟨isNone, _⟩
  · exact before
  · have inside := (List.getElem?_eq_some_iff.mp working).1
    exact absurd (List.getElem?_eq_none_iff.mp isNone) (by omega)

theorem IsAtWork.of_rests (rests : s.Rests t) (sameRuns : t.workers.length = s.workers.length)
    (atWork : t.IsAtWork root) : s.IsAtWork root := by
  obtain ⟨w, inside, isRoot, atWork⟩ := atWork
  obtain ⟨n, working⟩ := List.getElem?_of_mem inside
  obtain ⟨v, isWorker, like⟩ := rests.exists_before sameRuns working
  exact ⟨v, List.mem_of_getElem? isWorker, like.work.root.symm.trans isRoot, like.point ▸ atWork⟩

/-- Recording and cancelling leave every run where it is. -/
theorem Guarded.keeps (guarded : s.Guarded) (keeps : s.Keeps t)
    (sameRuns : t.workers.length = s.workers.length)
    (sameMarks : t.engine.active = s.engine.active) : t.Guarded := by
  have before {n : Nat} {w : Worker} := keeps.rests.exists_before (n := n) (w := w) sameRuns
  obtain ⟨added, history, _⟩ := keeps.rests.history
  constructor
  case orderly => exact guarded.orderly.rests keeps.rests
  case known =>
    intro w inside
    obtain ⟨n, working⟩ := List.getElem?_of_mem inside
    obtain ⟨v, isWorker, like⟩ := before working
    obtain ⟨i, known, isRoot⟩ := guarded.known v (List.mem_of_getElem? isWorker)
    exact ⟨i, history ▸ List.mem_append_left _ known, isRoot.trans like.work.root.symm⟩
  case single =>
    intro n m v w isFirst isSecond sameRoot firstGoing secondGoing
    obtain ⟨v', isWorker, like⟩ := before isFirst
    obtain ⟨w', isOther, alike⟩ := before isSecond
    exact guarded.single n m v' w' isWorker isOther
      (like.work.root.symm.trans (sameRoot.trans alike.work.root))
      (like.hasEnded_eq ▸ firstGoing) (alike.hasEnded_eq ▸ secondGoing)
  case marked =>
    intro root
    rw [Engine.isRunning, sameMarks, ← Engine.isRunning, guarded.marked]
    exact ⟨.rests keeps.rests, .of_rests keeps.rests sameRuns⟩
  case held =>
    intro root atWork
    exact (guarded.held root (atWork.of_rests keeps.rests sameRuns)).of_entries fun i held _ =>
      keeps.entries i held

theorem Guarded.recorded (guarded : s.Guarded)
    (recorded : s.engine.record action input output = .ok (e, i)) : (s.recorded e i).Guarded := by
  refine guarded.keeps (recorded_keeps guarded.orderly.sound.coherent recorded) rfl ?_
  obtain ⟨grown, _, rfl⟩ := Engine.record_eq_ok recorded
  rfl

theorem Guarded.cancelled (guarded : s.Guarded) (root : InvocationId) : (s.cancelled root).Guarded := by
  refine guarded.keeps (s.cancelled_keeps root) ?_ ?_
  · unfold System.cancelled
    split
    · exact List.length_modify ..
    · rfl
  · unfold System.cancelled
    split <;> rfl

theorem mem_begun_workers {limit : Option Seconds} {now : Instant}
    (working : (s.begun i limit now).workers[n]? = some w) :
    s.workers[n]? = some w ∨
      n = s.workers.length ∧ w.run.cascade.root = i.root ∧ w.run.point = .next := by
  by_cases inside : n < s.workers.length
  · exact .inl ((List.getElem?_append_left inside).symm.trans working)
  · have outside := Nat.le_of_not_lt inside
    have isNew := (List.getElem?_append_right outside).symm.trans working
    rw [List.getElem?_singleton] at isNew
    split at isNew
    · next isFirst =>
      cases isNew
      exact .inr ⟨by omega, rfl, rfl⟩
    · cases isNew

theorem Guarded.begun (guarded : s.Guarded) (held : i ∈ s.engine.log.entries)
    (atRest : s.AtRest i.root) (limit : Option Seconds) (now : Instant) :
    (s.begun i limit now).Guarded := by
  have known := guarded.orderly.sound.log.mem_history held
  have keeps := begun_keeps known limit now
  have isNew : (s.begun i limit now).IsAtWork i.root :=
    ⟨_, List.mem_append_right _ (List.mem_singleton_self _), rfl, rfl⟩
  have atWork (root : InvocationId) :
      (s.begun i limit now).IsAtWork root ↔ root = i.root ∨ s.IsAtWork root := by
    constructor
    · rintro ⟨w, inside, isRoot, atWork⟩
      obtain ⟨n, working⟩ := List.getElem?_of_mem inside
      rcases mem_begun_workers working with before | ⟨_, isFresh, _⟩
      · exact .inr ⟨w, List.mem_of_getElem? before, isRoot, atWork⟩
      · exact .inl (isRoot.symm.trans isFresh)
    · rintro (rfl | before)
      · exact isNew
      · exact before.rests keeps.rests
  have others {n : Nat} {v : Worker} (isWorker : s.workers[n]? = some v)
      (sameRoot : v.run.cascade.root = i.root) : v.run.hasEnded = true :=
    atRest v (List.mem_of_getElem? isWorker) sameRoot
  constructor
  case orderly => exact guarded.orderly.rests keeps.rests
  case known =>
    intro w inside
    obtain ⟨n, working⟩ := List.getElem?_of_mem inside
    rcases mem_begun_workers working with before | ⟨_, isFresh, _⟩
    · exact guarded.known w (List.mem_of_getElem? before)
    · exact ⟨i, known, isFresh.symm⟩
  case single =>
    intro n m v w isFirst isSecond sameRoot firstGoing secondGoing
    rcases mem_begun_workers isFirst with before | ⟨isLast, isFresh, _⟩ <;>
      rcases mem_begun_workers isSecond with alsoBefore | ⟨isLast', isFresh', _⟩
    · exact guarded.single n m v w before alsoBefore sameRoot firstGoing secondGoing
    · exact absurd (others before (sameRoot.trans isFresh')) (Bool.eq_false_iff.mp firstGoing)
    · exact absurd (others alsoBefore (sameRoot.symm.trans isFresh)) (Bool.eq_false_iff.mp secondGoing)
    · exact isLast.trans isLast'.symm
  case marked =>
    intro root
    have isMarked := s.engine.isRunning_activate root i.root s.workers.length
    have same : (s.begun i limit now).engine.isRunning root =
        (decide (root = i.root) || s.engine.isRunning root) := isMarked
    rw [same, atWork, Bool.or_eq_true, decide_eq_true_iff, guarded.marked]
  case held =>
    intro root isAtWork
    refine Holds.of_entries (s := s) (fun j isHeld _ => keeps.entries j isHeld) ?_
    rcases (atWork root).mp isAtWork with rfl | before
    · exact guarded.orderly.holds held
    · exact guarded.held root before

/-! ### A turn -/

/-- What is at work after a turn was at work before. -/
theorem IsAtWork.of_turned (working : s.workers[n]? = some w)
    (moves : Run.IsMove s.engine w.run.cascade w.run.point turn)
    (atWork : (s.turned n w turn).IsAtWork root) : s.IsAtWork root := by
  obtain ⟨v, inside, isRoot, atWork⟩ := atWork
  obtain ⟨m, isWorker⟩ := List.getElem?_of_mem inside
  rcases turned_worker working isWorker with ⟨rfl, rfl⟩ | ⟨_, before⟩
  · refine ⟨w, List.mem_of_getElem? working, (Moves.root_eq moves).symm.trans isRoot, ?_⟩
    by_contra isLeft
    have stays := Moves.not_isAtWork moves (Bool.eq_false_iff.mpr isLeft)
    exact Bool.false_ne_true (stays.symm.trans atWork)
  · exact ⟨v, List.mem_of_getElem? before, isRoot, atWork⟩

/-- A turn in which a run neither leaves its work loop nor comes back to it. -/
theorem IsAtWork.turned (working : s.workers[n]? = some w)
    (moves : Run.IsMove s.engine w.run.cascade w.run.point turn)
    (same : turn.run.point.isAtWork = w.run.point.isAtWork) (atWork : s.IsAtWork root) :
    (s.turned n w turn).IsAtWork root := by
  obtain ⟨v, inside, isRoot, atWork⟩ := atWork
  obtain ⟨m, isWorker⟩ := List.getElem?_of_mem inside
  by_cases isMover : m = n
  · subst isMover
    cases working.symm.trans isWorker
    exact ⟨_, mover_mem_turned turn working, (Moves.root_eq moves).trans isRoot, same.trans atWork⟩
  · exact ⟨v, List.mem_of_getElem? (turned_other isMover isWorker), isRoot, atWork⟩

/-- When the only run of a cascade leaves its work loop, all others go on. -/
theorem Guarded.isAtWork_of_leaving (guarded : s.Guarded) (working : s.workers[n]? = some w)
    (atWork : w.run.point.isAtWork = true) (left : turn.run.point.isAtWork = false) :
    (s.turned n w turn).IsAtWork root ↔ root ≠ w.run.cascade.root ∧ s.IsAtWork root := by
  constructor
  · rintro ⟨v, inside, isRoot, stillAtWork⟩
    obtain ⟨m, isWorker⟩ := List.getElem?_of_mem inside
    rcases turned_worker working isWorker with ⟨rfl, rfl⟩ | ⟨elsewhere, before⟩
    · exact absurd stillAtWork (Bool.eq_false_iff.mp left)
    · refine ⟨fun sameRoot => elsewhere ?_, v, List.mem_of_getElem? before, isRoot, stillAtWork⟩
      exact guarded.single m n v w before working (isRoot.trans sameRoot)
        (Run.hasEnded_of_isAtWork stillAtWork) (Run.hasEnded_of_isAtWork atWork)
  · rintro ⟨elsewhere, v, inside, isRoot, stillAtWork⟩
    obtain ⟨m, isWorker⟩ := List.getElem?_of_mem inside
    have notMover : m ≠ n := by
      rintro rfl
      cases working.symm.trans isWorker
      exact elsewhere isRoot.symm
    exact ⟨v, List.mem_of_getElem? (turned_other notMover isWorker), isRoot, stillAtWork⟩

theorem Guarded.turned (guarded : s.Guarded) (working : s.workers[n]? = some w)
    (moves : Run.IsMove s.engine w.run.cascade w.run.point turn) : (s.turned n w turn).Guarded := by
  have sameRoot : turn.run.cascade.root = w.run.cascade.root := Moves.root_eq moves
  have going : w.run.hasEnded = false := Moves.not_hasEnded moves
  constructor
  case orderly => exact guarded.orderly.turned working moves
  case known =>
    intro v inside
    obtain ⟨m, isWorker⟩ := List.getElem?_of_mem inside
    rcases turned_worker working isWorker with ⟨rfl, rfl⟩ | ⟨_, before⟩
    · obtain ⟨i, known, isRoot⟩ := guarded.known w (List.mem_of_getElem? working)
      exact ⟨i, List.mem_append_left _ known, isRoot.trans sameRoot.symm⟩
    · obtain ⟨i, known, isRoot⟩ := guarded.known v (List.mem_of_getElem? before)
      exact ⟨i, List.mem_append_left _ known, isRoot⟩
  case single =>
    intro k m u v isFirst isSecond alike firstGoing secondGoing
    rcases turned_worker working isFirst with ⟨rfl, rfl⟩ | ⟨_, before⟩ <;>
      rcases turned_worker working isSecond with ⟨rfl, rfl⟩ | ⟨_, alsoBefore⟩
    · rfl
    · exact guarded.single k m w v working alsoBefore (sameRoot.symm.trans alike) going secondGoing
    · exact guarded.single k m u w before working (alike.trans sameRoot) firstGoing going
    · exact guarded.single k m u v before alsoBefore alike firstGoing secondGoing
  case marked =>
    intro root
    rcases Moves.active moves with ⟨same, marks⟩ | ⟨atWork, left, marks⟩
    · rw [turned_engine, Engine.isRunning, marks, ← Engine.isRunning, guarded.marked]
      exact ⟨.turned working moves same, .of_turned working moves⟩
    · rw [turned_engine, Engine.isRunning, marks, ← Engine.isRunning, Engine.isRunning_deactivate,
        guarded.isAtWork_of_leaving working atWork left, Bool.and_eq_true, guarded.marked]
      simp
  case held =>
    intro root atWork
    have before := atWork.of_turned working moves
    refine (guarded.held root before).of_entries fun i held isRoot => ?_
    have running := (guarded.marked root).mpr before
    exact Moves.held moves guarded.orderly.sound.coherent held (isRoot ▸ running)

/-- A run is of a cascade that began before now. -/
theorem Guarded.root_lt_next (guarded : s.Guarded) (inside : w ∈ s.workers) :
    w.run.cascade.root < s.engine.log.next := by
  obtain ⟨j, known, sameRoot⟩ := guarded.known w inside
  exact sameRoot ▸ guarded.orderly.sound.log.root_lt_next known

/-- The cascade of a call that has just been recorded has no run. -/
theorem Guarded.atRest_of_recorded (guarded : s.Guarded)
    (recorded : s.engine.record action input output = .ok (e, i)) :
    (s.recorded e i).AtRest i.root := by
  intro w inside isRoot
  obtain ⟨grown, logged, rfl⟩ := Engine.record_eq_ok recorded
  have coherent := guarded.orderly.sound.coherent
  obtain ⟨parents, isNone, _, _, rfl, _⟩ := coherent.append_eq_ok logged
  have isNext : (s.engine.log.describe action input output parents).root = s.engine.log.next := by
    rw [List.map_eq_nil_iff.mp isNone]
    rfl
  have isOld := guarded.root_lt_next inside
  rw [isRoot.trans isNext] at isOld
  exact absurd isOld (Int.lt_irrefl _)

theorem held_of_recorded (coherent : s.engine.log.Coherent)
    (recorded : s.engine.record action input output = .ok (e, i)) :
    i ∈ (s.recorded e i).engine.log.entries := by
  obtain ⟨grown, logged, rfl⟩ := Engine.record_eq_ok recorded
  have grows : grown.entries = s.engine.log.entries ++ [i] := (coherent.append_entries logged).1
  exact grows ▸ List.mem_append_right _ (List.mem_singleton_self _)

theorem Sequential.step (orderly : s.Orderly) (next : s.Sequential t) : s.Step t := by
  cases next with
  | record logged => exact .record logged
  | invoke offered isAction result called logged limit now =>
    exact .invoke offered isAction result called logged limit now
  | process held _ limit now => exact .process (orderly.sound.log.mem_history held) limit now
  | cancel root => exact .cancel root
  | go working ready going now => exact .go working ready going now
  | hear working waits answered now => exact .hear working waits answered now

theorem Guarded.sequential (guarded : s.Guarded) (next : s.Sequential t) : t.Guarded := by
  cases next with
  | record logged => exact guarded.recorded logged
  | invoke _ _ _ _ logged limit now =>
    have held := held_of_recorded guarded.orderly.sound.coherent logged
    exact (guarded.recorded logged).begun held (guarded.atRest_of_recorded logged) limit now
  | process held atRest limit now => exact guarded.begun held atRest limit now
  | cancel root => exact guarded.cancelled root
  | go working ready going now => exact guarded.turned working (Run.step_isMove _ now ready going)
  | hear working waits answered now =>
    exact guarded.turned working (Run.resume_isMove _ now waits answered)

theorem Guarded.evolves (guarded : s.Guarded) (next : s.Sequential t) : s.engine.Evolves t.engine := by
  have orderly := guarded.orderly
  rcases (next.step orderly).keeps_or_turns orderly.sound.coherent with
    ⟨u, first, rfl | second⟩ | ⟨n, w, turn, working, turns, _, rfl⟩
  · exact first.rests.evolves
  · exact first.rests.evolves.trans second.rests.evolves orderly.sound.reached
  · have grounded := orderly.grounded w (List.mem_of_getElem? working)
    exact (Moves.sound turns.isMove orderly.sound grounded.point).2

theorem Initial.guarded (initial : start.Initial) : start.Guarded where
  orderly := initial.orderly
  known w inside := by simp [initial.workers] at inside
  single n m v w isFirst := by simp [initial.workers] at isFirst
  marked root := by simp [Engine.isRunning, initial.active, IsAtWork, initial.workers]
  held root atWork := by simp [IsAtWork, initial.workers] at atWork

/-- Where each cascade has one run at a time, a cascade is in the log as long as a run of it is at
work. -/
theorem Guarded.reaches (guarded : s.Guarded) (reached : Relation.ReflTransGen Sequential s t) :
    t.Guarded := by
  induction reached with
  | refl => exact guarded
  | tail _ next ih => exact ih.sequential next

/-- What is reached with one run at a time in each cascade is reached. -/
theorem Guarded.reaches_later (guarded : s.Guarded)
    (reached : Relation.ReflTransGen Sequential s t) : s.Reaches t := by
  induction reached with
  | refl => exact .start
  | tail before next ih => exact ih.step (next.step (guarded.reaches before).orderly)

/-! ### Schedules -/

instance (s : System) (root : InvocationId) : Decidable (s.AtRest root) :=
  inferInstanceAs
    (Decidable (∀ w ∈ s.workers, w.run.cascade.root = root → w.run.hasEnded = true))

instance (s : System) (root : InvocationId) : Decidable (s.IsAtWork root) :=
  inferInstanceAs
    (Decidable (∃ w ∈ s.workers, w.run.cascade.root = root ∧ w.run.point.isAtWork = true))

/-- A run is begun only for a cascade that is in the log and has no other run. -/
def Fits (s : System) : Happening → Prop
  | .process place => ∀ i ∈ s.history[place]?, s.Holds i.root ∧ s.AtRest i.root
  | _ => True

instance (s : System) : (happening : Happening) → Decidable (s.Fits happening)
  | .process place =>
    inferInstanceAs (Decidable (∀ i ∈ s.history[place]?, s.Holds i.root ∧ s.AtRest i.root))
  | .record .. | .cancel _ | .go _ | .hear .. => .isTrue trivial

theorem Sequential.of_happen {happening : Happening} (orderly : s.Orderly)
    (fits : s.Fits happening) (happens : s.happen? happening = some t) : s.Sequential t := by
  cases happening with
  | record action input output =>
    rw [happen?] at happens
    split at happens
    · next logged =>
      cases happens
      exact .record logged
    · cases happens
  | process place =>
    obtain ⟨i, found, rfl⟩ := Option.map_eq_some_iff.mp happens
    obtain ⟨holds, atRest⟩ := fits i found
    have held := orderly.mem_entries_of_holds holds (List.mem_of_getElem? found) rfl
    exact .process held atRest none 0
  | cancel root =>
    cases happens
    exact .cancel root
  | go n =>
    obtain ⟨w, working, moved⟩ := Option.bind_eq_some_iff.mp happens
    split at moved
    · next free =>
      cases moved
      exact .go working (Option.isNone_iff_eq_none.mp free.1) free.2 0
    · cases moved
  | hear n reply =>
    obtain ⟨w, working, heard⟩ := Option.bind_eq_some_iff.mp happens
    obtain ⟨wait, waits, moved⟩ := Option.bind_eq_some_iff.mp heard
    split at moved
    · next answered =>
      cases moved
      exact .hear working waits answered 0
    · cases moved

end System

end Choreography
