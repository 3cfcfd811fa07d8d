import Choreography.Proofs.Engine.Memory
import Choreography.Proofs.Run.Moves

/-! A system is an engine with all its runs. Between any two of their moves, runs may be
begun and cancelled and calls may be recorded, in every order and at every moment; what
components, where-clauses and the repository answer is left open. The system keeps a
chronicle of what its runs did. -/

namespace Choreography

/-- A run and how many rules it has taken. -/
structure Worker where
  run : Run
  taken : Nat := 0

/-- One rule that was taken by one run, in the order in which the run took them. -/
structure Evaluation where
  worker : Nat
  number : Nat
deriving DecidableEq

/-- A move that was made, in the course of which evaluation. -/
structure Deed where
  evaluation : Evaluation
  before : Point
  after : Point
  events : List Event

structure System where
  engine : Engine
  workers : List Worker := []
  /-- Every invocation that was ever logged, also if it was forgotten. -/
  history : List Invocation := []
  chronicle : List Deed := []

/-- Whether a run takes a rule when it goes on from here. -/
def Point.takesRule : Point → Bool
  | .rules _ (_ :: _) => true
  | _ => false

/-- Whether a run has ended with the report of a drained cascade. -/
def Point.HasDrained : Point → Prop
  | .ended (.ok report) => report.drained = true
  | _ => False

instance Point.decidableHasDrained : (p : Point) → Decidable p.HasDrained
  | .ended (.ok report) => inferInstanceAs (Decidable (report.drained = true))
  | .ended (.error _) | .next | .rules .. | .enriching .. | .frames .. | .dispatching .. | .saving =>
    .isFalse id

def Worker.cancel (w : Worker) : Worker := { w with run := { w.run with cascade := w.run.cascade.cancel } }

/-- The number of the evaluation to which the next move of a worker belongs. -/
def Worker.number (w : Worker) : Nat := if w.run.point.takesRule then w.taken + 1 else w.taken

/-- What the chronicle says of a turn of a worker. -/
def Worker.deed (w : Worker) (n : Nat) (turn : Turn) : Deed where
  evaluation := ⟨n, w.number⟩
  before := w.run.point
  after := turn.run.point
  events := turn.events

/-- A run is what it was, its token apart. -/
structure Worker.Like (w v : Worker) : Prop where
  taken : w.taken = v.taken
  point : w.run.point = v.run.point
  work : w.run.cascade.SameWork v.run.cascade

/-- A run has just been begun for an invocation that was logged once. -/
structure Worker.Fresh (w : Worker) (history : List Invocation) : Prop where
  taken : w.taken = 0
  point : w.run.point = .next
  first : ∃ i ∈ history, w.run.cascade.root = i.root ∧ w.run.cascade.queue = [i]

theorem Worker.number_of_takesRule {w : Worker} (takesRule : w.run.point.takesRule = true) :
    w.number = w.taken + 1 := by
  simp [number, takesRule]

theorem Worker.number_of_not_takesRule {w : Worker} (sameRule : w.run.point.takesRule = false) :
    w.number = w.taken := by
  simp [number, sameRule]

theorem Worker.Like.refl (w : Worker) : w.Like w := ⟨rfl, rfl, .refl _⟩

theorem Worker.Like.trans {u v w : Worker} (first : u.Like v) (second : v.Like w) : u.Like w :=
  ⟨first.taken.trans second.taken, first.point.trans second.point, first.work.trans second.work⟩

theorem Worker.cancel_like (w : Worker) : w.cancel.Like w := ⟨rfl, rfl, rfl, rfl, rfl⟩

namespace System

/-- The system after a call was recorded. -/
def recorded (s : System) (engine : Engine) (i : Invocation) : System :=
  { s with engine, history := s.history ++ [i] }

/-- The system after a run was begun. -/
def begun (s : System) (i : Invocation) (limit : Option Seconds) (now : Instant) : System :=
  let (engine, run) := Run.start s.engine s.workers.length i limit now
  { s with engine, workers := s.workers ++ [{ run }] }

/-- The system after the cancellation of a cascade, which reaches its latest run. -/
def cancelled (s : System) (root : InvocationId) : System :=
  match List.lookup root s.engine.active with
  | some n => { s with workers := s.workers.modify n Worker.cancel }
  | none => s

/-- The system after a turn of one of its runs. -/
def turned (s : System) (n : Nat) (w : Worker) (turn : Turn) : System where
  engine := turn.engine
  workers := s.workers.set n { run := turn.run, taken := w.number }
  history := s.history ++ posted turn.events
  chronicle := s.chronicle ++ [w.deed n turn]

/-- Everything that can happen in one go. A run may be begun for any invocation that was ever
logged, an outdated one included. -/
inductive Step : System → System → Prop where
  | record {s : System} (logged : s.engine.record action input output = .ok (e, i)) :
      Step s (s.recorded e i)
  | invoke {s : System} (offered : s.engine.catalogue.operation action = .ok operation)
      (isAction : operation.kind = .action) (result : Except Error Value)
      (called : CallEnd.ofResult action result = .ok call)
      (logged : s.engine.record action input call.output = .ok (e, i))
      (limit : Option Seconds) (now : Instant) : Step s ((s.recorded e i).begun i limit now)
  | process {s : System} (known : i ∈ s.history) (limit : Option Seconds) (now : Instant) :
      Step s (s.begun i limit now)
  | cancel {s : System} (root : InvocationId) : Step s (s.cancelled root)
  | go {s : System} (working : s.workers[n]? = some w) (ready : w.run.wait? s.engine = none)
      (going : w.run.hasEnded = false) (now : Instant) :
      Step s (s.turned n w (w.run.step s.engine now))
  | hear {s : System} (working : s.workers[n]? = some w) (waits : w.run.wait? s.engine = some wait)
      (answered : wait.IsAnsweredBy reply) (now : Instant) :
      Step s (s.turned n w (w.run.resume s.engine now reply))

/-- Whatever happens, in any number of steps. -/
inductive Reaches (start : System) : System → Prop where
  | start : Reaches start start
  | step (reached : Reaches start s) (next : Step s t) : Reaches start t

/-- An engine before its first run, with a log that may have been in use before. -/
structure Initial (s : System) : Prop where
  log : s.engine.log.Remembers s.history
  fired : s.engine.fired = []
  firedByRoot : s.engine.firedByRoot = []
  active : s.engine.active = []
  workers : s.workers = []
  chronicle : s.chronicle = []

variable {start s t u : System}

theorem Reaches.trans (first : start.Reaches s) (second : s.Reaches t) : start.Reaches t := by
  induction second with
  | start => exact first
  | step _ next ih => exact ih.step next

/-- Nothing that was ever logged leaves the history. -/
theorem Step.history_prefix (next : s.Step t) : s.history <+: t.history := by
  cases next with
  | record | invoke | go | hear => exact List.prefix_append _ _
  | process => exact List.prefix_refl _
  | cancel root =>
    rw [cancelled]
    split <;> exact List.prefix_refl _

theorem Reaches.history_prefix (reached : s.Reaches t) : s.history <+: t.history := by
  induction reached with
  | start => exact List.prefix_refl _
  | step _ next ih => exact ih.trans next.history_prefix

/-! ### Between the moves -/

/-- What happens between the moves of the runs: roots are recorded, and runs are begun and
cancelled. -/
structure Rests (s t : System) : Prop where
  sound : s.engine.Sound s.history → t.engine.Sound t.history
  evolves : s.engine.Evolves t.engine
  fired : t.engine.fired = s.engine.fired
  history : ∃ added, t.history = s.history ++ added ∧ ∀ i ∈ added, i.root = i.id
  chronicle : t.chronicle = s.chronicle
  kept : ∀ (n : Nat) (v : Worker), s.workers[n]? = some v → ∃ w, t.workers[n]? = some w ∧ w.Like v
  worker : ∀ (n : Nat) (w : Worker), t.workers[n]? = some w →
    (∃ v, s.workers[n]? = some v ∧ w.Like v) ∨ s.workers[n]? = none ∧ w.Fresh s.history

theorem recorded_rests (coherent : s.engine.log.Coherent)
    (recorded : s.engine.record action input output = .ok (e, i)) : s.Rests (s.recorded e i) := by
  obtain ⟨grown, logged, rfl⟩ := Engine.record_eq_ok recorded
  constructor
  case sound => exact fun sound => sound.append logged
  case evolves => exact Engine.evolves_append logged
  case fired => rfl
  case history =>
    refine ⟨[i], rfl, ?_⟩
    intro j isNew
    obtain ⟨parents, isNone, _, _, rfl, _⟩ := coherent.append_eq_ok logged
    rw [List.mem_singleton.mp isNew, List.map_eq_nil_iff.mp isNone]
    rfl
  case chronicle => rfl
  case kept =>
    intro n v working
    exact ⟨v, working, .refl v⟩
  case worker =>
    intro n w working
    exact .inl ⟨w, working, .refl w⟩

theorem begun_rests (known : i ∈ s.history) (limit : Option Seconds) (now : Instant) :
    s.Rests (s.begun i limit now) := by
  constructor
  case sound => exact fun sound => sound.activate _ _
  case evolves => exact Engine.evolves_activate _ _ _
  case fired => rfl
  case history => exact ⟨[], (List.append_nil _).symm, List.forall_mem_nil _⟩
  case chronicle => rfl
  case kept =>
    intro n v working
    have inside := (List.getElem?_eq_some_iff.mp working).1
    exact ⟨v, (List.getElem?_append_left inside).trans working, .refl v⟩
  case worker =>
    intro n w working
    by_cases inside : n < s.workers.length
    · exact .inl ⟨w, (List.getElem?_append_left inside).symm.trans working, .refl w⟩
    · have outside := Nat.le_of_not_lt inside
      have isNew := (List.getElem?_append_right outside).symm.trans working
      rw [List.getElem?_singleton] at isNew
      split at isNew <;> cases isNew
      exact .inr ⟨List.getElem?_eq_none outside, rfl, rfl, i, known, rfl, rfl⟩

/-- Nothing happens to a system whose runs are what they were, their tokens apart. -/
theorem Rests.of_workers {workers : List Worker}
    (kept : ∀ (n : Nat) (v : Worker), s.workers[n]? = some v → ∃ w, workers[n]? = some w ∧ w.Like v)
    (worker : ∀ (n : Nat) (w : Worker), workers[n]? = some w → ∃ v, s.workers[n]? = some v ∧ w.Like v) :
    s.Rests { s with workers } where
  sound := id
  evolves := .refl _
  fired := rfl
  history := ⟨[], (List.append_nil _).symm, List.forall_mem_nil _⟩
  chronicle := rfl
  kept
  worker n w working := .inl (worker n w working)

theorem cancelled_rests (s : System) (root : InvocationId) : s.Rests (s.cancelled root) := by
  unfold cancelled
  split
  · next m _ =>
    refine .of_workers ?kept ?worker
    case kept =>
      intro n v working
      by_cases isMeant : m = n
      · subst isMeant
        refine ⟨v.cancel, ?_, v.cancel_like⟩
        rw [List.getElem?_modify_eq, working]
        rfl
      · exact ⟨v, (List.getElem?_modify_ne _ _ isMeant).trans working, .refl v⟩
    case worker =>
      intro n w working
      by_cases isMeant : m = n
      · subst isMeant
        rw [List.getElem?_modify_eq] at working
        obtain ⟨v, isWorker, rfl⟩ := Option.map_eq_some_iff.mp working
        exact ⟨v, isWorker, v.cancel_like⟩
      · exact ⟨w, (List.getElem?_modify_ne _ _ isMeant).symm.trans working, .refl w⟩
  · exact .of_workers (fun n v working => ⟨v, working, .refl v⟩)
      fun n w working => ⟨w, working, .refl w⟩

theorem Rests.mem_kept {v : Worker} (rests : s.Rests t) (inside : v ∈ s.workers) :
    ∃ w ∈ t.workers, w.Like v := by
  obtain ⟨n, isWorker⟩ := List.getElem?_of_mem inside
  obtain ⟨w, working, like⟩ := rests.kept n v isWorker
  exact ⟨w, List.mem_of_getElem? working, like⟩

theorem Rests.mem_worker {w : Worker} (rests : s.Rests t) (inside : w ∈ t.workers) :
    (∃ v ∈ s.workers, w.Like v) ∨ w.Fresh s.history := by
  obtain ⟨n, working⟩ := List.getElem?_of_mem inside
  rcases rests.worker n w working with ⟨v, isWorker, like⟩ | ⟨_, fresh⟩
  · exact .inl ⟨v, List.mem_of_getElem? isWorker, like⟩
  · exact .inr fresh

/-- A property that everything preserves that can happen to a system. -/
structure Preserved (P : System → Prop) : Prop where
  coherent : ∀ {s : System}, P s → s.engine.log.Coherent
  rest : ∀ {s t : System}, P s → s.Rests t → P t
  turn : ∀ {s : System} {n w turn}, P s → s.workers[n]? = some w →
    Run.IsMove s.engine w.run.cascade w.run.point turn → P (s.turned n w turn)

/-! ### A turn -/

section Turning

variable {n m : Nat} {v w : Worker} {turn : Turn} {deed : Deed}

@[simp] theorem turned_engine : (s.turned n w turn).engine = turn.engine := rfl

@[simp] theorem turned_chronicle :
    (s.turned n w turn).chronicle = s.chronicle ++ [w.deed n turn] := rfl

theorem mem_turned_chronicle :
    deed ∈ (s.turned n w turn).chronicle ↔ deed ∈ s.chronicle ∨ deed = w.deed n turn := by
  simp

theorem mem_turned_workers (inside : v ∈ (s.turned n w turn).workers) :
    v ∈ s.workers ∨ v = { run := turn.run, taken := w.number } :=
  List.mem_or_eq_of_mem_set inside

/-- After a turn one run has moved on, and the others are where they were. -/
theorem turned_worker (working : s.workers[n]? = some w)
    (isWorker : (s.turned n w turn).workers[m]? = some v) :
    m = n ∧ v = { run := turn.run, taken := w.number } ∨ m ≠ n ∧ s.workers[m]? = some v := by
  by_cases isMover : n = m
  · subst isMover
    have inside := (List.getElem?_eq_some_iff.mp working).1
    rw [turned, List.getElem?_set_self inside] at isWorker
    exact .inl ⟨rfl, (Option.some.inj isWorker).symm⟩
  · rw [turned, List.getElem?_set_ne isMover] at isWorker
    exact .inr ⟨Ne.symm isMover, isWorker⟩

theorem turned_mover (working : s.workers[n]? = some w) :
    (s.turned n w turn).workers[n]? = some { run := turn.run, taken := w.number } :=
  List.getElem?_set_self (List.getElem?_eq_some_iff.mp working).1

theorem mover_mem_turned (turn : Turn) (working : s.workers[n]? = some w) :
    { run := turn.run, taken := w.number } ∈ (s.turned n w turn).workers :=
  List.mem_of_getElem? (turned_mover working)

theorem turned_other (elsewhere : m ≠ n) (isWorker : s.workers[m]? = some v) :
    (s.turned n w turn).workers[m]? = some v :=
  (List.getElem?_set_ne (Ne.symm elsewhere)).trans isWorker

/-- A turn leaves every run in its cascade. -/
theorem exists_turned (working : s.workers[n]? = some w)
    (sameRoot : turn.run.cascade.root = w.run.cascade.root) (isWorker : s.workers[m]? = some v) :
    ∃ u, (s.turned n w turn).workers[m]? = some u ∧ u.run.cascade.root = v.run.cascade.root := by
  by_cases isMover : m = n
  · subst isMover
    cases working.symm.trans isWorker
    exact ⟨_, turned_mover working, sameRoot⟩
  · exact ⟨v, turned_other isMover isWorker, rfl⟩

end Turning

theorem Preserved.step (preserved : Preserved P) (holds : P s) (next : s.Step t) : P t := by
  cases next with
  | record recorded => exact preserved.rest holds (recorded_rests (preserved.coherent holds) recorded)
  | invoke _ _ _ _ recorded limit now =>
    have later := preserved.rest holds (recorded_rests (preserved.coherent holds) recorded)
    refine preserved.rest later (begun_rests ?_ limit now)
    exact List.mem_append_right _ (List.mem_singleton_self _)
  | process known limit now => exact preserved.rest holds (begun_rests known limit now)
  | cancel root => exact preserved.rest holds (s.cancelled_rests root)
  | go working ready going now =>
    exact preserved.turn holds working (Run.step_isMove _ now ready going)
  | hear working waits answered now =>
    exact preserved.turn holds working (Run.resume_isMove _ now waits answered)

theorem Preserved.reaches (preserved : Preserved P) (holds : P start) (reached : start.Reaches s) :
    P s := by
  induction reached with
  | start => exact holds
  | step _ next ih => exact preserved.step ih next

end System

/-! ### What the chronicle tells -/

namespace Deed

/-- The firing that a deed was about, if it began a dispatch or was part of one. -/
def firing? (d : Deed) : Option Firing :=
  match d.after with
  | .dispatching _ _ _ work _ => some work.firing
  | _ => none

/-- The dispatch that a deed began. -/
def dispatch? (d : Deed) : Option Dispatch :=
  match d.before, d.after with
  | .frames .., .dispatching _ _ _ work _ => some work
  | _, _ => none

/-- The call of a component that a deed made. -/
def call? (d : Deed) : Option (ActionRef × Fields) :=
  match d.after with
  | .dispatching _ _ _ _ (.calling action input _ _ _) => some (action, input)
  | _ => none

/-- The frames with which a where-stage came back. -/
def returned? (d : Deed) : Option Frames :=
  match d.before, d.after with
  | .enriching .., .frames _ frames _ => some frames
  | _, _ => none

end Deed

namespace System

/-- The deeds that were about a firing. -/
def concerning (s : System) (firing : Firing) : List Deed :=
  s.chronicle.filter (·.firing? = some firing)

/-- The dispatches for a firing, one for each frame that was dispatched. -/
def dispatches (s : System) (firing : Firing) : List Dispatch :=
  (s.concerning firing).filterMap (·.dispatch?)

/-- The calls of components for a firing. -/
def calls (s : System) (firing : Firing) : List (ActionRef × Fields) :=
  (s.concerning firing).filterMap (·.call?)

/-- The invocations that were logged for a firing. -/
def postings (s : System) (firing : Firing) : List Invocation :=
  (s.concerning firing).flatMap fun d => posted d.events

/-- What came back from the where-stage of an evaluation. -/
def returned (s : System) (evaluation : Evaluation) : List Frames :=
  (s.chronicle.filter (·.evaluation = evaluation)).filterMap (·.returned?)

/-- A run has ended and reports a drained cascade. -/
def HasDrained (s : System) (n : Nat) : Prop := ∃ w ∈ s.workers[n]?, w.run.point.HasDrained

instance (s : System) (n : Nat) : Decidable (s.HasDrained n) :=
  inferInstanceAs (Decidable (∃ w ∈ s.workers[n]?, w.run.point.HasDrained))

end System

end Choreography
