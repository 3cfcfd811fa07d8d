import Choreography.Proofs.System

/-! Schedules. A schedule says in which order the runs of a system move and what they are
answered, so that a system can be followed through it. All of it happens at one moment. -/

namespace Choreography

/-- Something that may happen to a system. -/
inductive Happening where
  | record (action : ActionRef) (input output : Fields)
  /-- A run is begun for the invocation at a place of the history. -/
  | process (place : Nat)
  | cancel (root : InvocationId)
  | go (n : Nat)
  | hear (n : Nat) (reply : Reply)

instance Wait.decidableIsAnsweredBy :
    (wait : Wait) → (reply : Reply) → Decidable (wait.IsAnsweredBy reply)
  | .clause .., .clause _ | .component .., .component _ | .repository _, .repository _ =>
    .isTrue trivial
  | .clause .., .component _ | .clause .., .repository _ | .component .., .clause _
  | .component .., .repository _ | .repository _, .clause _ | .repository _, .component _ =>
    .isFalse id

namespace System

/-- The system after something has happened, if it could happen. -/
def happen? (s : System) : Happening → Option System
  | .record action input output =>
    match s.engine.record action input output with
    | .ok (e, i) => some (s.recorded e i)
    | .error _ => none
  | .process place => s.history[place]?.map fun i => s.begun i none 0
  | .cancel root => some (s.cancelled root)
  | .go n => do
    let w ← s.workers[n]?
    if (w.run.wait? s.engine).isNone ∧ w.run.hasEnded = false then
      some (s.turned n w (w.run.step s.engine 0))
    else none
  | .hear n reply => do
    let w ← s.workers[n]?
    let wait ← w.run.wait? s.engine
    if wait.IsAnsweredBy reply then some (s.turned n w (w.run.resume s.engine 0 reply)) else none

/-- The system at the end of a schedule, if all of it could happen. -/
def follow? (s : System) (schedule : List Happening) : Option System := schedule.foldlM happen? s

/-- The system after a schedule, or as it was if not all of that could happen. -/
def after (s : System) (schedule : List Happening) : System := (s.follow? schedule).getD s

variable {start s t : System}

theorem Step.of_happen {happening : Happening} (happens : s.happen? happening = some t) :
    s.Step t := by
  cases happening with
  | record action input output =>
    rw [happen?] at happens
    split at happens
    · next logged =>
      cases happens
      exact .record logged
    · cases happens
  | process place =>
    obtain ⟨i, found, rfl⟩ := Option.map_eq_some_iff.mp happens
    exact .process (List.mem_of_getElem? found) none 0
  | cancel root =>
    cases happens
    exact .cancel root
  | go n =>
    obtain ⟨w, working, moved⟩ := Option.bind_eq_some_iff.mp happens
    split at moved
    · next free =>
      cases moved
      exact .go working (Option.isNone_iff_eq_none.mp free.1) free.2 0
    · cases moved
  | hear n reply =>
    obtain ⟨w, working, heard⟩ := Option.bind_eq_some_iff.mp happens
    obtain ⟨wait, waits, moved⟩ := Option.bind_eq_some_iff.mp heard
    split at moved
    · next answered =>
      cases moved
      exact .hear working waits answered 0
    · cases moved

/-- A system reaches the end of every schedule. -/
theorem Reaches.of_follow {schedule : List Happening} (follows : start.follow? schedule = some s) :
    start.Reaches s := by
  suffices general : ∀ t, start.Reaches t → t.follow? schedule = some s → start.Reaches s from
    general start .start follows
  clear follows
  induction schedule with
  | nil =>
    intro t reached follows
    cases follows
    exact reached
  | cons happening schedule ih =>
    intro t reached follows
    obtain ⟨u, happens, later⟩ := Option.bind_eq_some_iff.mp follows
    exact ih u (reached.step (.of_happen happens)) later

theorem reaches_after (s : System) (schedule : List Happening) : s.Reaches (s.after schedule) := by
  unfold after
  cases follows : s.follow? schedule with
  | none => exact .start
  | some => exact .of_follow follows

end System

end Choreography
