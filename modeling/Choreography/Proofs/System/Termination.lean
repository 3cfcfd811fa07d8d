import Choreography.Proofs.System.Calm
import Mathlib.Data.Fintype.EquivFin
import Mathlib.Data.Int.Order.Basic

/-! Every run comes to an end. Rules may trigger themselves and each other, where-clauses may make
many frames of one, and other runs may do whatever they like: a run makes finitely many turns, and
if all that it calls returns, it leaves its work loop. -/

namespace Choreography

/-- A run has left its work loop, because its queue was empty, because it was cancelled, or because
of an error. -/
inductive Run.HasLeft (r : Run) : Prop where
  | emptied (left : r.point.isAtWork = false) (empty : r.cascade.queue = [])
  | cancelled (ended : r.point = .ended (.ok report)) (state : report.state = .cancelled)
  | failed (ended : r.point = .ended (.error error))

namespace System

/-- As long as a run is in its work loop, it will make another turn. Whatever it calls returns. -/
def IsServed (n : Nat) (course : Nat → System) : Prop :=
  ∀ k w, (course k).workers[n]? = some w → w.run.point.isAtWork = true →
    ∃ later ≥ k, (course later).deedsOf n ≠ (course k).deedsOf n

end System

/-- A run leaves its work loop in one of three ways. -/
theorem Run.hasLeft_lawful : Lawful fun r _ => r.point.isAtWork = false → r.HasLeft where
  begins e n i limit now left := by cases left
  cancels holds left := by
    cases holds left with
    | emptied left empty => exact .emptied left empty
    | cancelled ended state => exact .cancelled ended state
    | failed ended => exact .failed ended
  turns {e n w deeds turn} holds turns left := by
    have moves := turns.isMove
    obtain ⟨⟨c, p⟩, taken⟩ := w
    obtain ⟨f, ⟨d, q⟩, events⟩ := turn
    rcases turns.lands with lands | isSaving
    · cases lands with
      | goesOn going =>
        cases q with
        | saving => exact .emptied rfl (Moves.drained_of_saving moves rfl).2
        | ended => cases going
        | next | rules | enriching | frames | dispatching => cases left
      | @brokenOff g b error isRun =>
        obtain ⟨result, ended, _⟩ := (leave_spec g b error).2.2.1
        cases result with
        | error => exact .failed (isRun ▸ ended)
        | ok => exact .cancelled (isRun ▸ ended) (state_of_leave ended)
    · have empty : c.queue = [] := by
        cases holds (congrArg Point.isAtWork isSaving) with
        | emptied _ empty => exact empty
        | cancelled ended | failed ended => exact absurd (isSaving.symm.trans ended) nofun
      cases isSaving
      cases moves with
      | save => exact .emptied rfl empty
      | fail => exact .failed rfl
      | leave _ busy => cases busy

namespace System

variable {start s t : System} {n : Nat} {w : Worker} {clause : Nat → Behaviour}

theorem Step.of_turns {turn : Turn} (working : s.workers[n]? = some w)
    (turns : w.run.Turns s.engine turn) : s.Step (s.turned n w turn) := by
  cases turns with
  | step now ready going => exact .go working ready going now
  | resume now waits answered => exact .hear working waits answered now

/-- The cancellation of a cascade that is not running changes nothing. -/
theorem step_idle (s : System) : s.Step s := by
  obtain ⟨root, isUnknown⟩ := Infinite.exists_notMem_finset (s.engine.active.map (·.1)).toFinset
  have idle : s.cancelled root = s := by
    have unmarked : List.lookup root s.engine.active = none := by
      refine List.lookup_eq_none_iff.mpr fun entry inside => ?_
      have other : root ≠ entry.1 := by
        rintro rfl
        exact isUnknown (List.mem_toFinset.mpr (List.mem_map_of_mem inside))
      exact bne_iff_ne.mpr other
    rw [cancelled, unmarked]
  have next : s.Step (s.cancelled root) := .cancel root
  rwa [idle] at next

theorem reaches_course (reached : start.Reaches s) {course : Nat → System} (begins : course 0 = s)
    (goesOn : ∀ k, (course k).Step (course (k + 1))) (k : Nat) : start.Reaches (course k) := by
  induction k with
  | zero => exact begins ▸ reached
  | succ k ih => exact ih.step (goesOn k)

/-- Every run terminates. As long as it has not ended, its next turn can be made. But in every
course of things it makes finitely many turns, and takes finitely many invocations from its queue;
and if whatever it calls returns, it leaves its work loop, because its queue is empty, because it
was cancelled, or because of an error. -/
theorem run_terminates (initial : start.Initial) (reached : start.Reaches s)
    (working : s.workers[n]? = some w) :
    (w.run.hasEnded = false → ∃ turn, w.run.Turns s.engine turn ∧ s.Step (s.turned n w turn)) ∧
      ∀ course : Nat → System, course 0 = s → (∀ k, (course k).Step (course (k + 1))) →
        (∃ last, ∀ k ≥ last, (course k).deedsOf n = (course last).deedsOf n) ∧
          (IsServed n course → ∃ k v, (course k).workers[n]? = some v ∧ v.run.HasLeft) := by
  refine ⟨fun going => ?_, fun course begins goesOn => ?_⟩
  · have turns := (Run.TurnsFreely.freely s.engine (fun _ => .abandoned) going).turns
    exact ⟨_, turns, .of_turns working turns⟩
  · have sinks := reached.sinks initial working
    obtain ⟨last, still⟩ := sinks.exists_last_deed begins goesOn
    refine ⟨⟨last, still⟩, fun served => ?_⟩
    obtain ⟨v, isSinking⟩ := sinks.course begins goesOn last
    have isWorker := isSinking.working
    refine ⟨last, v, isWorker, ?_⟩
    have obeys := (reaches_course reached begins goesOn last).obeys Run.hasLeft_lawful initial
    refine obeys.obeys n v isWorker (Bool.eq_false_iff.mpr fun atWork => ?_)
    obtain ⟨later, isLater, moved⟩ := served last v isWorker atWork
    exact moved (still later isLater)

/-! ### A run that always gets its turn -/

theorem freely_one (clause : Nat → Behaviour) (working : s.workers[n]? = some w)
    (going : w.run.hasEnded = false) :
    s.freely clause n 1 = s.turned n w (w.run.freely (clause w.taken) s.engine) := by
  unfold freely
  rw [working]
  dsimp only
  rw [going]
  rfl

theorem step_freely (clause : Nat → Behaviour) (n : Nat) (s : System) :
    s.Step (s.freely clause n 1) := by
  cases working : s.workers[n]? with
  | none =>
    unfold freely
    rw [working]
    exact s.step_idle
  | some w =>
    by_cases ended : w.run.hasEnded = true
    · unfold freely
      rw [working]
      dsimp only
      rw [if_pos ended]
      exact s.step_idle
    · rw [freely_one clause working (Bool.eq_false_iff.mpr ended)]
      exact .of_turns working (Run.TurnsFreely.freely _ _ (Bool.eq_false_iff.mpr ended)).turns

theorem deedsOf_freely (clause : Nat → Behaviour) (working : s.workers[n]? = some w)
    (going : w.run.hasEnded = false) : (s.freely clause n 1).deedsOf n ≠ s.deedsOf n := by
  rw [freely_one clause working going, deedsOf_turned, if_pos rfl]
  simp

end System

/-! ### A rule that triggers itself twice -/

namespace Echo

def shout : Pattern := { action := ⟨"Cave", "shout"⟩, inputs := [] }

/-- Every shout comes back twice. -/
def resound : Rule where
  name := "resound"
  whens := [shout]
  thens := [shout, shout]

def start : System where
  engine :=
    { catalogue := { operations := [⟨⟨"Cave", "shout"⟩, .action⟩] }
      rules := (({} : RuleRegistry).registerAll [.ok resound]).1
      limits := { depth := 2 } }

theorem start_initial : start.Initial where
  log := .start
  fired := rfl
  firedByRoot := rfl
  active := rfl
  workers := rfl
  chronicle := rfl

/-- Somebody has shouted, and a run is begun. -/
def opened : System := start.after [.record ⟨"Cave", "shout"⟩ [] [], .process 0]

/-- The run goes on until it has ended, and from then on nothing happens. -/
def course : Nat → System
  | 0 => opened
  | k + 1 => (course k).freely (fun _ _ => .abandoned) 0 1

theorem course_isServed : System.IsServed 0 course := by
  intro k w working atWork
  have going := Run.hasEnded_of_isAtWork atWork
  exact ⟨k + 1, Nat.le_succ k, System.deedsOf_freely _ working going⟩

/-- The shouts of two generations are dealt with, and the third generation is too deep. -/
theorem run_terminates_resounding : (∃ w ∈ opened.workers[0]?, w.run.point.isAtWork = true) ∧
    (∃ k v, (course k).workers[0]? = some v ∧ v.run.HasLeft) ∧
      ((course 80).reportOf 0).map (fun report => (report.drained, report.invocations)) =
        some (true, [2, 3, 4, 5, 6, 7]) := by
  obtain ⟨w, working, atWork⟩ : ∃ w, opened.workers[0]? = some w ∧ w.run.point.isAtWork = true := by
    have begun : ∃ w ∈ opened.workers[0]?, w.run.point.isAtWork = true := by decide +kernel
    exact begun
  refine ⟨⟨w, working, atWork⟩, ?_, by decide +kernel⟩
  have course := ((System.run_terminates start_initial (System.reaches_after ..) working).2 course rfl
    fun k => System.step_freely _ 0 (course k)).2
  exact course course_isServed

end Echo

end Choreography
