import Choreography.Proofs.Run.Mirror
import Choreography.Proofs.System.Retention

/-! Calls that nothing hinders. Components answer by the operation and its input alone, nothing is
cancelled, and there are no limits of time. The runs of several calls take turns in any order, and
as long as nothing is forgotten each of them leaves the cascades of the others as they are. -/

namespace Choreography

open InvocationLog

/-- Components without a state: what a call comes to depends on the operation and its input only. -/
abbrev Responses := ActionRef → Fields → Except Error Value

namespace System

/-- What can happen when calls are made of components without a state, and nothing stops them. -/
inductive Unhindered (answer : Responses) : System → System → Prop where
  | invoke {s : System} (offered : s.engine.catalogue.operation action = .ok operation)
      (isAction : operation.kind = .action)
      (called : CallEnd.ofResult action (answer action input) = .ok call)
      (logged : s.engine.record action input call.output = .ok (e, i)) (now : Instant) :
      Unhindered answer s ((s.recorded e i).begun i none now)
  | go {s : System} (working : s.workers[n]? = some w) (ready : w.run.wait? s.engine = none)
      (going : w.run.hasEnded = false) (now : Instant) :
      Unhindered answer s (s.turned n w (w.run.step s.engine now))
  | call {s : System} (working : s.workers[n]? = some w)
      (waits : w.run.wait? s.engine = some (.component action input ends)) (now : Instant) :
      Unhindered answer s
        (s.turned n w (w.run.resume s.engine now (.component (.finished (answer action input)))))
  | save {s : System} (working : s.workers[n]? = some w)
      (waits : w.run.wait? s.engine = some (.repository saved)) (result : Except Error Unit)
      (now : Instant) : Unhindered answer s (s.turned n w (w.run.resume s.engine now (.repository result)))

/-- The system after a call that has come to an output, and for which a run was begun. -/
def invoked (s : System) (action : ActionRef) (input output : Fields) (limit : Option Seconds)
    (now : Instant) : System :=
  let i := s.engine.log.describe action input output []
  (s.recorded { s.engine with log := s.engine.log.enter i } i).begun i limit now

/-- A call that is made, or a run that goes on. -/
inductive Turning where
  | invoke (action : ActionRef) (input : Fields)
  | go (n : Nat)

/-- The system after a call was made or a run has gone on, if that was possible. Components answer
at once, and so does the repository. -/
def advance? (answer : Responses) (s : System) : Turning → Option System
  | .invoke action input =>
    match s.engine.catalogue.operation action, CallEnd.ofResult action (answer action input) with
    | .ok operation, .ok call =>
      if operation.kind = .action then some (s.invoked action input call.output none 0) else none
    | _, _ => none
  | .go n => do
    let w ← s.workers[n]?
    match w.run.wait? s.engine with
    | none => if w.run.hasEnded then none else some (s.turned n w (w.run.step s.engine 0))
    | some (.component action input _) =>
      some (s.turned n w (w.run.resume s.engine 0 (.component (.finished (answer action input)))))
    | some (.repository _) => some (s.turned n w (w.run.resume s.engine 0 (.repository (.ok ()))))
    | some (.clause ..) => none

/-- The system after turns in some order. What is not possible is left out. -/
def progress (answer : Responses) (s : System) (turns : List Turning) : System :=
  turns.foldl (fun s turning => (s.advance? answer turning).getD s) s

end System

variable {e f : Engine} {c d : Cascade} {p q : Point} {events : List Event}
  {history : List Invocation} {root : InvocationId}

/-! ### Waiting -/

theorem Wait.component_isAnswered {action : ActionRef} {input : Fields} {ends : Option Instant}
    (outcome : Outcome Value) : IsAnsweredBy (.component action input ends) (.component outcome) :=
  trivial

theorem Wait.repository_isAnswered {saved : List Invocation} (result : Except Error Unit) :
    IsAnsweredBy (.repository saved) (.repository result) :=
  trivial

section Waiting

variable {r : Run}

theorem Run.isAtWork_of_ready (ready : r.wait? e = none) (going : r.hasEnded = false) :
    r.point.isAtWork = true := by
  obtain ⟨c, p⟩ := r
  cases p with
  | saving => cases ready
  | ended => cases going
  | _ => rfl

theorem Run.isAtWork_of_component {action : ActionRef} {input : Fields} {ends : Option Instant}
    (waits : r.wait? e = some (.component action input ends)) : r.point.isAtWork = true := by
  obtain ⟨c, p⟩ := r
  cases p with
  | next | rules | enriching | frames | dispatching => rfl
  | saving | ended => cases waits

theorem Run.point_of_repository {saved : List Invocation}
    (waits : r.wait? e = some (.repository saved)) : r.point = .saving := by
  obtain ⟨c, p⟩ := r
  cases p with
  | saving => rfl
  | enriching _ stage | dispatching _ _ _ _ stage => cases stage <;> cases waits
  | next | rules | frames | ended => cases waits

end Waiting

/-! ### What a run does to other cascades -/

/-- Recording a call never fails. -/
theorem Engine.record_eq (e : Engine) (action : ActionRef) (input output : Fields) :
    e.record action input output =
      .ok ({ e with log := e.log.enter (e.log.describe action input output []) },
        e.log.describe action input output []) :=
  rfl

/-- A run that comes back from the repository changes nothing where all cascades are kept. -/
theorem Run.resume_of_saving {r : Run} (unlimited : e.limits.retention = none) (isSaving : r.point = .saving)
    (result : Except Error Unit) (now : Instant) :
    (r.resume e now (.repository result)).engine = e ∧
      (r.resume e now (.repository result)).run.cascade = r.cascade ∧
      (r.resume e now (.repository result)).run.point.isAtWork = false := by
  obtain ⟨c, p⟩ := r
  cases isSaving
  cases result with
  | ok => exact ⟨Engine.retain_eq_self unlimited _, rfl, rfl⟩
  | error => exact ⟨rfl, rfl, rfl⟩

section Unlimited

variable (moves : Moves e c p f d q events) (unlimited : e.limits.retention = none)

include moves unlimited

/-- Where all cascades are kept, the log grows by what a run posts. -/
theorem Moves.entries_eq (coherent : e.log.Coherent) : f.log.entries = e.log.entries ++ posted events := by
  cases moves with
  | log _ _ logged posts =>
    rw [posts]
    exact (coherent.append_entries logged).1
  | drain _ notes | leave _ _ _ notes =>
    rw [posted_eq_nil notes, List.append_nil]
    rfl
  | enrich _ _ _ silent | answer _ _ _ silent => rw [silent, List.append_nil]
  | breakOff _ _ silent | reject _ _ silent =>
    rw [silent, List.append_nil]
    rfl
  | lose _ claims _ _ silent =>
    rw [silent, List.append_nil, Engine.deactivate, claims.log_eq]
  | dispatch _ claims _ silent => rw [silent, List.append_nil, claims.log_eq]
  | save =>
    rw [Engine.retain_eq_self unlimited, posted_eq_nil (e.retain_isQuiet _), List.append_nil]
  | _ => exact (List.append_nil _).symm

/-- Where all cascades are kept, a run claims firings of its own cascade at most. -/
theorem Moves.fired_eq (grounded : p.Grounded history c.root) : f.fired = e.fired ∨
    ∃ firing, Together history c.root firing.support ∧ f.fired = e.fired ++ [firing] := by
  cases reported : Deed.reported? ⟨⟨0, 0⟩, p, q, events⟩ with
  | none =>
    rcases moves.notes reported grounded with ⟨same, _⟩ | ⟨firing, _, together, claimed, _⟩
    · exact .inl same
    · exact .inr ⟨firing, together, claimed⟩
  | some =>
    rw [(moves.retains reported).2, Engine.retain_eq_self unlimited]
    exact .inl rfl

end Unlimited

namespace System

variable {answer : Responses} {s t : System} {n : Nat} {w : Worker} {turn : Turn}

/-! ### What happens in other cascades -/

theorem Filed.knows (filed : s.Filed) (orderly : s.Orderly) : s.engine.Knows := by
  intro firing fired id inside
  obtain ⟨root, _, together⟩ := filed.noted firing fired
  obtain ⟨i, known, rfl, _⟩ := together id inside
  exact orderly.sound.log.id_lt_next known

/-- A run leaves other cascades as they are. -/
theorem turned_sameFor (guarded : s.Guarded) (filed : s.Filed)
    (unlimited : s.engine.limits.retention = none) (working : s.workers[n]? = some w)
    (moves : Run.IsMove s.engine w.run.cascade w.run.point turn)
    (elsewhere : root ≠ w.run.cascade.root) : s.engine.SameFor turn.engine root := by
  have sound := guarded.orderly.sound
  have grounded := (guarded.orderly.grounded w (List.mem_of_getElem? working)).point
  have later := (guarded.turned working moves).orderly
  have laterGrounded := (later.grounded _ (mover_mem_turned turn working)).point
  have evolves := (Moves.sound moves sound grounded).2
  have claims := Moves.fired_eq moves unlimited grounded
  -- What is posted and what is claimed lie in the cascade of the run, so that nothing of another
  -- cascade comes or goes.
  constructor
  case coherent => exact later.sound.coherent
  case cascade =>
    have noneNew : (posted turn.events).filter (·.root = root) = [] := by
      refine List.filter_eq_nil_iff.mpr fun i isNew isRoot => elsewhere ?_
      have sameRoot := Moves.root_of_posted moves laterGrounded isNew
      rw [← of_decide_eq_true isRoot, sameRoot]
      exact Moves.root_eq moves
    have coherent : turn.engine.log.Coherent := later.sound.coherent
    rw [coherent.cascade_eq, sound.coherent.cascade_eq, Moves.entries_eq moves unlimited sound.coherent,
      List.filter_append, noneNew, List.append_nil]
  case catalogue => exact evolves.catalogue
  case rules => exact evolves.rules
  case limits => exact evolves.limits
  case stays =>
    intro firing fired
    rcases claims with same | ⟨_, _, claimed⟩
    · exact same ▸ fired
    · exact claimed ▸ List.mem_append_left _ fired
  case fired =>
    intro firing fired
    rcases claims with same | ⟨claim, together, claimed⟩
    · exact .inl (same ▸ fired)
    · rw [claimed] at fired
      refine (List.mem_append.mp fired).imp_right fun isNew i held isRoot inside => elsewhere ?_
      rw [List.mem_singleton.mp isNew] at inside
      obtain ⟨j, known, sameId, sameRoot⟩ := together i.id inside
      have same : j = i := sound.log.eq_of_id_eq known (sound.log.mem_history held) sameId
      rw [← isRoot, ← same, sameRoot]
  case known => exact (filed.turned guarded working moves).knows later

/-- The next cascade is empty yet. -/
theorem Orderly.cascade_next (orderly : s.Orderly) :
    s.engine.log.cascade s.engine.log.next = [] := by
  refine List.eq_nil_iff_forall_not_mem.mpr fun i inCascade => ?_
  obtain ⟨held, isRoot⟩ := orderly.sound.coherent.mem_cascade.mp inCascade
  have isOld := orderly.sound.log.root_lt_next (orderly.sound.log.mem_history held)
  exact Int.lt_irrefl _ (isRoot ▸ isOld)

/-- A call that is made leaves all cascades as they are. -/
theorem invoked_sameFor (guarded : s.Guarded) (filed : s.Filed) (action : ActionRef)
    (input output : Fields) (limit : Option Seconds) (now : Instant)
    (isOld : root ≠ s.engine.log.next) :
    s.engine.SameFor (s.invoked action input output limit now).engine root := by
  have coherent := guarded.orderly.sound.coherent
  have knows := filed.knows guarded.orderly
  constructor
  case coherent => exact coherent.enter rfl
  case cascade =>
    refine (InvocationLog.Mirrors.cascade_enter coherent rfl).trans ?_
    rw [if_neg fun isRoot => isOld isRoot.symm, List.append_nil]
  case catalogue => rfl
  case rules => rfl
  case limits => rfl
  case stays => exact fun firing fired => fired
  case fired => exact fun firing fired => .inl fired
  case known => exact fun firing fired id inside => Int.lt_trans (knows firing fired id inside) (Int.lt_succ _)

/-! ### Turns in any order -/

/-- An unhindered step is one of those in which each cascade has one run at a time. -/
theorem Unhindered.sequential (next : Unhindered answer s t) : s.Sequential t := by
  cases next with
  | invoke offered isAction called logged now =>
    exact .invoke offered isAction _ called logged none now
  | go working ready going now => exact .go working ready going now
  | call working waits now => exact .hear working waits (Wait.component_isAnswered _) now
  | save working waits result now => exact .hear working waits (Wait.repository_isAnswered _) now

theorem Unhindered.of_advance {turning : Turning} (advances : s.advance? answer turning = some t) :
    Unhindered answer s t := by
  cases turning with
  | invoke action input =>
    rw [advance?] at advances
    split at advances
    · next operation call offered called =>
      split at advances <;> cases advances
      next isAction => exact .invoke offered isAction called (Engine.record_eq _ _ _ _) 0
    · cases advances
  | go n =>
    obtain ⟨w, working, moved⟩ := Option.bind_eq_some_iff.mp advances
    split at moved
    · next ready =>
      split at moved <;> cases moved
      next going => exact .go working ready (Bool.eq_false_iff.mpr going) 0
    · next waits =>
      cases moved
      exact .call working waits 0
    · next waits =>
      cases moved
      exact .save working waits _ 0
    · cases moved

/-- Turns in any order are unhindered. -/
theorem unhindered_progress (s : System) (turns : List Turning) :
    Relation.ReflTransGen (Unhindered answer) s (s.progress answer turns) := by
  induction turns generalizing s with
  | nil => exact .refl
  | cons turning turns ih =>
    have later := ih ((s.advance? answer turning).getD s)
    cases advances : s.advance? answer turning with
    | none =>
      rw [advances] at later
      rw [progress, List.foldl_cons, advances]
      exact later
    | some t =>
      rw [advances] at later
      rw [progress, List.foldl_cons, advances]
      exact .head (.of_advance advances) later

end System

end Choreography
