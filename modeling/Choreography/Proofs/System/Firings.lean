import Choreography.Proofs.System.Grounding

/-! Every firing has one owner at most. An evaluation owns a firing that it has claimed, and
every firing it has dispatched anything for. Only a firing that is not spent can be
claimed and then dispatched, claiming spends it, and it stays spent even if the engine
forgets it; so no other evaluation ever comes to own it. -/

namespace Choreography

open InvocationLog

namespace System

/-- An evaluation that has claimed a firing, or has done something about it. -/
inductive Owns (s : System) (firing : Firing) : Evaluation → Prop where
  | claimed (working : s.workers[n]? = some w) (claims : firing ∈ w.run.point.claims) :
      Owns s firing ⟨n, w.taken⟩
  | done (made : deed ∈ s.chronicle) (about : deed.firing? = some firing) :
      Owns s firing deed.evaluation

/-- Runs stay in their cascades, and no firing has two owners. -/
structure Orderly (s : System) : Prop where
  sound : s.engine.Sound s.history
  grounded : ∀ w ∈ s.workers, w.run.Grounded s.history
  numbered : ∀ deed ∈ s.chronicle,
    ∃ w, s.workers[deed.evaluation.worker]? = some w ∧ deed.evaluation.number ≤ w.taken
  spent : ∀ {firing evaluation}, s.Owns firing evaluation → s.engine.Spent firing
  single : ∀ {firing first second}, s.Owns firing first → s.Owns firing second → first = second

end System

variable {e f : Engine} {c d : Cascade} {p q : Point} {events : List Event}
  {history : List Invocation} {firing : Firing} {s : System} {w : Worker} {n : Nat}
  {evaluation : Evaluation}

/-! ### What a move claims -/

/-- A support that has a depth is in the log as a whole. -/
theorem Dispatch.held_of_depthOf {log : InvocationLog} (coherent : log.Coherent)
    (deep : depthOf log support = .ok deepest) : ∀ id ∈ support, ∃ i ∈ log.entries, i.id = id := by
  unfold depthOf at deep
  split at deep
  · cases deep
  · cases deep
  · next causes _ found =>
    obtain ⟨rfl, held⟩ := coherent.mapM_get_eq_ok found
    intro id inside
    obtain ⟨i, isCause, rfl⟩ := List.mem_map.mp inside
    exact ⟨i, held i isCause, rfl⟩

theorem Firing.not_isLost_of_held {log : InvocationLog}
    (held : ∀ id ∈ firing.support, ∃ i ∈ log.entries, i.id = id) : ¬firing.IsLost log := by
  rintro ⟨id, inside, _, absent⟩
  obtain ⟨i, isHeld, isId⟩ := held id inside
  exact absent i isHeld isId

/-- After a move a firing is claimed that was claimed before, or was free until then. -/
theorem Moves.claims (moves : Moves e c p f d q events) (coherent : e.log.Coherent)
    (claimed : firing ∈ q.claims) : (firing ∈ p.claims ∧ p.takesRule = false) ∨
      (¬e.Spent firing ∧ f.Spent firing) := by
  cases moves with
  | skip | call | log | finish => exact .inl ⟨claimed, rfl⟩
  | dispatch same claims deep silent =>
    cases claims with
    | again => exact .inl ⟨claimed, rfl⟩
    | first notMine free =>
      rcases List.mem_append.mp claimed with mine | new
      · exact .inl ⟨mine, rfl⟩
      · rw [List.mem_singleton.mp new]
        refine .inr ⟨?_, e.spent_claim c.root _⟩
        intro spent
        rcases spent with fired | lost
        · exact free fired
        · exact Firing.not_isLost_of_held (Dispatch.held_of_depthOf coherent deep) lost
  | _ => cases claimed

/-- What a deed was about was claimed. -/
theorem Point.Grounded.claims (grounded : q.Grounded history root)
    (about : Deed.firing? ⟨evaluation, p, q, events⟩ = some firing) : firing ∈ q.claims := by
  cases q with
  | dispatching =>
    cases about
    exact grounded.2.2.1
  | _ => cases about

/-! ### What every step preserves -/

theorem Worker.Fresh.grounded (fresh : w.Fresh history) : w.run.Grounded history := by
  obtain ⟨i, known, root, queue⟩ := fresh.first
  refine ⟨?_, fun j isFirst => ?_⟩
  · rw [fresh.point]
    trivial
  · rw [queue] at isFirst
    rw [List.mem_singleton.mp isFirst]
    exact ⟨known, root.symm⟩

theorem Worker.Like.grounded {v : Worker} (like : w.Like v) (grounded : v.run.Grounded history) :
    w.run.Grounded history := by
  refine Run.Grounded.of_sameWork like.work ?_ grounded.queue
  rw [like.point]
  exact grounded.point

theorem Worker.taken_le_number (w : Worker) : w.taken ≤ w.number := by
  rw [number]
  split
  · exact Nat.le_succ _
  · exact Nat.le_refl _

namespace System

theorem Initial.not_owns {start : System} (initial : start.Initial) :
    ¬start.Owns firing evaluation := by
  intro owns
  cases owns with
  | claimed working => simp [initial.workers] at working
  | done made => simp [initial.chronicle] at made

theorem Initial.orderly {start : System} (initial : start.Initial) : start.Orderly where
  sound := by
    refine ⟨initial.log, ?_⟩
    intro entry inside
    simp [initial.firedByRoot] at inside
  grounded w inside := by simp [initial.workers] at inside
  numbered deed made := by simp [initial.chronicle] at made
  spent owns := absurd owns initial.not_owns
  single owns := absurd owns initial.not_owns

/-- After a turn a firing has an owner that it had before, or was free until then. -/
theorem owns_turned {turn : Turn} (sound : s.engine.Sound s.history)
    (working : s.workers[n]? = some w)
    (moves : Run.IsMove s.engine w.run.cascade w.run.point turn)
    (grounded : turn.run.Grounded (s.history ++ posted turn.events))
    (owns : (s.turned n w turn).Owns firing evaluation) : s.Owns firing evaluation ∨
      (¬s.engine.Spent firing ∧ turn.engine.Spent firing ∧ evaluation = ⟨n, w.number⟩) := by
  have mover (claims : firing ∈ turn.run.point.claims) : s.Owns firing ⟨n, w.number⟩ ∨
      (¬s.engine.Spent firing ∧ turn.engine.Spent firing ∧
        (⟨n, w.number⟩ : Evaluation) = ⟨n, w.number⟩) := by
    rcases Moves.claims moves sound.coherent claims with ⟨before, sameRule⟩ | ⟨free, spent⟩
    · rw [Worker.number_of_not_takesRule sameRule]
      exact .inl (.claimed working before)
    · exact .inr ⟨free, spent, rfl⟩
  cases owns with
  | claimed isWorker claims =>
    rcases turned_worker working isWorker with ⟨rfl, rfl⟩ | ⟨_, isWorker⟩
    · exact mover claims
    · exact .inl (.claimed isWorker claims)
  | @done deed made about =>
    rcases mem_turned_chronicle.mp made with old | rfl
    · exact .inl (.done old about)
    · exact mover (grounded.point.claims about)

/-- Between the moves no firing comes to another owner. -/
theorem Rests.owns {t : System} (rests : s.Rests t) (owns : t.Owns firing evaluation) :
    s.Owns firing evaluation := by
  cases owns with
  | claimed working claims =>
    rcases rests.worker _ _ working with ⟨v, isWorker, like⟩ | ⟨_, fresh⟩
    · rw [like.taken]
      exact .claimed isWorker (like.point ▸ claims)
    · rw [fresh.point] at claims
      cases claims
  | done made about => exact .done (rests.chronicle ▸ made) about

theorem Orderly.rests {t : System} (orderly : s.Orderly) (rests : s.Rests t) : t.Orderly := by
  constructor
  case sound => exact rests.sound orderly.sound
  case grounded =>
    intro w inside
    obtain ⟨added, history, _⟩ := rests.history
    rw [history]
    rcases rests.mem_worker inside with ⟨v, before, like⟩ | fresh
    · exact (like.grounded (orderly.grounded v before)).more
    · exact fresh.grounded.more
  case numbered =>
    intro deed made
    rw [rests.chronicle] at made
    obtain ⟨v, isWorker, below⟩ := orderly.numbered deed made
    obtain ⟨w, working, like⟩ := rests.kept _ v isWorker
    exact ⟨w, working, like.taken ▸ below⟩
  case spent =>
    intro firing evaluation owns
    have before := orderly.spent (rests.owns owns)
    exact rests.evolves.spent orderly.sound.reached before
  case single =>
    intro firing first second isFirst isSecond
    exact orderly.single (rests.owns isFirst) (rests.owns isSecond)

theorem Orderly.turned {turn : Turn} (orderly : s.Orderly) (working : s.workers[n]? = some w)
    (moves : Run.IsMove s.engine w.run.cascade w.run.point turn) : (s.turned n w turn).Orderly := by
  have grounded := orderly.grounded w (List.mem_of_getElem? working)
  obtain ⟨sound, evolves⟩ := Moves.sound moves orderly.sound grounded.point
  have later := Moves.grounded moves orderly.sound grounded
  have owner {firing evaluation} (owns : (s.turned n w turn).Owns firing evaluation) :=
    owns_turned orderly.sound working moves later owns
  constructor
  case sound => exact sound
  case grounded =>
    intro v inside
    rcases mem_turned_workers inside with old | rfl
    · exact (orderly.grounded v old).more
    · exact later
  case numbered =>
    intro deed made
    rcases mem_turned_chronicle.mp made with old | rfl
    · obtain ⟨v, isWorker, below⟩ := orderly.numbered deed old
      by_cases isMover : deed.evaluation.worker = n
      · rw [isMover] at isWorker ⊢
        cases working.symm.trans isWorker
        exact ⟨_, turned_mover working, Nat.le_trans below w.taken_le_number⟩
      · exact ⟨v, turned_other isMover isWorker, below⟩
    · exact ⟨_, turned_mover working, Nat.le_refl _⟩
  case spent =>
    intro firing evaluation owns
    rcases owner owns with before | ⟨_, spent, _⟩
    · exact evolves.spent orderly.sound.reached (orderly.spent before)
    · exact spent
  case single =>
    -- Of two owners both had it before, or both have just come to it: claiming spends it.
    intro firing first second isFirst isSecond
    rcases owner isFirst with before | ⟨unspent, _, firstIsMover⟩
    · rcases owner isSecond with also | ⟨unspent, _, _⟩
      · exact orderly.single before also
      · exact absurd (orderly.spent before) unspent
    · rcases owner isSecond with before | ⟨_, _, secondIsMover⟩
      · exact absurd (orderly.spent before) unspent
      · exact firstIsMover.trans secondIsMover.symm

theorem orderly_preserved : Preserved Orderly where
  coherent orderly := orderly.sound.coherent
  rest := Orderly.rests
  turn := Orderly.turned

/-- In whatever a system comes to, the engine has evolved from what it was. -/
theorem Orderly.evolves {t : System} (orderly : s.Orderly) (reached : s.Reaches t) :
    s.engine.Evolves t.engine := by
  have reachable := orderly.sound.reached
  have preserved : Preserved fun t => t.Orderly ∧ s.engine.Evolves t.engine := by
    constructor
    case coherent => exact fun holds => holds.1.sound.coherent
    case rest => exact fun holds rests =>
      ⟨holds.1.rests rests, holds.2.trans rests.evolves reachable⟩
    case turn =>
      intro t n w turn holds working moves
      have grounded := holds.1.grounded w (List.mem_of_getElem? working)
      have evolves := (Moves.sound moves holds.1.sound grounded.point).2
      exact ⟨holds.1.turned working moves, holds.2.trans evolves reachable⟩
  exact (preserved.reaches ⟨orderly, .refl _⟩ reached).2

theorem Reaches.orderly {start : System} (reached : start.Reaches s) (initial : start.Initial) :
    s.Orderly :=
  orderly_preserved.reaches initial.orderly reached

end System

end Choreography
