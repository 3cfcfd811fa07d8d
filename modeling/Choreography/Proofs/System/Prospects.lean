import Choreography.Proofs.Log.Depth
import Choreography.Proofs.Run.Descent
import Choreography.Proofs.Run.Stopping
import Choreography.Proofs.System.Reports

/-! What runs have before them, in the midst of others. Whatever is logged for a frame is deeper
than the trigger of its rule, also when other runs log and forget in the meantime, and there is a
limit to how deep a frame may be dispatched. So each turn of a run lowers what it may still come to,
and it makes finitely many. -/

namespace Choreography

open InvocationLog

/-- A frame in hand is dispatched below its trigger. -/
def Point.IsBelow : Point → Prop
  | .dispatching site _ _ work _ => (site.trigger.depth : Int) < work.depth
  | _ => True

/-- What a run may still come to: its end, if it has not ended, and what it has before it. -/
def Run.prospect (r : Run) (limit : Int) : Nat × Multiset Nat :=
  (if r.hasEnded then 0 else 1, r.agenda limit)

/-- There is less before a run. It has ended, or it has dealt with one thing. -/
def Narrows : Nat × Multiset Nat → Nat × Multiset Nat → Prop := Prod.Lex (· < ·) Descends

namespace System

/-- What a run may still come to, nothing if there is no such run. -/
def prospectOf (s : System) (n : Nat) : Nat × Multiset Nat :=
  (s.workers[n]?.map fun w => w.run.prospect s.engine.limits.depth).getD (0, 0)

/-- A run that has nothing but deeper things before it. -/
structure Sinks (s : System) (n : Nat) (w : Worker) : Prop where
  accountable : s.Accountable
  working : s.workers[n]? = some w
  below : w.run.point.IsBelow

end System

variable {e f : Engine} {c d : Cascade} {p q : Point} {events : List Event} {r : Run} {turn : Turn}
  {log grown : InvocationLog} {i j : Invocation} {history : List Invocation} {limit : Int}

/-- Where every step either changes nothing or goes down, nothing changes in the end. -/
theorem exists_last {α β : Type} {r : α → α → Prop} (wellFounded : WellFounded r) (a : Nat → α)
    (b : Nat → β)
    (descends : ∀ k, b (k + 1) = b k ∧ a (k + 1) = a k ∨ r (a (k + 1)) (a k)) :
    ∃ last, ∀ k ≥ last, b k = b last := by
  obtain ⟨_, ⟨last, rfl⟩, isLeast⟩ := wellFounded.has_min (Set.range a) ⟨a 0, 0, rfl⟩
  have still : ∀ k ≥ last, b k = b last ∧ a k = a last := by
    intro k later
    induction k, later using Nat.le_induction with
    | base => exact ⟨rfl, rfl⟩
    | succ k _ ih =>
      rcases descends k with ⟨same, alike⟩ | lower
      · exact ⟨same.trans ih.1, alike.trans ih.2⟩
      · rw [ih.2] at lower
        exact absurd lower (isLeast _ ⟨k + 1, rfl⟩)
  exact ⟨last, fun k later => (still k later).1⟩

/-! ### Depths -/

/-- A dispatch that has something to log is not too deep. -/
theorem Dispatch.Underway.shallow {work : Dispatch} {stage : Dispatching}
    {calls : List (ActionRef × Fields)} {logged : List Invocation}
    (underway : work.Underway catalogue limit stage calls logged)
    (called : stage.Called catalogue work action input patterns produced) : ¬limit < work.depth := by
  cases called with
  | unregistered =>
    cases underway with
    | next shallow => exact shallow
  | awaited =>
    cases underway with
    | calling shallow => exact shallow

/-- What is posted in a dispatch has come of one of its calls. -/
theorem Moves.called_of_posted {site : Site} {left : Frames} {claimed : List Firing} {work : Dispatch}
    {stage : Dispatching} (moves : Moves e c (.dispatching site left claimed work stage) f d q events)
    (isNew : j ∈ posted events) : ∃ action input output patterns produced,
      stage.Called e.catalogue work action input patterns produced ∧
        ∃ grown, e.log.append action input output work.frame.support = .ok (grown, j) := by
  cases moves with
  | log _ called logged posts =>
    rw [posts] at isNew
    obtain rfl := List.mem_singleton.mp isNew
    exact ⟨_, _, _, _, _, called, _, logged⟩
  | call | finish => cases isNew
  | leave _ _ _ notes =>
    rw [posted_eq_nil notes] at isNew
    cases isNew
  | reject _ _ silent =>
    rw [silent] at isNew
    cases isNew

/-- A move leaves the frame in hand below its trigger, whatever has been forgotten. -/
theorem Moves.isBelow (moves : Moves e c p f d q events) (remembers : e.log.Remembers history)
    (grounded : p.Grounded history root) (below : p.IsBelow) : q.IsBelow := by
  cases moves with
  | dispatch _ _ deep =>
    have isTrigger := grounded.resting _ List.mem_cons_self
    exact (remembers.depthOf_isGreatest deep).2 ⟨_, grounded.logged, isTrigger, rfl⟩
  | call | log => exact below
  | _ => trivial

/-! ### One turn -/

theorem narrows_wellFounded : WellFounded Narrows :=
  WellFounded.prod_lex Nat.lt_wfRel.wf descends_wellFounded

namespace Run

/-- Every turn lowers what a run may still come to, if whatever it logs is deeper than its trigger.
-/
theorem Turns.narrows (turns : r.Turns e turn)
    (deeper : ∀ site left claimed work stage, r.point = .dispatching site left claimed work stage →
      ∀ i ∈ posted turn.events, i.room limit < site.trigger.room limit) :
    Narrows (turn.run.prospect limit) (r.prospect limit) := by
  have going := turns.not_hasEnded
  unfold prospect
  rw [going]
  by_cases ended : turn.run.hasEnded = true
  · rw [if_pos ended]
    exact .left _ _ Nat.one_pos
  · rw [if_neg ended]
    refine .right _ (turns.descends ?_ deeper)
    rcases turns.lands with lands | isSaving
    · cases lands with
      | goesOn going => exact .inl going
      | brokenOff isRun => exact absurd (isRun ▸ hasEnded_leave _ _ _) ended
    · exact .inr isSaving

end Run

namespace System

variable {start s t u : System} {n m : Nat} {v w : Worker}

/-! ### All that can happen -/

theorem prospectOf_eq (working : s.workers[n]? = some w) :
    s.prospectOf n = w.run.prospect s.engine.limits.depth := by
  rw [prospectOf, working]
  rfl

/-- Whatever the run logs is deeper than its trigger, and for that there is room. -/
theorem Accountable.deeper (accountable : s.Accountable) (working : s.workers[n]? = some w)
    (below : w.run.point.IsBelow) (moves : Run.IsMove s.engine w.run.cascade w.run.point turn)
    {site : Site} {left : Frames} {claimed : List Firing} {work : Dispatch} {stage : Dispatching}
    (isPoint : w.run.point = .dispatching site left claimed work stage)
    (isNew : j ∈ posted turn.events) :
    j.room s.engine.limits.depth < site.trigger.room s.engine.limits.depth := by
  have orderly := accountable.orderly
  have grounded := (orderly.grounded w (List.mem_of_getElem? working)).point
  rw [isPoint] at grounded below
  rw [Run.IsMove, isPoint] at moves
  obtain ⟨action, input, output, patterns, produced, called, grown, logged⟩ :=
    moves.called_of_posted isNew
  obtain ⟨_, _, underway⟩ := accountable.underway working isPoint
  have shallow := underway.shallow called
  have isTrigger := grounded.1.resting work.frame List.mem_cons_self
  have deepest := orderly.sound.log.append_isGreatest (List.ne_nil_of_mem isTrigger) logged
  have deeper := deepest.2 ⟨site.trigger, grounded.1.logged, isTrigger, rfl⟩
  have belowLimit : (site.trigger.depth : Int) < work.depth := below
  unfold Invocation.room
  omega

theorem Sinks.rests (sinks : s.Sinks n w) (rests : s.Rests t) :
    ∃ v, t.Sinks n v ∧ t.deedsOf n = s.deedsOf n ∧ t.prospectOf n = s.prospectOf n := by
  obtain ⟨v, working, like⟩ := rests.kept n w sinks.working
  refine ⟨v, ⟨sinks.accountable.rests rests, working, like.point ▸ sinks.below⟩, ?_, ?_⟩
  · exact rests.deedsOf_eq n
  · rw [prospectOf_eq working, prospectOf_eq sinks.working, rests.evolves.limits]
    unfold Run.prospect Run.hasEnded Run.agenda
    rw [like.point, like.work.queue]

/-- A turn of the run lowers what is before it, and the turns of others leave that as it is. -/
theorem Sinks.turned (sinks : s.Sinks n w) (isWorker : s.workers[m]? = some v)
    (turns : v.run.Turns s.engine turn) : ∃ u, (s.turned m v turn).Sinks n u ∧
      ((s.turned m v turn).deedsOf n = s.deedsOf n ∧
          (s.turned m v turn).prospectOf n = s.prospectOf n ∨
        Narrows ((s.turned m v turn).prospectOf n) (s.prospectOf n)) := by
  have moves := turns.isMove
  have orderly := sinks.accountable.orderly
  have grounded := (orderly.grounded v (List.mem_of_getElem? isWorker)).point
  have later := sinks.accountable.turned isWorker moves
  have limits := (Moves.sound moves orderly.sound grounded).2.limits
  by_cases isMover : n = m
  · subst isMover
    obtain rfl := Option.some.inj (sinks.working.symm.trans isWorker)
    have moved : (s.turned n w turn).workers[n]? = some _ := turned_mover isWorker
    refine ⟨_, ⟨later, moved, Moves.isBelow moves orderly.sound.log grounded sinks.below⟩, .inr ?_⟩
    rw [prospectOf_eq moved, prospectOf_eq isWorker, turned_engine, limits]
    exact turns.narrows fun _ _ _ _ _ isPoint _ isNew =>
      sinks.accountable.deeper isWorker sinks.below moves isPoint isNew
  · have working : (s.turned m v turn).workers[n]? = some w := turned_other isMover sinks.working
    refine ⟨w, ⟨later, working, sinks.below⟩, .inl ⟨?_, ?_⟩⟩
    · exact deedsOf_turned_other isMover
    · rw [prospectOf_eq working, prospectOf_eq sinks.working, turned_engine, limits]

theorem Sinks.step (sinks : s.Sinks n w) (next : s.Step t) : ∃ v, t.Sinks n v ∧
    (t.deedsOf n = s.deedsOf n ∧ t.prospectOf n = s.prospectOf n ∨
      Narrows (t.prospectOf n) (s.prospectOf n)) := by
  rcases next.keeps_or_turns sinks.accountable.orderly.sound.coherent with
    ⟨u, first, rfl | second⟩ | ⟨m, v, turn, isWorker, turns, _, rfl⟩
  · obtain ⟨v, isSinking, same⟩ := sinks.rests first.rests
    exact ⟨v, isSinking, .inl same⟩
  · obtain ⟨v, isSinking, deeds, prospect⟩ := sinks.rests first.rests
    obtain ⟨x, sinksToo, moreDeeds, moreProspect⟩ := isSinking.rests second.rests
    exact ⟨x, sinksToo, .inl ⟨moreDeeds.trans deeds, moreProspect.trans prospect⟩⟩
  · exact sinks.turned isWorker turns

/-- Every run sinks. -/
theorem sinking_preserved :
    Preserved fun s => s.Accountable ∧ ∀ w ∈ s.workers, w.run.point.IsBelow where
  coherent sinking := sinking.1.orderly.sound.coherent
  rest sinking rests := by
    refine ⟨sinking.1.rests rests, fun w inside => ?_⟩
    rcases rests.mem_worker inside with ⟨v, before, like⟩ | fresh
    · exact like.point ▸ sinking.2 v before
    · rw [fresh.point]
      trivial
  turn {s n w turn} sinking working moves := by
    have inside := List.mem_of_getElem? working
    have orderly := sinking.1.orderly
    refine ⟨sinking.1.turned working moves, fun v isWorker => ?_⟩
    rcases mem_turned_workers isWorker with old | rfl
    · exact sinking.2 v old
    · exact Moves.isBelow moves orderly.sound.log (orderly.grounded w inside).point (sinking.2 w inside)

theorem Reaches.sinks (reached : start.Reaches s) (initial : start.Initial)
    (working : s.workers[n]? = some w) : s.Sinks n w := by
  have before : ∀ w ∈ start.workers, w.run.point.IsBelow := by
    rw [initial.workers]
    exact List.forall_mem_nil _
  obtain ⟨accountable, below⟩ := sinking_preserved.reaches ⟨initial.accountable, before⟩ reached
  exact ⟨accountable, working, below w (List.mem_of_getElem? working)⟩

theorem Sinks.course (sinks : s.Sinks n w) {course : Nat → System} (begins : course 0 = s)
    (goesOn : ∀ k, (course k).Step (course (k + 1))) (k : Nat) : ∃ v, (course k).Sinks n v := by
  induction k with
  | zero => exact ⟨w, begins ▸ sinks⟩
  | succ k ih =>
    obtain ⟨v, isSinking⟩ := ih
    obtain ⟨u, sinksToo, _⟩ := isSinking.step (goesOn k)
    exact ⟨u, sinksToo⟩

/-- In no course does a run make infinitely many turns. -/
theorem Sinks.exists_last_deed (sinks : s.Sinks n w) {course : Nat → System} (begins : course 0 = s)
    (goesOn : ∀ k, (course k).Step (course (k + 1))) :
    ∃ last, ∀ k ≥ last, (course k).deedsOf n = (course last).deedsOf n := by
  refine exists_last narrows_wellFounded (fun k => (course k).prospectOf n) _ fun k => ?_
  obtain ⟨v, isSinking⟩ := sinks.course begins goesOn k
  obtain ⟨_, _, happens⟩ := isSinking.step (goesOn k)
  exact happens

end System

end Choreography
