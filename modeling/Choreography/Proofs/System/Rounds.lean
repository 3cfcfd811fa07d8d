import Choreography.Proofs.System.Calm

/-! The rounds of a run. It takes the invocations in the order in which they were logged, beginning
with the one that it was begun for, and for each of them the rules that listen for it, one after
the other. A run that nothing stops leaves out none of them. -/

namespace Choreography

/-- The invocation that was taken from the queue. -/
def Deed.popped? (d : Deed) : Option Invocation :=
  match d.before, d.after with
  | .next, .rules trigger _ => some trigger
  | _, _ => none

/-- The rule that was taken, and the invocation that it was taken for. -/
def Deed.taken? (d : Deed) : Option (Invocation × Rule) :=
  match d.before with
  | .rules trigger (rule :: _) => some (trigger, rule)
  | _ => none

/-- The rules that have still to be taken for the invocation in hand. -/
def Point.ahead : Point → List (Invocation × Rule)
  | .rules trigger left => left.map (trigger, ·)
  | .enriching site _ | .frames site _ _ | .dispatching site _ _ _ _ =>
    site.later.map (site.trigger, ·)
  | .next | .saving | .ended _ => []

/-- An invocation with each of the rules that listen for it. -/
def RuleRegistry.listeners (registry : RuleRegistry) (i : Invocation) : List (Invocation × Rule) :=
  (registry.rulesFor i.action).map (i, ·)

/-- What a run of an invocation has taken so far, in the order of the log and of the rules, and what
it has still before it. -/
structure Worker.InLine (w : Worker) (registry : RuleRegistry) (i : Invocation) (deeds : List Deed) :
    Prop where
  processed : i :: (deeds.flatMap fun d => posted d.events) =
    deeds.filterMap (·.popped?) ++ (w.run.cascade.queue ++ w.run.point.made)
  taken : deeds.filterMap (·.taken?) ++ w.run.point.ahead =
    (deeds.filterMap (·.popped?)).flatMap registry.listeners
  number : (deeds.filterMap (·.taken?)).length = w.taken
  emptied : w.run.point.isAtWork = false → w.run.cascade.queue = []

namespace System

/-- The invocations that a run has taken from its queue, in order. -/
def processedBy (s : System) (n : Nat) : List Invocation := (s.deedsOf n).filterMap (·.popped?)

/-- The rules that a run has taken, each with its trigger, in order. -/
def takenBy (s : System) (n : Nat) : List (Invocation × Rule) := (s.deedsOf n).filterMap (·.taken?)

/-- A worker is about to take a rule for a trigger, after so many others. -/
structure IsTaking (s : System) (n : Nat) (w : Worker) (k : Nat) (trigger : Invocation) (rule : Rule) :
    Prop where
  working : s.workers[n]? = some w
  taken : w.taken = k
  point : ∃ later, w.run.point = .rules trigger (rule :: later)

/-- From one moment to another nothing stopped a run of an invocation, nor did it break off, and in
the meantime it took a rule for a trigger, after so many others. -/
def HasTaken (clause : Nat → Behaviour) (n : Nat) (i : Invocation) (s t : System) (k : Nat)
    (trigger : Invocation) (rule : Rule) : Prop :=
  ∃ u w turn, Relation.ReflTransGen (Lasting clause n i.root) s u ∧ u.Steady n i w ∧
    u.IsTaking n w k trigger rule ∧ w.run.TurnsFreely (clause w.taken) u.engine turn ∧
    turn.run.Lasts ∧ Relation.ReflTransGen (Lasting clause n i.root) (u.turned n w turn) t

end System

variable {e f : Engine} {c d : Cascade} {p q : Point} {events : List Event} {evaluation : Evaluation}
  {deeds : List Deed} {w : Worker} {turn : Turn} {i : Invocation}

/-! ### One turn -/

/-- What is logged comes behind what is queued, and what is taken comes from its front, also if the
run is stopped in the middle of a frame. -/
theorem Moves.line_eq (moves : Moves e c p f d q events) (evaluation : Evaluation) :
    c.queue ++ p.made ++ posted events = (Deed.popped? ⟨evaluation, p, q, events⟩).toList ++
      (d.queue ++ Deed.unreported ⟨evaluation, p, q, events⟩) := by
  cases moves with
  | drain _ notes => simp [posted_eq_nil notes, Deed.popped?, Point.made, Deed.unreported]
  | pop queued => simp [queued, posted, Deed.popped?, Point.made, Deed.unreported]
  | turn | close => simp [posted, Deed.popped?, Point.made, Deed.unreported]
  | settle same | evaluate same | skip same | call same =>
    simp [same.queue, posted, Deed.popped?, Point.made, Dispatching.made, Deed.unreported]
  | enrich same _ _ silent | answer same _ _ silent =>
    simp [same.queue, silent, Deed.popped?, Point.made, Deed.unreported]
  | dispatch same _ _ silent =>
    simp [same.queue, silent, Deed.popped?, Point.made, Dispatch.made_beginning]
  | log same called _ posts =>
    rw [Point.made_dispatching, Deed.unreported_dispatching, called.made_eq, posts, same.queue]
    simp [Deed.popped?, Dispatching.made]
  | finish isOver => simp [posted, Deed.popped?, Point.made, isOver.made_eq]
  | save => simp [posted_eq_nil (e.retain_isQuiet _), Deed.popped?, Point.made, Deed.unreported]
  | fail => simp [posted, Deed.popped?, Point.made, Deed.unreported]
  | lose same _ _ _ silent | breakOff same _ silent | reject same _ silent =>
    simp [same.queue, silent, Deed.popped?, Deed.unreported]
  | leave same _ _ notes =>
    simp [same.queue, posted_eq_nil notes, Deed.popped?, Deed.unreported]

section Moving

variable (going : q.isGoing = true ∨ p = .saving)

include going

theorem Deed.unreported_of_going : Deed.unreported ⟨evaluation, p, q, events⟩ = q.made := by
  cases q with
  | ended =>
    rcases going with isGoing | rfl
    · cases isGoing
    · rfl
  | _ => rfl

variable (moves : Moves e c p f d q events)

include moves

/-- The rules for an invocation are laid out when it is taken, and are taken from the front. -/
theorem Moves.ahead_eq : p.ahead ++
      (Deed.popped? ⟨evaluation, p, q, events⟩).toList.flatMap e.rules.listeners =
    (Deed.taken? ⟨evaluation, p, q, events⟩).toList ++ q.ahead := by
  cases moves with
  | lose | breakOff | reject => rcases going with isGoing | isSaving <;> contradiction
  | leave _ busy =>
    rcases going with isGoing | rfl
    · cases isGoing
    · cases busy
  | _ => simp [Deed.popped?, Deed.taken?, Point.ahead, RuleRegistry.listeners]

theorem Moves.emptied (before : p.isAtWork = false → c.queue = []) (left : q.isAtWork = false) :
    d.queue = [] := by
  cases moves with
  | drain empty => exact empty
  | save | fail => exact before rfl
  | lose | breakOff | reject => rcases going with isGoing | isSaving <;> contradiction
  | leave _ busy =>
    rcases going with isGoing | rfl
    · cases isGoing
    · cases busy
  | _ => cases left

end Moving

theorem Worker.number_eq (w : Worker) (n : Nat) (turn : Turn) :
    w.number = w.taken + (w.deed n turn).taken?.toList.length := by
  obtain ⟨⟨c, p⟩, taken⟩ := w
  cases p with
  | rules trigger left => cases left <;> rfl
  | next | enriching | frames | dispatching | saving | ended => rfl

private theorem filterMap_snoc {α β : Type} (g : α → Option β) (as : List α) (a : α) :
    (as ++ [a]).filterMap g = as.filterMap g ++ (g a).toList := by
  rw [List.filterMap_append]
  cases h : g a <;> simp [h]

/-- A run that has just been begun has its invocation before it. -/
theorem Worker.InLine.of_queue {registry : RuleRegistry} (taken : w.taken = 0)
    (isPoint : w.run.point = .next) (queue : w.run.cascade.queue = [i]) : w.InLine registry i [] where
  processed := by
    rw [queue, isPoint]
    rfl
  taken := by
    rw [isPoint]
    rfl
  number := taken.symm
  emptied left := by
    rw [isPoint] at left
    cases left

theorem Worker.InLine.turned (inLine : w.InLine e.rules i deeds)
    (moves : Run.IsMove e w.run.cascade w.run.point turn)
    (going : turn.run.point.isGoing = true ∨ w.run.point = .saving) (n : Nat) :
    Worker.InLine { run := turn.run, taken := w.number } e.rules i (deeds ++ [w.deed n turn]) where
  processed := by
    have queue : w.run.cascade.queue ++ w.run.point.made ++ posted (w.deed n turn).events =
        (w.deed n turn).popped?.toList ++ (turn.run.cascade.queue ++ turn.run.point.made) := by
      rw [← Deed.unreported_of_going going]
      exact Moves.line_eq moves ⟨n, w.number⟩
    have whole := congrArg (deeds.filterMap (·.popped?) ++ ·) queue
    rw [List.flatMap_append, List.flatMap_singleton, ← List.cons_append, inLine.processed, filterMap_snoc]
    simpa only [List.append_assoc] using whole
  taken := by
    have ahead : w.run.point.ahead ++ (w.deed n turn).popped?.toList.flatMap e.rules.listeners =
        (w.deed n turn).taken?.toList ++ turn.run.point.ahead :=
      Moves.ahead_eq going moves
    rw [filterMap_snoc, filterMap_snoc, List.flatMap_append, ← inLine.taken, List.append_assoc,
      List.append_assoc]
    exact congrArg _ ahead.symm
  number := by
    rw [filterMap_snoc, List.length_append, inLine.number, w.number_eq n turn]
  emptied := Moves.emptied going moves inLine.emptied

namespace System

theorem processedBy_turned {s : System} {n : Nat} : (s.turned n w turn).processedBy n =
    s.processedBy n ++ (w.deed n turn).popped?.toList := by
  rw [processedBy, deedsOf_turned, if_pos rfl, filterMap_snoc, ← processedBy]

variable {s t u : System} {n k : Nat} {clause : Nat → Behaviour} {trigger : Invocation} {rule : Rule}

/-! ### A run that nothing stops -/

theorem Steady.goesOn (steady : s.Steady n i w) (orderly : s.Orderly)
    (turns : w.run.TurnsFreely (clause w.taken) s.engine turn)
    (ordinary : ∀ k frames, (clause k frames).IsOrdinary) (stays : turn.run.Lasts) :
    turn.run.point.isGoing = true ∨ w.run.point = .saving := by
  rcases turns.goesOn steady.free steady.lasts (steady.canLog orderly) (ordinary _) with
    goesOn | ⟨isSaving, _⟩ | ⟨_, _, breaksOff⟩
  · exact .inl goesOn.going
  · exact .inr isSaving
  · exact absurd stays breaksOff.not_lasts

/-- Until it has ended, a run that nothing stops is in line. -/
theorem Steady.inLine (steady : s.Steady n i w) (accountable : s.Accountable)
    (ordinary : ∀ k frames, (clause k frames).IsOrdinary)
    (inLine : w.InLine s.engine.rules i (s.deedsOf n))
    (course : Relation.ReflTransGen (Lasting clause n i.root) s t) :
    t.engine.rules = s.engine.rules ∧
      ∃ v, t.Steady n i v ∧ v.InLine s.engine.rules i (t.deedsOf n) := by
  induction course with
  | refl => exact ⟨rfl, w, steady, inLine⟩
  | @tail u t passed next ih =>
    obtain ⟨sameRules, v, isSteady, inLine⟩ := ih
    have orderly := (accountable_preserved.of_calm accountable (calm_of_lasting passed)).orderly
    obtain ⟨calm, lasts⟩ := next
    cases calm with
    | around happens =>
      have spares := happens.spares orderly isSteady.working isSteady.root
      refine ⟨spares.evolves.rules.trans sameRules, v, isSteady.spares spares, ?_⟩
      rw [spares.deeds]
      exact inLine
    | own working turns =>
      cases isSteady.working.symm.trans working
      have stays := lasts _ (turned_mover working)
      have moves := turns.turns.isMove
      have grounded := orderly.grounded v (List.mem_of_getElem? working)
      have rules := (Moves.sound moves orderly.sound grounded.point).2.rules
      refine ⟨rules.trans sameRules, _, isSteady.turned orderly turns ordinary stays, ?_⟩
      rw [deedsOf_turned, if_pos rfl]
      rw [← sameRules] at inLine ⊢
      exact inLine.turned moves (isSteady.goesOn orderly turns ordinary stays) n

theorem HasTaken.later (hasTaken : HasTaken clause n i s t k trigger rule)
    (next : Lasting clause n i.root t u) : HasTaken clause n i s u k trigger rule := by
  obtain ⟨r, v, turn, before, steady, isTaking, turns, stays, after⟩ := hasTaken
  exact ⟨r, v, turn, before, steady, isTaking, turns, stays, after.tail next⟩

/-- A deed takes the rule that is the first before its run. -/
theorem point_of_taken {w : Worker} (isTaken : (w.deed n turn).taken? = some (trigger, rule)) :
    ∃ later, w.run.point = .rules trigger (rule :: later) := by
  unfold Deed.taken? at isTaken
  split at isTaken
  · next later isPoint =>
    cases isTaken
    exact ⟨later, isPoint⟩
  · cases isTaken

/-- Whatever rule a run has taken, there was a moment at which it took it. -/
theorem Steady.hasTaken (steady : s.Steady n i w) (accountable : s.Accountable)
    (ordinary : ∀ k frames, (clause k frames).IsOrdinary)
    (inLine : w.InLine s.engine.rules i (s.deedsOf n)) (unbegun : s.deedsOf n = [])
    (course : Relation.ReflTransGen (Lasting clause n i.root) s t)
    (isTaken : (t.takenBy n)[k]? = some (trigger, rule)) :
    HasTaken clause n i s t k trigger rule := by
  induction course with
  | refl =>
    rw [takenBy, unbegun] at isTaken
    cases isTaken
  | @tail u t passed next ih =>
    obtain ⟨_, v, isSteady, inLine⟩ := steady.inLine accountable ordinary inLine passed
    have orderly := (accountable_preserved.of_calm accountable (calm_of_lasting passed)).orderly
    obtain ⟨calm, lasts⟩ := next
    cases calm with
    | around happens =>
      refine (ih ?_).later ⟨.around happens, lasts⟩
      rw [takenBy, ← (happens.spares orderly isSteady.working isSteady.root).deeds]
      exact isTaken
    | @own x turn _ working turns =>
      cases isSteady.working.symm.trans working
      have count : (u.takenBy n).length = v.taken := inLine.number
      rw [takenBy, deedsOf_turned, if_pos rfl, filterMap_snoc, ← takenBy] at isTaken
      by_cases isOld : k < (u.takenBy n).length
      · exact (ih ((List.getElem?_append_left isOld).symm.trans isTaken)).later ⟨.own working turns, lasts⟩
      · rw [List.getElem?_append_right (Nat.le_of_not_lt isOld)] at isTaken
        cases isNow : (v.deed n turn).taken? with
        | none =>
          rw [isNow] at isTaken
          cases isTaken
        | some taken =>
          rw [isNow, Option.toList_some, List.getElem?_singleton] at isTaken
          split at isTaken <;> cases isTaken
          next isLast =>
          have isTaking : u.IsTaking n v k trigger rule := ⟨working, by omega, point_of_taken isNow⟩
          exact ⟨u, v, turn, passed, isSteady, isTaking, turns, lasts _ (turned_mover working), .refl⟩

end System

end Choreography
