import Choreography.Proofs.System.Prospects

/-! Calls that nothing stops. No other run of the cascade has a part in what happens, the run is
not cancelled and has no deadline, and the repository works; where-clauses and components do
whatever they like, as long as they do not cancel. Such a run makes finitely many turns, and can
always make its next one until it has drained; unless a where-clause returns something that cannot
be checked, at which the run breaks off. -/

namespace Choreography

open InvocationLog

/-- A call that is made of the engine: an operation with what its component does, or an invocation
that is to be processed. -/
inductive Call where
  | invoke (action : ActionRef) (input : Fields) (outcome : Outcome Value)
  | process (i : Invocation)

/-- What a run does in one go if nothing stops it. Its where-clause behaves in a certain way, a
component does anything but cancel, and the repository does not fail. -/
inductive Run.TurnsFreely (clause : Behaviour) (e : Engine) (r : Run) : Turn → Prop where
  | step (now : Instant) (ready : r.wait? e = none) (going : r.hasEnded = false) :
      TurnsFreely clause e r (r.step e now)
  | ask (now : Instant) (waits : r.wait? e = some (.clause rule frames ends)) :
      TurnsFreely clause e r (r.resume e now (.clause (clause frames)))
  | call (now : Instant) (waits : r.wait? e = some (.component action input ends))
      (ordinary : outcome.IsOrdinary) : TurnsFreely clause e r (r.resume e now (.component outcome))
  | save (now : Instant) (waits : r.wait? e = some (.repository saved)) :
      TurnsFreely clause e r (r.resume e now (.repository (.ok ())))

/-- What a run does next if its where-clause behaves in a certain way and components return nothing. -/
def Run.freely (clause : Behaviour) (e : Engine) (r : Run) : Turn :=
  match r.wait? e with
  | none => r.step e 0
  | some (.clause _ frames _) => r.resume e 0 (.clause (clause frames))
  | some (.component _ _ _) => r.resume e 0 (.component (.finished (.ok .null)))
  | some (.repository _) => r.resume e 0 (.repository (.ok ()))

/-- A run has not broken off: it goes on, or it has drained. -/
def Run.Lasts (r : Run) : Prop :=
  match r.point with
  | .saving => r.cascade.state = .drained
  | .ended _ => r.point.HasDrained
  | point => point.isGoing = true

namespace System

/-- A call can be made: the operation is an action and somebody offers it, or the invocation is in
the log. -/
def Admits (s : System) : Call → Prop
  | .invoke action _ outcome =>
    (∃ operation, s.engine.catalogue.operation action = .ok operation ∧ operation.kind = .action) ∧
      outcome.IsOrdinary
  | .process i => i ∈ s.engine.log.entries

/-- A call without a limit of time has begun a run for an invocation. -/
inductive Begins (s : System) : Call → Invocation → System → Prop where
  | invoke (called : CallEnd.ofResult action outcome.unbounded = .ok call)
      (logged : s.engine.record action input call.output = .ok (e, i)) (now : Instant) :
      Begins s (.invoke action input outcome) i ((s.recorded e i).begun i none now)
  | process (now : Instant) : Begins s (.process i) i (s.begun i none now)

/-- What can happen around a run of a cascade, if no other run of the cascade has a part in it and
the run is not cancelled. -/
inductive Around (n : Nat) (root : InvocationId) : System → System → Prop where
  | record {s : System} (logged : s.engine.record action input output = .ok (e, i)) :
      Around n root s (s.recorded e i)
  | invoke {s : System} (offered : s.engine.catalogue.operation action = .ok operation)
      (isAction : operation.kind = .action) (result : Except Error Value)
      (called : CallEnd.ofResult action result = .ok call)
      (logged : s.engine.record action input call.output = .ok (e, i))
      (limit : Option Seconds) (now : Instant) : Around n root s ((s.recorded e i).begun i limit now)
  | process {s : System} (known : i ∈ s.history) (elsewhere : i.root ≠ root)
      (limit : Option Seconds) (now : Instant) : Around n root s (s.begun i limit now)
  | cancel {s : System} (other : InvocationId) (spares : List.lookup other s.engine.active ≠ some n) :
      Around n root s (s.cancelled other)
  | turn {s : System} (working : s.workers[m]? = some v) (elsewhere : v.run.cascade.root ≠ root)
      (turns : Run.Turns s.engine v.run turn) : Around n root s (s.turned m v turn)

/-- What can happen while a run is in progress that nothing stops. What its where-clauses do may
be different in each of its evaluations. -/
inductive Calm (clause : Nat → Behaviour) (n : Nat) (root : InvocationId) : System → System → Prop where
  | around (happens : Around n root s t) : Calm clause n root s t
  | own {s : System} (working : s.workers[n]? = some w)
      (turns : w.run.TurnsFreely (clause w.taken) s.engine turn) :
      Calm clause n root s (s.turned n w turn)

/-- Something calm happens, and the run has not broken off after it. -/
def Lasting (clause : Nat → Behaviour) (n : Nat) (root : InvocationId) (s t : System) : Prop :=
  Calm clause n root s t ∧ ∀ w, t.workers[n]? = some w → w.run.Lasts

/-- The system after some turns of one run, in which components return nothing. -/
def freely (clause : Nat → Behaviour) (n : Nat) (s : System) : Nat → System
  | 0 => s
  | turns + 1 =>
    match s.workers[n]? with
    | some w =>
      if w.run.hasEnded then s
      else (s.turned n w (w.run.freely (clause w.taken) s.engine)).freely clause n turns
    | none => s

/-- A run of an invocation is in progress, or has drained, and nothing has stopped it. -/
structure Steady (s : System) (n : Nat) (i : Invocation) (w : Worker) : Prop where
  working : s.workers[n]? = some w
  known : i ∈ s.history
  root : w.run.cascade.root = i.root
  free : w.run.cascade.IsFree
  lasts : w.run.Lasts
  held : w.run.point.isAtWork = true →
    s.engine.isRunning i.root = true ∧ i ∈ s.engine.log.entries
  below : w.run.point.IsBelow

end System

variable {e f : Engine} {c d : Cascade} {p q : Point} {events : List Event} {r : Run} {turn : Turn}
  {clause : Behaviour} {log grown : InvocationLog} {i j : Invocation} {history : List Invocation}
  {root : InvocationId}

theorem Outcome.isOrdinary_of_ok (a : α) : (Outcome.finished (.ok a)).IsOrdinary := by
  intro error raised
  cases raised

/-! ### Depths -/

/-- Calls for a support that is in the log have a depth. -/
theorem Dispatch.exists_depthOf {support : List InvocationId} (coherent : log.Coherent)
    (held : ∀ id ∈ support, ∃ i ∈ log.entries, i.id = id) (inside : first ∈ support) :
    ∃ depth, depthOf log support = .ok depth := by
  have inLog : ∀ id ∈ support, ∃ i, log.get? id = some i := by
    intro id isMember
    obtain ⟨i, isHeld, isId⟩ := held id isMember
    exact ⟨i, coherent.get?_eq_some_iff.mpr ⟨isHeld, isId⟩⟩
  obtain ⟨causes, found⟩ := mapM_get_of_held inLog
  obtain ⟨rfl, _⟩ := coherent.mapM_get_eq_ok found
  unfold depthOf
  rw [found]
  cases causes with
  | nil => cases inside
  | cons first rest => exact ⟨_, rfl⟩

/-- A run can log whatever is called for its frames, as long as its cascade is in the log. -/
theorem Point.Grounded.canLog (grounded : p.Grounded history root) (coherent : log.Coherent)
    (held : ∀ i ∈ history, i.root = root → i ∈ log.entries) : p.CanLog log := by
  have inLog {support : List InvocationId} (together : Together history root support) :
      ∀ id ∈ support, ∃ i ∈ log.entries, i.id = id ∧ i.root = root := by
    intro id inside
    obtain ⟨i, known, isId, isRoot⟩ := together id inside
    exact ⟨i, held i known isRoot, isId, isRoot⟩
  cases p with
  | frames site left claimed =>
    intro frame inside
    refine Dispatch.exists_depthOf coherent ?_ (grounded.resting frame inside)
    intro id isMember
    obtain ⟨i, isHeld, isId, _⟩ := inLog (grounded.together frame inside) id isMember
    exact ⟨i, isHeld, isId⟩
  | dispatching site left claimed work stage =>
    intro action input output
    have inLog := inLog (grounded.1.together work.frame List.mem_cons_self)
    obtain ⟨i, logged⟩ : ∃ i, log.append action input output work.frame.support = .ok (log.enter i, i) :=
      coherent.append_ok inLog
    exact ⟨_, i, logged⟩
  | next | rules | enriching | saving | ended => trivial

theorem Point.canLog_of_left (left : p.isAtWork = false) : p.CanLog log := by
  cases p with
  | saving | ended => trivial
  | next | rules | enriching | frames | dispatching => cases left

theorem Together.mono {support : List InvocationId} {more : List Invocation}
    (together : Together history root support) (included : ∀ i ∈ history, i ∈ more) :
    Together more root support := by
  intro id inside
  obtain ⟨i, known, isMember⟩ := together id inside
  exact ⟨i, included i known, isMember⟩

theorem Engine.Claims.mem_fired {firing other : Firing} {claimed mine : List Firing}
    (claims : e.Claims root firing claimed f mine) (fired : other ∈ f.fired) :
    other ∈ e.fired ∨ other = firing := by
  cases claims with
  | again => exact .inl fired
  | first => exact (List.mem_append.mp fired).imp_right List.mem_singleton.mp

/-- Whatever has fired after a move and had not before lies in the cascade of the run. -/
theorem Moves.mem_fired (moves : Moves e c p f d q events) (grounded : p.Grounded history c.root)
    {firing : Firing} (fired : firing ∈ f.fired) :
    firing ∈ e.fired ∨ Together history c.root firing.support := by
  cases moves with
  | dispatch _ claims | lose _ claims =>
    refine (claims.mem_fired fired).imp_right ?_
    rintro rfl
    exact grounded.together _ List.mem_cons_self
  | save => exact .inl (Engine.mem_fired_retain.mp fired).1
  | _ => exact .inl fired

/-! ### A turn that nothing stops -/

theorem Run.Lasts.isGoing (lasts : r.Lasts) (going : r.hasEnded = false) :
    r.point.isGoing = true := by
  obtain ⟨c, p⟩ := r
  cases p with
  | saving => rfl
  | ended => cases going
  | next | rules | enriching | frames | dispatching => exact lasts

theorem Run.Lasts.hasDrained (lasts : r.Lasts) (ended : r.hasEnded = true) : r.point.HasDrained := by
  obtain ⟨c, p⟩ := r
  cases p with
  | ended => exact lasts
  | next | rules | enriching | frames | dispatching | saving => cases ended

/-- A run that has broken off does not last. -/
theorem Run.BreaksOff.not_lasts {outcome : Outcome Returned} {error : Error}
    (breaksOff : r.BreaksOff e given outcome error turn) : ¬turn.run.Lasts := by
  rw [Lasts, breaksOff.point_eq]
  exact id

theorem Run.BreaksOff.turns {outcome : Outcome Returned} {error : Error}
    (breaksOff : r.BreaksOff e given outcome error turn) : r.Turns e turn := by
  obtain ⟨waits, _, now⟩ := breaksOff
  exact .resume now waits trivial

/-- What a run has heard can be checked, if the run has not broken off. -/
theorem Run.Lasts.keyed {outcome : Outcome Returned} {now : Instant}
    (stays : (r.resume e now (.clause outcome)).run.Lasts)
    (waits : r.wait? e = some (.clause rule frames ends)) : outcome.flaw? = none :=
  Option.eq_none_iff_forall_ne_some.mpr fun _ flawed => (BreaksOff.hear waits flawed now).not_lasts stays

/-- A run saves once its queue is empty, and then it is drained. -/
theorem Moves.drained_of_saving (moves : Moves e c p f d q events) (saves : q = .saving) :
    d.state = .drained ∧ d.queue = [] := by
  cases saves
  cases moves with
  | drain empty => exact ⟨rfl, empty⟩

namespace Run.TurnsFreely

theorem turns (free : r.TurnsFreely clause e turn) : r.Turns e turn := by
  cases free with
  | step now ready going => exact .step now ready going
  | ask now waits => exact .resume now waits trivial
  | call now waits => exact .resume now waits trivial
  | save now waits => exact .resume now waits trivial

/-- A run that nothing stops goes on, comes back from the repository, or breaks off at what its
where-clause has returned. -/
theorem goesOn (turns : r.TurnsFreely clause e turn) (free : r.cascade.IsFree) (lasts : r.Lasts)
    (logs : r.point.CanLog e.log) (ordinary : ∀ frames, (clause frames).IsOrdinary) :
    turn.GoesOn ∨ (r.point = .saving ∧ turn.run.cascade = r.cascade ∧
      turn.run.point = .ended (.ok r.cascade.report)) ∨
        ∃ frames error, r.BreaksOff e frames (clause frames) error turn := by
  have going := lasts.isGoing turns.turns.not_hasEnded
  cases turns with
  | step now ready => exact .inl (step_goesOn now free going logs ready)
  | @ask _ frames _ now waits =>
    cases flawed : (clause frames).flaw? with
    | none => exact .inl (resume_clause_goesOn now free waits (ordinary _) flawed)
    | some error => exact .inr (.inr ⟨frames, error, .hear waits flawed now⟩)
  | call now waits isOrdinary => exact .inl (resume_component_goesOn now free logs waits isOrdinary)
  | save now waits =>
    have isSaving := point_of_repository waits
    obtain ⟨c, p⟩ := r
    cases isSaving
    exact .inr (.inl ⟨rfl, rfl, rfl⟩)

theorem lasts (turns : r.TurnsFreely clause e turn) (free : r.cascade.IsFree) (lasts : r.Lasts)
    (logs : r.point.CanLog e.log) (ordinary : ∀ frames, (clause frames).IsOrdinary) :
    (turn.run.cascade.IsFree ∧ turn.run.Lasts) ∨
      ∃ frames error, r.BreaksOff e frames (clause frames) error turn := by
  have moves := turns.turns.isMove
  rcases turns.goesOn free lasts logs ordinary with goesOn | ⟨isSaving, sameCascade, isEnded⟩ | breaksOff
  · refine .inl ⟨goesOn.free, ?_⟩
    obtain ⟨engine, ⟨d, q⟩, events⟩ := turn
    cases q with
    | saving => exact (Moves.drained_of_saving moves rfl).1
    | ended => cases goesOn.going
    | next | rules | enriching | frames | dispatching => exact goesOn.going
  · refine .inl ⟨sameCascade ▸ free, ?_⟩
    rw [Lasts, isSaving] at lasts
    rw [Lasts, isEnded]
    exact decide_eq_true lasts
  · exact .inr breaksOff

/-- A run that has not ended can make a turn, whatever its where-clauses do. -/
theorem freely (e : Engine) (clause : Behaviour) (going : r.hasEnded = false) :
    r.TurnsFreely clause e (r.freely clause e) := by
  unfold Run.freely
  split
  · next ready => exact .step 0 ready going
  · next waits => exact .ask 0 waits
  · next waits => exact .call 0 waits (Outcome.isOrdinary_of_ok Value.null)
  · next waits => exact .save 0 waits

end Run.TurnsFreely

namespace System

variable {start s t u : System} {n m : Nat} {v w : Worker} {clause : Nat → Behaviour} {call : Call}

/-! ### Around a run -/

theorem Around.step (around : Around n root s t) : s.Step t := by
  cases around with
  | record logged => exact .record logged
  | invoke offered isAction result called logged limit now =>
    exact .invoke offered isAction result called logged limit now
  | process known _ limit now => exact .process known limit now
  | cancel other => exact .cancel other
  | turn working _ turns =>
    cases turns with
    | step now ready going => exact .go working ready going now
    | resume now waits answered => exact .hear working waits answered now

theorem Calm.step (calm : Calm clause n root s t) : s.Step t := by
  cases calm with
  | around happens => exact happens.step
  | own working turns =>
    cases turns.turns with
    | step now ready going => exact .go working ready going now
    | resume now waits answered => exact .hear working waits answered now

theorem reaches_of_calm (calm : Relation.ReflTransGen (Calm clause n root) s t) : s.Reaches t := by
  induction calm with
  | refl => exact .start
  | tail _ next ih => exact ih.step next.step

theorem Preserved.of_calm {P : System → Prop} (preserved : Preserved P) (holds : P s)
    (calm : Relation.ReflTransGen (Calm clause n root) s t) : P t :=
  preserved.reaches holds (reaches_of_calm calm)

theorem cancelled_worker (working : s.workers[n]? = some w)
    (spares : List.lookup root s.engine.active ≠ some n) : (s.cancelled root).workers[n]? = some w := by
  unfold cancelled
  split
  · next m isLatest =>
    have elsewhere : m ≠ n := fun same => spares (same ▸ isLatest)
    exact (List.getElem?_modify_ne _ _ elsewhere).trans working
  · exact working

theorem begun_worker (working : s.workers[n]? = some w) (i : Invocation) (limit : Option Seconds)
    (now : Instant) : (s.begun i limit now).workers[n]? = some w :=
  (List.getElem?_append_left (List.getElem?_eq_some_iff.mp working).1).trans working

/-- What happens around a run leaves the run, its deeds and the mark of its cascade as they are. -/
structure Spares (s t : System) (n : Nat) (root : InvocationId) : Prop where
  worker : ∀ w, s.workers[n]? = some w → t.workers[n]? = some w
  deeds : t.deedsOf n = s.deedsOf n
  running : s.engine.isRunning root = true → t.engine.isRunning root = true
  held : s.engine.isRunning root = true →
    ∀ i ∈ s.engine.log.entries, i.root = root → i ∈ t.engine.log.entries
  fired : ∀ firing ∈ t.engine.fired, firing ∈ s.engine.fired ∨
    ∃ other, other ≠ root ∧ Together t.history other firing.support
  history : ∀ i ∈ s.history, i ∈ t.history
  evolves : s.engine.Evolves t.engine

theorem Spares.of_keeps (worker : ∀ w, s.workers[n]? = some w → t.workers[n]? = some w)
    (keeps : s.Keeps t) : s.Spares t n root where
  worker
  deeds := by rw [deedsOf, keeps.rests.chronicle, ← deedsOf]
  running := keeps.marks root
  held _ i held _ := keeps.entries i held
  fired _ isFired := .inl (keeps.rests.fired ▸ isFired)
  history i known := by
    obtain ⟨added, history, _⟩ := keeps.rests.history
    exact history ▸ List.mem_append_left _ known
  evolves := keeps.rests.evolves

theorem Spares.trans (first : s.Spares t n root) (second : t.Spares u n root)
    (reached : s.engine.log.Reachable) : s.Spares u n root where
  worker w working := second.worker w (first.worker w working)
  deeds := second.deeds.trans first.deeds
  running isRunning := second.running (first.running isRunning)
  held isRunning i held isRoot :=
    second.held (first.running isRunning) i (first.held isRunning i held isRoot) isRoot
  fired firing isFired := by
    rcases second.fired firing isFired with before | isNew
    · rcases first.fired firing before with earlier | ⟨other, elsewhere, together⟩
      · exact .inl earlier
      · exact .inr ⟨other, elsewhere, together.mono second.history⟩
    · exact .inr isNew
  history i known := second.history i (first.history i known)
  evolves := first.evolves.trans second.evolves reached

theorem Around.spares (around : Around n root s t) (orderly : s.Orderly)
    (working : s.workers[n]? = some w) (isRoot : w.run.cascade.root = root) :
    s.Spares t n root := by
  have coherent := orderly.sound.coherent
  cases around with
  | record logged => exact .of_keeps (fun _ same => same) (recorded_keeps coherent logged)
  | invoke _ _ _ _ logged limit now =>
    have keeps := recorded_keeps coherent logged
    have recorded : s.Spares (s.recorded _ _) n root := .of_keeps (fun _ same => same) keeps
    refine recorded.trans (.of_keeps (fun _ same => begun_worker same _ _ _) ?_) orderly.sound.reached
    exact begun_keeps (List.mem_append_right _ (List.mem_singleton_self _)) limit now
  | process known _ limit now =>
    exact .of_keeps (fun _ same => begun_worker same _ _ _) (begun_keeps known limit now)
  | cancel other spares =>
    exact .of_keeps (fun _ same => cancelled_worker same spares) (s.cancelled_keeps other)
  | @turn m v turn _ isOther elsewhere turns =>
    have notMover : n ≠ m := by
      rintro rfl
      cases working.symm.trans isOther
      exact elsewhere isRoot
    have moves := turns.isMove
    have grounded := orderly.grounded v (List.mem_of_getElem? isOther)
    constructor
    case worker => exact fun _ same => turned_other notMover same
    case deeds => exact deedsOf_turned_other notMover
    case running => exact Moves.isRunning moves fun _ _ => elsewhere
    case held =>
      intro running i held sameRoot
      exact Moves.held moves coherent held (sameRoot ▸ running)
    case fired =>
      intro firing isFired
      refine (Moves.mem_fired moves grounded.point isFired).imp_right fun together => ?_
      exact ⟨_, elsewhere, together.more⟩
    case history => exact fun i known => List.mem_append_left _ known
    case evolves => exact (Moves.sound moves orderly.sound grounded.point).2

/-! ### A run that nothing stops -/

theorem Steady.spares (steady : s.Steady n i w) (spares : s.Spares t n i.root) :
    t.Steady n i w where
  working := spares.worker w steady.working
  known := spares.history i steady.known
  root := steady.root
  free := steady.free
  lasts := steady.lasts
  held atWork := by
    obtain ⟨running, held⟩ := steady.held atWork
    exact ⟨spares.running running, spares.held running i held rfl⟩
  below := steady.below

/-- As long as the run is at work, its cascade is in the log. -/
theorem Steady.mem_entries (steady : s.Steady n i w) (orderly : s.Orderly)
    (atWork : w.run.point.isAtWork = true) (known : j ∈ s.history)
    (isRoot : j.root = w.run.cascade.root) : j ∈ s.engine.log.entries :=
  orderly.sound.log.held_together known (steady.held atWork).2 (isRoot.trans steady.root)

theorem Steady.canLog (steady : s.Steady n i w) (orderly : s.Orderly) :
    w.run.point.CanLog s.engine.log := by
  by_cases atWork : w.run.point.isAtWork = true
  · have grounded := orderly.grounded w (List.mem_of_getElem? steady.working)
    exact grounded.point.canLog orderly.sound.coherent fun _ known isRoot =>
      steady.mem_entries orderly atWork known isRoot
  · exact Point.canLog_of_left (Bool.eq_false_iff.mpr atWork)

theorem Steady.turned (steady : s.Steady n i w) (orderly : s.Orderly)
    (turns : w.run.TurnsFreely (clause w.taken) s.engine turn)
    (ordinary : ∀ k frames, (clause k frames).IsOrdinary) (stays : turn.run.Lasts) :
    (s.turned n w turn).Steady n i { run := turn.run, taken := w.number } := by
  have moves := turns.turns.isMove
  have grounded := orderly.grounded w (List.mem_of_getElem? steady.working)
  obtain ⟨free, lasts⟩ :=
    (turns.lasts steady.free steady.lasts (steady.canLog orderly) (ordinary _)).resolve_right
      fun ⟨_, _, breaksOff⟩ => breaksOff.not_lasts stays
  -- A run that is at work after a turn was at work before it.
  have before (atWork : turn.run.point.isAtWork = true) : w.run.point.isAtWork = true := by
    by_contra isLeft
    have stays := Moves.not_isAtWork moves (Bool.eq_false_iff.mpr isLeft)
    exact Bool.false_ne_true (stays.symm.trans atWork)
  constructor
  case working => exact turned_mover steady.working
  case known => exact List.mem_append_left _ steady.known
  case root => exact (Moves.root_eq moves).trans steady.root
  case free => exact free
  case lasts => exact lasts
  case held =>
    intro atWork
    obtain ⟨running, held⟩ := steady.held (before atWork)
    refine ⟨Moves.isRunning moves ?_ running, Moves.held moves orderly.sound.coherent held running⟩
    exact fun _ left => absurd atWork (Bool.eq_false_iff.mp left)
  case below => exact Moves.isBelow moves orderly.sound.log grounded.point steady.below

theorem Steady.lasting (steady : s.Steady n i w) (orderly : s.Orderly)
    (ordinary : ∀ k frames, (clause k frames).IsOrdinary) (next : Lasting clause n i.root s t) :
    ∃ v, t.Steady n i v := by
  obtain ⟨calm, lasts⟩ := next
  cases calm with
  | around happens => exact ⟨w, steady.spares (happens.spares orderly steady.working steady.root)⟩
  | own working turns =>
    cases steady.working.symm.trans working
    exact ⟨_, steady.turned orderly turns ordinary (lasts _ (turned_mover working))⟩

theorem Lasting.calm (next : Lasting clause n root s t) : Calm clause n root s t := next.1

theorem calm_of_lasting (course : Relation.ReflTransGen (Lasting clause n root) s t) :
    Relation.ReflTransGen (Calm clause n root) s t :=
  Relation.ReflTransGen.mono (fun _ _ => Lasting.calm) s t course

theorem Steady.reaches (steady : s.Steady n i w) (accountable : s.Accountable)
    (ordinary : ∀ k frames, (clause k frames).IsOrdinary)
    (course : Relation.ReflTransGen (Lasting clause n i.root) s t) :
    ∃ v, t.Steady n i v := by
  induction course with
  | refl => exact ⟨w, steady⟩
  | tail passed next ih =>
    obtain ⟨v, steady⟩ := ih
    exact steady.lasting (accountable_preserved.of_calm accountable (calm_of_lasting passed)).orderly
      ordinary next

/-- Whatever calm things happen, the run has not broken off, or it has done so at a where-clause,
and has ended with the error. -/
theorem Steady.lasting_or (steady : s.Steady n i w) (accountable : s.Accountable)
    (ordinary : ∀ k frames, (clause k frames).IsOrdinary)
    (calm : Relation.ReflTransGen (Calm clause n i.root) s t) :
    Relation.ReflTransGen (Lasting clause n i.root) s t ∨ ∃ u v frames error turn,
      Relation.ReflTransGen (Lasting clause n i.root) s u ∧ u.workers[n]? = some v ∧
        v.run.BreaksOff u.engine frames (clause v.taken frames) error turn ∧
          t.workers[n]? = some { run := turn.run, taken := v.number } := by
  induction calm with
  | refl => exact .inl .refl
  | @tail t r passed next ih =>
    have isAccountable := accountable_preserved.of_calm accountable passed
    rcases ih with lasting | ⟨u, v, frames, error, turn, before, working, breaksOff, isNow⟩
    · obtain ⟨x, isSteady⟩ := steady.reaches accountable ordinary lasting
      cases next with
      | around happens =>
        have spares := happens.spares isAccountable.orderly isSteady.working isSteady.root
        refine .inl (lasting.tail ⟨.around happens, fun y isWorker => ?_⟩)
        cases (spares.worker _ isSteady.working).symm.trans isWorker
        exact isSteady.lasts
      | @own _ turn _ working turns =>
        cases isSteady.working.symm.trans working
        rcases turns.lasts isSteady.free isSteady.lasts (isSteady.canLog isAccountable.orderly) (ordinary _)
          with ⟨_, lasts⟩ | ⟨frames, error, breaksOff⟩
        · refine .inl (lasting.tail ⟨.own working turns, fun y isWorker => ?_⟩)
          cases (turned_mover working).symm.trans isWorker
          exact lasts
        · exact .inr ⟨t, x, frames, error, turn, lasting, working, breaksOff, turned_mover working⟩
    · refine .inr ⟨u, v, frames, error, turn, before, working, breaksOff, ?_⟩
      obtain ⟨x, isSteady⟩ := steady.reaches accountable ordinary before
      cases isSteady.working.symm.trans working
      have isRoot : turn.run.cascade.root = i.root := (Moves.root_eq breaksOff.turns.isMove).trans isSteady.root
      cases next with
      | around happens => exact (happens.spares isAccountable.orderly isNow isRoot).worker _ isNow
      | own isWorker moreTurns =>
        cases isNow.symm.trans isWorker
        refine absurd ?_ (Bool.eq_false_iff.mp moreTurns.turns.not_hasEnded)
        rw [Run.hasEnded, breaksOff.point_eq]

/-! ### The beginning -/

/-- A call that can be made begins a run. -/
theorem Admits.exists_begins (admits : s.Admits call) (now : Instant) :
    ∃ i t, s.Begins call i t := by
  cases call with
  | invoke action input outcome =>
    obtain ⟨called, isCalled⟩ := CallEnd.exists_ofResult action admits.2
    exact ⟨_, _, .invoke isCalled (Engine.record_eq s.engine action input called.output) now⟩
  | process i => exact ⟨i, _, .process now⟩

theorem Begins.step (begins : s.Begins call i t) (orderly : s.Orderly) (admits : s.Admits call) :
    s.Step t := by
  cases begins with
  | invoke called logged now =>
    obtain ⟨⟨operation, offered, isAction⟩, _⟩ := admits
    exact .invoke offered isAction _ called logged none now
  | process now => exact .process (orderly.sound.log.mem_history admits) none now

/-- A run that is begun has done nothing yet. -/
theorem Begins.unbegun (begins : s.Begins call i t) (orderly : s.Orderly) :
    t.engine.rules = s.engine.rules ∧ t.deedsOf s.workers.length = [] := by
  have none : s.deedsOf s.workers.length = [] :=
    orderly.deedsOf_eq_nil (List.getElem?_eq_none (Nat.le_refl _))
  cases begins with
  | invoke called logged now =>
    obtain ⟨grown, _, rfl⟩ := Engine.record_eq_ok logged
    exact ⟨rfl, none⟩
  | process now => exact ⟨rfl, none⟩

/-- The run that is begun for an invocation in the log. -/
theorem steady_begun (orderly : s.Orderly) (held : i ∈ s.engine.log.entries) (now : Instant) :
    (s.begun i none now).Steady s.workers.length i
      { run := (Run.start s.engine s.workers.length i none now).2 } where
  working := List.getElem?_concat_length
  known := orderly.sound.log.mem_history held
  root := rfl
  free := ⟨rfl, rfl⟩
  lasts := rfl
  held _ := by
    have marked := s.engine.isRunning_activate i.root i.root s.workers.length
    rw [decide_eq_true rfl, Bool.true_or] at marked
    exact ⟨marked, held⟩
  below := trivial

theorem Begins.steady (begins : s.Begins call i t) (orderly : s.Orderly) (admits : s.Admits call) :
    ∃ w, t.Steady s.workers.length i w ∧ w.taken = 0 ∧ w.run.point = .next ∧
      w.run.cascade.queue = [i] := by
  cases begins with
  | invoke called logged now =>
    have coherent := orderly.sound.coherent
    have later := orderly.rests (recorded_rests coherent logged)
    obtain ⟨grown, appended, rfl⟩ := Engine.record_eq_ok logged
    have held : i ∈ grown.entries := by
      rw [(coherent.append_entries appended).1]
      exact List.mem_append_right _ (List.mem_singleton_self i)
    exact ⟨_, steady_begun later held now, rfl, rfl, rfl⟩
  | process now => exact ⟨_, steady_begun orderly admits now, rfl, rfl, rfl⟩

/-! ### The end -/

/-- Turns of a run in which components return nothing are calm. -/
theorem calm_freely (clause : Nat → Behaviour) (n : Nat) (root : InvocationId) (s : System)
    (turns : Nat) : Relation.ReflTransGen (Calm clause n root) s (s.freely clause n turns) := by
  induction turns generalizing s with
  | zero => exact .refl
  | succ turns ih =>
    unfold freely
    split
    · next w working =>
      split
      · exact .refl
      · next going =>
        exact .head (.own working (.freely s.engine _ (Bool.eq_false_iff.mpr going))) (ih _)
    · exact .refl

theorem calm_of_course {course : Nat → System} (begins : course 0 = s)
    (goesOn : ∀ k, Calm clause n root (course k) (course (k + 1))) (k : Nat) :
    Relation.ReflTransGen (Calm clause n root) s (course k) := by
  induction k with
  | zero => rw [begins]
  | succ k ih => exact ih.tail (goesOn k)

/-- A run that nothing stops makes finitely many turns. -/
theorem Steady.exists_last_deed (steady : s.Steady n i w) (accountable : s.Accountable)
    {course : Nat → System} (begins : course 0 = s)
    (goesOn : ∀ k, Calm clause n i.root (course k) (course (k + 1))) :
    ∃ last, ∀ k ≥ last, (course k).deedsOf n = (course last).deedsOf n := by
  have sinks : s.Sinks n w := ⟨accountable, steady.working, steady.below⟩
  exact sinks.exists_last_deed begins fun k => (goesOn k).step

end System

end Choreography
