import Choreography.Proofs.Engine.Mirror
import Choreography.Proofs.Run.Survivors
import Choreography.Proofs.System.Attention

/-! Runs side by side. Two runs of rules without where-clauses, each in an engine of its own,
stand at the same place of cascades that mirror each other. If nothing stops them and their calls
are answered alike, they take the same step, and stand at the same place again. -/

namespace Choreography

open InvocationLog

/-- Two cascades have twins before them. -/
structure Cascade.Mirrors (twins : Twins) (c d : Cascade) : Prop where
  free : c.IsFree
  alsoFree : d.IsFree
  queue : List.Forall₂ twins.Pair c.queue d.queue

/-- The same rule is taken for twins, and neither it nor any rule after it has a where-clause. -/
structure Site.Mirrors (twins : Twins) (s t : Site) : Prop where
  trigger : twins.Pair s.trigger t.trigger
  rule : s.rule = t.rule
  later : s.later = t.later
  plain : ∀ rule ∈ s.rule :: s.later, rule.enrich = none

structure Dispatch.Mirrors (twins : Twins) (work image : Dispatch) : Prop where
  rule : work.rule = image.rule
  frame : work.frame.Fires twins image.frame
  depth : work.depth = image.depth

/-- Two dispatches have come equally far. -/
inductive Dispatching.Mirrors (twins : Twins) : Dispatching → Dispatching → Prop where
  | next {first second : List Invocation} (pairs : List.Forall₂ twins.Pair first second) :
      Mirrors twins (.next left first) (.next left second)
  | calling {first second : List Invocation} (pairs : List.Forall₂ twins.Pair first second) :
      Mirrors twins (.calling action input left first ends) (.calling action input left second ends')
  | finished {first second : List Invocation} (pairs : List.Forall₂ twins.Pair first second) :
      Mirrors twins (.finished first) (.finished second)

/-- Two runs stand at the same place, or have left their work loops. -/
inductive Point.Mirrors (twins : Twins) : Point → Point → Prop where
  | next : Mirrors twins .next .next
  | rules (pair : twins.Pair i j) (plain : ∀ rule ∈ left, rule.enrich = none) :
      Mirrors twins (.rules i left) (.rules j left)
  | enriching (site : s.Mirrors twins t) (frames : List.Forall₂ (Frame.Fires twins) given seen) :
      Mirrors twins (.enriching s (.finished given)) (.enriching t (.finished seen))
  | frames {mine theirs : List Firing} (site : s.Mirrors twins t)
      (frames : List.Forall₂ (Frame.Fires twins) left ahead)
      (claimed : List.Forall₂ (Firing.Mirrors twins) mine theirs) :
      Mirrors twins (.frames s left mine) (.frames t ahead theirs)
  | dispatching {mine theirs : List Firing} (site : s.Mirrors twins t)
      (frames : List.Forall₂ (Frame.Fires twins) left ahead)
      (claimed : List.Forall₂ (Firing.Mirrors twins) mine theirs) (work : Dispatch.Mirrors twins w v)
      (stage : Dispatching.Mirrors twins x y) :
      Mirrors twins (.dispatching s left mine w x) (.dispatching t ahead theirs v y)
  | idle (left : p.isAtWork = false) (alsoLeft : q.isAtWork = false) : Mirrors twins p q

/-- Two runs, each in its engine, stand at the same place of cascades that mirror each other. -/
structure Run.Mirrors (e : Engine) (r : Run) (f : Engine) (v : Run) : Prop where
  engine : e.Mirrors f r.cascade.root v.cascade.root
  cascade : r.point.isAtWork = true →
    r.cascade.Mirrors (e.log.twins f.log r.cascade.root v.cascade.root) v.cascade
  point : r.point.Mirrors (e.log.twins f.log r.cascade.root v.cascade.root) v.point

/-- Two turns lead to the same place. -/
def Turn.Mirrors (t u : Turn) : Prop := Run.Mirrors t.engine t.run u.engine u.run

/-- Two dispatches have done the same in their logs, whatever they have logged. -/
structure DispatchTurn.Mirrors (e f : Engine) (twins : Twins) (t u : DispatchTurn) : Prop where
  engine : Engine.Mirrors { e with log := t.log } { f with log := u.log } t.cascade.root u.cascade.root
  included : twins ⊆ t.log.twins u.log t.cascade.root u.cascade.root
  stage : (∃ error failure, t.stage = .raised error ∧ u.stage = .raised failure) ∨
    t.stage.Mirrors (t.log.twins u.log t.cascade.root u.cascade.root) u.stage ∧
      t.cascade.Mirrors (t.log.twins u.log t.cascade.root u.cascade.root) u.cascade

variable {twins more : Twins} {e f : Engine} {c d : Cascade} {s t : Site} {now later : Instant}

/-! ### More twins -/

theorem Twins.Pair.mono {i j : Invocation} (included : twins ⊆ more) (pair : twins.Pair i j) :
    more.Pair i j :=
  included pair

theorem Cascade.Mirrors.mono (included : twins ⊆ more) (alike : c.Mirrors twins d) :
    c.Mirrors more d :=
  ⟨alike.free, alike.alsoFree, alike.queue.imp fun _ _ => Twins.Pair.mono included⟩

theorem Site.Mirrors.mono (included : twins ⊆ more) (alike : s.Mirrors twins t) : s.Mirrors more t :=
  { alike with trigger := alike.trigger.mono included }

theorem Dispatch.Mirrors.mono {work image : Dispatch} (included : twins ⊆ more)
    (alike : work.Mirrors twins image) : work.Mirrors more image :=
  { alike with frame := alike.frame.mono included }

/-! ### A cascade that nothing stops -/

/-- Inputs are taken from the bindings. -/
theorem Frame.Mirrors.resolve_eq {g h : Frame} (alike : g.Mirrors twins h) (inputs : FieldPatterns) :
    g.resolve inputs = h.resolve inputs := by
  have same : g.resolve? = h.resolve? := by
    funext input
    cases input <;> simp only [Frame.resolve?, Frame.get?, alike.bindings]
  rw [Frame.resolve, Frame.resolve, same]

namespace Cascade.Mirrors

theorem inState (alike : c.Mirrors twins d) (state : CascadeState) :
    Cascade.Mirrors twins { c with state } { d with state } :=
  ⟨⟨alike.free.deadline, alike.free.token⟩, ⟨alike.alsoFree.deadline, alike.alsoFree.token⟩,
    alike.queue⟩

/-- Faults are recorded without further consequences. -/
theorem recordFault (alike : c.Mirrors twins d) (fault shadow : Failure) :
    (c.recordFault fault).Mirrors twins (d.recordFault shadow) :=
  ⟨⟨alike.free.deadline, alike.free.token⟩, ⟨alike.alsoFree.deadline, alike.alsoFree.token⟩,
    alike.queue⟩

theorem recordCall (alike : c.Mirrors twins d) (call : CallEnd) (here there : Context) :
    (((call.fault? here).map c.recordFault).getD c).Mirrors twins
      (((call.fault? there).map d.recordFault).getD d) := by
  rw [CallEnd.fault?, CallEnd.fault?]
  cases call.rejection with
  | none => exact alike
  | some => exact alike.recordFault _ _

end Cascade.Mirrors

theorem Cascade.recordCall_root (c : Cascade) (fault? : Option Failure) :
    ((fault?.map c.recordFault).getD c).root = c.root := by
  cases fault? <;> rfl

/-! ### Leaving -/

namespace Engine.Mirrors

variable (mirrors : e.Mirrors f c.root d.root)

include mirrors

/-- Two runs that leave their work loops are at rest. -/
theorem leave (error failure : Error) : (Run.leave e c error).Mirrors (Run.leave f d failure) := by
  have spec {e : Engine} {c : Cascade} (error : Error) :
      (Run.leave e c error).engine = e.deactivate c.root ∧
        (Run.leave e c error).run.cascade.root = c.root ∧
        (Run.leave e c error).run.point.isAtWork = false := by
    obtain ⟨engine, same, ⟨result, isEnded, _⟩, _⟩ := Run.leave_spec e c error
    exact ⟨engine, same.root, isEnded ▸ rfl⟩
  obtain ⟨engine, root, atRest⟩ := spec (e := e) (c := c) error
  obtain ⟨engine', root', atRest'⟩ := spec (e := f) (c := d) failure
  constructor
  case engine =>
    rw [engine, engine', root, root']
    exact mirrors.deactivate _ _
  case cascade => exact fun atWork => absurd atWork (Bool.eq_false_iff.mp atRest)
  case point => exact .idle atRest atRest'

end Engine.Mirrors

/-! ### Dispatching -/

section Dispatching

variable {work image : Dispatch} {first second : List Invocation} {frames ahead : Frames}
  {claimed mirrored : List Firing} {turn turned : DispatchTurn} {stage reflection : Dispatching}

/-- Two frames for twins have the same depth, and are too deep for the same limit. -/
theorem Dispatch.Mirrors.start (alike : work.Mirrors twins image) (cascades : c.Mirrors twins d)
    (limit : Int) (log mirror : InvocationLog) :
    (work.start limit c log).stage.Mirrors twins (image.start limit d mirror).stage ∧
      (work.start limit c log).cascade.Mirrors twins (image.start limit d mirror).cascade := by
  rw [Dispatch.start, Dispatch.start, alike.depth, alike.rule]
  split
  · refine ⟨.finished .nil, Cascade.Mirrors.recordFault ?_ _ _⟩
    exact ⟨⟨cascades.free.deadline, cascades.free.token⟩,
      ⟨cascades.alsoFree.deadline, cascades.alsoFree.token⟩, cascades.queue⟩
  · exact ⟨.next .nil, cascades⟩

section Calls

variable (mirrors : e.Mirrors f c.root d.root)
  (alike : work.Mirrors (e.log.twins f.log c.root d.root) image)
  (cascades : c.Mirrors (e.log.twins f.log c.root d.root) d)

include mirrors alike cascades

/-- Calls that have come to the same end are logged as twins. -/
theorem Dispatch.Mirrors.conclude
    (pairs : List.Forall₂ (e.log.twins f.log c.root d.root).Pair first second) (action : ActionRef)
    (input : Fields) (left : List Pattern) (call : CallEnd) :
    DispatchTurn.Mirrors e f (e.log.twins f.log c.root d.root)
      (work.conclude c e.log action input left first call)
      (image.conclude d f.log action input left second call) := by
  obtain ⟨grown, i, reflected, j, logged, mirrored, grows, twins⟩ :=
    mirrors.append alike.frame.2.support alike.frame.1 action input call.output
  have included : e.log.twins f.log c.root d.root ⊆ grown.twins reflected c.root d.root :=
    twins ▸ List.subset_append_left _ _
  have isPair : (grown.twins reflected c.root d.root).Pair i j :=
    twins ▸ List.mem_append_right _ (List.mem_singleton_self _)
  have areMore := pairs.imp fun _ _ => Twins.Pair.mono included
  rw [Dispatch.conclude, Dispatch.conclude, logged, mirrored]
  constructor
  case engine =>
    dsimp only
    rw [Cascade.recordCall_root, Cascade.recordCall_root]
    exact grows
  case included =>
    dsimp only
    rw [Cascade.recordCall_root, Cascade.recordCall_root]
    exact included
  case stage =>
    dsimp only
    rw [Cascade.recordCall_root, Cascade.recordCall_root]
    refine .inr ⟨.next (List.rel_append areMore (.cons isPair .nil)), ?_⟩
    exact (cascades.recordCall call _ _).mono included

omit alike in
/-- Nothing has been logged. -/
theorem DispatchTurn.Mirrors.still (stages : stage.Mirrors (e.log.twins f.log c.root d.root) reflection) :
    DispatchTurn.Mirrors e f (e.log.twins f.log c.root d.root) { stage, cascade := c, log := e.log }
      { stage := reflection, cascade := d, log := f.log } :=
  ⟨mirrors, fun _ inside => inside, .inr ⟨stages, cascades⟩⟩

/-- The same call is made, or found to be one that nobody offers. -/
theorem Dispatch.Mirrors.step (stages : stage.Mirrors (e.log.twins f.log c.root d.root) reflection)
    (now later : Instant) : DispatchTurn.Mirrors e f (e.log.twins f.log c.root d.root)
      (work.step e.catalogue now c e.log stage) (image.step f.catalogue later d f.log reflection) := by
  have still {stage reflection : Dispatching}
      (stages : stage.Mirrors (e.log.twins f.log c.root d.root) reflection) :=
    DispatchTurn.Mirrors.still mirrors cascades stages
  cases stages with
  | @next left _ _ pairs =>
    cases left with
    | nil => exact still (.finished pairs)
    | cons p left =>
      have resolved := alike.frame.2.resolve_eq p.inputs
      rw [Dispatch.step, Dispatch.step, mirrors.catalogue, cascades.free.beginWait,
        cascades.alsoFree.beginWait, resolved]
      dsimp only
      split
      · exact still (.calling pairs)
      · exact alike.conclude mirrors cascades pairs _ _ _ _
  | calling pairs => exact still (.calling pairs)
  | finished pairs => exact still (.finished pairs)

/-- The same answer leads to the same end. -/
theorem Dispatch.Mirrors.resume
    (pairs : List.Forall₂ (e.log.twins f.log c.root d.root).Pair first second) (now later : Instant)
    (result : Except Error Value) (ends ends' : Option Instant) :
    DispatchTurn.Mirrors e f (e.log.twins f.log c.root d.root)
      (work.resume now c e.log (.finished result) (.calling action input left first ends))
      (image.resume later d f.log (.finished result) (.calling action input left second ends')) := by
  rw [Dispatch.resume, Dispatch.resume, Cascade.endWait, Cascade.endWait]
  dsimp only
  split
  · next error _ => exact ⟨mirrors, fun _ inside => inside, .inl ⟨error, error, rfl, rfl⟩⟩
  · exact alike.conclude mirrors cascades pairs _ _ _ _

end Calls

/-- After a dispatch the runs go on with the next frame, or both leave. -/
theorem Run.afterDispatching_mirrors (site : s.Mirrors twins t)
    (left : List.Forall₂ (Frame.Fires twins) frames ahead)
    (mine : List.Forall₂ (Firing.Mirrors twins) claimed mirrored) (alike : work.Mirrors twins image)
    (turns : turn.Mirrors e f twins turned) :
    (afterDispatching e s frames claimed work turn).Mirrors
      (afterDispatching f t ahead mirrored image turned) := by
  have frames := left.imp fun _ _ => Frame.Fires.mono turns.included
  have claims := mine.imp fun _ _ => Firing.Mirrors.mono turns.included
  have site := site.mono turns.included
  have work := alike.mono turns.included
  obtain ⟨stage, cascade, log, events⟩ := turn
  obtain ⟨stage', cascade', log', events'⟩ := turned
  rcases turns.stage with ⟨error, failure, rfl, rfl⟩ | ⟨stages, cascades⟩
  · have left := turns.engine.leave error failure
    exact ⟨left.engine, left.cascade, left.point⟩
  · cases stages with
    | next pairs => exact ⟨turns.engine, fun _ => cascades, .dispatching site frames claims work (.next pairs)⟩
    | calling pairs =>
      exact ⟨turns.engine, fun _ => cascades, .dispatching site frames claims work (.calling pairs)⟩
    | finished pairs =>
      refine ⟨turns.engine, fun _ => ?_, .frames site frames claims⟩
      exact ⟨⟨cascades.free.deadline, cascades.free.token⟩,
        ⟨cascades.alsoFree.deadline, cascades.alsoFree.token⟩, List.rel_append cascades.queue pairs⟩

end Dispatching

/-! ### A step, and an answer -/

/-- Without a where-clause the frames are ready at once. -/
theorem Enrichment.start_of_plain {x : Enrichment} (plain : x.rule.enrich = none) (frames : Frames)
    (c : Cascade) (now : Instant) : x.start frames c now = { stage := .finished frames, cascade := c } := by
  rw [start, plain]
  rfl

namespace Run

section Taking

variable {frame other : Frame} {frames ahead : Frames} {claimed mirrored : List Firing}
  (mirrors : e.Mirrors f c.root d.root)
  (cascades : c.Mirrors (e.log.twins f.log c.root d.root) d)
  (site : s.Mirrors (e.log.twins f.log c.root d.root) t)

include mirrors cascades site

/-- The same rule has the same frames left to fire. -/
theorem takeRule_mirrors (now later : Instant) : (takeRule e now c s).Mirrors (takeRule f later d t) := by
  obtain ⟨trigger, rule, rest⟩ := s
  obtain ⟨shadow, _, _⟩ := t
  have sites := site
  obtain ⟨pair, rfl, rfl, plain⟩ := site
  obtain ⟨isPlain, arePlain⟩ := List.forall_mem_cons.mp plain
  have unfired := mirrors.unfired pair rule
  rw [takeRule, takeRule, cascades.free.beginWait, cascades.alsoFree.beginWait]
  dsimp only at unfired ⊢
  generalize e.unfired rule trigger = first, f.unfired rule shadow = second at unfired
  cases unfired with
  | nil => exact ⟨mirrors, fun _ => cascades.inState _, .rules pair arePlain⟩
  | cons head tail =>
    dsimp only
    rw [Enrichment.start_of_plain (x := .ofSite e ⟨trigger, rule, rest⟩) isPlain,
      Enrichment.start_of_plain (x := .ofSite f ⟨shadow, rule, rest⟩) isPlain]
    exact ⟨mirrors, fun _ => cascades.inState _, .enriching sites (.cons head tail)⟩

/-- The same frame is passed over, or claimed and dispatched. -/
theorem takeFrame_mirrors (fires : frame.Fires (e.log.twins f.log c.root d.root) other)
    (left : List.Forall₂ (Frame.Fires (e.log.twins f.log c.root d.root)) frames ahead)
    (claims : List.Forall₂ (Firing.Mirrors (e.log.twins f.log c.root d.root)) claimed mirrored)
    (now later : Instant) : (takeFrame e now c s frame frames claimed).Mirrors
      (takeFrame f later d t other ahead mirrored) := by
  have firing := fires.toFiring t.rule.name
  have mine : claimed.contains ⟨t.rule.name, frame.support⟩ =
      mirrored.contains ⟨t.rule.name, other.support⟩ := by
    rw [Bool.eq_iff_iff, List.contains_iff_mem, List.contains_iff_mem]
    exact mirrors.log.ascending.mem_firings_iff firing claims
  rw [takeFrame, takeFrame, cascades.free.beginWait, cascades.alsoFree.beginWait]
  dsimp only
  rw [site.rule, mine, mirrors.hasFired_eq firing fires.1]
  split
  · exact ⟨mirrors, fun _ => cascades, .frames site left claims⟩
  obtain ⟨engines, sameLog, sameMirror, areClaimed⟩ :=
    mirrors.claimUnless firing claims (mirrored.contains ⟨t.rule.name, other.support⟩)
  -- Either both runs claim or neither does; what follows is the same.
  generalize (if mirrored.contains _ then e else _) = g at *
  generalize (if mirrored.contains _ then f else _) = h at *
  generalize (if mirrored.contains _ then claimed else _) = mine at *
  generalize (if mirrored.contains _ then mirrored else _) = theirs at *
  rw [← sameLog, ← sameMirror] at cascades site fires left areClaimed
  rw [engines.depthOf_eq fires.2.support, engines.depth]
  split
  · exact engines.leave _ _
  · next depth _ =>
    have work : Dispatch.Mirrors (g.log.twins h.log c.root d.root) ⟨t.rule, frame, depth⟩
        ⟨t.rule, other, depth⟩ := ⟨rfl, fires, rfl⟩
    obtain ⟨stages, cascades⟩ := work.start cascades h.limits.depth g.log h.log
    obtain ⟨same, isLog, _⟩ := Dispatch.start_spec ⟨t.rule, frame, depth⟩ h.limits.depth c g.log
    obtain ⟨alsoSame, isMirror, _⟩ := Dispatch.start_spec ⟨t.rule, other, depth⟩ h.limits.depth d h.log
    unfold Turn.Mirrors
    dsimp only
    rw [isLog, isMirror]
    constructor
    case engine =>
      dsimp only
      rw [same.root, alsoSame.root]
      exact engines
    case cascade =>
      intro _
      dsimp only
      rw [same.root, alsoSame.root]
      exact cascades
    case point =>
      dsimp only
      rw [same.root, alsoSame.root]
      exact .dispatching site left areClaimed work stages

end Taking

/-- Two runs that wait for nothing take the same step. -/
theorem Mirrors.step {r v : Run} (alike : Run.Mirrors e r f v) (plain : e.IsPlain)
    (atWork : r.point.isAtWork = true) (ready : r.wait? e = none) (now later : Instant) :
    v.wait? f = none ∧ (r.step e now).Mirrors (v.step f later) := by
  obtain ⟨c, p⟩ := r
  obtain ⟨d, q⟩ := v
  obtain ⟨mirrors, cascades, points⟩ := alike
  replace cascades := cascades atWork
  dsimp only at mirrors cascades points atWork
  cases points with
  | idle left => exact absurd atWork (Bool.eq_false_iff.mp left)
  | next =>
    obtain ⟨free, alsoFree, queue⟩ := cascades
    refine ⟨rfl, ?_⟩
    rw [Run.step, Run.step]
    dsimp only
    generalize c.queue = first, d.queue = second at queue
    cases queue with
    | nil => exact ⟨mirrors.deactivate _ _, fun still => absurd still Bool.false_ne_true, .idle rfl rfl⟩
    | cons pair rest =>
      have sameAction := (mirrors.log.alike _ pair).action
      dsimp only at sameAction ⊢
      rw [sameAction, ← mirrors.rules]
      refine ⟨mirrors, fun _ => ?_, .rules pair fun rule listed => ?_⟩
      · exact ⟨⟨free.deadline, free.token⟩, ⟨alsoFree.deadline, alsoFree.token⟩, rest⟩
      · rw [plain.registered.rulesFor_eq] at listed
        exact plain.plain rule (List.mem_filter.mp listed).1
  | @rules _ _ left pair arePlain =>
    refine ⟨rfl, ?_⟩
    cases left with
    | nil => exact ⟨mirrors, fun _ => cascades.inState _, .next⟩
    | cons rule rest =>
      have site : Site.Mirrors (e.log.twins f.log c.root d.root) ⟨_, rule, rest⟩ ⟨_, rule, rest⟩ :=
        ⟨pair, rfl, rfl, arePlain⟩
      exact takeRule_mirrors mirrors cascades site now later
  | enriching site frames =>
    exact ⟨rfl, mirrors, fun _ => cascades.inState _, .frames site frames .nil⟩
  | frames site frames claims =>
    refine ⟨rfl, ?_⟩
    cases frames with
    | nil =>
      refine ⟨mirrors, fun _ => cascades, ?_⟩
      rw [Run.step, Run.step]
      dsimp only
      rw [← site.later]
      exact .rules site.trigger fun rule inside => site.plain rule (List.mem_cons_of_mem _ inside)
    | cons fires left => exact takeFrame_mirrors mirrors cascades site fires left claims now later
  | dispatching site frames claims work stages =>
    have moved := afterDispatching_mirrors site frames claims work
      (work.step mirrors cascades stages now later)
    cases stages with
    | next => exact ⟨rfl, moved⟩
    | calling => cases ready
    | finished => exact ⟨rfl, moved⟩

/-- Two runs wait for the same component, and go on alike with the same answer. -/
theorem Mirrors.resume {r v : Run} (alike : Run.Mirrors e r f v) (atWork : r.point.isAtWork = true)
    (waits : r.wait? e = some wait) (now later : Instant) :
    ∃ action input ends ends', wait = .component action input ends ∧
      v.wait? f = some (.component action input ends') ∧ ∀ result,
        (r.resume e now (.component (.finished result))).Mirrors
          (v.resume f later (.component (.finished result))) := by
  obtain ⟨c, p⟩ := r
  obtain ⟨d, q⟩ := v
  obtain ⟨mirrors, cascades, points⟩ := alike
  replace cascades := cascades atWork
  dsimp only at mirrors cascades points atWork
  cases points with
  | idle left => exact absurd atWork (Bool.eq_false_iff.mp left)
  | dispatching site frames claims work stages =>
    cases stages with
    | calling pairs =>
      cases waits
      refine ⟨_, _, _, _, rfl, rfl, fun result => ?_⟩
      exact afterDispatching_mirrors site frames claims work
        (work.resume mirrors cascades pairs now later result _ _)
    | next => cases waits
    | finished => cases waits
  | next | rules | enriching | frames => cases waits

/-- Two runs that stand at the same place are both at work, or have both left. -/
theorem Mirrors.isAtWork_eq {r v : Run} (alike : Run.Mirrors e r f v) :
    r.point.isAtWork = v.point.isAtWork := by
  have points := alike.point
  generalize r.point = p, v.point = q at points
  cases points with
  | idle left alsoLeft => rw [left, alsoLeft]
  | _ => rfl

/-- What happens in other cascades does not matter to a run. -/
theorem Mirrors.congr {g : Engine} {r v : Run} (alike : Run.Mirrors e r f v)
    (same : e.SameFor g r.cascade.root) : Run.Mirrors g r f v := by
  obtain ⟨engine, twins⟩ := alike.engine.congr same
  exact ⟨engine, twins ▸ alike.cascade, twins ▸ alike.point⟩

/-- Two runs that are begun for twins stand at the same place. -/
theorem start_mirrors {i j : Invocation} (mirrors : e.Mirrors f i.root j.root)
    (pair : (e.log.twins f.log i.root j.root).Pair i j) (n m : Nat) (now later : Instant) :
    Run.Mirrors (start e n i none now).1 (start e n i none now).2 (start f m j none later).1
      (start f m j none later).2 where
  engine := mirrors.activate _ _ _ _
  cascade _ := ⟨⟨rfl, rfl⟩, ⟨rfl, rfl⟩, .cons pair .nil⟩
  point := .next

end Run

end Choreography
