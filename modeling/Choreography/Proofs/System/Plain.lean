import Choreography.Proofs.Rule.Registry
import Choreography.Proofs.System.Evaluations

/-! Rules without where-clauses. Their runs take every frame as it matches, so that whatever
they dispatch matches, as long as its cascade is in the log. And what fires is dispatched, if
the run that claims it does not break off. -/

namespace Choreography

open InvocationLog

/-- The rules are those of a registry, and none of them has a where-clause. -/
structure Engine.IsPlain (e : Engine) : Prop where
  registered : e.rules.Reachable
  plain : ∀ rule ∈ e.rules.rules, rule.enrich = none

/-- As long as a trigger is in the log, frames match there. -/
def Site.Matches (e : Engine) (s : Site) (frames : Frames) : Prop :=
  s.trigger ∈ e.log.entries → ∀ f ∈ frames, f ∈ s.rule.matchAt s.trigger e.log

/-- A dispatch is of a registered rule, and as long as its cascade is in the log it has a frame
that matches, and the depth of that. -/
structure Dispatch.IsRightful (d : Dispatch) (e : Engine) (history : List Invocation)
    (trigger : Invocation) : Prop where
  registered : d.rule ∈ e.rules.rules
  logged : trigger ∈ history
  resting : trigger.id ∈ d.frame.support
  together : Together history trigger.root d.frame.support
  matched : trigger ∈ e.log.entries → d.frame ∈ d.rule.matchAt trigger e.log
  deep : trigger ∈ e.log.entries → depthOf e.log d.frame.support = .ok d.depth

/-- A run takes registered rules, and frames that match. -/
def Point.IsPlain (e : Engine) (history : List Invocation) : Point → Prop
  | .rules _ left => ∀ rule ∈ left, rule ∈ e.rules.rules
  | .enriching site stage => (∀ rule ∈ site.rule :: site.later, rule ∈ e.rules.rules) ∧
    ∃ frames, stage = .finished frames ∧ (frames.map (·.support)).Nodup ∧ site.Matches e frames
  | .frames site left _ =>
    (∀ rule ∈ site.rule :: site.later, rule ∈ e.rules.rules) ∧ site.Matches e left
  | .dispatching site left _ work _ =>
    (∀ rule ∈ site.rule :: site.later, rule ∈ e.rules.rules) ∧ site.Matches e left ∧
      work.IsRightful e history site.trigger
  | _ => True

variable {e f : Engine} {c d : Cascade} {p q : Point} {events : List Event}
  {history added : List Invocation} {root : InvocationId} {firing : Firing} {site : Site}
  {frames : Frames} {work : Dispatch} {trigger i : Invocation}

/-! ### As the log goes on -/

/-- What was logged once and is in the log later was there all the time. -/
theorem Engine.Evolves.held_before (evolves : e.Evolves f) (sound : e.Sound history)
    (logged : i ∈ history) (held : i ∈ f.log.entries) : i ∈ e.log.entries :=
  evolves.log.held_before sound.reached held (sound.log.id_lt_next logged)

theorem Engine.Evolves.isPlain (evolves : e.Evolves f) (plain : e.IsPlain) : f.IsPlain := by
  refine ⟨?_, ?_⟩ <;> rw [evolves.rules]
  · exact plain.registered
  · exact plain.plain

theorem Site.Matches.later (matched : site.Matches e frames) (evolves : e.Evolves f)
    (sound : e.Sound history) (logged : site.trigger ∈ history) : site.Matches f frames := by
  intro held g inside
  have before := evolves.held_before sound logged held
  rw [evolves.log.matchAt_eq sound.reached before held]
  exact matched before g inside

theorem Dispatch.IsRightful.later (rightful : work.IsRightful e history trigger)
    (evolves : e.Evolves f) (sound : e.Sound history) (laterSound : f.Sound (history ++ added)) :
    work.IsRightful f (history ++ added) trigger where
  registered := evolves.rules ▸ rightful.registered
  logged := List.mem_append_left _ rightful.logged
  resting := rightful.resting
  together := rightful.together.more
  matched held := by
    have before := evolves.held_before sound rightful.logged held
    rw [evolves.log.matchAt_eq sound.reached before held]
    exact rightful.matched before
  deep held := by
    have before := evolves.held_before sound rightful.logged held
    refine evolves.log.depthOf_eq sound.reached (rightful.deep before) ?_
    intro id inside
    obtain ⟨i, known, isId, sameRoot⟩ := rightful.together.more id inside
    exact ⟨i, laterSound.log.held_together known held sameRoot, isId⟩

theorem Point.IsPlain.later (isPlain : p.IsPlain e history) (grounded : p.Grounded history root)
    (evolves : e.Evolves f) (sound : e.Sound history) (laterSound : f.Sound (history ++ added)) :
    p.IsPlain f (history ++ added) := by
  cases p with
  | next | saving | ended => trivial
  | rules => exact fun rule inside => evolves.rules ▸ isPlain rule inside
  | enriching =>
    obtain ⟨registered, frames, isFinished, distinct, matched⟩ := isPlain
    exact ⟨fun rule inside => evolves.rules ▸ registered rule inside, frames, isFinished, distinct,
      matched.later evolves sound (Site.Grounded.logged grounded)⟩
  | frames =>
    obtain ⟨registered, matched⟩ := isPlain
    exact ⟨fun rule inside => evolves.rules ▸ registered rule inside,
      matched.later evolves sound (Site.Grounded.logged grounded)⟩
  | dispatching =>
    obtain ⟨registered, matched, rightful⟩ := isPlain
    exact ⟨fun rule inside => evolves.rules ▸ registered rule inside,
      matched.later evolves sound grounded.1.logged, rightful.later evolves sound laterSound⟩

/-! ### What a move does -/

theorem Engine.Claims.log_eq {claimed mine : List Firing} (claims : e.Claims root firing claimed f mine) :
    f.log = e.log := by
  cases claims <;> rfl

theorem Site.Matches.fewer {fewer : Frames} (matched : site.Matches e frames)
    (included : ∀ g ∈ fewer, g ∈ frames) : site.Matches e fewer :=
  fun held g inside => matched held g (included g inside)

/-- A run that has taken registered rules and frames that match goes on to do so. -/
theorem Moves.isPlain (moves : Moves e c p f d q events) (plain : f.IsPlain)
    (grounded : p.Grounded history root) (isPlain : p.IsPlain f history) : q.IsPlain f history := by
  cases moves with
  | drain | turn | lose | leave | breakOff | reject | save | fail => trivial
  | pop =>
    intro rule listed
    rw [plain.registered.rulesFor_eq] at listed
    exact (List.mem_filter.mp listed).1
  | settle => exact fun rule inside => isPlain rule (List.mem_cons_of_mem _ inside)
  | evaluate _ _ _ whole =>
    refine ⟨isPlain, _, whole (plain.plain _ (isPlain _ List.mem_cons_self)), ?_, ?_⟩
    · exact (List.filter_sublist.map _).nodup (nodup_matchAt _ _ _)
    · exact fun _ g unfired => (Engine.mem_unfired_iff.mp unfired).1
  | enrich _ _ unfinished =>
    obtain ⟨_, frames, isFinished, _⟩ := isPlain
    exact absurd isFinished (unfinished frames)
  | answer _ _ whole =>
    obtain ⟨registered, frames, isFinished, _, matched⟩ := isPlain
    rw [whole frames isFinished]
    exact ⟨registered, matched⟩
  | close => exact fun rule inside => isPlain.1 rule (List.mem_cons_of_mem _ inside)
  | skip => exact ⟨isPlain.1, isPlain.2.fewer fun g => List.mem_cons_of_mem _⟩
  | dispatch _ claims deep =>
    obtain ⟨registered, matched⟩ := isPlain
    refine ⟨registered, matched.fewer fun g => List.mem_cons_of_mem _, ?_⟩
    exact {
      registered := registered _ List.mem_cons_self
      logged := Site.Grounded.logged grounded
      resting := Site.Grounded.resting grounded _ List.mem_cons_self
      together := (Site.Grounded.root grounded).symm ▸
        Site.Grounded.together grounded _ List.mem_cons_self
      matched := fun held => matched held _ List.mem_cons_self
      deep := fun _ => claims.log_eq ▸ deep }
  | call | log => exact isPlain
  | finish => exact ⟨isPlain.1, isPlain.2.1⟩

/-- What comes back from the where-stage of a rule without a where-clause rests on distinct
supports. -/
theorem Moves.nodup_returned {known : Engine} (moves : Moves e c p f d q events)
    (isPlain : p.IsPlain known history)
    (returned : Deed.returned? ⟨evaluation, p, q, events⟩ = some frames) :
    (frames.map (·.support)).Nodup := by
  cases moves with
  | answer _ _ whole =>
    obtain ⟨_, given, isFinished, distinct, _⟩ := isPlain
    cases returned
    rw [whole given isFinished]
    exact distinct
  | leave =>
    cases p <;> cases returned
  | _ => cases returned

/-- What has fired after a move had fired before, or is dispatched now, or its run breaks off. -/
theorem Moves.fired (moves : Moves e c p f d q events) (grounded : p.Grounded history root)
    (evaluation : Evaluation) (fired : firing ∈ f.fired) : firing ∈ e.fired ∨
      (∃ work, Deed.dispatch? ⟨evaluation, p, q, events⟩ = some work ∧ work.firing = firing) ∨
      q.HasBrokenOff ∧ Together history root firing.support := by
  cases moves with
  | dispatch _ claims =>
    cases claims with
    | again => exact .inl fired
    | first =>
      rcases List.mem_append.mp fired with before | isNew
      · exact .inl before
      · exact .inr (.inl ⟨_, rfl, (List.mem_singleton.mp isNew).symm⟩)
  | lose _ claims _ undrained =>
    cases claims with
    | again => exact .inl fired
    | first =>
      rcases List.mem_append.mp fired with before | isNew
      · exact .inl before
      · rw [List.mem_singleton.mp isNew]
        exact .inr (.inr ⟨⟨_, rfl, undrained⟩, Site.Grounded.together grounded _ List.mem_cons_self⟩)
  | save => exact .inl (Engine.mem_fired_of_mem_retain fired)
  | _ => exact .inl fired

theorem Point.IsPlain.rightful (isPlain : q.IsPlain e history)
    (dispatched : Deed.dispatch? ⟨evaluation, p, q, events⟩ = some work) :
    ∃ trigger, work.IsRightful e history trigger := by
  cases p with
  | frames =>
    cases q with
    | dispatching =>
      cases dispatched
      exact ⟨_, isPlain.2.2⟩
    | _ => cases dispatched
  | _ => cases dispatched

/-- What a deed was about lies in the cascade of its run. -/
theorem Point.Grounded.together_of_firing (grounded : q.Grounded history root)
    (about : Deed.firing? ⟨evaluation, p, q, events⟩ = some firing) :
    Together history root firing.support := by
  cases q with
  | dispatching =>
    cases about
    exact grounded.1.together _ List.mem_cons_self
  | _ => cases about

/-! ### What every step preserves -/

namespace System

/-- A dispatch was begun for a firing. -/
def HasDispatched (s : System) (firing : Firing) : Prop :=
  ∃ deed ∈ s.chronicle, ∃ work, deed.dispatch? = some work ∧ work.firing = firing

/-- A run has broken off in whose cascade a firing lies. -/
def HasLost (s : System) (firing : Firing) : Prop :=
  ∃ w ∈ s.workers, w.run.point.HasBrokenOff ∧
    Together s.history w.run.cascade.root firing.support

/-- The rules of a system have no where-clauses, and all that was done is in accordance with
what matches. -/
structure IsPlain (s : System) : Prop where
  orderly : s.Orderly
  plain : s.engine.IsPlain
  points : ∀ w ∈ s.workers, w.run.point.IsPlain s.engine s.history
  rightful : ∀ deed ∈ s.chronicle, ∀ work, deed.dispatch? = some work →
    ∃ trigger, work.IsRightful s.engine s.history trigger
  distinct : ∀ deed ∈ s.chronicle, ∀ frames, deed.returned? = some frames →
    (frames.map (·.support)).Nodup
  fired : ∀ firing ∈ s.engine.fired, s.HasDispatched firing ∨ s.HasLost firing
  within : ∀ deed ∈ s.chronicle, ∀ firing, deed.firing? = some firing →
    ∃ w, s.workers[deed.evaluation.worker]? = some w ∧
      Together s.history w.run.cascade.root firing.support

variable {s t start : System} {n : Nat} {w : Worker} {turn : Turn}

theorem HasDispatched.turned (dispatched : s.HasDispatched firing) :
    (s.turned n w turn).HasDispatched firing := by
  obtain ⟨deed, made, isDispatch⟩ := dispatched
  exact ⟨deed, List.mem_append_left _ made, isDispatch⟩

/-- A run that has broken off stays where it is. -/
theorem HasLost.turned (working : s.workers[n]? = some w)
    (moves : Run.IsMove s.engine w.run.cascade w.run.point turn) (lost : s.HasLost firing) :
    (s.turned n w turn).HasLost firing := by
  obtain ⟨v, inside, brokeOff, together⟩ := lost
  obtain ⟨m, isWorker⟩ := List.getElem?_of_mem inside
  have elsewhere : m ≠ n := by
    rintro rfl
    cases working.symm.trans isWorker
    exact Moves.not_hasBrokenOff moves brokeOff
  exact ⟨v, List.mem_of_getElem? (turned_other elsewhere isWorker), brokeOff, together.more⟩

theorem HasLost.rests (rests : s.Rests t) (lost : s.HasLost firing) : t.HasLost firing := by
  obtain ⟨v, inside, brokeOff, together⟩ := lost
  obtain ⟨w, isWorker, like⟩ := rests.mem_kept inside
  obtain ⟨added, history, _⟩ := rests.history
  refine ⟨w, isWorker, like.point ▸ brokeOff, ?_⟩
  rw [history, like.work.root]
  exact together.more

theorem IsPlain.rests (isPlain : s.IsPlain) (rests : s.Rests t) : t.IsPlain := by
  have orderly := isPlain.orderly.rests rests
  have sound := isPlain.orderly.sound
  have laterSound := orderly.sound
  obtain ⟨added, history, _⟩ := rests.history
  rw [history] at laterSound
  constructor
  case orderly => exact orderly
  case plain => exact rests.evolves.isPlain isPlain.plain
  case points =>
    intro w inside
    rw [history]
    rcases rests.mem_worker inside with ⟨v, before, like⟩ | fresh
    · have grounded := (isPlain.orderly.grounded v before).point
      rw [like.point]
      exact (isPlain.points v before).later grounded rests.evolves sound laterSound
    · rw [fresh.point]
      trivial
  case rightful =>
    intro deed made work dispatched
    rw [rests.chronicle] at made
    obtain ⟨trigger, rightful⟩ := isPlain.rightful deed made work dispatched
    rw [history]
    exact ⟨trigger, rightful.later rests.evolves sound laterSound⟩
  case distinct =>
    intro deed made
    exact isPlain.distinct deed (rests.chronicle ▸ made)
  case fired =>
    intro firing fired
    rw [rests.fired] at fired
    rcases isPlain.fired firing fired with ⟨deed, made, dispatched⟩ | lost
    · exact .inl ⟨deed, rests.chronicle ▸ made, dispatched⟩
    · exact .inr (lost.rests rests)
  case within =>
    intro deed made firing about
    rw [rests.chronicle] at made
    obtain ⟨v, isWorker, together⟩ := isPlain.within deed made firing about
    obtain ⟨w, working, like⟩ := rests.kept _ v isWorker
    refine ⟨w, working, ?_⟩
    rw [history, like.work.root]
    exact together.more

theorem IsPlain.turned (isPlain : s.IsPlain) (working : s.workers[n]? = some w)
    (moves : Run.IsMove s.engine w.run.cascade w.run.point turn) : (s.turned n w turn).IsPlain := by
  have orderly := isPlain.orderly.turned working moves
  have inside := List.mem_of_getElem? working
  have grounded := isPlain.orderly.grounded w inside
  have sound := isPlain.orderly.sound
  obtain ⟨laterSound, evolves⟩ := Moves.sound moves sound grounded.point
  have plain := evolves.isPlain isPlain.plain
  have sameRoot : turn.run.cascade.root = w.run.cascade.root := Moves.root_eq moves
  have stands := (isPlain.points w inside).later grounded.point evolves sound laterSound
  have moved := Moves.isPlain moves plain grounded.point.more stands
  constructor
  case orderly => exact orderly
  case plain => exact plain
  case points =>
    intro v isWorker
    rcases mem_turned_workers isWorker with before | rfl
    · have grounded := (isPlain.orderly.grounded v before).point
      exact (isPlain.points v before).later grounded evolves sound laterSound
    · exact moved
  case rightful =>
    intro deed made work dispatched
    rcases mem_turned_chronicle.mp made with old | rfl
    · obtain ⟨trigger, rightful⟩ := isPlain.rightful deed old work dispatched
      exact ⟨trigger, rightful.later evolves sound laterSound⟩
    · exact moved.rightful dispatched
  case distinct =>
    intro deed made frames returned
    rcases mem_turned_chronicle.mp made with old | rfl
    · exact isPlain.distinct deed old frames returned
    · exact Moves.nodup_returned moves (isPlain.points w inside) returned
  case fired =>
    intro firing fired
    rcases Moves.fired moves grounded.point ⟨n, w.number⟩ fired with
      before | ⟨work, dispatched, isFiring⟩ | ⟨brokeOff, together⟩
    · exact (isPlain.fired firing before).imp HasDispatched.turned (HasLost.turned working moves)
    · exact .inl ⟨w.deed n turn, mem_turned_chronicle.mpr (.inr rfl), work, dispatched, isFiring⟩
    · refine .inr ⟨_, mover_mem_turned turn working, brokeOff, ?_⟩
      rw [sameRoot]
      exact together.more
  case within =>
    intro deed made firing about
    rcases mem_turned_chronicle.mp made with old | rfl
    · obtain ⟨v, isWorker, together⟩ := isPlain.within deed old firing about
      obtain ⟨u, isNow, isRoot⟩ := exists_turned working sameRoot isWorker
      exact ⟨u, isNow, isRoot ▸ together.more⟩
    · have later := (orderly.grounded _ (mover_mem_turned turn working)).point
      exact ⟨_, turned_mover working, Point.Grounded.together_of_firing later about⟩

end System

end Choreography
