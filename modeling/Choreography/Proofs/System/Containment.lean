import Choreography.Proofs.System.Rounds

/-! Faults are contained. Whatever goes wrong in a where-clause or in a component costs what it
belongs to and nothing else: a frame that fails alone, or a batch that takes too long or comes back
as no sequence. The frames that survive are dispatched with all their calls, the rules that follow
are taken, and whatever was logged is processed until the call returns the report of a drained
cascade. One thing is not contained: a where-clause that returns something which cannot be checked
ends the whole call with an error. -/

namespace Choreography

open InvocationLog

/-- The error with which a run has ended, if it has ended with one. -/
def Point.error? : Point → Option Error
  | .ended (.error error) => some error
  | _ => none

namespace System

/-- The error of one run, if it has ended with one. -/
def errorOf (s : System) (n : Nat) : Option Error := s.workers[n]?.bind (·.run.point.error?)

/-- An evaluation has dispatched something for a firing. -/
def HasFired (s : System) (evaluation : Evaluation) (firing : Firing) : Prop :=
  ∃ deed ∈ s.deedsOf evaluation.worker, deed.evaluation = evaluation ∧ deed.firing? = some firing

/-- Of the frames that came back in an evaluation each is still before it or has been dispatched,
and none of those before it will be passed over. -/
structure Covers (s : System) (evaluation : Evaluation) (rule : Rule) (kept left : Frames)
    (claimed : List Firing) : Prop where
  returned : s.returned evaluation = [kept]
  covered : ∀ f ∈ kept, f ∈ left ∨ s.HasFired evaluation ⟨rule.name, f.support⟩
  free : ∀ f ∈ left, ⟨rule.name, f.support⟩ ∈ claimed ∨ ⟨rule.name, f.support⟩ ∉ s.engine.fired

/-- How far a run has come with an evaluation of a rule that is to leave certain frames. -/
inductive Evaluates (s : System) (evaluation : Evaluation) (rule : Rule) (clause : Behaviour)
    (kept : Frames) (w : Worker) : Prop where
  | enriching (isPoint : w.run.point = .enriching site stage) (isRule : site.rule = rule)
      (isCurrent : w.taken = evaluation.number) (yields : stage.yield rule clause = kept)
      (free : ∀ f ∈ stage.frames, ⟨rule.name, f.support⟩ ∉ s.engine.fired) :
      Evaluates s evaluation rule clause kept w
  | frames (isPoint : w.run.point = .frames site left claimed) (isRule : site.rule = rule)
      (isCurrent : w.taken = evaluation.number) (covers : s.Covers evaluation rule kept left claimed) :
      Evaluates s evaluation rule clause kept w
  | dispatching (isPoint : w.run.point = .dispatching site left claimed work stage)
      (isRule : site.rule = rule) (isCurrent : w.taken = evaluation.number)
      (covers : s.Covers evaluation rule kept left claimed) : Evaluates s evaluation rule clause kept w
  | finished (returned : (s.returned evaluation).flatten = kept)
      (fired : ∀ f ∈ kept, s.HasFired evaluation ⟨rule.name, f.support⟩)
      (taken : evaluation.number ≤ w.taken)
      (elsewhere : ∀ site stage, w.run.point = .enriching site stage → evaluation.number < w.taken) :
      Evaluates s evaluation rule clause kept w

/-- An evaluation is over. Certain frames came back in it, and each of them has been dispatched. -/
structure Completes (s : System) (evaluation : Evaluation) (rule : Rule) (kept : Frames) : Prop where
  returned : (s.returned evaluation).flatten = kept
  concluded : ∀ f ∈ kept, s.Concludes evaluation ⟨rule.name, f.support⟩ kept

/-- A call has returned, and no fault has cost more than what it belongs to. The report is that of
a drained cascade. Everything that the run has logged has been processed, in order, and for each
invocation every rule that listens for it was taken, in the order of their registration. Each rule
left the frames that survived its where-clause of those for which it was to fire when it was taken,
and all of these were dispatched. -/
structure Contains (clause : Nat → Behaviour) (n : Nat) (i : Invocation) (s t : System) : Prop where
  report : ∃ report, t.reportOf n = some report ∧ report.drained = true
  processed : t.processedBy n = i :: t.loggedBy n
  taken : t.takenBy n = (i :: t.loggedBy n).flatMap fun j =>
    (t.engine.rules.rules.filter (j.action ∈ ·.triggers)).map (j, ·)
  evaluated : ∀ k trigger rule, (t.takenBy n)[k]? = some (trigger, rule) →
    ∃ u w, Relation.ReflTransGen (Calm clause n i.root) s u ∧ u.IsTaking n w k trigger rule ∧
      Relation.ReflTransGen (Calm clause n i.root) u t ∧
        t.Completes ⟨n, k + 1⟩ rule
          (Enrichment.survivors rule (clause (k + 1)) (u.engine.unfired rule trigger))

/-- A call has failed. One of its where-clauses has returned something that cannot be checked to its
end, and the error of that check is what the call comes to. -/
def BrokenOff (clause : Nat → Behaviour) (n : Nat) (root : InvocationId) (s t : System) : Prop :=
  ∃ u w rule frames ends returned error, Relation.ReflTransGen (Calm clause n root) s u ∧
    u.workers[n]? = some w ∧ w.run.wait? u.engine = some (.clause rule frames ends) ∧
      clause w.taken frames = .finished (.ok returned) ∧ returned.flaw? = some error ∧
        t.errorOf n = some error

/-- As long as a run has not ended, it will make another turn. -/
def IsFairTo (n : Nat) (course : Nat → System) : Prop :=
  ∀ k w, (course k).workers[n]? = some w → w.run.hasEnded = false →
    ∃ later ≥ k, (course later).deedsOf n ≠ (course k).deedsOf n

end System

variable {e f : Engine} {c d : Cascade} {p q : Point} {events : List Event} {r : Run} {turn : Turn}
  {site : Site} {left : Frames} {claimed : List Firing} {work : Dispatch} {rule : Rule}
  {later : List Rule} {trigger i : Invocation}

/-! ### The phases of an evaluation -/

/-- Only what an evaluation claims comes to be fired through it. -/
theorem Engine.Claims.free {root : InvocationId} {firing other : Firing} {mine : List Firing}
    (claims : e.Claims root firing claimed f mine) (free : other ∈ claimed ∨ other ∉ e.fired) :
    other ∈ mine ∨ other ∉ f.fired := by
  cases claims with
  | again => exact free
  | first =>
    by_cases same : other = firing
    · exact .inl (List.mem_append_right _ (List.mem_singleton.mpr same))
    · refine free.imp (List.mem_append_left _) fun unfired fired => ?_
      rcases List.mem_append.mp fired with before | isNew
      · exact unfired before
      · exact same (List.mem_singleton.mp isNew)

/-- A run comes to a where-stage from the same where-stage, or takes a rule. -/
theorem Moves.to_enriching {stage : Enriching} (moves : Moves e c p f d (.enriching site stage) events) :
    (∃ before, p = .enriching site before) ∨ p.takesRule = true := by
  cases moves with
  | evaluate => exact .inr rfl
  | enrich => exact .inl ⟨_, rfl⟩

/-- What the where-stage may come to. -/
theorem Moves.of_enriching {stage : Enriching}
    (moves : Moves e c (.enriching site stage) f d q events) (going : q.isGoing = true) :
    f = e ∧ ((∃ next, q = .enriching site next ∧ next.frames.DescendFrom stage.frames) ∨
      ∃ frames, q = .frames site frames [] ∧ Frames.DescendFrom frames stage.frames) := by
  cases moves with
  | enrich _ descend => exact ⟨rfl, .inl ⟨_, rfl, descend⟩⟩
  | answer _ descend => exact ⟨rfl, .inr ⟨_, rfl, descend⟩⟩
  | leave | breakOff => cases going

/-- What may become of the frames that came back. -/
theorem Moves.of_frames (moves : Moves e c (.frames site left claimed) f d q events)
    (going : q.isGoing = true) : left = [] ∧ q = .rules site.trigger site.later ∨
      ∃ frame rest, left = frame :: rest ∧
        (⟨site.rule.name, frame.support⟩ ∉ claimed ∧ ⟨site.rule.name, frame.support⟩ ∈ e.fired ∨
          ∃ mine work stage, q = .dispatching site rest mine work stage ∧
            work.firing = ⟨site.rule.name, frame.support⟩ ∧
              e.Claims c.root ⟨site.rule.name, frame.support⟩ claimed f mine) := by
  cases moves with
  | close => exact .inl ⟨rfl, rfl⟩
  | skip _ notMine fired => exact .inr ⟨_, _, rfl, .inl ⟨notMine, fired⟩⟩
  | dispatch _ claims => exact .inr ⟨_, _, rfl, .inr ⟨_, _, _, rfl, rfl, claims⟩⟩
  | lose | leave => cases going

/-- What may become of a frame in hand. -/
theorem Moves.of_dispatching {stage : Dispatching}
    (moves : Moves e c (.dispatching site left claimed work stage) f d q events)
    (going : q.isGoing = true) : f.fired = e.fired ∧
      ((∃ next, q = .dispatching site left claimed work next) ∨ q = .frames site left claimed) := by
  cases moves with
  | call | log => exact ⟨rfl, .inl ⟨_, rfl⟩⟩
  | finish => exact ⟨rfl, .inr rfl⟩
  | leave | reject => cases going

/-- What may become of a rule. -/
theorem Moves.of_rules (moves : Moves e c (.rules trigger (rule :: later)) f d q events)
    (going : q.isGoing = true) : f = e ∧ (q = .rules trigger later ∨
      ∃ stage, q = .enriching ⟨trigger, rule, later⟩ stage ∧
        ∀ frame ∈ stage.frames, frame ∈ e.unfired rule trigger) := by
  cases moves with
  | settle => exact ⟨rfl, .inl rfl⟩
  | evaluate _ _ held => exact ⟨rfl, .inr ⟨_, rfl, held⟩⟩
  | leave => cases going

namespace Run.TurnsFreely

variable {clause : Behaviour}

/-- The where-stage of a run that nothing stops leaves what it was to have left. -/
theorem enriching_yields {stage : Enriching} (turns : r.TurnsFreely clause e turn)
    (isPoint : r.point = .enriching site stage) (free : r.cascade.IsFree) (lasts : r.Lasts)
    (ordinary : ∀ frames, (clause frames).IsOrdinary) (stays : turn.run.Lasts) :
    (∃ next, turn.run.point = .enriching site next ∧
      next.yield site.rule clause = stage.yield site.rule clause) ∨
      turn.run.point = .frames site (stage.yield site.rule clause) [] := by
  have going := lasts.isGoing turns.turns.not_hasEnded
  obtain ⟨c, p⟩ := r
  cases isPoint
  cases turns with
  | step now =>
    exact afterEnriching_yields e site
      ((Enrichment.ofSite e site).step_goesOn now clause free ((Bool.not_eq_true' _).mp going))
  | ask now waits =>
    exact afterEnriching_yields e site ((Enrichment.ofSite e site).resume_goesOn now clause free
      (asked_of_clause waits) (ordinary _) (stays.keyed waits))
  | call now waits | save now waits => cases stage <;> cases waits

/-- A rule that a run takes which nothing stops will leave what survives of the frames for which
it may fire. -/
theorem taking_yields (turns : r.TurnsFreely clause e turn)
    (isPoint : r.point = .rules trigger (rule :: later)) (free : r.cascade.IsFree)
    (behaviour : Behaviour) :
    (∃ stage, turn.run.point = .enriching ⟨trigger, rule, later⟩ stage ∧
      stage.yield rule behaviour = Enrichment.survivors rule behaviour (e.unfired rule trigger)) ∨
      turn.run.point = .rules trigger later ∧ e.unfired rule trigger = [] := by
  obtain ⟨c, p⟩ := r
  cases isPoint
  cases turns with
  | step now => exact takeRule_yields e now free ⟨trigger, rule, later⟩ behaviour
  | ask now waits | call now waits | save now waits => cases waits

end Run.TurnsFreely

namespace System

variable {start s t u : System} {n k : Nat} {v w : Worker} {clause : Nat → Behaviour} {stage : Enriching}
  {evaluation : Evaluation} {kept : Frames} {behaviour : Behaviour} {firing : Firing}

/-! ### The deeds of an evaluation -/

theorem returned_of_deedsOf (same : t.deedsOf evaluation.worker = s.deedsOf evaluation.worker) :
    t.returned evaluation = s.returned evaluation := by
  have own (r : System) : r.returned evaluation =
      ((r.deedsOf evaluation.worker).filter (·.evaluation = evaluation)).filterMap (·.returned?) := by
    rw [returned, deedsOf, List.filter_filter]
    refine congrArg _ (List.filter_congr fun deed _ => ?_)
    by_cases isOwn : deed.evaluation = evaluation <;> simp [isOwn]
  rw [own, own, same]

theorem HasFired.of_deedsOf (hasFired : s.HasFired evaluation firing)
    (same : t.deedsOf evaluation.worker = s.deedsOf evaluation.worker) :
    t.HasFired evaluation firing := by
  rw [HasFired, same]
  exact hasFired

theorem HasFired.turned (hasFired : s.HasFired evaluation firing) :
    (s.turned n w turn).HasFired evaluation firing := by
  obtain ⟨deed, made, isOwn, about⟩ := hasFired
  refine ⟨deed, ?_, isOwn, about⟩
  rw [deedsOf_turned]
  exact List.mem_append_left _ made

theorem HasFired.of_deed (about : (w.deed n turn).firing? = some firing) :
    (s.turned n w turn).HasFired ⟨n, w.number⟩ firing := by
  refine ⟨w.deed n turn, ?_, rfl, about⟩
  rw [deedsOf_turned, if_pos rfl]
  exact List.mem_append_right _ (List.mem_singleton_self _)

theorem HasFired.owns (hasFired : s.HasFired evaluation firing) : s.Owns firing evaluation := by
  obtain ⟨deed, made, rfl, about⟩ := hasFired
  exact .done (List.mem_filter.mp made).1 about

/-! ### Around an evaluation -/

/-- What happens around a run claims nothing that the run may fire for. -/
theorem Spares.unfired {root : InvocationId} {frame : Frame} {ahead : Frames}
    (spares : s.Spares t n root) (later : t.Orderly)
    (grounded : site.Grounded t.history root ahead) (inside : frame ∈ ahead) (name : String)
    (free : ⟨name, frame.support⟩ ∉ s.engine.fired) : ⟨name, frame.support⟩ ∉ t.engine.fired := by
  intro fired
  rcases spares.fired _ fired with before | ⟨other, elsewhere, together⟩
  · exact free before
  · obtain ⟨j, known, sameId, isOther⟩ := together site.trigger.id (grounded.resting frame inside)
    have same := later.sound.log.eq_of_id_eq known grounded.logged sameId
    exact elsewhere (isOther.symm.trans ((congrArg Invocation.root same).trans grounded.root))

theorem Covers.spares {root : InvocationId} (covers : s.Covers ⟨n, k⟩ rule kept left claimed)
    (spares : s.Spares t n root) (later : t.Orderly) (grounded : site.Grounded t.history root left) :
    t.Covers ⟨n, k⟩ rule kept left claimed where
  returned := (returned_of_deedsOf spares.deeds).trans covers.returned
  covered f inside := (covers.covered f inside).imp_right fun hasFired => hasFired.of_deedsOf spares.deeds
  free f inside := (covers.free f inside).imp_right (spares.unfired later grounded inside _)

theorem Evaluates.spares (evaluates : s.Evaluates ⟨n, k⟩ rule behaviour kept w)
    (steady : t.Steady n i w) (spares : s.Spares t n i.root) (later : t.Orderly) :
    t.Evaluates ⟨n, k⟩ rule behaviour kept w := by
  have grounded := (later.grounded w (List.mem_of_getElem? steady.working)).point
  rw [steady.root] at grounded
  cases evaluates with
  | enriching isPoint isRule isCurrent yields free =>
    rw [isPoint] at grounded
    exact .enriching isPoint isRule isCurrent yields fun f inside =>
      spares.unfired later grounded inside _ (free f inside)
  | frames isPoint isRule isCurrent covers =>
    rw [isPoint] at grounded
    exact .frames isPoint isRule isCurrent (covers.spares spares later grounded)
  | dispatching isPoint isRule isCurrent covers =>
    rw [isPoint] at grounded
    have fewer := grounded.1.fewer fun f => List.mem_cons_of_mem _
    exact .dispatching isPoint isRule isCurrent (covers.spares spares later fewer)
  | finished returned fired taken elsewhere =>
    exact .finished ((congrArg _ (returned_of_deedsOf spares.deeds)).trans returned)
      (fun f inside => (fired f inside).of_deedsOf spares.deeds) taken elsewhere

/-! ### A turn of an evaluation -/

/-- A turn at which nothing comes back leaves what came back before. -/
theorem returned_turned (notEnriching : ∀ site stage, w.run.point ≠ .enriching site stage) :
    (s.turned n w turn).returned evaluation = s.returned evaluation := by
  refine returned_eq turned_chronicle ?_
  unfold Worker.deed Deed.returned?
  split
  · next isEnriching _ => exact absurd isEnriching (notEnriching _ _)
  · rfl

/-- What comes back at a turn is all that has come back in the evaluation. -/
theorem returned_of_answer (isPoint : w.run.point = .enriching site stage)
    (isNext : turn.run.point = .frames site kept [])
    (accounted : s.Accounted s.engine.catalogue s.engine.limits.depth ⟨n, w.taken⟩ w.run.point) :
    (s.turned n w turn).returned ⟨n, w.taken⟩ = [kept] := by
  have isCurrent : w.number = w.taken := Worker.number_of_not_takesRule (by rw [isPoint]; rfl)
  have nothing : s.returned ⟨n, w.taken⟩ = [] := by
    rw [isPoint] at accounted
    exact accounted
  have isReturned : (w.deed n turn).returned? = some kept := by
    rw [Worker.deed, isPoint, isNext]
    rfl
  rw [returned_added turned_chronicle, nothing, isReturned, if_pos]
  · rfl
  · rw [Worker.deed, isCurrent]

/-- While a frame is dispatched, nothing changes for the frames before it. -/
theorem Covers.turned (covers : s.Covers evaluation rule kept left claimed)
    (notEnriching : ∀ site stage, w.run.point ≠ .enriching site stage)
    (sameFired : turn.engine.fired = s.engine.fired) :
    (s.turned n w turn).Covers evaluation rule kept left claimed where
  returned := (returned_turned notEnriching).trans covers.returned
  covered f inside := (covers.covered f inside).imp_right HasFired.turned
  free f inside := by
    rw [turned_engine, sameFired]
    exact covers.free f inside

/-- The next frame is dispatched, and those after it will not be passed over. -/
theorem Covers.dispatch {frame : Frame} {rest : Frames} {mine : List Firing} {stage : Dispatching}
    (covers : s.Covers ⟨n, w.number⟩ site.rule kept (frame :: rest) claimed)
    (notEnriching : ∀ site stage, w.run.point ≠ .enriching site stage)
    (isNext : turn.run.point = .dispatching site rest mine work stage)
    (isFiring : work.firing = ⟨site.rule.name, frame.support⟩) {root : InvocationId}
    (claims : s.engine.Claims root ⟨site.rule.name, frame.support⟩ claimed turn.engine mine) :
    (s.turned n w turn).Covers ⟨n, w.number⟩ site.rule kept rest mine where
  returned := (returned_turned notEnriching).trans covers.returned
  covered f inside := by
    have about : (w.deed n turn).firing? = some ⟨site.rule.name, frame.support⟩ := by
      rw [Worker.deed, isNext, ← isFiring]
      rfl
    rcases covers.covered f inside with ahead | hasFired
    · rcases List.mem_cons.mp ahead with rfl | inRest
      · exact .inr (.of_deed about)
      · exact .inl inRest
    · exact .inr hasFired.turned
  free f inside := claims.free (covers.free f (List.mem_cons_of_mem frame inside))

/-- An evaluation that is over stays so. -/
theorem Evaluates.finished_turned (returned : (s.returned ⟨n, k⟩).flatten = kept)
    (fired : ∀ f ∈ kept, s.HasFired ⟨n, k⟩ ⟨rule.name, f.support⟩) (taken : k ≤ w.taken)
    (elsewhere : ∀ site stage, w.run.point = .enriching site stage → k < w.taken)
    (moves : Run.IsMove s.engine w.run.cascade w.run.point turn) :
    (s.turned n w turn).Evaluates ⟨n, k⟩ rule behaviour kept { run := turn.run, taken := w.number } := by
  have same : (s.turned n w turn).returned ⟨n, k⟩ = s.returned ⟨n, k⟩ := by
    by_cases isEnriching : ∃ site stage, w.run.point = .enriching site stage
    · obtain ⟨site, stage, isPoint⟩ := isEnriching
      have isLater := Nat.lt_of_lt_of_le (elsewhere site stage isPoint) w.taken_le_number
      have notNow : (w.deed n turn).evaluation ≠ ⟨n, k⟩ := fun now =>
        Nat.ne_of_gt isLater (congrArg Evaluation.number now)
      rw [returned_added turned_chronicle, if_neg notNow, List.append_nil]
    · exact returned_turned fun site stage isPoint => isEnriching ⟨site, stage, isPoint⟩
  refine .finished (same ▸ returned) (fun f inside => (fired f inside).turned)
    (Nat.le_trans taken w.taken_le_number) ?_
  intro site stage isNext
  rw [Run.IsMove, isNext] at moves
  rcases moves.to_enriching with ⟨before, isPoint⟩ | takesRule
  · exact Nat.lt_of_lt_of_le (elsewhere site before isPoint) w.taken_le_number
  · dsimp only
    rw [Worker.number_of_takesRule takesRule]
    omega

section Turning

variable (steady : s.Steady n i w) (accountable : s.Accountable)
  (turns : w.run.TurnsFreely (clause w.taken) s.engine turn)
  (ordinary : ∀ k frames, (clause k frames).IsOrdinary) (stays : turn.run.Lasts)

include steady accountable turns ordinary stays

/-- A run that nothing stops goes on from wherever it is not waiting for the repository. -/
theorem Steady.goesOn_at (isPoint : w.run.point = p) (notSaving : p ≠ .saving) :
    Moves s.engine w.run.cascade p turn.engine turn.run.cascade turn.run.point turn.events ∧
      turn.run.point.isGoing = true := by
  subst isPoint
  exact ⟨turns.turns.isMove,
    (steady.goesOn accountable.orderly turns ordinary stays).resolve_right notSaving⟩

/-- The where-stage goes on, or its frames come back. -/
theorem evaluates_of_enriching (isPoint : w.run.point = .enriching site stage)
    (isRule : site.rule = rule) (isCurrent : w.taken = k) (yields : stage.yield rule (clause k) = kept)
    (free : ∀ f ∈ stage.frames, ⟨rule.name, f.support⟩ ∉ s.engine.fired) :
    (s.turned n w turn).Evaluates ⟨n, k⟩ rule (clause k) kept { run := turn.run, taken := w.number } := by
  have isNumber : w.number = k :=
    (Worker.number_of_not_takesRule (by rw [isPoint]; rfl)).trans isCurrent
  have next := turns.enriching_yields isPoint steady.free steady.lasts (ordinary _) stays
  have accounted := accountable.accounted n w steady.working
  obtain ⟨moves, going⟩ := steady.goesOn_at accountable turns ordinary stays isPoint Point.noConfusion
  obtain ⟨sameEngine, descends⟩ := moves.of_enriching going
  rw [isCurrent, isRule, yields] at next
  have stillFree {frames : Frames} (descend : frames.DescendFrom stage.frames) :
      ∀ f ∈ frames, ⟨rule.name, f.support⟩ ∉ turn.engine.fired := by
    intro f inside
    obtain ⟨g, isInput, same⟩ := descend f inside
    rw [sameEngine, same]
    exact free g isInput
  rcases next with ⟨later, isNext, laterYields⟩ | isNext <;> rw [isNext] at descends <;>
    rcases descends with ⟨_, same, descend⟩ | ⟨_, same, descend⟩ <;> cases same
  · exact .enriching isNext isRule isNumber laterYields (stillFree descend)
  · have returned := returned_of_answer isPoint isNext accounted
    rw [isCurrent] at returned
    exact .frames isNext isRule isNumber
      ⟨returned, fun _ inside => .inl inside, fun f inside => .inr (stillFree descend f inside)⟩

/-- The next frame is dispatched, or there is none left. -/
theorem evaluates_of_frames (isPoint : w.run.point = .frames site left claimed)
    (isRule : site.rule = rule) (isCurrent : w.taken = k)
    (covers : s.Covers ⟨n, k⟩ rule kept left claimed) :
    (s.turned n w turn).Evaluates ⟨n, k⟩ rule (clause k) kept { run := turn.run, taken := w.number } := by
  have isNumber : w.number = k :=
    (Worker.number_of_not_takesRule (by rw [isPoint]; rfl)).trans isCurrent
  have notEnriching (other : Site) (stage : Enriching) : w.run.point ≠ .enriching other stage :=
    fun isEnriching => Point.noConfusion (isPoint.symm.trans isEnriching)
  obtain ⟨moves, going⟩ := steady.goesOn_at accountable turns ordinary stays isPoint Point.noConfusion
  subst isRule isNumber
  rcases moves.of_frames going with ⟨rfl, isNext⟩ | ⟨frame, rest, rfl, skipped | dispatched⟩
  · refine .finished ?_ (fun f inside => ?_) (Nat.le_refl _) fun other stage isEnriching =>
      Point.noConfusion (isNext.symm.trans isEnriching)
    · rw [returned_turned notEnriching, covers.returned, List.flatten_singleton]
    · exact ((covers.covered f inside).resolve_left List.not_mem_nil).turned
  · -- What is before the run has not been fired by others.
    obtain ⟨notMine, fired⟩ := skipped
    rcases covers.free frame List.mem_cons_self with mine | free
    · exact absurd mine notMine
    · exact absurd fired free
  · obtain ⟨mine, work, stage, isNext, isFiring, claims⟩ := dispatched
    exact .dispatching isNext rfl rfl (covers.dispatch notEnriching isNext isFiring claims)

/-- The dispatch of a frame goes on, or is over. -/
theorem evaluates_of_dispatching {stage : Dispatching}
    (isPoint : w.run.point = .dispatching site left claimed work stage) (isRule : site.rule = rule)
    (isCurrent : w.taken = k) (covers : s.Covers ⟨n, k⟩ rule kept left claimed) :
    (s.turned n w turn).Evaluates ⟨n, k⟩ rule (clause k) kept { run := turn.run, taken := w.number } := by
  have isNumber : w.number = k :=
    (Worker.number_of_not_takesRule (by rw [isPoint]; rfl)).trans isCurrent
  have notEnriching (other : Site) (stage : Enriching) : w.run.point ≠ .enriching other stage :=
    fun isEnriching => Point.noConfusion (isPoint.symm.trans isEnriching)
  obtain ⟨moves, going⟩ := steady.goesOn_at accountable turns ordinary stays isPoint Point.noConfusion
  obtain ⟨sameFired, ⟨next, isNext⟩ | isNext⟩ := moves.of_dispatching going
  · exact .dispatching isNext isRule isNumber (covers.turned notEnriching sameFired)
  · exact .frames isNext isRule isNumber (covers.turned notEnriching sameFired)

theorem Evaluates.turned (evaluates : s.Evaluates ⟨n, k⟩ rule (clause k) kept w) :
    (s.turned n w turn).Evaluates ⟨n, k⟩ rule (clause k) kept { run := turn.run, taken := w.number } := by
  cases evaluates with
  | enriching isPoint isRule isCurrent yields free =>
    exact evaluates_of_enriching steady accountable turns ordinary stays isPoint isRule isCurrent yields free
  | frames isPoint isRule isCurrent covers =>
    exact evaluates_of_frames steady accountable turns ordinary stays isPoint isRule isCurrent covers
  | dispatching isPoint isRule isCurrent covers =>
    exact evaluates_of_dispatching steady accountable turns ordinary stays isPoint isRule isCurrent covers
  | finished returned fired taken elsewhere =>
    exact finished_turned returned fired taken elsewhere turns.turns.isMove

end Turning

/-! ### The course of an evaluation -/

/-- A rule that is taken will leave what survives of the frames for which it is to fire. -/
theorem IsTaking.evaluates (isTaking : s.IsTaking n w k trigger rule) (steady : s.Steady n i w)
    (accountable : s.Accountable) (turns : w.run.TurnsFreely (clause w.taken) s.engine turn)
    (ordinary : ∀ k frames, (clause k frames).IsOrdinary) (stays : turn.run.Lasts)
    (behaviour : Behaviour) :
    (s.turned n w turn).Evaluates ⟨n, k + 1⟩ rule behaviour
      (Enrichment.survivors rule behaviour (s.engine.unfired rule trigger))
      { run := turn.run, taken := w.number } := by
  obtain ⟨working, rfl, later, isPoint⟩ := isTaking
  have takesRule : w.run.point.takesRule = true := by
    rw [isPoint]
    rfl
  have isNumber : w.number = w.taken + 1 := Worker.number_of_takesRule takesRule
  have next := turns.taking_yields isPoint steady.free behaviour
  obtain ⟨moves, going⟩ := steady.goesOn_at accountable turns ordinary stays isPoint Point.noConfusion
  obtain ⟨sameEngine, descends⟩ := moves.of_rules going
  rcases next with ⟨stage, isNext, yields⟩ | ⟨isNext, settled⟩ <;> rw [isNext] at descends
  · rcases descends with same | ⟨_, same, held⟩ <;> cases same
    refine .enriching isNext rfl isNumber yields fun f inside => ?_
    rw [turned_engine, sameEngine]
    exact (Engine.mem_unfired_iff.mp (held f inside)).2
  · have unbegun := accountable.orderly.not_begun_mover working takesRule
    have nothing : s.returned ⟨n, w.taken + 1⟩ = [] := by
      refine List.filterMap_eq_nil_iff.mpr fun deed inside => ?_
      obtain ⟨made, isOwn⟩ := List.mem_filter.mp inside
      exact absurd (isNumber ▸ of_decide_eq_true isOwn) (unbegun deed made)
    have none : Enrichment.survivors rule behaviour (s.engine.unfired rule trigger) = [] := by
      rw [settled]
      unfold Enrichment.survivors
      rw [if_pos (by simp)]
    have notEnriching (site : Site) (stage : Enriching) : w.run.point ≠ .enriching site stage :=
      fun isEnriching => Point.noConfusion (isPoint.symm.trans isEnriching)
    refine .finished ?_ (fun f inside => ?_) (Nat.le_of_eq isNumber.symm) fun site stage isEnriching =>
      Point.noConfusion (isNext.symm.trans isEnriching)
    · rw [returned_turned notEnriching, nothing, none]
      rfl
    · rw [none] at inside
      cases inside

/-- From when it was taken, a rule goes on to leave what survives of its frames. -/
theorem HasTaken.evaluates (hasTaken : HasTaken clause n i s t k trigger rule)
    (accountable : s.Accountable) (ordinary : ∀ k frames, (clause k frames).IsOrdinary) :
    ∃ u v, Relation.ReflTransGen (Calm clause n i.root) s u ∧ u.IsTaking n v k trigger rule ∧
      Relation.ReflTransGen (Calm clause n i.root) u t ∧ ∃ w, t.Steady n i w ∧
        t.Evaluates ⟨n, k + 1⟩ rule (clause (k + 1))
          (Enrichment.survivors rule (clause (k + 1)) (u.engine.unfired rule trigger)) w := by
  obtain ⟨u, v, turn, before, steady, isTaking, turns, stays, after⟩ := hasTaken
  have calm := calm_of_lasting before
  refine ⟨u, v, calm, isTaking, .head (.own isTaking.working turns) (calm_of_lasting after), ?_⟩
  have isAccountable := accountable_preserved.of_calm accountable calm
  have evaluates := isTaking.evaluates steady isAccountable turns ordinary stays (clause (k + 1))
  have turned := steady.turned isAccountable.orderly turns ordinary stays
  have next := isAccountable.turned isTaking.working turns.turns.isMove
  generalize u.turned n v turn = first at *
  generalize ({ run := turn.run, taken := v.number } : Worker) = w at *
  induction after with
  | refl => exact ⟨w, turned, evaluates⟩
  | @tail r t passed happens ih =>
    obtain ⟨w, steady, evaluates⟩ := ih
    have isAccountable := accountable_preserved.of_calm next (calm_of_lasting passed)
    obtain ⟨calm, lasts⟩ := happens
    cases calm with
    | around around =>
      have spares := around.spares isAccountable.orderly steady.working steady.root
      have later := accountable_preserved.step isAccountable around.step
      have steadyNow := steady.spares spares
      exact ⟨w, steadyNow, evaluates.spares steadyNow spares later.orderly⟩
    | own working turns =>
      cases steady.working.symm.trans working
      have stays := lasts _ (turned_mover working)
      exact ⟨_, steady.turned isAccountable.orderly turns ordinary stays,
        evaluates.turned steady isAccountable turns ordinary stays⟩

/-- When its run has ended, an evaluation is over. -/
theorem Evaluates.completes (evaluates : s.Evaluates ⟨n, k⟩ rule behaviour kept w)
    (steady : s.Steady n i w) (accountable : s.Accountable) (ended : w.run.hasEnded = true) :
    s.Completes ⟨n, k⟩ rule kept := by
  have drained : s.HasDrained n := ⟨w, steady.working, steady.lasts.hasDrained ended⟩
  cases evaluates with
  | enriching isPoint | frames isPoint | dispatching isPoint =>
    rw [Run.hasEnded, isPoint] at ended
    cases ended
  | finished returned fired =>
    refine ⟨returned, fun f inside => ?_⟩
    obtain ⟨frames, concludes⟩ := accountable.concludes (fired f inside).owns drained
    have same : frames = kept := by
      rw [concludes.returned, List.flatten_singleton] at returned
      exact returned
    exact same ▸ concludes

theorem Steady.contains (steady : s.Steady n i w) (accountable : s.Accountable)
    (registered : s.engine.rules.Reachable) (ordinary : ∀ k frames, (clause k frames).IsOrdinary)
    (inLine : w.InLine s.engine.rules i (s.deedsOf n)) (unbegun : s.deedsOf n = [])
    (course : Relation.ReflTransGen (Lasting clause n i.root) s t) (isWorker : t.workers[n]? = some v)
    (ended : v.run.hasEnded = true) : Contains clause n i s t := by
  obtain ⟨sameRules, x, later, line⟩ := steady.inLine accountable ordinary inLine course
  cases later.working.symm.trans isWorker
  have isAccountable := accountable_preserved.of_calm accountable (calm_of_lasting course)
  obtain ⟨⟨c, p⟩, taken⟩ := v
  obtain ⟨result, rfl⟩ : ∃ result, p = .ended result := by
    cases p with
    | ended result => exact ⟨result, rfl⟩
    | next | rules | enriching | frames | dispatching | saving => cases ended
  have drained := later.lasts.hasDrained ended
  have processed : t.processedBy n = i :: t.loggedBy n := by
    have whole := line.processed
    rw [line.emptied rfl] at whole
    exact ((whole.trans (List.append_nil _))).symm
  constructor
  case report =>
    cases result with
    | error error => exact drained.elim
    | ok report =>
      refine ⟨report, ?_, drained⟩
      rw [reportOf, isWorker]
      rfl
  case processed => exact processed
  case taken =>
    have whole := line.taken
    rw [show Point.ahead (.ended result) = [] from rfl, List.append_nil] at whole
    rw [takenBy, whole, ← processedBy, processed, sameRules]
    refine congrArg (List.flatMap · _) (funext fun j => ?_)
    rw [RuleRegistry.listeners, registered.rulesFor_eq]
  case evaluated =>
    intro k trigger rule isTaken
    obtain ⟨u, y, before, isTaking, after, z, isSteady, evaluates⟩ :=
      (steady.hasTaken accountable ordinary inLine unbegun course isTaken).evaluates accountable ordinary
    cases isSteady.working.symm.trans isWorker
    exact ⟨u, y, before, isTaking, after, evaluates.completes isSteady isAccountable ended⟩

/-- A run that has ended contains all faults, or it has broken off. -/
theorem Steady.contains_or (steady : s.Steady n i w) (accountable : s.Accountable)
    (registered : s.engine.rules.Reachable) (ordinary : ∀ k frames, (clause k frames).IsOrdinary)
    (inLine : w.InLine s.engine.rules i (s.deedsOf n)) (unbegun : s.deedsOf n = [])
    (calm : Relation.ReflTransGen (Calm clause n i.root) s t) :
    ∃ v, t.workers[n]? = some v ∧
      (v.run.hasEnded = true → Contains clause n i s t ∨ BrokenOff clause n i.root s t) := by
  rcases steady.lasting_or accountable ordinary calm with
    course | ⟨u, v, frames, error, turn, before, working, breaksOff, isNow⟩
  · obtain ⟨v, isSteady⟩ := steady.reaches accountable ordinary course
    exact ⟨v, isSteady.working, fun ended =>
      .inl (steady.contains accountable registered ordinary inLine unbegun course isSteady.working ended)⟩
  · refine ⟨_, isNow, fun _ => .inr ?_⟩
    have failed := breaksOff.point_eq
    obtain ⟨waits, flawed, now⟩ := breaksOff
    obtain ⟨returned, isReturned, isFlaw⟩ := Outcome.exists_of_flaw flawed
    refine ⟨u, v, _, frames, _, returned, error, calm_of_lasting before, working, waits, isReturned,
      isFlaw, ?_⟩
    rw [errorOf, isNow, Option.bind_some, failed]
    rfl

/-- A call that can be made, and that nothing stops, contains all faults, unless a where-clause of
it returns something that cannot be checked. It begins a run, which can go on until it has ended; and
in every course in which it gets its turns, it ends. -/
theorem contains_faults (initial : start.Initial) (reached : start.Reaches s)
    (registered : s.engine.rules.Reachable) {call : Call} (admits : s.Admits call)
    (ordinary : ∀ k frames, (clause k frames).IsOrdinary) :
    (∃ i opened, s.Begins call i opened) ∧ ∀ i opened, s.Begins call i opened →
      (∀ t, Relation.ReflTransGen (Calm clause s.workers.length i.root) opened t →
        ∃ w, t.workers[s.workers.length]? = some w ∧
          (w.run.hasEnded = false → ∃ turn, w.run.TurnsFreely (clause w.taken) t.engine turn) ∧
          (w.run.hasEnded = true → Contains clause s.workers.length i opened t ∨
            BrokenOff clause s.workers.length i.root opened t)) ∧
      ∀ course : Nat → System, course 0 = opened →
        (∀ k, Calm clause s.workers.length i.root (course k) (course (k + 1))) →
          IsFairTo s.workers.length course →
            ∃ k, Contains clause s.workers.length i opened (course k) ∨
              BrokenOff clause s.workers.length i.root opened (course k) := by
  have accountable := reached.accountable initial
  have orderly := accountable.orderly
  refine ⟨?_, fun i opened begins => ?_⟩
  · obtain ⟨i, opened, begins⟩ := admits.exists_begins 0
    exact ⟨i, opened, begins⟩
  have isAccountable := accountable_preserved.step accountable (begins.step orderly admits)
  obtain ⟨w, steady, taken, isPoint, queue⟩ := begins.steady orderly admits
  obtain ⟨sameRules, unbegun⟩ := begins.unbegun orderly
  have inLine : w.InLine opened.engine.rules i (opened.deedsOf s.workers.length) := by
    rw [unbegun]
    exact .of_queue taken isPoint queue
  have contains {t : System}
      (calm : Relation.ReflTransGen (Calm clause s.workers.length i.root) opened t) :=
    steady.contains_or isAccountable (sameRules ▸ registered) ordinary inLine unbegun calm
  constructor
  · intro t calm
    obtain ⟨v, isWorker, ends⟩ := contains calm
    exact ⟨v, isWorker, fun going => ⟨_, .freely _ _ going⟩, ends⟩
  · intro course begins goesOn fair
    obtain ⟨last, still⟩ := steady.exists_last_deed isAccountable begins goesOn
    obtain ⟨v, isWorker, ends⟩ := contains (calm_of_course begins goesOn last)
    refine ⟨last, ends ?_⟩
    by_contra going
    obtain ⟨later, isLater, moved⟩ := fair last v isWorker (Bool.eq_false_iff.mpr going)
    exact moved (still later isLater)

end System

/-! ### Hay from somewhere else -/

namespace Hay

def mow (place : Int) : Pattern := { action := ⟨"Field", "mow"⟩, inputs := [("place", .literal (.int place))] }

/-- The field is mown in two places. -/
def onwards : Rule where
  name := "onwards"
  whens := [mow 0]
  thens := [mow 1]

def opening : Rule where
  name := "open"
  whens := [mow 1]
  thens := [{ action := ⟨"Barn", "open"⟩, inputs := [] }]

/-- When the barn is open, the hay of every place is loaded. -/
def load : Rule where
  name := "load"
  whens := [{ action := ⟨"Field", "mow"⟩, inputs := [("place", .variable "place")] },
    { action := ⟨"Barn", "open"⟩, inputs := [] }]
  thens := [{ action := ⟨"Cart", "load"⟩, inputs := [("place", .variable "place")] }]
  enrich := some []

def start : System where
  engine :=
    { catalogue :=
        { operations := [⟨⟨"Field", "mow"⟩, .action⟩, ⟨⟨"Barn", "open"⟩, .action⟩,
            ⟨⟨"Cart", "load"⟩, .action⟩] }
      rules := (({} : RuleRegistry).registerAll [.ok onwards, .ok opening, .ok load]).1 }

theorem start_initial : start.Initial where
  log := .start
  fired := rfl
  firedByRoot := rfl
  active := rfl
  workers := rfl
  chronicle := rfl

theorem start_registered : start.engine.rules.Reachable := RuleRegistry.Reachable.empty.registerAll _

def call : Call := .invoke ⟨"Field", "mow"⟩ [("place", .int 0)] (.finished (.ok .null))

theorem start_admits : start.Admits call := ⟨⟨_, rfl, rfl⟩, Outcome.isOrdinary_of_ok Value.null⟩

/-- The first place has been mown. -/
def mown : Invocation := start.engine.log.describe ⟨"Field", "mow"⟩ [("place", .int 0)] [] []

def opened : System := start.invoked ⟨"Field", "mow"⟩ [("place", .int 0)] [] none 0

theorem start_begins : start.Begins call mown opened :=
  .invoke (show CallEnd.ofResult ⟨"Field", "mow"⟩ (Outcome.finished (.ok .null)).unbounded =
    .ok { output := [] } from rfl) rfl 0

/-- The hay of the first place is wet, and the where-clause gives up on it. -/
def clause : Nat → Behaviour := fun _ frames =>
  if frames.any fun f => (f.get? "place").any (·.agrees (.int 0)) then
    .finished (.error (.missingKey "dry"))
  else .finished (.ok (.frames frames))

theorem clause_isOrdinary (k : Nat) (frames : Frames) : (clause k frames).IsOrdinary := by
  intro error raised
  unfold clause at raised
  split at raised <;> cases raised
  trivial

/-- The hay of the second place has been loaded. -/
def ended : System := opened.freely clause 0 60

theorem contains_faults_ended : (∃ w ∈ ended.workers[0]?, w.run.hasEnded = true) ∧
    (ended.loggedBy 0).length = 3 ∧ System.Contains clause 0 mown opened ended := by
  have ends : ∃ w ∈ ended.workers[0]?, w.run.hasEnded = true := by decide +kernel
  refine ⟨ends, by decide +kernel, ?_⟩
  obtain ⟨v, isWorker, isEnded⟩ := ends
  have course := (System.contains_faults start_initial .start start_registered start_admits
    clause_isOrdinary).2 mown opened start_begins
  obtain ⟨w, working, _, contains⟩ := course.1 ended (System.calm_freely ..)
  cases working.symm.trans isWorker
  refine (contains isEnded).resolve_right fun brokenOff => ?_
  obtain ⟨_, _, _, _, _, _, _, _, _, _, _, _, isError⟩ := brokenOff
  have none : ended.errorOf 0 = none := by decide +kernel
  cases none.symm.trans isError

/-- A heap that rests on a list. -/
def heap : Draft where
  basis := .tuple [.list [.int 1]]

/-- All the hay is returned, and a heap from somewhere else with it. -/
def adding : Nat → Behaviour := fun _ frames =>
  .finished (.ok (.drafts (frames.map Frame.draft ++ [heap])))

def failed : System := opened.freely adding 0 60

/-- The barn is open, and the hay is about to be loaded. -/
def loading : System := opened.freely adding 0 23

/-- The frames of both places. -/
def places : Frames := (loading.engine.log.get? 3).elim [] (loading.engine.unfired load)

/-- The hay of both places would be accepted but for the heap, and is never loaded. The call ends with
an error instead of a report. -/
theorem load_lacks_all : Relation.ReflTransGen (System.Calm adding 0 mown.root) opened failed ∧
    places.map (·.support) = [[1, 3], [2, 3]] ∧
      (Enrichment.accepted load places (.frames places)).length = 2 ∧
      (failed.errorOf 0).map (fun error => (error.name, error.text)) =
        some ("TypeError", "unhashable type: 'list'") ∧
      failed.reportOf 0 = none ∧ failed.deliveredBy 0 = [] ∧ failed.dispatches ⟨"load", [1, 3]⟩ = [] ∧
      failed.dispatches ⟨"load", [2, 3]⟩ = [] := by
  refine ⟨System.calm_freely .., by decide +kernel, by decide +kernel, by decide +kernel,
    by decide +kernel, ?_, ?_, ?_⟩
  all_goals exact List.eq_nil_of_length_eq_zero (by decide +kernel)

end Hay

end Choreography
