import Choreography.Proofs.Run.Survivors
import Choreography.Proofs.Run.Faults
import Mathlib.Logic.Hydra
import Mathlib.Tactic.Abel

/-! Why a run comes to an end. What it has before it are invocations, rules, frames and calls. Each
turn deals with one of them, and puts in its place finitely many of lower rank; however many
frames a where-clause makes of one, and however many calls follow from them, that cannot go on
for ever. -/

namespace Choreography

/-- How much deeper than an invocation its cascade may still become. -/
def Invocation.room (i : Invocation) (limit : Int) : Nat := (limit + 1 - i.depth).toNat

/-- The rank of a thing to do, by the room that is left below its trigger and by its kind. What
is done for an invocation ranks below it, and what follows from that ranks lower still. -/
def rank (room kind : Nat) : Nat := 10 * room + kind + 2

/-- Things to do, by their ranks. -/
def each (things : List α) (rank : α → Nat) : Multiset Nat := Multiset.ofList (things.map rank)

/-- What is in the place of one thing is finitely many of lower rank. -/
def Descends (after before : Multiset Nat) : Prop := Relation.CutExpand (· < ·) after before

/-- What a where-stage has before it. -/
def Enriching.agenda (room : Nat) : Enriching → Multiset Nat
  | .batch _ _ => {rank room 7}
  | .isolating kept left =>
    {rank room 5} + each kept (fun _ => rank room 4) + each left fun _ => rank room 6
  | .single _ kept left _ =>
    {rank room 5} + {rank room 5} + each kept (fun _ => rank room 4) + each left fun _ => rank room 6
  | .finished frames => {rank room 5} + each frames fun _ => rank room 4
  | .raised _ => 0

/-- What the frames are that a rule has still to dispatch. -/
def framesAgenda (room : Nat) (left : Frames) : Multiset Nat :=
  {rank room 3} + each left fun _ => rank room 4

/-- Invocations that have still to be processed. -/
def invocationsAgenda (limit : Int) (invocations : List Invocation) : Multiset Nat :=
  each invocations fun i => rank (i.room limit) 9

/-- What the dispatch of a frame has before it, and what follows from it. -/
def Dispatching.agenda (limit : Int) (room : Nat) : Dispatching → Multiset Nat
  | .next left produced =>
    {rank room 0} + each left (fun _ => rank room 1) + invocationsAgenda limit produced
  | .calling _ _ left produced _ =>
    {rank room 0} + {rank room 0} + each left (fun _ => rank room 1) +
      invocationsAgenda limit produced
  | .finished produced => {rank room 0} + invocationsAgenda limit produced
  | .raised _ => 0

/-- The rules that have still to be taken for an invocation. -/
def rulesAgenda (room : Nat) (left : List Rule) : Multiset Nat :=
  {1} + {rank room 2} + each left fun _ => rank room 8

/-- What a run has before it, apart from its queue. -/
def Point.agenda (limit : Int) : Point → Multiset Nat
  | .next => {1}
  | .rules trigger left => rulesAgenda (trigger.room limit) left
  | .enriching site stage =>
    rulesAgenda (site.trigger.room limit) site.later + stage.agenda (site.trigger.room limit)
  | .frames site left _ =>
    rulesAgenda (site.trigger.room limit) site.later + framesAgenda (site.trigger.room limit) left
  | .dispatching site left _ _ stage =>
    rulesAgenda (site.trigger.room limit) site.later +
      (framesAgenda (site.trigger.room limit) left + stage.agenda limit (site.trigger.room limit))
  | .saving => {0}
  | .ended _ => 0

/-- What a run has before it. -/
def Run.agenda (r : Run) (limit : Int) : Multiset Nat :=
  invocationsAgenda limit r.cascade.queue + r.point.agenda limit

/-- What is left of a stage once it is over is the matter of its frames. -/
def Enriching.aftermath (room : Nat) : Enriching → Multiset Nat
  | .finished frames => framesAgenda room frames
  | stage => stage.agenda room

variable {e f : Engine} {c d : Cascade} {p q : Point} {events : List Event} {limit : Int} {room : Nat}

/-! ### Descending -/

theorem descends_wellFounded : WellFounded Descends :=
  (Nat.lt_wfRel.wf : WellFounded fun m n : Nat => m < n).cutExpand

/-- One thing gives way to finitely many that rank lower. -/
theorem Descends.intro {before after : Multiset Nat} (lower : Multiset Nat) (dealt : Nat)
    (lowers : ∀ m ∈ lower, m < dealt) (same : after + {dealt} = before + lower) :
    Descends after before :=
  ⟨lower, dealt, lowers, same⟩

theorem Descends.add_left {before after : Multiset Nat} (descends : Descends after before)
    (rest : Multiset Nat) : Descends (rest + after) (rest + before) :=
  (Relation.cutExpand_add_left rest).mpr descends

@[simp] theorem each_nil (rank : α → Nat) : each [] rank = 0 := rfl

@[simp] theorem each_cons (a : α) (things : List α) (rank : α → Nat) :
    each (a :: things) rank = {rank a} + each things rank :=
  (Multiset.singleton_add (rank a) (each things rank)).symm

@[simp] theorem each_append (first second : List α) (rank : α → Nat) :
    each (first ++ second) rank = each first rank + each second rank := by
  rw [each, List.map_append]
  rfl

theorem mem_each {m : Nat} {things : List α} {rank : α → Nat} :
    m ∈ each things rank ↔ ∃ a ∈ things, rank a = m := by
  rw [each, Multiset.mem_coe, List.mem_map]

theorem rank_lt {kind other : Nat} (lower : kind < other) : rank room kind < rank room other := by
  unfold rank
  omega

/-- Whatever is deeper in the cascade ranks lower. -/
theorem rank_lt_of_deeper {below : Nat} (deeper : below < room) (kind : Nat) :
    rank below 9 < rank room kind := by
  unfold rank
  omega

/-- One thing gives way to one that ranks lower. -/
theorem Descends.lower {before after : Multiset Nat} (lower dealt : Nat) (lowers : lower < dealt)
    (same : after + {dealt} = before + {lower}) : Descends after before :=
  .intro {lower} dealt (fun _ inside => Multiset.mem_singleton.mp inside ▸ lowers) same

/-- One thing is dealt with. -/
theorem Descends.drop {before after : Multiset Nat} (dealt : Nat) (same : after + {dealt} = before) :
    Descends after before :=
  .intro 0 dealt (fun _ inside => absurd inside (Multiset.notMem_zero _))
    (same.trans (add_zero _).symm)

theorem framesAgenda_lt (frames : Frames) {kind : Nat} (higher : 4 < kind) :
    ∀ m ∈ framesAgenda room frames, m < rank room kind := by
  intro m inside
  simp only [framesAgenda, Multiset.mem_add, Multiset.mem_singleton, mem_each] at inside
  obtain rfl | ⟨_, _, rfl⟩ := inside <;> exact rank_lt (by omega)

/-! ### The where-stage -/

/-- What a where-stage has before it ranks lower than its rule. -/
theorem Enriching.agenda_lt (stage : Enriching) : ∀ m ∈ stage.agenda room, m < rank room 8 := by
  intro m inside
  cases stage with
  | batch => exact Multiset.mem_singleton.mp inside ▸ rank_lt (by omega)
  | isolating =>
    simp only [agenda, Multiset.mem_add, Multiset.mem_singleton, mem_each, or_assoc] at inside
    obtain rfl | ⟨_, _, rfl⟩ | ⟨_, _, rfl⟩ := inside <;> exact rank_lt (by omega)
  | single =>
    simp only [agenda, Multiset.mem_add, Multiset.mem_singleton, mem_each, or_assoc] at inside
    obtain rfl | rfl | ⟨_, _, rfl⟩ | ⟨_, _, rfl⟩ := inside <;> exact rank_lt (by omega)
  | finished =>
    simp only [agenda, Multiset.mem_add, Multiset.mem_singleton, mem_each] at inside
    obtain rfl | ⟨_, _, rfl⟩ := inside <;> exact rank_lt (by omega)
  | raised => cases inside

namespace Enrichment

variable (x : Enrichment) (now : Instant)

/-- A where-stage that is over gives way to its frames. -/
theorem finished_descends (frames : Frames) :
    Descends (framesAgenda room frames) ((Enriching.finished frames).agenda room) := by
  refine .lower (rank room 3) (rank room 5) (rank_lt (by omega)) ?_
  simp only [framesAgenda, Enriching.agenda]
  abel

/-- A step of a where-stage lowers what it has before it. -/
theorem step_descends (c : Cascade) {stage : Enriching} (unasked : stage.asked? = none)
    (going : (x.step now c stage).stage.isRaised = false) :
    Descends ((x.step now c stage).stage.aftermath room) (stage.agenda room) := by
  match stage with
  | .isolating kept [] =>
    refine .lower (rank room 3) (rank room 5) (rank_lt (by omega)) ?_
    simp only [step, Enriching.aftermath, framesAgenda, Enriching.agenda, each_nil]
    abel
  | .isolating kept (frame :: left) =>
    rw [step] at going ⊢
    split at going
    · cases going
    · refine .lower (rank room 5) (rank room 6) (rank_lt (by omega)) ?_
      simp only [Enriching.aftermath, Enriching.agenda, each_cons]
      abel
  | .finished frames => exact finished_descends frames
  | .batch _ _ | .single _ _ _ _ => cases unasked
  | .raised _ => cases going

theorem afterBatch_descends (frames : Frames) (c : Cascade) (result : Except Error Returned)
    (going : (x.afterBatch frames c result).stage.isRaised = false) :
    Descends ((x.afterBatch frames c result).stage.aftermath room) {rank room 7} := by
  have finished (kept : Frames) : Descends (framesAgenda room kept) {rank room 7} :=
    Relation.cutExpand_singleton (framesAgenda_lt kept (by omega))
  unfold afterBatch at going ⊢
  split
  · next returned =>
    dsimp only at going ⊢
    cases isChecked : (validate x.rule frames returned).1 with
    | ok kept => exact finished kept
    | error => rw [isChecked] at going; cases going
  · cases going
  · cases going
  · exact finished _
  · split
    · exact finished _
    · refine Relation.cutExpand_singleton fun m inside => ?_
      simp only [Enriching.aftermath, Enriching.agenda, Multiset.mem_add, Multiset.mem_singleton,
        mem_each, each_nil, Multiset.notMem_zero, or_false] at inside
      obtain rfl | ⟨_, _, rfl⟩ := inside <;> exact rank_lt (by omega)

theorem afterSingle_descends (frame : Frame) (kept left : Frames) (ends : Option Instant)
    (c : Cascade) (result : Except Error Returned)
    (going : (x.afterSingle frame kept left c result).stage.isRaised = false) :
    Descends ((x.afterSingle frame kept left c result).stage.aftermath room)
      ((Enriching.single frame kept left ends).agenda room) := by
  unfold afterSingle at going ⊢
  split
  · next returned =>
    dsimp only at going ⊢
    cases isChecked : (validate x.rule [frame] returned).1 with
    | error => rw [isChecked] at going; cases going
    | ok more =>
      refine .intro (each more fun _ => rank room 4) (rank room 5) ?_ ?_
      · intro m inside
        obtain ⟨_, _, rfl⟩ := mem_each.mp inside
        exact rank_lt (by omega)
      · simp only [afterCheck, Enriching.aftermath, Enriching.agenda, each_append]
        abel
  · cases going
  · cases going
  · refine .drop (rank room 5) ?_
    simp only [Enriching.aftermath, Enriching.agenda]
    abel

/-- An answer to a where-stage lowers what it has before it. -/
theorem resume_descends (c : Cascade) (outcome : Outcome Returned) {stage : Enriching}
    (asked : stage.asked? = some frames)
    (going : (x.resume now c outcome stage).stage.isRaised = false) :
    Descends ((x.resume now c outcome stage).stage.aftermath room) (stage.agenda room) := by
  cases stage with
  | batch frames ends => exact x.afterBatch_descends frames _ _ going
  | single frame kept left ends => exact x.afterSingle_descends frame kept left ends _ _ going
  | isolating | finished | raised => cases asked

end Enrichment

/-! ### Rules and frames -/

theorem pop_descends (trigger : Invocation) (queue : List Invocation) (rules : List Rule) :
    Descends (invocationsAgenda limit queue + rulesAgenda (trigger.room limit) rules)
      (invocationsAgenda limit (trigger :: queue) + {1}) := by
  refine .intro ({rank (trigger.room limit) 2} + each rules fun _ => rank (trigger.room limit) 8)
    (rank (trigger.room limit) 9) ?_ ?_
  · intro m inside
    simp only [Multiset.mem_add, Multiset.mem_singleton, mem_each] at inside
    obtain rfl | ⟨_, _, rfl⟩ := inside <;> exact rank_lt (by omega)
  · simp only [rulesAgenda, invocationsAgenda, each_cons]
    abel

theorem turn_descends : Descends {1} (rulesAgenda room []) := by
  refine .drop (rank room 2) ?_
  rw [rulesAgenda, each_nil, add_zero]

theorem settle_descends (rule : Rule) (later : List Rule) :
    Descends (rulesAgenda room later) (rulesAgenda room (rule :: later)) := by
  refine .drop (rank room 8) ?_
  simp only [rulesAgenda, each_cons]
  abel

theorem evaluate_descends (rule : Rule) (later : List Rule) (stage : Enriching) :
    Descends (rulesAgenda room later + stage.agenda room) (rulesAgenda room (rule :: later)) := by
  refine .intro (stage.agenda room) (rank room 8) stage.agenda_lt ?_
  simp only [rulesAgenda, each_cons]
  abel

theorem close_descends (later : List Rule) :
    Descends (rulesAgenda room later) (rulesAgenda room later + framesAgenda room []) := by
  refine .drop (rank room 3) ?_
  rw [framesAgenda, each_nil, add_zero]

theorem skip_descends (frame : Frame) (left : Frames) :
    Descends (framesAgenda room left) (framesAgenda room (frame :: left)) := by
  refine .drop (rank room 4) ?_
  simp only [framesAgenda, each_cons]
  abel

/-! ### The dispatch of a frame -/

namespace Dispatch

theorem beginning_descends (work : Dispatch) (bound : Int) (frame : Frame) (left : Frames) :
    Descends (framesAgenda room left + (work.beginning bound).agenda limit room)
      (framesAgenda room (frame :: left)) := by
  refine .intro ((work.beginning bound).agenda limit room) (rank room 4) ?_ ?_
  · intro m inside
    unfold beginning at inside
    split at inside
    · simp only [Dispatching.agenda, invocationsAgenda, each_nil, Multiset.mem_add,
        Multiset.mem_singleton, Multiset.notMem_zero, or_false] at inside
      exact inside ▸ rank_lt (by omega)
    · simp only [Dispatching.agenda, invocationsAgenda, each_nil, Multiset.mem_add,
        Multiset.mem_singleton, Multiset.notMem_zero, or_false, mem_each] at inside
      obtain rfl | ⟨_, _, rfl⟩ := inside <;> exact rank_lt (by omega)
  · simp only [framesAgenda, each_cons]
    abel

end Dispatch

namespace Dispatching

variable {stage : Dispatching} {work : Dispatch}

theorem call_descends (p : Pattern) (patterns : List Pattern) (produced : List Invocation)
    (action : ActionRef) (input : Fields) (ends : Option Instant) :
    Descends ((calling action input patterns produced ends).agenda limit room)
      ((next (p :: patterns) produced).agenda limit room) := by
  refine .lower (rank room 0) (rank room 1) (rank_lt (by omega)) ?_
  simp only [agenda, each_cons]
  abel

/-- A call gives way to the invocation that was logged for it, which is deeper. -/
theorem Called.descends (called : stage.Called catalogue work action input patterns produced)
    {i : Invocation} (deeper : i.room limit < room) :
    Descends ((next patterns (produced ++ [i])).agenda limit room) (stage.agenda limit room) := by
  have lowers := rank_lt_of_deeper deeper
  cases called with
  | unregistered =>
    refine .lower (rank (i.room limit) 9) (rank room 1) (lowers 1) ?_
    simp only [agenda, invocationsAgenda, each_cons, each_append, each_nil]
    abel
  | awaited =>
    refine .lower (rank (i.room limit) 9) (rank room 0) (lowers 0) ?_
    simp only [agenda, invocationsAgenda, each_cons, each_append, each_nil]
    abel

/-- What was logged for a frame is put at the end of the queue. -/
theorem Over.descends {produced : List Invocation} (isOver : stage.Over produced)
    (queue : List Invocation) (rules frames : Multiset Nat) :
    Descends (invocationsAgenda limit (queue ++ produced) + (rules + frames))
      (invocationsAgenda limit queue + (rules + (frames + stage.agenda limit room))) := by
  refine .drop (rank room 0) ?_
  cases isOver with
  | called =>
    simp only [agenda, invocationsAgenda, each_append, each_nil]
    abel
  | finished =>
    simp only [agenda, invocationsAgenda, each_append]
    abel

end Dispatching

/-! ### The moves -/

/-- A rule gives way to its where-stage, which ranks lower. -/
theorem afterEnriching_descends {s : Site} {stage : Enriching} {turn : StageTurn Enriching}
    (descends : Descends (turn.stage.aftermath (s.trigger.room limit))
      (stage.agenda (s.trigger.room limit)))
    (same : turn.cascade.SameWork c) (going : turn.stage.isRaised = false) :
    Descends ((Run.afterEnriching e s turn).run.agenda limit)
      (Run.agenda ⟨c, .enriching s stage⟩ limit) := by
  have whole := (descends.add_left (rulesAgenda (s.trigger.room limit) s.later)).add_left
    (invocationsAgenda limit c.queue)
  unfold Run.afterEnriching
  split
  · next isFinished =>
    rw [isFinished] at whole
    rw [Run.agenda, Run.agenda, same.queue]
    exact whole
  · next isRaised =>
    rw [isRaised] at going
    cases going
  · next unfinished _ =>
    rw [Run.agenda, Run.agenda, same.queue]
    unfold Enriching.aftermath at whole
    split at whole
    · exact absurd ‹turn.stage = _› (unfinished _)
    · exact whole

/-- Every move of a run that does not break off lowers what it has before it, if whatever it logs
is deeper than its trigger. What becomes of a where-stage is told apart. -/
theorem Moves.descends (moves : Moves e c p f d q events) (going : q.isGoing = true ∨ p = .saving)
    (elsewhere : ∀ site stage, p ≠ .enriching site stage)
    (deeper : ∀ site left claimed work stage, p = .dispatching site left claimed work stage →
      ∀ i ∈ posted events, i.room limit < site.trigger.room limit) :
    Descends (Run.agenda ⟨d, q⟩ limit) (Run.agenda ⟨c, p⟩ limit) := by
  unfold Run.agenda
  cases moves with
  | drain => exact (Descends.lower 0 1 (by omega) (add_comm _ _)).add_left _
  | pop queued =>
    rw [queued]
    exact pop_descends _ _ _
  | turn => exact turn_descends.add_left _
  | settle same =>
    rw [same.queue]
    exact (settle_descends _ _).add_left _
  | evaluate same =>
    rw [same.queue]
    exact (evaluate_descends _ _ _).add_left _
  | enrich | answer => exact absurd rfl (elsewhere _ _)
  | close => exact (close_descends _).add_left _
  | skip same =>
    rw [same.queue]
    exact ((skip_descends _ _).add_left _).add_left _
  | dispatch same =>
    rw [same.queue]
    exact ((Dispatch.beginning_descends _ _ _ _).add_left _).add_left _
  | call same =>
    rw [same.queue]
    exact (((Dispatching.call_descends _ _ _ _ _ _).add_left _).add_left _).add_left _
  | log same called logged posts =>
    have isDeeper := deeper _ _ _ _ _ rfl _ (posts ▸ List.mem_singleton_self _)
    rw [same.queue]
    exact (((called.descends isDeeper).add_left _).add_left _).add_left _
  | finish isOver => exact isOver.descends _ _ _
  | lose | breakOff | reject => rcases going with isGoing | isSaving <;> contradiction
  | leave _ busy =>
    rcases going with isGoing | rfl
    · cases isGoing
    · cases busy
  | save | fail => exact (Descends.drop 0 (zero_add _)).add_left _

namespace Run

theorem not_isRaised_of_isGoing {s : Site} {turn : StageTurn Enriching}
    (going : (afterEnriching e s turn).run.point.isGoing = true) : turn.stage.isRaised = false := by
  obtain ⟨stage, c, events⟩ := turn
  cases stage with
  | raised error =>
    obtain ⟨_, _, ⟨_, isEnded, _⟩, _⟩ := leave_spec e c error
    have ended : (afterEnriching e s ⟨.raised error, c, events⟩).run.point = _ := isEnded
    rw [ended] at going
    cases going
  | _ => rfl

/-- Every turn of a run that does not break off lowers what the run has before it, if whatever it
logs is deeper than its trigger. -/
theorem Turns.descends {r : Run} {turn : Turn} (turns : Turns e r turn)
    (going : turn.run.point.isGoing = true ∨ r.point = .saving)
    (deeper : ∀ site left claimed work stage, r.point = .dispatching site left claimed work stage →
      ∀ i ∈ posted turn.events, i.room limit < site.trigger.room limit) :
    Descends (turn.run.agenda limit) (r.agenda limit) := by
  obtain ⟨c, p⟩ := r
  by_cases isEnriching : ∃ site stage, p = .enriching site stage
  · obtain ⟨site, stage, rfl⟩ := isEnriching
    replace going := going.resolve_right nofun
    cases turns with
    | step now ready =>
      have notRaised := not_isRaised_of_isGoing going
      have unasked : stage.asked? = none := by
        cases stage <;> first | rfl | cases ready
      exact afterEnriching_descends ((Enrichment.ofSite e site).step_descends now c unasked notRaised)
        ((Enrichment.ofSite e site).step_advances now c stage).same notRaised
    | @resume wait reply now waits answered =>
      cases reply with
      | clause outcome =>
        have notRaised := not_isRaised_of_isGoing going
        have asked : ∃ frames, stage.asked? = some frames := by
          cases stage <;> first | exact ⟨_, rfl⟩ | cases waits
        obtain ⟨frames, asked⟩ := asked
        exact afterEnriching_descends
          ((Enrichment.ofSite e site).resume_descends now c outcome asked notRaised)
          ((Enrichment.ofSite e site).resume_advances now c outcome stage).same notRaised
      | component | repository => cases stage <;> cases waits <;> cases answered
  · exact Moves.descends turns.isMove going (fun site stage same => isEnriching ⟨site, stage, same⟩)
      deeper

end Run

end Choreography
