import Choreography.Proofs.System.Accounts
import Choreography.Proofs.System.Schedule

/-! Every firing is the matter of one evaluation. Once an evaluation has claimed a firing it
dispatches for it every frame that came back from the where-stage, unless its run
breaks off; and nobody else ever does anything for the firing. -/

namespace Choreography

/-- The rule that a run is in the middle of. -/
def Point.site? : Point → Option Site
  | .enriching site _ => some site
  | .frames site _ _ => some site
  | .dispatching site _ _ _ _ => some site
  | _ => none

/-- A run has ended with no report of a drained cascade. -/
def Point.HasBrokenOff (p : Point) : Prop :=
  ∃ result, p = .ended result ∧ ∀ report, result = .ok report → report.drained = false

section Moving

variable {e f : Engine} {c d : Cascade} {p q : Point} {events : List Event} {firing : Firing}
  {evaluation : Evaluation} {site : Site}

/-! ### The rule in hand -/

/-- After a move a run is in the middle of a rule if it was before, or if it has just taken it. -/
theorem Moves.site_eq (moves : Moves e c p f d q events) (isSite : q.site? = some site) :
    p.site? = some site ∧ p.takesRule = false ∨ p = .rules site.trigger (site.rule :: site.later) := by
  cases moves with
  | evaluate =>
    cases isSite
    exact .inr rfl
  | enrich | answer | skip | dispatch | call | log | finish => exact .inl ⟨isSite, rfl⟩
  | _ => cases isSite

theorem Point.Grounded.site_of_firing (grounded : q.Grounded logged root)
    (about : Deed.firing? ⟨evaluation, p, q, events⟩ = some firing) :
    ∃ site, q.site? = some site ∧ site.rule.name = firing.rule := by
  cases q with
  | dispatching site =>
    cases about
    exact ⟨site, rfl, congrArg (·.name) grounded.2.1.symm⟩
  | _ => cases about

/-- A run lets go of a firing when no frame is left, or when it breaks off. -/
theorem Moves.lets_go (moves : Moves e c p f d q events) (before : firing ∈ p.claims)
    (after : firing ∉ q.claims) :
    (∃ site claimed, p = .frames site [] claimed ∧ q = .rules site.trigger site.later) ∨
      q.HasBrokenOff := by
  cases moves with
  | close => exact .inl ⟨_, _, rfl, rfl⟩
  | lose _ _ _ undrained | leave _ _ undrained | breakOff _ undrained | reject _ undrained =>
    exact .inr ⟨_, rfl, undrained⟩
  | skip | call | log | finish => exact absurd before after
  | dispatch _ claims =>
    refine absurd ?_ after
    cases claims with
    | again => exact before
    | first => exact List.mem_append_left _ before
  | _ => cases before

theorem Point.not_hasDrained_of_claims (claims : firing ∈ p.claims) : ¬p.HasDrained := by
  cases p with
  | ended => cases claims
  | _ => exact id

theorem Point.HasBrokenOff.not_hasDrained (brokeOff : p.HasBrokenOff) : ¬p.HasDrained := by
  obtain ⟨result, rfl, undrained⟩ := brokeOff
  cases result with
  | ok report => exact Bool.eq_false_iff.mp (undrained report rfl)
  | error => exact id

theorem Moves.not_hasBrokenOff (moves : Moves e c p f d q events) : ¬p.HasBrokenOff := by
  rintro ⟨result, rfl, _⟩
  cases moves with
  | leave _ busy => cases busy

end Moving

namespace System

/-- The deeds by which a rule was taken in an evaluation. -/
def openings (s : System) (evaluation : Evaluation) : List Deed :=
  s.chronicle.filter fun d => d.evaluation = evaluation ∧ d.before.takesRule

/-- An evaluation began when its run took the rule of a site there, and at no other time. -/
def IsEvaluation (s : System) (evaluation : Evaluation) (site : Site) : Prop :=
  ∃ opening, s.openings evaluation = [opening] ∧
    opening.before = .rules site.trigger (site.rule :: site.later)

/-- Every frame of a firing that came back in an evaluation was dispatched, in order, and
every dispatch is over. -/
structure Concludes (s : System) (evaluation : Evaluation) (firing : Firing) (frames : Frames) :
    Prop where
  returned : s.returned evaluation = [frames]
  dispatched : (s.dispatches firing).map (·.frame) = frames.filter (·.support = firing.support)
  balances : s.Balances s.engine.catalogue s.engine.limits.depth firing

/-- What may have become of an evaluation that owns a firing. -/
inductive Stands (s : System) (firing : Firing) (evaluation : Evaluation) : Prop where
  | underway (working : s.workers[evaluation.worker]? = some w) (claims : firing ∈ w.run.point.claims)
  | concluded (concludes : s.Concludes evaluation firing frames)
  | brokenOff (working : s.workers[evaluation.worker]? = some w) (brokeOff : w.run.point.HasBrokenOff)

/-- The books are in order. -/
structure Accountable (s : System) : Prop where
  orderly : s.Orderly
  opened : ∀ (n : Nat) (w : Worker) (site : Site), s.workers[n]? = some w →
    w.run.point.site? = some site → s.IsEvaluation ⟨n, w.taken⟩ site
  told : ∀ deed ∈ s.chronicle, ∀ firing, deed.firing? = some firing →
    ∃ site, s.IsEvaluation deed.evaluation site ∧ site.rule.name = firing.rule
  accounted : ∀ (n : Nat) (w : Worker), s.workers[n]? = some w →
    s.Accounted s.engine.catalogue s.engine.limits.depth ⟨n, w.taken⟩ w.run.point
  stands : ∀ {firing evaluation}, s.Owns firing evaluation → s.Stands firing evaluation

variable {s t : System} {w : Worker} {n : Nat} {turn : Turn} {firing : Firing}
  {evaluation : Evaluation} {site : Site} {deed : Deed}

/-! ### The opening of an evaluation -/

theorem openings_added (added : t.chronicle = s.chronicle ++ [deed]) : t.openings evaluation =
    s.openings evaluation ++
      if deed.evaluation = evaluation ∧ deed.before.takesRule then [deed] else [] := by
  rw [openings, added, List.filter_append, List.filter_singleton, ← openings]
  by_cases opens : deed.evaluation = evaluation ∧ deed.before.takesRule
  · rw [if_pos opens, decide_eq_true opens]
    rfl
  · rw [if_neg opens, decide_eq_false opens]
    rfl

theorem IsEvaluation.keep (isEvaluation : s.IsEvaluation evaluation site)
    (added : t.chronicle = s.chronicle ++ [deed])
    (elsewhere : ¬(deed.evaluation = evaluation ∧ deed.before.takesRule)) :
    t.IsEvaluation evaluation site := by
  rw [IsEvaluation, openings_added added, if_neg elsewhere, List.append_nil]
  exact isEvaluation

/-- What takes a rule begins an evaluation that there was not before. -/
theorem Orderly.not_begun_mover (orderly : s.Orderly) (working : s.workers[n]? = some w)
    (takesRule : w.run.point.takesRule = true) :
    ∀ deed ∈ s.chronicle, deed.evaluation ≠ ⟨n, w.number⟩ := by
  intro deed made same
  obtain ⟨v, found, below⟩ := orderly.numbered deed made
  rw [same] at found below
  cases working.symm.trans found
  have next : w.number = w.taken + 1 := Worker.number_of_takesRule takesRule
  dsimp only at below
  omega

theorem Orderly.isEvaluation_told (orderly : s.Orderly) (working : s.workers[n]? = some w)
    (made : deed ∈ s.chronicle) (isEvaluation : s.IsEvaluation deed.evaluation site) :
    (s.turned n w turn).IsEvaluation deed.evaluation site := by
  refine isEvaluation.keep turned_chronicle ?_
  rintro ⟨same, takesRule⟩
  exact orderly.not_begun_mover working takesRule deed made same.symm

/-! ### The end of an evaluation -/

theorem Accounted.number (accounted : s.Accounted catalogue limit ⟨n, w.taken⟩ w.run.point) :
    s.Accounted catalogue limit ⟨n, w.number⟩ w.run.point := by
  obtain ⟨⟨c, p⟩, taken⟩ := w
  cases p with
  | next | rules | saving | ended => trivial
  | enriching | frames | dispatching => exact accounted

theorem Accounted.concludes {claimed : List Firing}
    (accounted : s.Accounted s.engine.catalogue s.engine.limits.depth evaluation
      (.frames site [] claimed))
    (isClaimed : firing ∈ claimed) : ∃ frames, s.Concludes evaluation firing frames := by
  obtain ⟨behind, serves, balances⟩ := accounted
  have returned := serves.returned
  rw [List.append_nil] at returned
  exact ⟨behind, returned, serves.served firing isClaimed, balances firing isClaimed⟩

theorem Concludes.keep {frames : Frames} (concludes : s.Concludes evaluation firing frames)
    (evolves : s.engine.Evolves t.engine) (same : s.SameAccounts t firing)
    (returned : t.returned evaluation = s.returned evaluation) :
    t.Concludes evaluation firing frames where
  returned := returned.trans concludes.returned
  dispatched := by
    rw [same.1]
    exact concludes.dispatched
  balances := by
    rw [evolves.catalogue, evolves.limits]
    exact concludes.balances.keep same

/-- An evaluation from which something has come back is past its where-stage. -/
theorem Accounted.not_answered (accounted : s.Accounted catalogue limit ⟨n, w.taken⟩ w.run.point)
    (returned : s.returned ⟨n, w.number⟩ = [frames]) : (w.deed n turn).returned? = none := by
  obtain ⟨⟨c, p⟩, taken⟩ := w
  cases p with
  | enriching =>
    have nothing : s.returned ⟨n, taken⟩ = [] := accounted
    cases nothing.symm.trans returned
  | _ => rfl

/-! ### What every step preserves -/

section Turning

variable (accountable : s.Accountable) (working : s.workers[n]? = some w)
  (moves : Run.IsMove s.engine w.run.cascade w.run.point turn)

include accountable working moves

theorem isEvaluation_mover (isSite : turn.run.point.site? = some site) :
    (s.turned n w turn).IsEvaluation ⟨n, w.number⟩ site := by
  rcases Moves.site_eq moves isSite with ⟨before, sameRule⟩ | taken
  · rw [Worker.number_of_not_takesRule sameRule]
    refine (accountable.opened n w site working before).keep turned_chronicle ?_
    rintro ⟨_, takesRule⟩
    exact Bool.false_ne_true (sameRule.symm.trans takesRule)
  · have takesRule : w.run.point.takesRule = true := by
      rw [taken]
      rfl
    have unbegun := accountable.orderly.not_begun_mover working takesRule
    have none : s.openings ⟨n, w.number⟩ = [] := by
      apply List.filter_eq_nil_iff.mpr
      intro deed made opens
      exact unbegun deed made (of_decide_eq_true opens).1
    refine ⟨w.deed n turn, ?_, taken⟩
    rw [openings_added turned_chronicle, none]
    exact if_pos ⟨rfl, takesRule⟩

/-- A turn keeps the accounts of the evaluation to which it belongs. -/
theorem accounted_mover :
    (s.turned n w turn).Accounted s.engine.catalogue s.engine.limits.depth ⟨n, w.number⟩
      turn.run.point := by
  have orderly := accountable.orderly
  have grounded := orderly.grounded w (List.mem_of_getElem? working)
  have accounted := (accountable.accounted n w working).number
  refine accounted_moves orderly accounted grounded.point moves turned_chronicle turned_engine
    ?unfree ?isNew
  case unfree =>
    intro firing claims
    exact orderly.spent (.claimed working claims)
  case isNew =>
    intro takesRule
    apply List.filterMap_eq_nil_iff.mpr
    intro deed inside
    obtain ⟨made, same⟩ := List.mem_filter.mp inside
    exact absurd (of_decide_eq_true same) (orderly.not_begun_mover working takesRule deed made)

/-- A claim that a run has just let go of is concluded, unless the run broke off. -/
theorem stands_let_go (claims : firing ∈ w.run.point.claims)
    (letGo : firing ∉ turn.run.point.claims)
    (elsewhere : (w.deed n turn).firing? ≠ some firing) :
    (s.turned n w turn).Stands firing ⟨n, w.taken⟩ := by
  have grounded := accountable.orderly.grounded w (List.mem_of_getElem? working)
  have evolves := (Moves.sound moves accountable.orderly.sound grounded.point).2
  rcases Moves.lets_go moves claims letGo with ⟨site, mine, isLast, isNext⟩ | brokeOff
  · have accounted := accountable.accounted n w working
    rw [isLast] at accounted claims
    obtain ⟨frames, concludes⟩ := Accounted.concludes accounted claims
    have same : s.SameAccounts (s.turned n w turn) firing :=
      sameAccounts_added turned_chronicle elsewhere
    have returned : (s.turned n w turn).returned ⟨n, w.taken⟩ = s.returned ⟨n, w.taken⟩ := by
      refine returned_eq turned_chronicle ?_
      rw [Worker.deed, isLast, isNext]
      rfl
    exact .concluded (concludes.keep evolves same returned)
  · exact .brokenOff (turned_mover working) brokeOff

/-- A firing that is concluded stays so: nothing more comes back in its evaluation. -/
theorem stands_concluded {frames : Frames} (concludes : s.Concludes evaluation firing frames)
    (elsewhere : (w.deed n turn).firing? ≠ some firing) :
    (s.turned n w turn).Stands firing evaluation := by
  have grounded := accountable.orderly.grounded w (List.mem_of_getElem? working)
  have evolves := (Moves.sound moves accountable.orderly.sound grounded.point).2
  have same : s.SameAccounts (s.turned n w turn) firing :=
    sameAccounts_added turned_chronicle elsewhere
  refine .concluded (concludes.keep evolves same ?_)
  rw [returned_added turned_chronicle]
  split
  · next isMine =>
    have returned := concludes.returned
    rw [← isMine] at returned
    have accounted := accountable.accounted n w working
    rw [Accounted.not_answered accounted returned]
    exact List.append_nil _
  · exact List.append_nil _

theorem stands_turned (owns : (s.turned n w turn).Owns firing evaluation) :
    (s.turned n w turn).Stands firing evaluation := by
  have orderly := accountable.orderly.turned working moves
  by_cases claimed : firing ∈ turn.run.point.claims
  · have isMover := orderly.single owns (.claimed (turned_mover working) claimed)
    rw [isMover]
    exact .underway (turned_mover working) claimed
  · have elsewhere : (w.deed n turn).firing? ≠ some firing := by
      intro about
      have grounded := orderly.grounded _ (mover_mem_turned turn working)
      exact claimed (Point.Grounded.claims grounded.point about)
    have before : s.Owns firing evaluation := by
      cases owns with
      | claimed isWorker claims =>
        rcases turned_worker working isWorker with ⟨rfl, rfl⟩ | ⟨_, isWorker⟩
        · exact absurd claims claimed
        · exact .claimed isWorker claims
      | done made about =>
        rcases mem_turned_chronicle.mp made with old | rfl
        · exact .done old about
        · exact absurd about elsewhere
    cases accountable.stands before with
    | @underway v isWorker claims =>
      by_cases isMover : evaluation.worker = n
      · subst isMover
        cases working.symm.trans isWorker
        have isNow := accountable.orderly.single before (.claimed isWorker claims)
        rw [isNow]
        exact stands_let_go accountable working moves claims claimed elsewhere
      · exact .underway (turned_other isMover isWorker) claims
    | concluded concludes => exact stands_concluded accountable working moves concludes elsewhere
    | @brokenOff v isWorker brokeOff =>
      have isOther : evaluation.worker ≠ n := by
        intro isMover
        rw [isMover] at isWorker
        cases working.symm.trans isWorker
        exact Moves.not_hasBrokenOff moves brokeOff
      exact .brokenOff (turned_other isOther isWorker) brokeOff

theorem Accountable.turned : (s.turned n w turn).Accountable := by
  have orderly := accountable.orderly.turned working moves
  have before := accountable.orderly.grounded w (List.mem_of_getElem? working)
  have evolves := (Moves.sound moves accountable.orderly.sound before.point).2
  constructor
  case orderly => exact orderly
  case opened =>
    intro m v site isWorker isSite
    rcases turned_worker working isWorker with ⟨rfl, rfl⟩ | ⟨elsewhere, isWorker⟩
    · exact isEvaluation_mover accountable working moves isSite
    · refine (accountable.opened m v site isWorker isSite).keep turned_chronicle ?_
      rintro ⟨same, _⟩
      exact elsewhere (congrArg (·.worker) same).symm
  case told =>
    intro deed made firing about
    rcases mem_turned_chronicle.mp made with old | rfl
    · obtain ⟨site, begun, isRule⟩ := accountable.told deed old firing about
      exact ⟨site, accountable.orderly.isEvaluation_told working old begun, isRule⟩
    · have grounded := orderly.grounded _ (mover_mem_turned turn working)
      obtain ⟨site, isSite, isRule⟩ := Point.Grounded.site_of_firing grounded.point about
      exact ⟨site, isEvaluation_mover accountable working moves isSite, isRule⟩
  case accounted =>
    intro m v isWorker
    rw [turned_engine, evolves.catalogue, evolves.limits]
    rcases turned_worker working isWorker with ⟨rfl, rfl⟩ | ⟨elsewhere, before⟩
    · exact accounted_mover accountable working moves
    · have grounded := accountable.orderly.grounded v (List.mem_of_getElem? before)
      refine (accountable.accounted m v before).keep grounded.point ?returned ?spent ?same
      case returned =>
        rw [returned_added turned_chronicle, if_neg, List.append_nil]
        intro same
        exact elsewhere (congrArg (·.worker) same).symm
      case spent => exact fun _ => evolves.spent accountable.orderly.sound.reached
      case same =>
        -- The deed is not about a claim of another run: a firing has one owner.
        intro firing claims
        refine sameAccounts_added turned_chronicle ?_
        intro about
        have mine := Owns.claimed isWorker claims
        have made : w.deed n turn ∈ (s.turned n w turn).chronicle := mem_turned_chronicle.mpr (.inr rfl)
        have also : (s.turned n w turn).Owns firing ⟨n, w.number⟩ := .done made about
        exact elsewhere (congrArg (·.worker) (orderly.single mine also))
  case stands => exact stands_turned accountable working moves

end Turning

/-! ### Between the moves -/

theorem Rests.sameAccounts (rests : s.Rests t) (firing : Firing) : s.SameAccounts t firing := by
  simp [SameAccounts, dispatches, calls, postings, concerning, rests.chronicle]

theorem Rests.returned_eq (rests : s.Rests t) (evaluation : Evaluation) :
    t.returned evaluation = s.returned evaluation := by
  simp [returned, rests.chronicle]

theorem Rests.isEvaluation (rests : s.Rests t) (begun : s.IsEvaluation evaluation site) :
    t.IsEvaluation evaluation site := by
  simpa [IsEvaluation, openings, rests.chronicle] using begun

theorem Accountable.rests (accountable : s.Accountable) (rests : s.Rests t) : t.Accountable := by
  constructor
  case orderly => exact accountable.orderly.rests rests
  case opened =>
    intro n w site working isSite
    rcases rests.worker n w working with ⟨v, isWorker, like⟩ | ⟨_, fresh⟩
    · rw [like.point] at isSite
      rw [like.taken]
      exact rests.isEvaluation (accountable.opened n v site isWorker isSite)
    · rw [fresh.point] at isSite
      cases isSite
  case told =>
    intro deed made firing about
    rw [rests.chronicle] at made
    obtain ⟨site, begun, isRule⟩ := accountable.told deed made firing about
    exact ⟨site, rests.isEvaluation begun, isRule⟩
  case accounted =>
    intro n w working
    rw [rests.evolves.catalogue, rests.evolves.limits]
    rcases rests.worker n w working with ⟨v, isWorker, like⟩ | ⟨_, fresh⟩
    · have grounded := accountable.orderly.grounded v (List.mem_of_getElem? isWorker)
      rw [like.taken, like.point]
      refine (accountable.accounted n v isWorker).keep grounded.point (rests.returned_eq _) ?spent ?same
      case spent => exact fun _ => rests.evolves.spent accountable.orderly.sound.reached
      case same => exact fun firing _ => rests.sameAccounts firing
    · rw [fresh.point]
      trivial
  case stands =>
    intro firing evaluation owns
    cases accountable.stands (rests.owns owns) with
    | underway working claims =>
      obtain ⟨w, isWorker, like⟩ := rests.kept _ _ working
      exact .underway isWorker (like.point ▸ claims)
    | concluded concludes =>
      exact .concluded (concludes.keep rests.evolves (rests.sameAccounts _) (rests.returned_eq _))
    | brokenOff working brokeOff =>
      obtain ⟨w, isWorker, like⟩ := rests.kept _ _ working
      exact .brokenOff isWorker (like.point ▸ brokeOff)

theorem accountable_preserved : Preserved Accountable where
  coherent accountable := accountable.orderly.sound.coherent
  rest := Accountable.rests
  turn := Accountable.turned

theorem Initial.accountable {start : System} (initial : start.Initial) : start.Accountable where
  orderly := initial.orderly
  opened n w site working := by simp [initial.workers] at working
  told deed made := by simp [initial.chronicle] at made
  accounted n w working := by simp [initial.workers] at working
  stands owns := absurd owns initial.not_owns

theorem Reaches.accountable {start : System} (reached : start.Reaches s) (initial : start.Initial) :
    s.Accountable :=
  accountable_preserved.reaches initial.accountable reached

/-- What a dispatch has called for, and what of that has been logged, can be told from where it
stands. -/
theorem Accountable.underway (accountable : s.Accountable) (working : s.workers[n]? = some w)
    {left : Frames} {claimed : List Firing} {work : Dispatch} {stage : Dispatching}
    (isPoint : w.run.point = .dispatching site left claimed work stage) : ∃ calls logged,
      work.Underway s.engine.catalogue s.engine.limits.depth stage calls logged := by
  have accounted := accountable.accounted n w working
  rw [isPoint] at accounted
  obtain ⟨_, _, _, _, _, _, _, _, _, _, _, _, underway⟩ := accounted
  exact ⟨_, _, underway⟩

/-- An evaluation that owns a firing has concluded it when its run has drained. -/
theorem Accountable.concludes (accountable : s.Accountable) (owns : s.Owns firing evaluation)
    (drained : s.HasDrained evaluation.worker) : ∃ frames, s.Concludes evaluation firing frames := by
  obtain ⟨w, working, drained⟩ := drained
  cases accountable.stands owns with
  | underway isWorker claims =>
    cases working.symm.trans isWorker
    exact absurd drained (Point.not_hasDrained_of_claims claims)
  | concluded concludes => exact ⟨_, concludes⟩
  | brokenOff isWorker brokeOff =>
    cases working.symm.trans isWorker
    exact absurd drained brokeOff.not_hasDrained

/-- Whatever the runs of an engine do, and in whatever order: all that is ever done about a
firing is done in one evaluation of its rule, and if the run of that evaluation reports a
drained cascade, then each frame of the firing that came back from the where-stage was
dispatched, in order and in full. -/
theorem fires_once {start : System} (initial : start.Initial) (reached : start.Reaches s)
    (made : deed ∈ s.concerning firing) :
    (∀ other ∈ s.concerning firing, other.evaluation = deed.evaluation) ∧
      (∃ site, s.IsEvaluation deed.evaluation site ∧ site.rule.name = firing.rule) ∧
      (s.HasDrained deed.evaluation.worker → ∃ frames, s.Concludes deed.evaluation firing frames) := by
  have accountable := reached.accountable initial
  obtain ⟨isMade, about⟩ := List.mem_filter.mp made
  have owns : s.Owns firing deed.evaluation := .done isMade (of_decide_eq_true about)
  refine ⟨fun other alsoMade => ?_, accountable.told deed isMade firing (of_decide_eq_true about),
    accountable.concludes owns⟩
  obtain ⟨isMade, about⟩ := List.mem_filter.mp alsoMade
  exact accountable.orderly.single (.done isMade (of_decide_eq_true about)) owns

end System

/-! ### Two runs of one cascade -/

namespace Bell

/-- Each ring is echoed, as often as the where-clause says. -/
def echo : Rule where
  name := "echo"
  whens := [{ action := ⟨"Bell", "ring"⟩, inputs := [("n", .variable "n")] }]
  thens := [{ action := ⟨"Wall", "answer"⟩, inputs := [("n", .variable "n")] }]
  enrich := some [.duplicate]

def start : System where
  engine :=
    { catalogue := { operations := [⟨⟨"Bell", "ring"⟩, .action⟩, ⟨⟨"Wall", "answer"⟩, .action⟩] }
      rules := { rules := [echo], index := [(⟨"Bell", "ring"⟩, [echo])] }
      limits := { retention := some 0 } }

theorem start_initial : start.Initial where
  log := .start
  fired := rfl
  firedByRoot := rfl
  active := rfl
  workers := rfl
  chronicle := rfl

/-- What matches when the bell has rung. -/
def heard : Frame := { bindings := [("n", .int 3)], support := [1], root := some 1 }

/-- Two runs of the cascade are in the where-stage of the rule at once, and both get the frame
back twice. The first run dispatches both frames, and the second is too late. The cascade is
forgotten, and is processed once more. -/
def schedule : List Happening :=
  [.record ⟨"Bell", "ring"⟩ [("n", .int 3)] [], .process 0, .process 0, .go 0, .go 1, .go 0, .go 1,
    .hear 0 (.clause (.finished (.ok (.frames [heard, heard])))), .go 0, .go 0,
    .hear 1 (.clause (.finished (.ok (.frames [heard, heard])))), .go 1,
    .hear 0 (.component (.finished (.ok .null))), .go 1, .go 0, .go 0, .go 0,
    .hear 0 (.component (.finished (.ok .null))), .go 0, .go 0, .go 0, .go 0, .go 0, .go 0, .go 0,
    .go 0, .hear 0 (.repository (.ok ())), .process 0, .go 2, .go 2,
    .hear 2 (.clause (.finished (.ok (.frames [heard])))), .go 2]

/-- The system at the end of the schedule. -/
def ended : System := start.after schedule

def firing : Firing := ⟨"echo", [1]⟩

theorem fires_once_echo : (ended.dispatches firing).length = 2 ∧
    (∀ deed ∈ ended.concerning firing, deed.evaluation = ⟨0, 1⟩) ∧
    ∃ frames, ended.Concludes ⟨0, 1⟩ firing frames := by
  have told : 0 < (ended.concerning firing).length := by decide +kernel
  have ofFirst : ∀ deed ∈ ended.concerning firing, deed.evaluation = ⟨0, 1⟩ := by decide +kernel
  obtain ⟨deed, made⟩ := List.exists_mem_of_length_pos told
  obtain ⟨_, _, concludes⟩ := System.fires_once start_initial (start.reaches_after schedule) made
  rw [ofFirst deed made] at concludes
  exact ⟨by decide +kernel, ofFirst, concludes (by decide +kernel)⟩

end Bell

end Choreography
