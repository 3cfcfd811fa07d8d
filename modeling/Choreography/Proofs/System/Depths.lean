import Choreography.Proofs.Run.Skipping
import Choreography.Proofs.System.Prospects
import Choreography.Proofs.System.Replay

/-! The limit of depth. A frame is compared with it by the depth that the log would give to its
calls, so nothing deeper is ever logged. A frame that is too deep is told of once, calls nothing and
logs nothing, and no later evaluation comes to its firing again. -/

namespace Choreography

open InvocationLog

/-- A dispatch is one deeper than the deepest invocation of its support. -/
structure Dispatch.IsMeasured (work : Dispatch) (history : List Invocation) : Prop where
  known : ∀ id ∈ work.frame.support, ∃ i ∈ history, i.id = id
  deepest : IsGreatest (depthsOver history work.frame.support) work.depth

/-- The dispatch that a deed began, was part of, or came to the end of. -/
def Deed.work? (d : Deed) : Option Dispatch :=
  match d.before, d.after with
  | .dispatching _ _ _ work _, _ => some work
  | _, .dispatching _ _ _ work _ => some work
  | _, _ => none

/-- A run has noted that a frame was too deep if and only if it has passed over one. -/
structure Run.Notices (r : Run) (deeds : List Deed) : Prop where
  noted : r.cascade.depthExceeded = true ↔
    ∃ deed ∈ deeds, (deed.before.skipped? deed.after).isSome = true
  reports : ∀ report, r.point = .ended (.ok report) → report.depthExceeded = r.cascade.depthExceeded

namespace System

/-- Everything that was done about the frames of a firing, from the beginning of each to its end. -/
def dealings (s : System) (firing : Firing) : List Deed :=
  s.chronicle.filter fun d => d.work?.map (·.firing) = some firing

/-- A firing is too deep for its frames to be dispatched. Each of them is told of once, and apart
from that nothing is done about the firing, in the one evaluation that comes to it. As long as its
cascade is in the log nobody matches it again. -/
structure Refuses (s : System) (limit : Int) (firing : Firing) (root : InvocationId) : Prop where
  together : Together s.history root firing.support
  idle : ∀ deed ∈ s.dealings firing, deed.call? = none ∧ posted deed.events = []
  told : (s.dealings firing).flatMap (·.events) =
    (s.dispatches firing).map fun work => .fault (work.tooDeep limit { root })
  once : ∀ deed ∈ s.dealings firing, ∀ other ∈ s.dealings firing, other.evaluation = deed.evaluation
  unmatched : s.Holds root → ∀ (rule : Rule) (trigger : Invocation), rule.name = firing.rule →
    ∀ f ∈ s.engine.unfired rule trigger, f.support ≠ firing.support

/-- A system that came of another keeps to a limit of depth. -/
structure KeepsDepth (start s : System) (limit : Int) : Prop where
  bounded : ∀ i ∈ s.history, i ∈ start.history ∨ (i.depth : Int) ≤ max limit 0
  /-- What is compared with the limit is the depth that a call would have. -/
  measured : ∀ firing, ∀ work ∈ s.dispatches firing, work.IsMeasured s.history
  /-- It is the depth that the log gives to it. -/
  stored : ∀ deed ∈ s.chronicle, ∀ i ∈ posted deed.events, ∃ work ∈ deed.work?,
    work ∈ s.dispatches work.firing ∧ (i.depth : Int) = work.depth
  refuses : ∀ firing, ∀ work ∈ s.dispatches firing, limit < work.depth →
    ∃ root, s.Refuses limit firing root
  reports : ∀ n, ∀ report ∈ s.reportOf n, (report.depthExceeded = true ↔
    ∃ deed ∈ s.deedsOf n, ∃ work ∈ deed.dispatch?, limit < work.depth)

/-- A deed deals with a frame as its depth demands. -/
structure Conforms (s : System) (limit : Int) (d : Deed) : Prop where
  begun : ∀ work ∈ d.work?, ∃ deed ∈ s.chronicle,
    deed.dispatch? = some work ∧ deed.evaluation = d.evaluation
  stored : ∀ i ∈ posted d.events, ∃ work ∈ d.work?, (i.depth : Int) = work.depth
  skips : ∀ work ∈ d.work?, limit < work.depth → d.call? = none ∧
    ∃ root, Together s.history root work.frame.support ∧
      d.events = (d.dispatch?.map fun work => Event.fault (work.tooDeep limit { root })).toList
  skipped : ∀ work, d.before.skipped? d.after = some work ↔ d.dispatch? = some work ∧ limit < work.depth

/-- Everything that was done is in accordance with a limit of depth. -/
structure Gauged (start : System) (limit : Int) (s : System) : Prop where
  accountable : s.Accountable
  sameLimit : s.engine.limits.depth = limit
  bounded : ∀ i ∈ s.history, i ∈ start.history ∨ (i.depth : Int) ≤ max limit 0
  measured : ∀ deed ∈ s.chronicle, ∀ work ∈ deed.dispatch?, work.IsMeasured s.history
  conforms : ∀ deed ∈ s.chronicle, s.Conforms limit deed

end System

variable {e f : Engine} {c d : Cascade} {p q : Point} {events : List Event} {evaluation : Evaluation}
  {history added : List Invocation} {i : Invocation} {work : Dispatch} {log : InvocationLog}
  {limit : Int}

/-! ### The depth of a dispatch -/

namespace Dispatch.IsMeasured

/-- What is logged later changes nothing about the depth. -/
theorem more (measured : work.IsMeasured history) (remembers : log.Remembers (history ++ added)) :
    work.IsMeasured (history ++ added) where
  known id inside := by
    obtain ⟨i, known, isId⟩ := measured.known id inside
    exact ⟨i, List.mem_append_left _ known, isId⟩
  deepest := by
    refine ⟨?_, ?_⟩
    · obtain ⟨i, known, inside, isDepth⟩ := measured.deepest.1
      exact ⟨i, List.mem_append_left _ known, inside, isDepth⟩
    · rintro _ ⟨i, known, inside, rfl⟩
      obtain ⟨j, isOld, sameId⟩ := measured.known i.id inside
      obtain rfl := remembers.eq_of_id_eq (List.mem_append_left _ isOld) known sameId
      exact measured.deepest.2 ⟨j, isOld, inside, rfl⟩

/-- The depth is that of the support alone. -/
theorem depth_eq {other : Dispatch} (measured : work.IsMeasured history)
    (alsoMeasured : other.IsMeasured history) (same : other.frame.support = work.frame.support) :
    other.depth = work.depth := by
  have deepest := alsoMeasured.deepest
  rw [same] at deepest
  exact deepest.unique measured.deepest

/-- The log gives a call the depth that its dispatch was compared with the limit by. -/
theorem depth_of_append (measured : work.IsMeasured history) (remembers : log.Remembers history)
    (logged : log.append action input output work.frame.support = .ok (grown, i)) :
    (i.depth : Int) = work.depth := by
  obtain ⟨j, _, inside, _⟩ := measured.deepest.1
  exact (remembers.append_isGreatest (List.ne_nil_of_mem inside) logged).unique measured.deepest

end Dispatch.IsMeasured

/-! ### What a move does about a frame -/

/-- A dispatch begins with a frame that is taken, at the depth of its support. -/
theorem Moves.begins (moves : Moves e c p f d q events)
    (begun : Deed.dispatch? ⟨evaluation, p, q, events⟩ = some work) :
    ∃ site left claimed mine, p = .frames site (work.frame :: left) claimed ∧
      q = .dispatching site left mine work (work.beginning e.limits.depth) ∧
      Dispatch.depthOf e.log work.frame.support = .ok work.depth := by
  cases moves with
  | dispatch _ _ deep =>
    cases begun
    exact ⟨_, _, _, _, rfl, rfl, deep⟩
  | leave => cases p <;> cases begun
  | _ => cases begun

theorem Moves.work_cases (moves : Moves e c p f d q events)
    (isWork : Deed.work? ⟨evaluation, p, q, events⟩ = some work) :
    (∃ site left claimed stage, p = .dispatching site left claimed work stage) ∨
      Deed.dispatch? ⟨evaluation, p, q, events⟩ = some work := by
  cases moves with
  | dispatch => exact .inr isWork
  | call | log | finish | reject =>
    cases isWork
    exact .inl ⟨_, _, _, _, rfl⟩
  | leave =>
    cases p with
    | dispatching =>
      cases isWork
      exact .inl ⟨_, _, _, _, rfl⟩
    | _ => cases isWork
  | _ => cases isWork

/-- Only a run in the midst of a dispatch logs anything. -/
theorem Moves.dispatching_of_posted (moves : Moves e c p f d q events) (isNew : i ∈ posted events) :
    ∃ site left claimed work stage, p = .dispatching site left claimed work stage := by
  cases moves with
  | log => exact ⟨_, _, _, _, _, rfl⟩
  | drain _ notes | leave _ _ _ notes =>
    rw [posted_eq_nil notes] at isNew
    cases isNew
  | enrich _ _ _ silent | answer _ _ _ silent | lose _ _ _ _ silent | dispatch _ _ _ silent
  | breakOff _ _ silent | reject _ _ silent =>
    rw [silent] at isNew
    cases isNew
  | save =>
    rw [posted_eq_nil (e.retain_isQuiet _)] at isNew
    cases isNew
  | _ => cases isNew

theorem Deed.of_dispatch {deed : Deed} (begun : deed.dispatch? = some work) :
    deed.firing? = some work.firing ∧ deed.work? = some work := by
  obtain ⟨_, before, after, _⟩ := deed
  unfold dispatch? at begun
  split at begun
  · next isBefore isAfter =>
    cases begun
    dsimp only at isBefore isAfter
    rw [firing?, work?, isBefore, isAfter]
    exact ⟨rfl, rfl⟩
  · cases begun

theorem Deed.dispatch_of_skipped (isSkipped : p.skipped? q = some work) :
    Deed.dispatch? ⟨evaluation, p, q, events⟩ = some work := by
  unfold Point.skipped? at isSkipped
  split at isSkipped <;> cases isSkipped
  rfl

/-- A frame is passed over if and only if it is too deep. -/
theorem Moves.skipped_iff (moves : Moves e c p f d q events) (evaluation : Evaluation) :
    p.skipped? q = some work ↔
      Deed.dispatch? ⟨evaluation, p, q, events⟩ = some work ∧ e.limits.depth < work.depth := by
  constructor
  · intro isSkipped
    have begun : Deed.dispatch? ⟨evaluation, p, q, events⟩ = some work :=
      Deed.dispatch_of_skipped isSkipped
    refine ⟨begun, ?_⟩
    obtain ⟨site, left, claimed, mine, rfl, rfl, _⟩ := moves.begins begun
    by_contra shallow
    rw [Dispatch.beginning, if_neg shallow] at isSkipped
    cases isSkipped
  · rintro ⟨begun, deep⟩
    obtain ⟨site, left, claimed, mine, rfl, rfl, _⟩ := moves.begins begun
    rw [Dispatch.beginning, if_pos deep]
    rfl

/-! ### The note of a run -/

theorem Run.notices_lawful : Lawful Run.Notices where
  begins e n i limit now := ⟨by simp [Run.start, Cascade.start], nofun⟩
  cancels notices := ⟨notices.noted, notices.reports⟩
  turns {e n w deeds turn} notices turns := by
    refine ⟨?_, fun report isEnded => by rw [turns.tells.reports report isEnded]; rfl⟩
    rw [turns.notes.noted, Bool.or_eq_true, notices.noted]
    simp [Worker.deed, or_and_right, exists_or]

namespace System

variable {start s t : System} {n : Nat} {w : Worker} {turn : Turn} {deed : Deed} {firing : Firing}
  {root : InvocationId}

/-! ### Dispatches -/

theorem mem_dispatches_iff : work ∈ s.dispatches firing ↔
    work.firing = firing ∧ ∃ deed ∈ s.chronicle, deed.dispatch? = some work := by
  rw [dispatches, List.mem_filterMap]
  constructor
  · rintro ⟨deed, concerns, begun⟩
    obtain ⟨made, about⟩ := List.mem_filter.mp concerns
    rw [(Deed.of_dispatch begun).1, decide_eq_true_iff] at about
    exact ⟨Option.some.inj about, deed, made, begun⟩
  · rintro ⟨rfl, deed, made, begun⟩
    exact ⟨deed, List.mem_filter.mpr ⟨made, decide_eq_true (Deed.of_dispatch begun).1⟩, begun⟩

/-- The dispatches of a firing are those that were begun in dealing with it. -/
theorem dispatches_eq_dealings (s : System) (firing : Firing) :
    s.dispatches firing = (s.dealings firing).filterMap (·.dispatch?) := by
  rw [dispatches, concerning, dealings, List.filterMap_filter, List.filterMap_filter]
  refine List.filterMap_congr fun deed _ => ?_
  cases begun : deed.dispatch? with
  | none => simp
  | some work =>
    obtain ⟨about, isWork⟩ := Deed.of_dispatch begun
    rw [about, isWork]
    rfl

/-- A run in the midst of a dispatch has begun it in the evaluation in hand. -/
theorem Accountable.begun (accountable : s.Accountable) (working : s.workers[n]? = some w)
    {site : Site} {left : Frames} {claimed : List Firing} {stage : Dispatching}
    (isPoint : w.run.point = .dispatching site left claimed work stage) :
    ∃ deed ∈ s.chronicle, deed.dispatch? = some work ∧ deed.evaluation = ⟨n, w.taken⟩ := by
  have orderly := accountable.orderly
  have grounded := (orderly.grounded w (List.mem_of_getElem? working)).point
  have accounted := accountable.accounted n w working
  rw [isPoint] at accounted grounded
  obtain ⟨_, _, _, works, _, _, _, _, isWork, _⟩ := accounted
  have inside : work ∈ s.dispatches work.firing := isWork ▸ List.mem_append_right _ (List.mem_singleton_self _)
  obtain ⟨_, deed, made, begun⟩ := mem_dispatches_iff.mp inside
  have claims : work.firing ∈ w.run.point.claims := by
    rw [isPoint]
    exact grounded.2.2.1
  exact ⟨deed, made, begun,
    orderly.single (.done made (Deed.of_dispatch begun).1) (.claimed working claims)⟩

theorem Conforms.later (conforms : s.Conforms limit deed)
    (chronicle : ∀ deed ∈ s.chronicle, deed ∈ t.chronicle) (history : t.history = s.history ++ added) :
    t.Conforms limit deed where
  begun work isWork := by
    obtain ⟨first, made, begun⟩ := conforms.begun work isWork
    exact ⟨first, chronicle first made, begun⟩
  stored := conforms.stored
  skips work isWork deep := by
    obtain ⟨uncalled, root, together, told⟩ := conforms.skips work isWork deep
    exact ⟨uncalled, root, history ▸ together.more, told⟩
  skipped := conforms.skipped

theorem Conforms.unposted (conforms : s.Conforms limit deed) (isWork : deed.work? = some work)
    (deep : limit < work.depth) : posted deed.events = [] := by
  obtain ⟨_, _, _, told⟩ := conforms.skips work isWork deep
  rw [told]
  cases deed.dispatch? <;> rfl

/-! ### What every step preserves -/

theorem Gauged.rests (gauged : Gauged start limit s) (rests : s.Rests t) : Gauged start limit t := by
  have accountable := gauged.accountable.rests rests
  have remembers := accountable.orderly.sound.log
  obtain ⟨added, history, areRoots⟩ := rests.history
  constructor
  case accountable => exact accountable
  case sameLimit => exact rests.evolves.limits ▸ gauged.sameLimit
  case bounded =>
    intro i known
    rw [history] at known
    rcases List.mem_append.mp known with old | isNew
    · exact gauged.bounded i old
    · have isRoot := areRoots i isNew
      rw [remembers.depth_of_root (history ▸ known) isRoot]
      exact .inr (Int.le_max_right ..)
  case measured =>
    intro deed made work begun
    rw [rests.chronicle] at made
    rw [history] at remembers ⊢
    exact (gauged.measured deed made work begun).more remembers
  case conforms =>
    intro deed made
    rw [rests.chronicle] at made
    exact (gauged.conforms deed made).later (fun _ => rests.chronicle ▸ id) history

section Turning

variable (gauged : Gauged start limit s) (working : s.workers[n]? = some w)
  (turns : w.run.Turns s.engine turn)

include gauged working turns

/-- A dispatch that a run deals with is measured, no matter when it was begun. -/
theorem Gauged.measured_now (isWork : (w.deed n turn).work? = some work) :
    work.IsMeasured s.history := by
  have orderly := gauged.accountable.orderly
  have grounded := (orderly.grounded w (List.mem_of_getElem? working)).point
  have moves : Moves s.engine w.run.cascade w.run.point turn.engine turn.run.cascade turn.run.point
    turn.events := turns.isMove
  rcases moves.work_cases isWork with ⟨site, left, claimed, stage, isPoint⟩ | begun
  · obtain ⟨deed, made, begun, _⟩ := gauged.accountable.begun working isPoint
    exact gauged.measured deed made work begun
  · obtain ⟨site, left, claimed, mine, isPoint, _, deep⟩ := moves.begins begun
    rw [isPoint] at grounded
    refine ⟨fun id inside => ?_, orderly.sound.log.depthOf_isGreatest deep⟩
    obtain ⟨i, known, isId, _⟩ := grounded.together _ List.mem_cons_self id inside
    exact ⟨i, known, isId⟩

theorem Gauged.conforms_now : (s.turned n w turn).Conforms limit (w.deed n turn) := by
  have orderly := gauged.accountable.orderly
  have grounded := (orderly.grounded w (List.mem_of_getElem? working)).point
  have moves : Moves s.engine w.run.cascade w.run.point turn.engine turn.run.cascade turn.run.point
    turn.events := turns.isMove
  constructor
  case begun =>
    intro work isWork
    rcases moves.work_cases isWork with ⟨site, left, claimed, stage, isPoint⟩ | begun
    · obtain ⟨deed, made, begun, sameEvaluation⟩ := gauged.accountable.begun working isPoint
      refine ⟨deed, mem_turned_chronicle.mpr (.inl made), begun, sameEvaluation.trans ?_⟩
      have sameRule : w.run.point.takesRule = false := by
        rw [isPoint]
        rfl
      rw [Worker.deed, Worker.number_of_not_takesRule sameRule]
    · exact ⟨_, mem_turned_chronicle.mpr (.inr rfl), begun, rfl⟩
  case stored =>
    intro i isNew
    obtain ⟨site, left, claimed, work, stage, isPoint⟩ := moves.dispatching_of_posted isNew
    have isWork : (w.deed n turn).work? = some work := by
      rw [Worker.deed, Deed.work?, isPoint]
    rw [isPoint] at moves
    obtain ⟨_, _, _, _, _, _, _, logged⟩ := moves.called_of_posted isNew
    have measured := gauged.measured_now working turns isWork
    exact ⟨work, isWork, measured.depth_of_append orderly.sound.log logged⟩
  case skips =>
    intro work isWork deep
    rcases moves.work_cases isWork with ⟨site, left, claimed, stage, isPoint⟩ | begun
    · -- the dispatch is over already, so that this is its end
      have isOver : stage = .finished [] := by
        obtain ⟨_, _, underway⟩ := gauged.accountable.underway working isPoint
        rw [gauged.sameLimit] at underway
        cases underway with
        | tooDeep => rfl
        | next shallow | calling shallow => exact absurd deep shallow
      rw [isOver] at isPoint
      obtain ⟨isAfter, silent⟩ := turns.passes_on isPoint
      rw [isPoint] at grounded
      refine ⟨?_, _, (grounded.1.together _ List.mem_cons_self).more, ?_⟩
      · rw [Worker.deed, Deed.call?, isAfter]
      · rw [Worker.deed, Deed.dispatch?, isPoint, silent]
        rfl
    · have isSkipped := (moves.skipped_iff ⟨n, w.number⟩).mpr ⟨begun, gauged.sameLimit ▸ deep⟩
      have told := turns.notes.told work isSkipped
      obtain ⟨site, left, claimed, mine, isPoint, isAfter, _⟩ := moves.begins begun
      rw [isPoint] at grounded
      refine ⟨?_, w.run.cascade.root, (grounded.together _ List.mem_cons_self).more, ?_⟩
      · rw [Worker.deed, Deed.call?, isAfter, Dispatch.beginning, if_pos (gauged.sameLimit ▸ deep)]
      · have begunNow : (w.deed n turn).dispatch? = some work := begun
        rw [begunNow, ← gauged.sameLimit]
        exact told
  case skipped =>
    intro work
    rw [← gauged.sameLimit]
    exact moves.skipped_iff _

theorem Gauged.turned : Gauged start limit (s.turned n w turn) := by
  have moves : Moves s.engine w.run.cascade w.run.point turn.engine turn.run.cascade turn.run.point
    turn.events := turns.isMove
  have orderly := gauged.accountable.orderly
  have grounded := (orderly.grounded w (List.mem_of_getElem? working)).point
  have evolves := (moves.sound orderly.sound grounded).2
  have accountable := gauged.accountable.turned working turns.isMove
  have remembers : turn.engine.log.Remembers (s.history ++ posted turn.events) :=
    accountable.orderly.sound.log
  have conformsNow := gauged.conforms_now working turns
  constructor
  case accountable => exact accountable
  case sameLimit => exact evolves.limits ▸ gauged.sameLimit
  case bounded =>
    intro i known
    rcases List.mem_append.mp known with old | isNew
    · exact gauged.bounded i old
    · obtain ⟨work, isWork, isDepth⟩ := conformsNow.stored i isNew
      have shallow : ¬limit < work.depth := by
        intro deep
        have none : posted turn.events = [] := conformsNow.unposted isWork deep
        rw [none] at isNew
        cases isNew
      omega
  case measured =>
    intro deed made work begun
    rcases mem_turned_chronicle.mp made with old | rfl
    · exact (gauged.measured deed old work begun).more remembers
    · exact (gauged.measured_now working turns (Deed.of_dispatch begun).2).more remembers
  case conforms =>
    intro deed made
    rcases mem_turned_chronicle.mp made with old | rfl
    · refine (gauged.conforms deed old).later (fun _ made => ?_) rfl
      exact mem_turned_chronicle.mpr (.inl made)
    · exact conformsNow

end Turning

theorem Gauged.step (gauged : Gauged start limit s) (next : s.Step t) : Gauged start limit t := by
  rcases next.keeps_or_turns gauged.accountable.orderly.sound.coherent with
    ⟨u, first, rfl | second⟩ | ⟨n, w, turn, working, turns, _, rfl⟩
  · exact gauged.rests first.rests
  · exact (gauged.rests first.rests).rests second.rests
  · exact gauged.turned working turns

/-- Whatever happens, every frame is dealt with as its depth demands. -/
theorem Reaches.gauged (initial : start.Initial) (reached : start.Reaches s) :
    Gauged start start.engine.limits.depth s := by
  induction reached with
  | start =>
    constructor
    case accountable => exact initial.accountable
    case sameLimit => rfl
    case bounded => exact fun i known => .inl known
    case measured => simp [initial.chronicle]
    case conforms => simp [initial.chronicle]
  | step _ next ih => exact ih.step next

/-! ### A firing that is too deep -/

/-- Everything that is done about the firing of a frame that is too deep passes over a frame. -/
theorem Gauged.dealt (gauged : Gauged start limit s) (measured : work.IsMeasured s.history)
    (deep : limit < work.depth) (known : i ∈ s.history) (inside : i.id ∈ work.frame.support)
    (concerns : deed ∈ s.dealings work.firing) :
    deed.call? = none ∧ posted deed.events = [] ∧ Together s.history i.root work.frame.support ∧
      deed.events =
        (deed.dispatch?.map fun work => Event.fault (work.tooDeep limit { root := i.root })).toList := by
  obtain ⟨made, about⟩ := List.mem_filter.mp concerns
  obtain ⟨other, isWork, sameFiring⟩ := Option.map_eq_some_iff.mp (of_decide_eq_true about)
  have conforms := gauged.conforms deed made
  obtain ⟨first, isMade, begun, _⟩ := conforms.begun other isWork
  have sameSupport : other.frame.support = work.frame.support := congrArg (·.support) sameFiring
  have alsoDeep : limit < other.depth := by
    rw [measured.depth_eq (gauged.measured first isMade other begun) sameSupport]
    exact deep
  obtain ⟨uncalled, root, together, told⟩ := conforms.skips other isWork alsoDeep
  rw [sameSupport] at together
  obtain ⟨j, alsoKnown, sameId, isRoot⟩ := together i.id inside
  have remembers := gauged.accountable.orderly.sound.log
  obtain rfl := remembers.eq_of_id_eq alsoKnown known sameId
  rw [isRoot]
  exact ⟨uncalled, conforms.unposted isWork alsoDeep, together, told⟩

theorem Gauged.refuses (gauged : Gauged start limit s) (inside : work ∈ s.dispatches firing)
    (deep : limit < work.depth) : ∃ root, s.Refuses limit firing root := by
  obtain ⟨rfl, first, made, begun⟩ := mem_dispatches_iff.mp inside
  obtain ⟨about, isWork⟩ := Deed.of_dispatch begun
  have orderly := gauged.accountable.orderly
  have measured := gauged.measured first made work begun
  obtain ⟨i, known, inSupport, _⟩ := measured.deepest.1
  have dealt {deed : Deed} (concerns : deed ∈ s.dealings work.firing) :=
    gauged.dealt measured deep known inSupport concerns
  have concernsFirst : first ∈ s.dealings work.firing := by
    refine List.mem_filter.mpr ⟨made, decide_eq_true ?_⟩
    rw [isWork]
    rfl
  have together := (dealt concernsFirst).2.2.1
  refine ⟨i.root, ?_⟩
  constructor
  case together => exact together
  case idle => exact fun deed concerns => ⟨(dealt concerns).1, (dealt concerns).2.1⟩
  case told =>
    rw [dispatches_eq_dealings, List.map_filterMap, List.filterMap_eq_flatMap_toList]
    exact List.flatMap_congr fun deed concerns => (dealt concerns).2.2.2
  case once =>
    have owner {deed : Deed} (concerns : deed ∈ s.dealings work.firing) :
        s.Owns work.firing deed.evaluation := by
      obtain ⟨isMade, isAbout⟩ := List.mem_filter.mp concerns
      obtain ⟨other, isOther, sameFiring⟩ := Option.map_eq_some_iff.mp (of_decide_eq_true isAbout)
      obtain ⟨beginning, alsoMade, begun, same⟩ := (gauged.conforms deed isMade).begun other isOther
      rw [← same, ← sameFiring]
      exact .done alsoMade (Deed.of_dispatch begun).1
    exact fun deed concerns other alsoConcerns => orderly.single (owner alsoConcerns) (owner concerns)
  case unmatched =>
    intro holds rule trigger sameName f unfired sameSupport
    have notFired := (Engine.mem_unfired_iff.mp unfired).2
    have isFiring : (⟨rule.name, f.support⟩ : Firing) = work.firing := by rw [sameName, sameSupport]
    rcases orderly.spent (.done made about) with fired | ⟨id, isMember, _, absent⟩
    · exact notFired (isFiring ▸ fired)
    · obtain ⟨j, isKnown, isId, isRoot⟩ := together id isMember
      exact absent j (orderly.mem_entries_of_holds holds isKnown isRoot) isId

/-- Nothing deeper than the limit is ever logged, and the depth that a frame is compared with it by is
the one that the log stores. A frame that is too deep is told of once; it calls nothing and logs
nothing, and as long as its cascade is in the log its firing is not tried again. A run reports that
the limit was exceeded if and only if it has passed over such a frame. -/
theorem depth_limited (initial : start.Initial) (reached : start.Reaches s) :
    start.KeepsDepth s start.engine.limits.depth := by
  have gauged := Reaches.gauged initial reached
  constructor
  case bounded => exact gauged.bounded
  case measured =>
    intro firing work inside
    obtain ⟨_, deed, made, begun⟩ := mem_dispatches_iff.mp inside
    exact gauged.measured deed made work begun
  case stored =>
    intro deed made i isNew
    obtain ⟨work, isWork, isDepth⟩ := (gauged.conforms deed made).stored i isNew
    obtain ⟨first, isMade, begun, _⟩ := (gauged.conforms deed made).begun work isWork
    exact ⟨work, isWork, mem_dispatches_iff.mpr ⟨rfl, first, isMade, begun⟩, isDepth⟩
  case refuses => exact fun firing work inside deep => gauged.refuses inside deep
  case reports =>
    intro n report reports
    obtain ⟨w, working, isEnded⟩ := exists_of_reportOf reports
    have notices := (reached.obeys Run.notices_lawful initial).obeys n w working
    rw [notices.reports report isEnded, notices.noted]
    refine exists_congr fun deed => and_congr_right fun inside => ?_
    have made := (List.mem_filter.mp inside).1
    rw [Option.isSome_iff_exists]
    exact exists_congr fun work => (gauged.conforms deed made).skipped work

end System

/-! ### An answer that would be too deep -/

namespace Relay

/-- The second ring is as deep as the limit allows. -/
def beyond : Firing := ⟨"answer", [3]⟩

theorem depth_limited_relay : (∃ work ∈ drained.dispatches beyond, 2 < work.depth) ∧
    (∃ root, drained.Refuses 2 beyond root) ∧
    (drained.reportOf 0).map (·.depthExceeded) = some true ∧
    ∀ i ∈ drained.history, (i.depth : Int) ≤ 2 := by
  have deep : ∃ work ∈ drained.dispatches beyond, 2 < work.depth := by decide +kernel
  have keeps := System.depth_limited start_initial (start.reaches_after schedule)
  refine ⟨deep, ?_, by decide +kernel, fun i known => ?_⟩
  · obtain ⟨work, inside, isDeep⟩ := deep
    exact keeps.refuses beyond work inside isDeep
  · exact (keeps.bounded i known).resolve_left nofun

end Relay

end Choreography
