import Choreography.Proofs.System.Depths
import Choreography.Proofs.System.Postings
import Choreography.Proofs.System.Rounds

/-! A run goes through its cascade level by level. Its queue holds what was logged, in the order of
the log, and never anything that is more than one deeper than the invocation in hand. A frame rests
on nothing later than that, so that the deepest of its support is the invocation in hand itself, and
what the frame leads to is one deeper. -/

namespace Choreography

open InvocationLog

/-- The invocation in hand. -/
def Point.trigger? : Point → Option Invocation
  | .rules trigger _ => some trigger
  | .enriching site _ | .frames site _ _ | .dispatching site _ _ _ _ => some site.trigger
  | .next | .saving | .ended _ => none

/-- The frames of the rule in hand that have still to be dealt with. -/
def Point.inHand : Point → Frames
  | .enriching _ stage => stage.frames
  | .frames _ left _ => left
  | .dispatching _ left _ work _ => work.frame :: left
  | _ => []

/-- The frames in hand rest on nothing that is later than the invocation in hand. -/
def Point.LooksBack (p : Point) : Prop :=
  ∀ trigger ∈ p.trigger?, ∀ f ∈ p.inHand, ∀ id ∈ f.support, id ≤ trigger.id

/-- Invocations that were taken, and others that wait behind them, are in the order of their depths.
What waits is of two levels at most: that of the latest that was taken, and the one after it. -/
structure Levels (taken waiting : List Invocation) : Prop where
  sorted : (taken ++ waiting).Pairwise (·.depth ≤ ·.depth)
  near : ∀ trigger ∈ taken.getLast?, ∀ i ∈ waiting, i.depth ≤ trigger.depth + 1
  alone : taken = [] → waiting.length ≤ 1

namespace System

/-- Everything that was ever logged in a cascade, in order. -/
def cascadeOf (s : System) (root : InvocationId) : List Invocation := s.history.filter (·.root = root)

/-- No other run was begun for a cascade. -/
def IsOnlyRun (s : System) (n : Nat) (root : InvocationId) : Prop :=
  ∀ (m : Nat) (v : Worker), s.workers[m]? = some v → v.run.cascade.root = root → m = n

/-- What a run has still to take, or did not come to any more. -/
def untaken (s : System) (n : Nat) (w : Worker) : List Invocation := w.run.cascade.queue ++ s.cutOff n

/-- The invocations of a run, in the order in which it takes them. -/
def lineOf (s : System) (n : Nat) (w : Worker) : List Invocation := s.processedBy n ++ s.untaken n w

/-- A run goes through a cascade level by level. -/
structure GoesByLevels (s : System) (n : Nat) (root : InvocationId) : Prop where
  /-- The run has logged all of the cascade but its root. -/
  logged : ∃ first, first.id = root ∧ s.cascadeOf root = first :: s.loggedBy n
  levels : (s.cascadeOf root).Pairwise fun i j => i.id < j.id ∧ i.depth ≤ j.depth
  ascending : (s.processedBy n).Pairwise (·.id < ·.id)
  processed : s.processedBy n <+: s.cascadeOf root
  exhausted : s.HasDrained n → s.processedBy n = s.cascadeOf root
  /-- The depth of a dispatch comes from the whole of its support. -/
  measured : ∀ deed ∈ s.deedsOf n, ∀ work ∈ deed.work?, work.IsMeasured s.history ∧
    ∃ trigger ∈ s.processedBy n, deed.before.trigger? = some trigger ∧ work.depth = trigger.depth + 1
  deeper : ∀ deed ∈ s.deedsOf n, ∀ i ∈ posted deed.events,
    ∃ trigger ∈ s.processedBy n, deed.before.trigger? = some trigger ∧ i.depth = trigger.depth + 1

/-- A run has its invocations in line: those that it has taken, and then those before it. -/
structure Lined (s : System) (n : Nat) (w : Worker) : Prop where
  logged : ∃ first, s.lineOf n w = first :: s.loggedBy n
  inOrder : (s.lineOf n w).Sublist s.history
  within : ∀ i ∈ s.lineOf n w, i.root = w.run.cascade.root
  made : w.run.hasEnded = false → s.cutOff n = w.run.point.made
  hand : ∀ trigger ∈ w.run.point.trigger?, (s.processedBy n).getLast? = some trigger
  emptied : w.run.point = .saving ∨ w.run.point.HasDrained → s.untaken n w = []
  looksBack : w.run.point.LooksBack

/-- All runs have their invocations in line. -/
structure Aligned (s : System) : Prop where
  orderly : s.Orderly
  lined : ∀ (n : Nat) (w : Worker), s.workers[n]? = some w → s.Lined n w

/-- A run that has a cascade to itself takes it by levels. -/
structure Tiered (s : System) (n : Nat) (w : Worker) : Prop where
  levels : Levels (s.processedBy n) (s.untaken n w)
  deeper : ∀ deed ∈ s.deedsOf n, ∀ work ∈ deed.work?,
    ∃ trigger ∈ s.processedBy n, deed.before.trigger? = some trigger ∧ work.depth = trigger.depth + 1

/-- Every run takes a cascade by levels that was begun lately and that it has to itself. -/
def Ranged (s : System) (since : InvocationId) : Prop :=
  ∀ (n : Nat) (w : Worker), s.workers[n]? = some w → since ≤ w.run.cascade.root →
    s.IsOnlyRun n w.run.cascade.root → s.Tiered n w

end System

variable {e f : Engine} {c d : Cascade} {p q : Point} {events : List Event} {evaluation : Evaluation}
  {history taken waiting new after : List Invocation} {i trigger : Invocation} {work : Dispatch}
  {frame : Frame} {root : InvocationId}

/-! ### Levels -/

namespace Levels

theorem start (i : Invocation) : Levels [] [i] where
  sorted := List.pairwise_singleton ..
  near trigger isLast := by cases isLast
  alone _ := Nat.le_refl 1

/-- Nothing that was taken is deeper than the latest of it. -/
theorem depth_le (levels : Levels taken waiting) (isLast : taken.getLast? = some trigger)
    (inside : i ∈ taken) : i.depth ≤ trigger.depth := by
  obtain ⟨before, rfl⟩ := List.getLast?_eq_some_iff.mp isLast
  have sorted := (List.pairwise_append.mp levels.sorted).1
  rcases List.mem_append.mp inside with early | isTrigger
  · exact (List.pairwise_append.mp sorted).2.2 i early trigger (List.mem_singleton_self trigger)
  · rw [List.mem_singleton.mp isTrigger]

/-- The next one is taken. It is no less deep than the one before it, so that what waits behind it is
near enough. -/
theorem take (levels : Levels taken (i :: waiting)) : Levels (taken ++ [i]) waiting where
  sorted := by
    rw [List.append_assoc]
    exact levels.sorted
  near trigger isLast j waits := by
    rw [List.getLast?_concat] at isLast
    cases isLast
    cases last : taken.getLast? with
    | none =>
      have few := levels.alone (List.getLast?_eq_none_iff.mp last)
      have none : waiting = [] := List.eq_nil_of_length_eq_zero (by simpa using few)
      rw [none] at waits
      cases waits
    | some trigger =>
      have isTaken := List.mem_of_getLast? last
      have isNear := levels.near trigger last j (List.mem_cons_of_mem i waits)
      have notLess := (List.pairwise_append.mp levels.sorted).2.2 trigger isTaken i List.mem_cons_self
      omega
  alone none := by simp at none

/-- What is one deeper than the latest that was taken may join those that wait. -/
theorem join (levels : Levels taken waiting) (isLast : taken.getLast? = some trigger)
    (deeper : ∀ i ∈ new, i.depth = trigger.depth + 1) : Levels taken (waiting ++ new) where
  sorted := by
    rw [← List.append_assoc]
    refine List.pairwise_append.mpr ⟨levels.sorted, ?_, ?_⟩
    · exact List.pairwise_of_forall_mem_list fun i isNew j alsoNew =>
        Nat.le_of_eq ((deeper i isNew).trans (deeper j alsoNew).symm)
    · intro i inside j isNew
      rw [deeper j isNew]
      rcases List.mem_append.mp inside with isTaken | waits
      · exact Nat.le_succ_of_le (levels.depth_le isLast isTaken)
      · exact levels.near trigger isLast i waits
  near other isOther i inside := by
    cases isLast.symm.trans isOther
    rcases List.mem_append.mp inside with waits | isNew
    · exact levels.near trigger isLast i waits
    · exact Nat.le_of_eq (deeper i isNew)
  alone none := by
    rw [none] at isLast
    cases isLast

/-- The levels are kept as long as whatever joins is one deeper than the latest that was taken, and
nothing is taken at the same time. -/
theorem move {popped : Option Invocation} (levels : Levels taken waiting)
    (line : waiting ++ new = popped.toList ++ after)
    (joins : new ≠ [] → popped = none ∧
      ∃ trigger, taken.getLast? = some trigger ∧ ∀ i ∈ new, i.depth = trigger.depth + 1) :
    Levels (taken ++ popped.toList) after := by
  by_cases none : new = []
  · rw [none, List.append_nil] at line
    rw [line] at levels
    cases popped with
    | none => rwa [Option.toList_none, List.append_nil]
    | some i => exact levels.take
  · obtain ⟨rfl, trigger, isLast, deeper⟩ := joins none
    rw [Option.toList_none, List.nil_append] at line
    rw [Option.toList_none, List.append_nil, ← line]
    exact levels.join isLast deeper

end Levels

/-! ### What a move does about the line -/

/-- A run has the invocation in hand that it has taken last. -/
theorem Moves.hand (moves : Moves e c p f d q events) (isTrigger : q.trigger? = some trigger) :
    Deed.popped? ⟨evaluation, p, q, events⟩ = some trigger ∨
      Deed.popped? ⟨evaluation, p, q, events⟩ = none ∧ p.trigger? = some trigger := by
  cases moves with
  | pop => exact .inl isTrigger
  | drain | turn | lose | leave | breakOff | reject | save | fail => cases isTrigger
  | _ => exact .inr ⟨rfl, isTrigger⟩

/-- Before it saves a cascade a run has nothing before it. -/
theorem Moves.line_eq_nil (moves : Moves e c p f d q events)
    (before : p = .saving → c.queue ++ p.made = []) (after : q = .saving ∨ q.HasDrained) :
    d.queue ++ Deed.unreported ⟨evaluation, p, q, events⟩ = [] := by
  cases moves with
  | drain empty =>
    rw [empty]
    rfl
  | save => exact before rfl
  | lose _ _ _ undrained | leave _ _ undrained | breakOff _ undrained | reject _ undrained =>
    rcases after with isSaving | drained
    · cases isSaving
    · exact absurd drained (Point.HasBrokenOff.not_hasDrained ⟨_, rfl, undrained⟩)
  | _ =>
    rcases after with isSaving | drained
    · cases isSaving
    · exact drained.elim

theorem Moves.looksBack (moves : Moves e c p f d q events) (coherent : e.log.Coherent)
    (before : p.LooksBack) : q.LooksBack := by
  intro trigger isTrigger frame inside id isMember
  cases moves with
  | evaluate _ _ held =>
    cases isTrigger
    exact id_le_of_mem_support coherent (Engine.mem_unfired_iff.mp (held frame inside)).1 isMember
  | enrich _ descend | answer _ descend =>
    obtain ⟨g, isAhead, same⟩ := descend frame inside
    exact before trigger isTrigger g isAhead id (same ▸ isMember)
  | skip | finish => exact before trigger isTrigger frame (List.mem_cons_of_mem _ inside) id isMember
  | dispatch | call | log => exact before trigger isTrigger frame inside id isMember
  | _ => cases inside

/-- A run in the midst of a dispatch has its frame, and the invocation that this is for, in hand. -/
theorem Moves.work_inHand (moves : Moves e c p f d q events)
    (isWork : Deed.work? ⟨evaluation, p, q, events⟩ = some work) :
    work.frame ∈ p.inHand ∧ ∃ trigger, p.trigger? = some trigger := by
  rcases moves.work_cases isWork with ⟨_, _, _, _, rfl⟩ | begun
  · exact ⟨List.mem_cons_self, _, rfl⟩
  · obtain ⟨_, _, _, _, rfl, _⟩ := moves.begins begun
    exact ⟨List.mem_cons_self, _, rfl⟩

/-- A move that logs anything takes nothing. -/
theorem Moves.popped_of_posted (moves : Moves e c p f d q events) (isNew : i ∈ posted events) :
    Deed.popped? ⟨evaluation, p, q, events⟩ = none := by
  obtain ⟨_, _, _, _, _, rfl⟩ := moves.dispatching_of_posted isNew
  rfl

theorem Point.Grounded.inHand (grounded : p.Grounded history root)
    (isTrigger : p.trigger? = some trigger) (inside : frame ∈ p.inHand) :
    trigger.id ∈ frame.support ∧ Together history root frame.support := by
  cases p with
  | enriching | frames =>
    cases isTrigger
    exact ⟨Site.Grounded.resting grounded frame inside, Site.Grounded.together grounded frame inside⟩
  | dispatching =>
    cases isTrigger
    exact ⟨grounded.1.resting frame inside, grounded.1.together frame inside⟩
  | _ => cases inside

namespace System

variable {start s t : System} {n m : Nat} {v w : Worker} {turn : Turn} {deed : Deed}
  {since : InvocationId} {limit : Int}

/-! ### The line of a run -/

theorem untaken_congr (deeds : t.deedsOf n = s.deedsOf n) (like : w.Like v) :
    t.untaken n w = s.untaken n v := by
  rw [untaken, like.work.queue, cutOff, deeds, ← cutOff, ← untaken]

/-- A run keeps its line as long as it does nothing itself. -/
theorem Lined.later (lined : s.Lined n v) (deeds : t.deedsOf n = s.deedsOf n)
    (history : s.history <+: t.history) (like : w.Like v) : t.Lined n w := by
  have processed : t.processedBy n = s.processedBy n := congrArg (·.filterMap (·.popped?)) deeds
  have cutOff : t.cutOff n = s.cutOff n := congrArg unreported deeds
  have untaken : t.untaken n w = s.untaken n v := untaken_congr deeds like
  have logged : t.loggedBy n = s.loggedBy n := congrArg (·.flatMap fun d => posted d.events) deeds
  have line : t.lineOf n w = s.lineOf n v := by rw [lineOf, processed, untaken, ← lineOf]
  have sameEnd : w.run.hasEnded = v.run.hasEnded := by rw [Run.hasEnded, like.point, ← Run.hasEnded]
  constructor
  case logged =>
    rw [line, logged]
    exact lined.logged
  case inOrder =>
    rw [line]
    exact lined.inOrder.trans history.sublist
  case within =>
    rw [line, like.work.root]
    exact lined.within
  case made =>
    rw [cutOff, like.point, sameEnd]
    exact lined.made
  case hand =>
    rw [processed, like.point]
    exact lined.hand
  case emptied =>
    rw [untaken, like.point]
    exact lined.emptied
  case looksBack =>
    rw [like.point]
    exact lined.looksBack

theorem Lined.fresh (fresh : w.Fresh t.history) (none : t.deedsOf n = []) : t.Lined n w := by
  obtain ⟨_, isPoint, i, known, isRoot, queue⟩ := fresh
  have processed : t.processedBy n = [] := congrArg (·.filterMap (·.popped?)) none
  have cutOff : t.cutOff n = [] := congrArg unreported none
  have line : t.lineOf n w = [i] := by rw [lineOf, processed, untaken, cutOff, queue]; rfl
  constructor
  case logged => exact ⟨i, by rw [line, loggedBy, none]; rfl⟩
  case inOrder =>
    rw [line]
    exact List.singleton_sublist.mpr known
  case within =>
    rw [line]
    exact List.forall_mem_singleton.mpr isRoot.symm
  case made =>
    rw [cutOff, isPoint]
    exact fun _ => rfl
  case hand =>
    intro trigger isTrigger
    rw [isPoint] at isTrigger
    cases isTrigger
  case emptied =>
    rw [isPoint]
    rintro (isSaving | drained)
    · cases isSaving
    · exact drained.elim
  case looksBack =>
    intro trigger isTrigger
    rw [isPoint] at isTrigger
    cases isTrigger

theorem Lined.turned (lined : s.Lined n w) (orderly : s.Orderly) (working : s.workers[n]? = some w)
    (moves : Run.IsMove s.engine w.run.cascade w.run.point turn) :
    (s.turned n w turn).Lined n { run := turn.run, taken := w.number } := by
  have made := lined.made moves.not_hasEnded
  have line : (s.turned n w turn).lineOf n { run := turn.run, taken := w.number } =
      s.lineOf n w ++ posted turn.events := by
    have moved := moves.line_eq ⟨n, w.number⟩
    rw [lineOf, untaken, processedBy_turned, cutOff_turned, lineOf, untaken, made, List.append_assoc,
      List.append_assoc, moved]
    rfl
  have after := orderly.turned working moves
  have grounded := (after.grounded _ (mover_mem_turned turn working)).point
  constructor
  case logged =>
    obtain ⟨first, isLine⟩ := lined.logged
    exact ⟨first, by rw [line, isLine, loggedBy_turned]; rfl⟩
  case inOrder =>
    rw [line]
    exact lined.inOrder.append (List.Sublist.refl _)
  case within =>
    rw [line]
    refine List.forall_mem_append.mpr ⟨?_, fun i isNew => moves.root_of_posted grounded isNew⟩
    rw [moves.root_eq]
    exact lined.within
  case made =>
    rw [cutOff_turned]
    exact fun going => Deed.unreported_eq_made rfl going
  case hand =>
    intro trigger isTrigger
    rw [processedBy_turned]
    rcases moves.hand isTrigger with popped | ⟨none, isHand⟩
    · rw [Worker.deed, popped, Option.toList_some, List.getLast?_concat]
    · rw [Worker.deed, none, Option.toList_none, List.append_nil]
      exact lined.hand trigger isHand
  case emptied =>
    intro rests
    rw [untaken, cutOff_turned]
    refine moves.line_eq_nil (fun isSaving => ?_) rests
    rw [← made]
    exact lined.emptied (.inl isSaving)
  case looksBack => exact moves.looksBack orderly.sound.coherent lined.looksBack

theorem Aligned.rests (aligned : s.Aligned) (rests : s.Rests t) : t.Aligned := by
  have orderly := aligned.orderly.rests rests
  obtain ⟨added, history, _⟩ := rests.history
  refine ⟨orderly, fun n w working => ?_⟩
  rcases rests.worker n w working with ⟨v, isWorker, like⟩ | ⟨absent, fresh⟩
  · exact (aligned.lined n v isWorker).later (rests.deedsOf_eq n) ⟨added, history.symm⟩ like
  · refine .fresh ?_ ((rests.deedsOf_eq n).trans (aligned.orderly.deedsOf_eq_nil absent))
    obtain ⟨taken, isPoint, i, known, first⟩ := fresh
    exact ⟨taken, isPoint, i, history ▸ List.mem_append_left _ known, first⟩

theorem Aligned.turned (aligned : s.Aligned) (working : s.workers[n]? = some w)
    (moves : Run.IsMove s.engine w.run.cascade w.run.point turn) : (s.turned n w turn).Aligned := by
  refine ⟨aligned.orderly.turned working moves, fun m v isWorker => ?_⟩
  rcases turned_worker working isWorker with ⟨rfl, rfl⟩ | ⟨elsewhere, isWorker⟩
  · exact (aligned.lined m w working).turned aligned.orderly working moves
  · exact (aligned.lined m v isWorker).later (deedsOf_turned_other elsewhere)
      (List.prefix_append ..) (.refl v)

theorem aligned_preserved : Preserved Aligned where
  coherent aligned := aligned.orderly.sound.coherent
  rest := Aligned.rests
  turn := Aligned.turned

theorem Reaches.aligned (reached : start.Reaches s) (initial : start.Initial) : s.Aligned := by
  refine aligned_preserved.reaches ⟨initial.orderly, fun n w working => ?_⟩ reached
  rw [initial.workers] at working
  cases working

/-! ### A cascade with one run -/

section Alone

variable (aligned : s.Aligned) (booked : s.Booked since) (working : s.workers[n]? = some w)
  (isLater : since ≤ w.run.cascade.root) (only : s.IsOnlyRun n w.run.cascade.root)

include aligned booked working isLater only

omit working in
/-- Whatever is not the root of the cascade was logged by its run. -/
theorem Aligned.mem_loggedBy (known : i ∈ s.history) (isRoot : i.root = w.run.cascade.root)
    (caused : i.root ≠ i.id) : i ∈ s.loggedBy n := by
  obtain ⟨deed, made, isPosted⟩ :=
    List.mem_flatMap.mp ((booked.booked i known (isRoot ▸ isLater)).resolve_left caused)
  obtain ⟨v, isWorker, _⟩ := aligned.orderly.numbered deed made
  have isLogged : i ∈ s.loggedBy deed.evaluation.worker :=
    List.mem_flatMap.mpr ⟨deed, List.mem_filter.mpr ⟨made, decide_eq_true rfl⟩, isPosted⟩
  have lined := aligned.lined _ v isWorker
  obtain ⟨first, isLine⟩ := lined.logged
  have sameRoot := lined.within i (isLine ▸ List.mem_cons_of_mem first isLogged)
  rwa [only _ v isWorker (sameRoot.symm.trans isRoot)] at isLogged

/-- The run was begun for the root of the cascade. -/
theorem Aligned.id_first {first : Invocation} (isLine : s.lineOf n w = first :: s.loggedBy n) :
    first.id = w.run.cascade.root := by
  have lined := aligned.lined n w working
  have inside : first ∈ s.lineOf n w := isLine ▸ List.mem_cons_self
  have isRoot := lined.within first inside
  by_contra other
  have isLogged := aligned.mem_loggedBy booked isLater only (lined.inOrder.subset inside) isRoot
    fun same => other (same.symm.trans isRoot)
  -- nothing is logged twice
  have ascending := aligned.orderly.sound.log.ascending.sublist lined.inOrder
  rw [isLine] at ascending
  exact Int.lt_irrefl _ ((List.pairwise_cons.mp ascending).1 first isLogged)

/-- The line of the run is the whole cascade. -/
theorem Aligned.cascadeOf_eq : s.cascadeOf w.run.cascade.root = s.lineOf n w := by
  have lined := aligned.lined n w working
  have remembers := aligned.orderly.sound.log
  obtain ⟨first, isLine⟩ := lined.logged
  have isFirst := aligned.id_first booked working isLater only isLine
  have included : (s.lineOf n w).Sublist (s.cascadeOf w.run.cascade.root) := by
    have filtered := lined.inOrder.filter (·.root = w.run.cascade.root)
    rwa [List.filter_eq_self.mpr fun i inside => decide_eq_true (lined.within i inside)] at filtered
  have covers : s.cascadeOf w.run.cascade.root ⊆ s.lineOf n w := by
    intro i inside
    obtain ⟨known, isRoot⟩ := List.mem_filter.mp inside
    rw [isLine]
    by_cases begins : i.root = i.id
    · have sameId : i.id = first.id := begins.symm.trans ((of_decide_eq_true isRoot).trans isFirst.symm)
      have firstKnown := lined.inOrder.subset (isLine ▸ List.mem_cons_self)
      rw [remembers.eq_of_id_eq known firstKnown sameId]
      exact List.mem_cons_self
    · exact List.mem_cons_of_mem first
        (aligned.mem_loggedBy booked isLater only known (of_decide_eq_true isRoot) begins)
  have distinct : s.history.Nodup :=
    remembers.ascending.imp fun before same => Int.ne_of_lt before (congrArg _ same)
  exact (included.eq_of_length_le (List.subperm_of_subset (distinct.filter _) covers).length_le).symm

section Going

variable (gauged : Gauged start limit s) (tiered : s.Tiered n w) (turns : w.run.Turns s.engine turn)

include gauged tiered turns

/-- The invocation in hand is the deepest of the support of a frame that is dispatched for it. -/
theorem Tiered.deepens (isWork : (w.deed n turn).work? = some work) :
    ∃ trigger, w.run.point.trigger? = some trigger ∧ work.depth = trigger.depth + 1 := by
  have lined := aligned.lined n w working
  have remembers := aligned.orderly.sound.log
  have grounded := (aligned.orderly.grounded w (List.mem_of_getElem? working)).point
  have measured := gauged.measured_now working turns isWork
  obtain ⟨inHand, trigger, isTrigger⟩ := Moves.work_inHand turns.isMove isWork
  have isLast := lined.hand trigger isTrigger
  have isTaken := List.mem_of_getLast? isLast
  have known := lined.inOrder.subset (List.mem_append_left _ isTaken)
  obtain ⟨resting, together⟩ := grounded.inHand isTrigger inHand
  refine ⟨trigger, isTrigger, measured.deepest.unique ⟨⟨trigger, known, resting, rfl⟩, ?_⟩⟩
  rintro _ ⟨i, alsoKnown, inside, rfl⟩
  obtain ⟨j, isKnown, sameId, isRoot⟩ := together i.id inside
  obtain rfl := remembers.eq_of_id_eq isKnown alsoKnown sameId
  have inLine : j ∈ s.lineOf n w := by
    rw [← aligned.cascadeOf_eq booked working isLater only]
    exact List.mem_filter.mpr ⟨isKnown, decide_eq_true isRoot⟩
  rcases List.mem_append.mp inLine with early | waits
  · have notDeeper := tiered.levels.depth_le isLast early
    omega
  · -- what waits was logged after the invocation in hand
    have ascending := List.pairwise_append.mp (remembers.ascending.sublist lined.inOrder)
    have after := ascending.2.2 trigger isTaken j waits
    exact absurd (lined.looksBack trigger isTrigger _ inHand j.id inside) (Int.not_le.mpr after)

theorem Tiered.turned :
    (s.turned n w turn).Tiered n { run := turn.run, taken := w.number } := by
  have lined := aligned.lined n w working
  have moves : Moves s.engine w.run.cascade w.run.point turn.engine turn.run.cascade turn.run.point
    turn.events := turns.isMove
  have deepens {work : Dispatch} (isWork : (w.deed n turn).work? = some work) :=
    tiered.deepens aligned booked working isLater only gauged turns isWork
  constructor
  case levels =>
    have line : w.run.cascade.queue ++ w.run.point.made ++ posted turn.events =
        (w.deed n turn).popped?.toList ++ (turn.run.cascade.queue ++ (w.deed n turn).unreported) :=
      moves.line_eq ⟨n, w.number⟩
    have levels := tiered.levels
    rw [untaken, lined.made turns.not_hasEnded] at levels
    rw [untaken, processedBy_turned, cutOff_turned]
    refine levels.move line fun joined => ?_
    obtain ⟨i, isNew⟩ := List.exists_mem_of_ne_nil _ joined
    have conforms := gauged.conforms_now working turns
    obtain ⟨work, isWork, _⟩ := conforms.stored i isNew
    obtain ⟨trigger, isTrigger, _⟩ := deepens isWork
    refine ⟨moves.popped_of_posted isNew, trigger, lined.hand trigger isTrigger, fun j alsoNew => ?_⟩
    obtain ⟨other, isOther, isDepth⟩ := conforms.stored j alsoNew
    obtain ⟨_, isHand, deeper⟩ := deepens isOther
    cases isTrigger.symm.trans isHand
    omega
  case deeper =>
    intro deed done work isWork
    rw [deedsOf_turned, if_pos rfl] at done
    rw [processedBy_turned]
    rcases List.mem_append.mp done with old | isNew
    · obtain ⟨trigger, isTaken, inHand, deeper⟩ := tiered.deeper deed old work isWork
      exact ⟨trigger, List.mem_append_left _ isTaken, inHand, deeper⟩
    · obtain rfl := List.mem_singleton.mp isNew
      obtain ⟨trigger, isTrigger, deeper⟩ := deepens isWork
      have isTaken := List.mem_of_getLast? (lined.hand trigger isTrigger)
      exact ⟨trigger, List.mem_append_left _ isTaken, isTrigger, deeper⟩

end Going

end Alone

/-! ### All runs -/

/-- A run that will have a cascade to itself has it to itself already. -/
theorem IsOnlyRun.before (only : t.IsOnlyRun n root)
    (kept : ∀ (m : Nat) (v : Worker), s.workers[m]? = some v →
      ∃ u, t.workers[m]? = some u ∧ u.run.cascade.root = v.run.cascade.root) : s.IsOnlyRun n root := by
  intro m v isWorker isRoot
  obtain ⟨u, stays, sameRoot⟩ := kept m v isWorker
  exact only m u stays (sameRoot.trans isRoot)

theorem Tiered.later (tiered : s.Tiered n v) (deeds : t.deedsOf n = s.deedsOf n) (like : w.Like v) :
    t.Tiered n w := by
  have processed : t.processedBy n = s.processedBy n := congrArg (·.filterMap (·.popped?)) deeds
  constructor
  case levels =>
    rw [processed, untaken_congr deeds like]
    exact tiered.levels
  case deeper =>
    rw [processed, deeds]
    exact tiered.deeper

theorem Tiered.fresh (fresh : w.Fresh history) (none : t.deedsOf n = []) : t.Tiered n w := by
  obtain ⟨_, _, i, _, _, queue⟩ := fresh
  constructor
  case levels =>
    rw [processedBy, untaken, cutOff, none, queue]
    exact .start i
  case deeper =>
    rw [none]
    exact List.forall_mem_nil _

theorem Ranged.rests (ranged : s.Ranged since) (orderly : s.Orderly) (rests : s.Rests t) :
    t.Ranged since := by
  intro n w working isLater only
  rcases rests.worker n w working with ⟨v, isWorker, like⟩ | ⟨absent, fresh⟩
  · rw [like.work.root] at isLater only
    have onlyBefore : s.IsOnlyRun n v.run.cascade.root := by
      refine only.before fun m v isWorker => ?_
      obtain ⟨u, stays, like⟩ := rests.kept m v isWorker
      exact ⟨u, stays, like.work.root⟩
    exact (ranged n v isWorker isLater onlyBefore).later (rests.deedsOf_eq n) like
  · exact .fresh fresh ((rests.deedsOf_eq n).trans (orderly.deedsOf_eq_nil absent))

theorem Ranged.turned (ranged : s.Ranged since) (aligned : s.Aligned) (booked : s.Booked since)
    (gauged : Gauged start limit s) (working : s.workers[n]? = some w)
    (turns : w.run.Turns s.engine turn) : (s.turned n w turn).Ranged since := by
  have sameRoot : turn.run.cascade.root = w.run.cascade.root := Moves.root_eq turns.isMove
  intro m v isWorker isLater only
  have onlyBefore := only.before fun m v isWorker => exists_turned working sameRoot isWorker
  rcases turned_worker working isWorker with ⟨rfl, rfl⟩ | ⟨elsewhere, isWorker⟩
  · dsimp only at isLater onlyBefore
    rw [sameRoot] at isLater onlyBefore
    have tiered := ranged m w working isLater onlyBefore
    exact tiered.turned aligned booked working isLater onlyBefore gauged turns
  · exact (ranged m v isWorker isLater onlyBefore).later (deedsOf_turned_other elsewhere) (.refl v)

/-- Whatever happens, a run takes a cascade by levels that it has to itself. -/
theorem Reaches.ranged (initial : start.Initial) (reached : start.Reaches s) :
    s.Ranged start.engine.log.next := by
  induction reached with
  | start =>
    intro n w working
    rw [initial.workers] at working
    cases working
  | step reached next ih =>
    have gauged := Reaches.gauged initial reached
    have orderly := gauged.accountable.orderly
    rcases next.keeps_or_turns orderly.sound.coherent with
      ⟨u, first, rfl | second⟩ | ⟨n, w, turn, working, turns, _, rfl⟩
    · exact ih.rests orderly first.rests
    · exact (ih.rests orderly first.rests).rests (orderly.rests first.rests) second.rests
    · exact ih.turned (reached.aligned initial) (reached.booked initial) gauged working turns

/-- A run that has a new cascade to itself goes through it breadth-first. It takes the invocations of
the cascade in the order of the log, none of them twice, and all of them if it is not stopped. They
are in the order of their depths; for whatever is dispatched is one deeper than the invocation in
hand, though its depth comes from the whole of its support. -/
theorem goesByLevels (initial : start.Initial) (reached : start.Reaches s)
    (isNew : start.engine.log.next ≤ root) (working : s.workers[n]? = some w)
    (isRoot : w.run.cascade.root = root) (only : s.IsOnlyRun n root) : s.GoesByLevels n root := by
  subst isRoot
  have gauged := Reaches.gauged initial reached
  have aligned := reached.aligned initial
  have booked := reached.booked initial
  have tiered := Reaches.ranged initial reached n w working isNew only
  have lined := aligned.lined n w working
  have whole := aligned.cascadeOf_eq booked working isNew only
  have ascending := aligned.orderly.sound.log.ascending.sublist lined.inOrder
  constructor
  case logged =>
    obtain ⟨first, isLine⟩ := lined.logged
    exact ⟨first, aligned.id_first booked working isNew only isLine, whole.trans isLine⟩
  case levels =>
    rw [whole]
    exact ascending.and tiered.levels.sorted
  case ascending => exact (List.pairwise_append.mp ascending).1
  case processed =>
    rw [whole]
    exact List.prefix_append ..
  case exhausted =>
    rintro ⟨_, isWorker, drained⟩
    cases working.symm.trans isWorker
    rw [whole, lineOf, lined.emptied (.inr drained), List.append_nil]
  case measured =>
    intro deed done work isWork
    have made := (List.mem_filter.mp done).1
    obtain ⟨first, isMade, begun, _⟩ := (gauged.conforms deed made).begun work isWork
    exact ⟨gauged.measured first isMade work begun, tiered.deeper deed done work isWork⟩
  case deeper =>
    intro deed done i isPosted
    have made := (List.mem_filter.mp done).1
    obtain ⟨work, isWork, isDepth⟩ := (gauged.conforms deed made).stored i isPosted
    obtain ⟨trigger, isTaken, inHand, deeper⟩ := tiered.deeper deed done work isWork
    exact ⟨trigger, isTaken, inHand, by omega⟩

end System

/-! ### Levels of a relay -/

namespace Relay

/-- The second ring rests on the first and on its answer, which are of different levels. -/
theorem goesByLevels_drained : drained.HasDrained 0 ∧ drained.GoesByLevels 0 1 ∧
    (drained.processedBy 0).map (fun i => (i.id, i.causes, i.depth)) =
      [(1, [], 0), (2, [1], 1), (3, [1, 2], 2)] := by
  have begun : ∃ w ∈ drained.workers[0]?, w.run.cascade.root = 1 := by decide +kernel
  have alone : drained.workers.length = 1 := by decide +kernel
  have only : drained.IsOnlyRun 0 1 := by
    intro m v isWorker _
    have inside := (List.getElem?_eq_some_iff.mp isWorker).1
    omega
  obtain ⟨w, working, isRoot⟩ := begun
  refine ⟨by decide +kernel, ?_, by decide +kernel⟩
  exact System.goesByLevels start_initial (start.reaches_after schedule) (by decide) working isRoot only

end Relay

end Choreography
