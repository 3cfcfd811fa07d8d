import Choreography.Proofs.System.Closure

/-! A cascade that is closed stays closed. Whoever processes an invocation of it again finds
nothing that has not fired, and so calls nothing, logs nothing and reports no fault. -/

namespace Choreography

open InvocationLog

/-- A deed that called nothing, logged nothing and reported no fault. -/
structure Deed.IsIdle (d : Deed) : Prop where
  uncalled : d.call? = none
  unlogged : posted d.events = []
  faultless : ∀ event ∈ d.events, event.isFault = false

/-- Whether a run has no rule in hand. -/
def Point.isIdle : Point → Bool
  | .next | .rules _ _ | .saving | .ended _ => true
  | _ => false

variable {e f : Engine} {c d : Cascade} {p q : Point} {events : List Event}
  {trigger : Invocation} {rule : Rule} {frame : Frame}

/-- A run that finds nothing to fire does nothing. -/
theorem Moves.idle (moves : Moves e c p f d q events) (isIdle : p.isIdle = true)
    (settled : ∀ trigger rule later, p = .rules trigger (rule :: later) → e.unfired rule trigger = [])
    (evaluation : Evaluation) : q.isIdle = true ∧ Deed.IsIdle ⟨evaluation, p, q, events⟩ := by
  have quiet {q : Point} {events : List Event} (isIdle : q.isIdle = true)
      (notes : ∀ event ∈ events, event.IsQuiet) : q.isIdle = true ∧ Deed.IsIdle ⟨evaluation, p, q, events⟩ := by
    refine ⟨isIdle, ?_, posted_eq_nil notes, fun event inside => (notes event inside).1⟩
    cases q with
    | dispatching => cases isIdle
    | _ => rfl
  cases moves with
  | drain _ notes | leave _ _ _ notes => exact quiet rfl notes
  | pop | turn | settle | fail => exact quiet rfl (List.forall_mem_nil _)
  | evaluate _ unsettled => exact absurd (settled _ _ _ rfl) unsettled
  | save => exact quiet rfl (e.retain_isQuiet _)
  | _ => cases isIdle

theorem isIdle_of_hasDrained (drained : p.HasDrained) : p.isIdle = true := by
  cases p with
  | ended => rfl
  | _ => exact drained.elim

/-- A rule all of whose frames have fired has nothing to fire. -/
theorem Engine.unfired_eq_nil
    (fired : ∀ frame ∈ rule.matchAt trigger e.log, ⟨rule.name, frame.support⟩ ∈ e.fired) :
    e.unfired rule trigger = [] := by
  apply List.eq_nil_iff_forall_not_mem.mpr
  intro frame unfired
  obtain ⟨matched, notFired⟩ := Engine.mem_unfired_iff.mp unfired
  exact notFired (fired frame matched)

namespace System

/-- What is done in a cascade after a moment is nothing, and nothing is added to it. -/
structure Stays (s : System) (root : Invocation) (t : System) : Prop where
  entries : ∀ i : Invocation, i.root = root.id →
    (i ∈ t.engine.log.entries ↔ i ∈ s.engine.log.entries)
  fired : ∀ trigger ∈ t.engine.log.entries, trigger.root = root.id →
    ∀ rule ∈ t.engine.rules.rules, ∀ frame ∈ rule.matchAt trigger t.engine.log,
      ⟨rule.name, frame.support⟩ ∈ t.engine.fired
  idle : ∀ w ∈ t.workers, w.run.cascade.root = root.id → w.run.point.isIdle = true
  deeds : ∀ deed ∈ t.chronicle.drop s.chronicle.length, ∀ w,
    t.workers[deed.evaluation.worker]? = some w → w.run.cascade.root = root.id → deed.IsIdle

/-- As long as it is in the log, a cascade stays as it is. -/
structure Lasts (s : System) (root : Invocation) (t : System) : Prop where
  isPlain : t.IsPlain
  known : root ∈ t.history
  grown : s.chronicle <+: t.chronicle
  stays : root ∈ t.engine.log.entries → s.Stays root t

variable {s t u : System} {root : Invocation} {n : Nat} {w : Worker} {turn : Turn}

/-! ### What every step preserves -/

section Lasting

variable (lasts : s.Lasts root t) (isRoot : root.root = root.id)

include lasts isRoot

/-- A run of the cascade finds nothing to fire. -/
theorem Lasts.settled (held : root ∈ t.engine.log.entries) (inside : w ∈ t.workers)
    (ofRoot : w.run.cascade.root = root.id) : ∀ trigger rule later,
      w.run.point = .rules trigger (rule :: later) → t.engine.unfired rule trigger = [] := by
  intro trigger rule later isPoint
  have grounded := (lasts.isPlain.orderly.grounded w inside).point
  have registered := lasts.isPlain.points w inside
  rw [isPoint] at grounded registered
  have sameRoot := grounded.2.trans ofRoot
  have isHeld := lasts.isPlain.orderly.sound.log.held_together grounded.1 held
    (sameRoot.trans isRoot.symm)
  exact Engine.unfired_eq_nil
    ((lasts.stays held).fired trigger isHeld sameRoot rule (registered rule List.mem_cons_self))

/-- What is in the log of the cascade was there before, and stays there. -/
theorem Lasts.entries_iff (later : u.engine.Sound (t.history ++ added))
    (evolves : t.engine.Evolves u.engine) (held : root ∈ u.engine.log.entries)
    (isOld : ∀ i ∈ added, i.root = root.id → i ∈ t.history) {i : Invocation}
    (sameRoot : i.root = root.id) : i ∈ u.engine.log.entries ↔ i ∈ t.engine.log.entries := by
  have sound := lasts.isPlain.orderly.sound
  constructor
  · intro isHeld
    have known : i ∈ t.history :=
      (List.mem_append.mp (later.log.mem_history isHeld)).elim id fun isNew => isOld i isNew sameRoot
    exact evolves.held_before sound known isHeld
  · intro isHeld
    exact later.log.held_together (List.mem_append_left _ (sound.log.mem_history isHeld)) held
      (sameRoot.trans isRoot.symm)

/-- What had fired in the cascade has fired. -/
theorem Lasts.fired_later (stays : s.Stays root t) (later : u.engine.Sound (t.history ++ added))
    (evolves : t.engine.Evolves u.engine) (held : root ∈ u.engine.log.entries)
    (isOld : ∀ i ∈ added, i.root = root.id → i ∈ t.history) :
    ∀ trigger ∈ u.engine.log.entries, trigger.root = root.id →
      ∀ rule ∈ u.engine.rules.rules, ∀ frame ∈ rule.matchAt trigger u.engine.log,
        ⟨rule.name, frame.support⟩ ∈ u.engine.fired := by
  intro trigger isHeld sameRoot rule registered frame matched
  have before := (lasts.entries_iff isRoot later evolves held isOld sameRoot).mp isHeld
  have same := evolves.log.matchAt_eq lasts.isPlain.orderly.sound.reached before isHeld rule
  exact mem_fired_of_evolves evolves later.coherent isHeld matched
    (stays.fired trigger before sameRoot rule (evolves.rules ▸ registered) frame (same ▸ matched))

end Lasting

/-- Roots that are recorded are of other cascades. -/
theorem Lasts.isOld_of_rests (lasts : s.Lasts root t) (rests : t.Rests u) {added : List Invocation}
    (history : u.history = t.history ++ added) (areRoots : ∀ i ∈ added, i.root = i.id) :
    ∀ i ∈ added, i.root = root.id → i ∈ t.history := by
  intro i isNew sameRoot
  have later := rests.sound lasts.isPlain.orderly.sound
  rw [history] at later
  have sameId : i.id = root.id := (areRoots i isNew).symm.trans sameRoot
  have same : i = root := later.log.eq_of_id_eq (List.mem_append_right _ isNew)
    (List.mem_append_left _ lasts.known) sameId
  rw [same]
  exact lasts.known

theorem Lasts.rests (lasts : s.Lasts root t) (isRoot : root.root = root.id) (rests : t.Rests u) :
    s.Lasts root u := by
  have sound := lasts.isPlain.orderly.sound
  have later := rests.sound sound
  obtain ⟨added, history, areRoots⟩ := rests.history
  have isOld := lasts.isOld_of_rests rests history areRoots
  rw [history] at later
  constructor
  case isPlain => exact lasts.isPlain.rests rests
  case known =>
    rw [history]
    exact List.mem_append_left _ lasts.known
  case grown =>
    rw [rests.chronicle]
    exact lasts.grown
  case stays =>
    intro held
    have stays := lasts.stays (rests.evolves.held_before sound lasts.known held)
    constructor
    case entries =>
      intro i sameRoot
      have same := lasts.entries_iff isRoot later rests.evolves held isOld sameRoot
      exact same.trans (stays.entries i sameRoot)
    case fired => exact lasts.fired_later isRoot stays later rests.evolves held isOld
    case idle =>
      intro w inside ofRoot
      rcases rests.mem_worker inside with ⟨v, before, like⟩ | fresh
      · rw [like.point]
        exact stays.idle v before (like.work.root.symm.trans ofRoot)
      · rw [fresh.point]
        rfl
    case deeds =>
      intro deed made w working ofRoot
      rw [rests.chronicle] at made
      rcases rests.worker _ w working with ⟨v, isWorker, like⟩ | ⟨none, _⟩
      · exact stays.deeds deed made v isWorker (like.work.root.symm.trans ofRoot)
      · have old := List.mem_of_mem_drop made
        obtain ⟨v, isWorker, _⟩ := lasts.isPlain.orderly.numbered deed old
        cases none.symm.trans isWorker

theorem Lasts.turned (lasts : s.Lasts root t) (isRoot : root.root = root.id)
    (working : t.workers[n]? = some w)
    (moves : Run.IsMove t.engine w.run.cascade w.run.point turn) :
    s.Lasts root (t.turned n w turn) := by
  have isPlain := lasts.isPlain.turned working moves
  have orderly := lasts.isPlain.orderly
  have inside := List.mem_of_getElem? working
  have sameRoot : turn.run.cascade.root = w.run.cascade.root := Moves.root_eq moves
  obtain ⟨later, evolves⟩ := Moves.sound moves orderly.sound (orderly.grounded w inside).point
  constructor
  case isPlain => exact isPlain
  case known => exact List.mem_append_left _ lasts.known
  case grown => exact lasts.grown.trans (List.prefix_append _ _)
  case stays =>
    intro held
    have before := evolves.held_before orderly.sound lasts.known held
    have stays := lasts.stays before
    have idle (ofRoot : w.run.cascade.root = root.id) :=
      Moves.idle moves (stays.idle w inside ofRoot) (lasts.settled isRoot before inside ofRoot)
        ⟨n, w.number⟩
    have isOld : ∀ i ∈ posted turn.events, i.root = root.id → i ∈ t.history := by
      intro i isNew ofRoot
      have grounded := (isPlain.orderly.grounded _ (mover_mem_turned turn working)).point
      have ofRun := Moves.root_of_posted moves grounded isNew
      have unlogged : posted turn.events = [] :=
        (idle (sameRoot.symm.trans (ofRun.symm.trans ofRoot))).2.unlogged
      rw [unlogged] at isNew
      cases isNew
    have laterSound : (t.turned n w turn).engine.Sound (t.history ++ posted turn.events) := later
    constructor
    case entries =>
      intro i ofRoot
      have same := lasts.entries_iff isRoot laterSound evolves held isOld ofRoot
      exact same.trans (stays.entries i ofRoot)
    case fired => exact lasts.fired_later isRoot stays laterSound evolves held isOld
    case idle =>
      intro v isWorker ofRoot
      rcases mem_turned_workers isWorker with isOther | rfl
      · exact stays.idle v isOther ofRoot
      · exact (idle (sameRoot.symm.trans ofRoot)).1
    case deeds =>
      intro deed made v isWorker ofRoot
      have mine (isMover : deed.evaluation.worker = n) : w.run.cascade.root = root.id := by
        rw [isMover] at isWorker
        cases (turned_mover working).symm.trans isWorker
        exact sameRoot.symm.trans ofRoot
      rw [turned_chronicle, List.drop_append_of_le_length lasts.grown.length_le] at made
      rcases List.mem_append.mp made with old | new
      · by_cases isMover : deed.evaluation.worker = n
        · exact stays.deeds deed old w (isMover ▸ working) (mine isMover)
        · have before := (turned_worker working isWorker).resolve_left fun same => isMover same.1
          exact stays.deeds deed old v before.2 ofRoot
      · cases List.mem_singleton.mp new
        exact (idle (mine rfl)).2

theorem lasts_preserved (s : System) (isRoot : root.root = root.id) : Preserved (s.Lasts root) where
  coherent lasts := lasts.isPlain.orderly.sound.coherent
  rest lasts rests := lasts.rests isRoot rests
  turn lasts working moves := lasts.turned isRoot working moves

/-! ### The start -/

variable {start : System} {since : InvocationId}

theorem Initial.isPlain (initial : start.Initial) (plain : start.engine.IsPlain) : start.IsPlain where
  orderly := initial.orderly
  plain
  points w inside := by simp [initial.workers] at inside
  rightful deed made := by simp [initial.chronicle] at made
  distinct deed made := by simp [initial.chronicle] at made
  fired firing fired := by simp [initial.fired] at fired
  within deed made := by simp [initial.chronicle] at made

theorem Initial.attentive (initial : start.Initial) (plain : start.engine.IsPlain) :
    start.Attentive start.engine.log.next where
  isPlain := initial.isPlain plain
  attends trigger held later begun := by simp [HasBegun, initial.workers] at begun
  untouched i inside later := by
    obtain ⟨first, inHistory, isRoot, _⟩ := initial.log.exists_root inside
    have below := initial.log.id_lt_next inHistory
    exact absurd below (Int.not_lt.mpr (isRoot ▸ later))
  rooted w inside := by simp [initial.workers] at inside

/-- A cascade that has drained stays as it is from then on. -/
theorem Drained.lasts (drained : s.Drained since root.id) (isPlain : s.IsPlain)
    (held : root ∈ s.engine.log.entries) (closed : s.Closed root.id) : s.Lasts root s := by
  have sound := isPlain.orderly.sound
  constructor
  case isPlain => exact isPlain
  case known => exact sound.log.mem_history held
  case grown => exact List.prefix_refl _
  case stays =>
    intro _
    constructor
    case entries => exact fun _ _ => Iff.rfl
    case fired =>
      intro trigger isHeld sameRoot rule registered frame matched
      have inCascade := sound.coherent.mem_cascade.mpr ⟨isHeld, sameRoot⟩
      exact (closed.fires trigger inCascade rule registered frame matched).1
    case idle =>
      intro w inside ofRoot
      exact isIdle_of_hasDrained (drained.ended w inside ofRoot)
    case deeds =>
      intro deed made
      rw [List.drop_length] at made
      cases made

/-- When all runs of a cascade have drained it is closed under the rules, and as long as it is
in the log nothing is done in it and nothing is added to it, whoever processes it again. -/
theorem drained_closed {root : InvocationId} (initial : start.Initial) (plain : start.engine.IsPlain)
    (reached : start.Reaches s) (drained : s.Drained start.engine.log.next root) :
    s.Closed root ∧ ∀ t, s.Reaches t → t.Holds root →
      t.engine.log.cascade root = s.engine.log.cascade root ∧
      ∀ deed ∈ t.chronicle.drop s.chronicle.length, ∀ w,
        t.workers[deed.evaluation.worker]? = some w → w.run.cascade.root = root → deed.IsIdle := by
  have attentive := (attentive_preserved _).reaches (initial.attentive plain) reached
  have closed := drained.closed (reached.accountable initial) (reached.booked initial) attentive
  refine ⟨closed, ?_⟩
  intro t further holds
  obtain ⟨first, held, rfl, isRoot⟩ := drained.held
  have began := drained.lasts attentive.isPlain held closed
  have lasts := (lasts_preserved s isRoot).reaches began further
  obtain ⟨i, isHeld, sameId, _⟩ := holds
  have sound := lasts.isPlain.orderly.sound
  have same : i = first := sound.log.eq_of_id_eq (sound.log.mem_history isHeld) lasts.known sameId
  rw [same] at isHeld
  have stays := lasts.stays isHeld
  have coherent := attentive.isPlain.orderly.sound.coherent
  exact ⟨coherent.cascade_congr sound.coherent stays.entries, stays.deeds⟩

end System

/-! ### A relay -/

namespace Relay

/-- Each ring is answered. -/
def answer : Rule where
  name := "answer"
  whens := [{ action := ⟨"Bell", "ring"⟩, inputs := [("n", .variable "n")] }]
  thens := [{ action := ⟨"Wall", "answer"⟩, inputs := [("n", .variable "n")] }]

/-- A ring and its answer lead to another ring. -/
def again : Rule where
  name := "again"
  whens := [{ action := ⟨"Bell", "ring"⟩, inputs := [("n", .variable "n")] },
    { action := ⟨"Wall", "answer"⟩, inputs := [("n", .variable "n")] }]
  thens := [{ action := ⟨"Bell", "ring"⟩, inputs := [("n", .literal (.int 4))] }]

def start : System where
  engine :=
    { catalogue := { operations := [⟨⟨"Bell", "ring"⟩, .action⟩, ⟨⟨"Wall", "answer"⟩, .action⟩] }
      rules := (({} : RuleRegistry).registerAll [.ok answer, .ok again]).1
      limits := { depth := 2 } }

theorem start_initial : start.Initial where
  log := .start
  fired := rfl
  firedByRoot := rfl
  active := rfl
  workers := rfl
  chronicle := rfl

theorem start_isPlain : start.engine.IsPlain where
  registered := RuleRegistry.Reachable.empty.registerAll _
  plain := by decide +kernel

def silence : Reply := .component (.finished (.ok .null))

/-- The ring is answered and leads to another ring, whose answer would be too deep. -/
def schedule : List Happening :=
  [.record ⟨"Bell", "ring"⟩ [("n", .int 3)] [], .process 0] ++ List.replicate 5 (.go 0) ++
    [.hear 0 silence] ++ List.replicate 9 (.go 0) ++ [.hear 0 silence] ++
    List.replicate 12 (.go 0) ++ [.hear 0 (.repository (.ok ()))]

def drained : System := start.after schedule

/-- The answer is processed again. -/
def replay : List Happening :=
  [.process 1] ++ List.replicate 4 (.go 1) ++ [.hear 1 (.repository (.ok ()))]

def replayed : System := drained.after replay

theorem drained_isDrained : drained.Drained start.engine.log.next 1 where
  later := by decide
  held := by decide +kernel
  begun := by decide +kernel
  ended := by decide +kernel

theorem drained_closed_relay : drained.Drained start.engine.log.next 1 ∧ drained.Closed 1 ∧
    replayed.HasDrained 1 ∧ replayed.engine.log.cascade 1 = drained.engine.log.cascade 1 ∧
    ∀ deed ∈ replayed.chronicle.drop drained.chronicle.length, ∀ w,
      replayed.workers[deed.evaluation.worker]? = some w → w.run.cascade.root = 1 → deed.IsIdle := by
  have reached : start.Reaches drained := start.reaches_after schedule
  have further : drained.Reaches replayed := drained.reaches_after replay
  obtain ⟨closed, lasts⟩ :=
    System.drained_closed start_initial start_isPlain reached drained_isDrained
  exact ⟨drained_isDrained, closed, by decide +kernel,
    lasts replayed further (by decide +kernel)⟩

end Relay

end Choreography
