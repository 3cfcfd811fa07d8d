import Choreography.Proofs.System.Plain

/-! Nothing that matches is overlooked. In a cascade that was processed from its beginning,
whatever matches around an invocation has fired, or a run still has it before it: the
invocation is in its queue, or among what it is logging; or it has taken the invocation, but
not yet the rule, or the rule, but not yet the frame. -/

namespace Choreography

open InvocationLog

/-- A rule that is taken has something before it: a frame of its own, or a rule after it. -/
def Site.Faces (s : Site) (trigger : Invocation) (rule : Rule) (frame : Frame) (left : Frames) : Prop :=
  s.trigger = trigger ∧ (rule = s.rule ∧ frame ∈ left ∨ rule ∈ s.later)

/-- A run stands before a frame. -/
def Point.Faces (trigger : Invocation) (rule : Rule) (frame : Frame) : Point → Prop
  | .rules taken left => taken = trigger ∧ rule ∈ left
  | .enriching site stage => site.Faces trigger rule frame stage.frames
  | .frames site left _ => site.Faces trigger rule frame left
  | .dispatching site left _ _ stage => trigger ∈ stage.made ∨ site.Faces trigger rule frame left
  | _ => False

/-- Whether a run still has invocations to take. -/
def Point.isAtWork : Point → Bool
  | .saving | .ended _ => false
  | _ => true

/-- A run has a frame before it, maybe behind other invocations. -/
def Run.Faces (r : Run) (trigger : Invocation) (rule : Rule) (frame : Frame) : Prop :=
  r.point.isAtWork = true ∧ trigger ∈ r.cascade.queue ∨ r.point.Faces trigger rule frame

variable {e f : Engine} {c d : Cascade} {p q : Point} {events : List Event}
  {history : List Invocation} {root : InvocationId} {trigger i : Invocation} {rule : Rule}
  {frame : Frame}

/-- A frame that a rule has before it is the next one, or it comes after that. -/
theorem Site.Faces.of_cons {site : Site} {next : Frame} {left : Frames}
    (faces : site.Faces trigger rule frame (next :: left)) :
    site.Faces trigger rule frame left ∨ rule = site.rule ∧ frame = next := by
  obtain ⟨isTrigger, ⟨isRule, inside⟩ | later⟩ := faces
  · rcases List.mem_cons.mp inside with isNext | inLeft
    · exact .inr ⟨isRule, isNext⟩
    · exact .inl ⟨isTrigger, .inl ⟨isRule, inLeft⟩⟩
  · exact .inl ⟨isTrigger, .inr later⟩

/-- What matches rests on the log. -/
theorem not_isLost_of_matched {log : InvocationLog} (coherent : log.Coherent)
    (held : trigger ∈ log.entries) (matched : frame ∈ rule.matchAt trigger log) :
    ¬Firing.IsLost ⟨rule.name, frame.support⟩ log := by
  apply Firing.not_isLost_of_held
  intro id inside
  rcases mem_past_of_mem_support coherent matched inside with rfl | ⟨i, inPast, isId⟩
  · exact ⟨trigger, held, rfl⟩
  · exact ⟨i, (mem_past_iff.mp inPast).1, isId⟩

/-- A rule that matches around an invocation listens for it. -/
theorem Engine.IsPlain.mem_rulesFor (plain : e.IsPlain) (registered : rule ∈ e.rules.rules)
    (matched : frame ∈ rule.matchAt trigger e.log) : rule ∈ e.rules.rulesFor trigger.action := by
  rw [plain.registered.rulesFor_eq, List.mem_filter, decide_eq_true_iff, Rule.mem_triggers]
  refine ⟨registered, ?_⟩
  by_contra deaf
  rw [matchAt_eq_nil fun p inside isAction => deaf ⟨p, inside, isAction⟩] at matched
  cases matched

/-- What matches has fired, or is among the frames that have not. -/
theorem Engine.mem_unfired (matched : frame ∈ rule.matchAt trigger e.log) :
    ⟨rule.name, frame.support⟩ ∈ e.fired ∨ frame ∈ e.unfired rule trigger := by
  by_cases fired : (⟨rule.name, frame.support⟩ : Firing) ∈ e.fired
  · exact .inl fired
  · exact .inr (Engine.mem_unfired_iff.mpr ⟨matched, fired⟩)

/-- An invocation stays in the queue until it is taken, or the run breaks off. -/
theorem Moves.queue (moves : Moves e c p f d q events) (atWork : p.isAtWork = true)
    (inQueue : trigger ∈ c.queue) : q.isAtWork = true ∧ trigger ∈ d.queue ∨
      q = .rules trigger (e.rules.rulesFor trigger.action) ∨ q.HasBrokenOff := by
  cases moves with
  | lose _ _ _ undrained | leave _ _ undrained | breakOff _ undrained | reject _ undrained =>
    exact .inr (.inr ⟨_, rfl, undrained⟩)
  | drain empty =>
    rw [empty] at inQueue
    cases inQueue
  | pop isQueue =>
    rw [isQueue] at inQueue
    rcases List.mem_cons.mp inQueue with rfl | inRest
    · exact .inr (.inl rfl)
    · exact .inl ⟨rfl, inRest⟩
  | turn | close => exact .inl ⟨rfl, inQueue⟩
  | settle same | evaluate same | enrich same | answer same | skip same | dispatch same | call same
  | log same => exact .inl ⟨rfl, same.queue ▸ inQueue⟩
  | finish => exact .inl ⟨rfl, List.mem_append_left _ inQueue⟩
  | save | fail => cases atWork

/-- A claimed firing has fired, unless some of it is gone. -/
theorem Engine.Claims.fired {claimed mine : List Firing} {firing : Firing}
    (claims : e.Claims root firing claimed f mine) (spent : ∀ firing ∈ claimed, e.Spent firing)
    (unlost : ¬firing.IsLost e.log) : firing ∈ f.fired := by
  cases claims with
  | again isMine => exact (spent _ isMine).resolve_right unlost
  | first => exact List.mem_append_right _ (List.mem_singleton_self _)

/-- A run passes no frame that it stands before, if that does not let it fire and the run does
not break off. -/
theorem Moves.passes (moves : Moves e c p f d q events) (plain : e.IsPlain)
    (isPlain : p.IsPlain e history) (spent : ∀ firing ∈ p.claims, e.Spent firing)
    (unlost : ¬Firing.IsLost ⟨rule.name, frame.support⟩ e.log)
    (matched : frame ∈ rule.matchAt trigger e.log) (faces : p.Faces trigger rule frame) :
    Run.Faces ⟨d, q⟩ trigger rule frame ∨
      ⟨rule.name, frame.support⟩ ∈ f.fired ∨ q.HasBrokenOff := by
  cases moves with
  | lose _ _ _ undrained | leave _ _ undrained | breakOff _ undrained | reject _ undrained =>
    exact .inr (.inr ⟨_, rfl, undrained⟩)
  | drain | pop | save | fail => cases faces
  | turn =>
    obtain ⟨_, inside⟩ := faces
    cases inside
  | settle _ settled =>
    obtain ⟨rfl, inside⟩ := faces
    rcases List.mem_cons.mp inside with rfl | later
    · refine .inr (.inl ((Engine.mem_unfired matched).resolve_right ?_))
      intro unfired
      rw [settled] at unfired
      cases unfired
    · exact .inl (.inr ⟨rfl, later⟩)
  | evaluate _ _ _ whole =>
    obtain ⟨rfl, inside⟩ := faces
    rcases List.mem_cons.mp inside with rfl | later
    · rw [whole (plain.plain _ (isPlain _ List.mem_cons_self))]
      rcases Engine.mem_unfired matched with fired | unfired
      · exact .inr (.inl fired)
      · exact .inl (.inr ⟨rfl, .inl ⟨rfl, unfired⟩⟩)
    · exact .inl (.inr ⟨rfl, .inr later⟩)
  | enrich _ _ unfinished =>
    obtain ⟨_, frames, isFinished, _⟩ := isPlain
    exact absurd isFinished (unfinished frames)
  | answer _ _ whole =>
    obtain ⟨_, frames, isFinished, _⟩ := isPlain
    rw [isFinished] at faces
    rw [whole frames isFinished]
    exact .inl (.inr faces)
  | close =>
    obtain ⟨rfl, ⟨_, inside⟩ | later⟩ := faces
    · cases inside
    · exact .inl (.inr ⟨rfl, later⟩)
  | skip _ _ fired =>
    rcases Site.Faces.of_cons faces with later | ⟨rfl, rfl⟩
    · exact .inl (.inr later)
    · exact .inr (.inl fired)
  | dispatch _ claims =>
    rcases Site.Faces.of_cons faces with later | ⟨rfl, rfl⟩
    · exact .inl (.inr (.inr later))
    · exact .inr (.inl (claims.fired spent unlost))
  | call => exact .inl (.inr faces)
  | log _ called =>
    refine .inl (.inr (faces.imp_left ?_))
    intro isMade
    rw [called.made_eq] at isMade
    exact List.mem_append_left _ isMade
  | finish isOver =>
    rcases faces with isMade | faces
    · rw [isOver.made_eq] at isMade
      exact .inl (.inl ⟨rfl, List.mem_append_right _ isMade⟩)
    · exact .inl (.inr faces)

/-- A run loses nothing of what it has before it but by letting it fire or by breaking off. -/
theorem Moves.faces (moves : Moves e c p f d q events) (plain : e.IsPlain)
    (isPlain : p.IsPlain e history) (spent : ∀ firing ∈ p.claims, e.Spent firing)
    (unlost : ¬Firing.IsLost ⟨rule.name, frame.support⟩ e.log) (registered : rule ∈ e.rules.rules)
    (matched : frame ∈ rule.matchAt trigger e.log) (faces : Run.Faces ⟨c, p⟩ trigger rule frame) :
    Run.Faces ⟨d, q⟩ trigger rule frame ∨
      ⟨rule.name, frame.support⟩ ∈ f.fired ∨ q.HasBrokenOff := by
  rcases faces with ⟨atWork, inQueue⟩ | faces
  · rcases moves.queue atWork inQueue with kept | rfl | brokeOff
    · exact .inl (.inl kept)
    · exact .inl (.inr ⟨rfl, plain.mem_rulesFor registered matched⟩)
    · exact .inr (.inr brokeOff)
  · exact moves.passes plain isPlain spent unlost matched faces

/-- A run has before it what it has just logged. -/
theorem Moves.faces_posted (moves : Moves e c p f d q events) (isNew : i ∈ posted events) :
    Run.Faces ⟨d, q⟩ i rule frame := by
  rcases moves.posts with none | ⟨_, _, _, _, _, _, _, rfl, one, _⟩
  · rw [none] at isNew
    cases isNew
  · rw [one] at isNew
    rw [List.mem_singleton.mp isNew]
    exact .inr (.inl (List.mem_append_right _ (List.mem_singleton_self _)))

/-- A run logs into its own cascade. -/
theorem Moves.root_of_posted (moves : Moves e c p f d q events) (grounded : q.Grounded history root)
    (isNew : i ∈ posted events) : i.root = root := by
  rcases moves.posts with none | ⟨_, _, _, _, _, _, _, rfl, one, _⟩
  · rw [none] at isNew
    cases isNew
  · rw [one] at isNew
    rw [List.mem_singleton.mp isNew]
    exact (grounded.2.2.2 _ (List.mem_append_right _ (List.mem_singleton_self _))).2

/-! ### What every step preserves -/

namespace System

/-- A run of a cascade was begun. -/
def HasBegun (s : System) (root : InvocationId) : Prop := ∃ w ∈ s.workers, w.run.cascade.root = root

instance (s : System) (root : InvocationId) : Decidable (s.HasBegun root) :=
  inferInstanceAs (Decidable (∃ w ∈ s.workers, w.run.cascade.root = root))

/-- A run of a cascade has a frame before it, or has broken off. -/
def Faces (s : System) (trigger : Invocation) (rule : Rule) (frame : Frame) : Prop :=
  ∃ w ∈ s.workers, w.run.cascade.root = trigger.root ∧
    (w.run.Faces trigger rule frame ∨ w.run.point.HasBrokenOff)

/-- In the cascades that began since a moment nothing that matches is overlooked, and as long as
such a cascade has no run there is nothing in it but its root. -/
structure Attentive (s : System) (since : InvocationId) : Prop where
  isPlain : s.IsPlain
  attends : ∀ trigger ∈ s.engine.log.entries, since ≤ trigger.root → s.HasBegun trigger.root →
    ∀ rule ∈ s.engine.rules.rules, ∀ frame ∈ rule.matchAt trigger s.engine.log,
      ⟨rule.name, frame.support⟩ ∈ s.engine.fired ∨ s.Faces trigger rule frame
  untouched : ∀ i ∈ s.history, since ≤ i.root → i.root = i.id ∨ s.HasBegun i.root
  rooted : ∀ w ∈ s.workers, ∃ i ∈ s.history, w.run.cascade.root = i.root

variable {s t start : System} {since : InvocationId} {n : Nat} {w : Worker} {turn : Turn}

/-- What had fired for frames that still match has fired. -/
theorem mem_fired_of_evolves (evolves : e.Evolves f) (coherent : f.log.Coherent)
    (held : trigger ∈ f.log.entries) (matched : frame ∈ rule.matchAt trigger f.log)
    (fired : ⟨rule.name, frame.support⟩ ∈ e.fired) : ⟨rule.name, frame.support⟩ ∈ f.fired :=
  (evolves.fired _ fired).resolve_right (not_isLost_of_matched coherent held matched)

theorem Faces.turned (isPlain : s.IsPlain) (working : s.workers[n]? = some w)
    (moves : Run.IsMove s.engine w.run.cascade w.run.point turn)
    (held : trigger ∈ s.engine.log.entries) (registered : rule ∈ s.engine.rules.rules)
    (matched : frame ∈ rule.matchAt trigger s.engine.log) (faces : s.Faces trigger rule frame) :
    ⟨rule.name, frame.support⟩ ∈ turn.engine.fired ∨ (s.turned n w turn).Faces trigger rule frame := by
  obtain ⟨v, inside, sameRoot, faces⟩ := faces
  obtain ⟨m, isWorker⟩ := List.getElem?_of_mem inside
  by_cases isMover : m = n
  · subst isMover
    cases working.symm.trans isWorker
    have isNow := mover_mem_turned turn working
    have nowRoot := (Moves.root_eq moves).trans sameRoot
    have unlost := not_isLost_of_matched isPlain.orderly.sound.coherent held matched
    have spent : ∀ firing ∈ w.run.point.claims, s.engine.Spent firing := by
      intro firing claims
      exact isPlain.orderly.spent (.claimed working claims)
    rcases faces with faces | brokeOff
    · rcases moves.faces isPlain.plain (isPlain.points w inside) spent unlost registered matched
        faces with later | fired | brokeOff
      · exact .inr ⟨_, isNow, nowRoot, .inl later⟩
      · exact .inl fired
      · exact .inr ⟨_, isNow, nowRoot, .inr brokeOff⟩
    · exact absurd brokeOff (Moves.not_hasBrokenOff moves)
  · exact .inr ⟨v, List.mem_of_getElem? (turned_other isMover isWorker), sameRoot, faces⟩

theorem HasBegun.of_turned (working : s.workers[n]? = some w)
    (moves : Run.IsMove s.engine w.run.cascade w.run.point turn)
    (begun : (s.turned n w turn).HasBegun root) : s.HasBegun root := by
  obtain ⟨v, inside, isRoot⟩ := begun
  obtain ⟨m, isWorker⟩ := List.getElem?_of_mem inside
  rcases turned_worker working isWorker with ⟨rfl, rfl⟩ | ⟨_, before⟩
  · exact ⟨w, List.mem_of_getElem? working, (Moves.root_eq moves).symm.trans isRoot⟩
  · exact ⟨v, List.mem_of_getElem? before, isRoot⟩

theorem HasBegun.turned (working : s.workers[n]? = some w)
    (moves : Run.IsMove s.engine w.run.cascade w.run.point turn) (begun : s.HasBegun root) :
    (s.turned n w turn).HasBegun root := by
  obtain ⟨v, inside, isRoot⟩ := begun
  obtain ⟨m, isWorker⟩ := List.getElem?_of_mem inside
  obtain ⟨u, isNow, sameRoot⟩ := exists_turned working (Moves.root_eq moves) isWorker
  exact ⟨u, List.mem_of_getElem? isNow, sameRoot.trans isRoot⟩

theorem HasBegun.rests (rests : s.Rests t) (begun : s.HasBegun root) : t.HasBegun root := by
  obtain ⟨v, inside, isRoot⟩ := begun
  obtain ⟨w, isWorker, like⟩ := rests.mem_kept inside
  exact ⟨w, isWorker, like.work.root.trans isRoot⟩

theorem Faces.rests (rests : s.Rests t) (faces : s.Faces trigger rule frame) :
    t.Faces trigger rule frame := by
  obtain ⟨v, inside, isRoot, faces⟩ := faces
  obtain ⟨w, isWorker, like⟩ := rests.mem_kept inside
  refine ⟨w, isWorker, like.work.root.trans isRoot, ?_⟩
  rw [Run.Faces, like.point, like.work.queue]
  exact faces

theorem Attentive.rooted_of_rests (attentive : s.Attentive since) (rests : s.Rests t) :
    ∀ w ∈ t.workers, ∃ i ∈ s.history, w.run.cascade.root = i.root := by
  intro w inside
  rcases rests.mem_worker inside with ⟨v, before, like⟩ | fresh
  · obtain ⟨i, known, isRoot⟩ := attentive.rooted v before
    exact ⟨i, known, like.work.root.trans isRoot⟩
  · obtain ⟨i, known, isRoot, _⟩ := fresh.first
    exact ⟨i, known, isRoot⟩

/-- A root that was just recorded has no run yet. -/
theorem Attentive.known_of_begun (attentive : s.Attentive since) (rests : s.Rests t)
    (held : trigger ∈ t.engine.log.entries) (begun : t.HasBegun trigger.root) :
    trigger ∈ s.history := by
  obtain ⟨added, history, areRoots⟩ := rests.history
  have laterSound := rests.sound attentive.isPlain.orderly.sound
  have inside := laterSound.log.mem_history held
  rcases List.mem_append.mp (history ▸ inside) with old | new
  · exact old
  · obtain ⟨w, isWorker, isRoot⟩ := begun
    obtain ⟨i, known, sameRoot⟩ := attentive.rooted_of_rests rests w isWorker
    obtain ⟨r, inHistory, isFirst, _⟩ := attentive.isPlain.orderly.sound.log.exists_root known
    have sameId : r.id = trigger.id := by
      rw [isFirst, ← sameRoot, isRoot, areRoots trigger new]
    have isLater : r ∈ t.history := history ▸ List.mem_append_left _ inHistory
    exact laterSound.log.eq_of_id_eq isLater inside sameId ▸ inHistory

/-- The first run of a cascade that nobody has processed begins with its root, and there is
nothing else in it. -/
theorem Attentive.faces_of_fresh (attentive : s.Attentive since) (rests : s.Rests t)
    (known : trigger ∈ s.history) (isLater : since ≤ trigger.root)
    (first : ¬s.HasBegun trigger.root) (begun : t.HasBegun trigger.root) :
    t.Faces trigger rule frame := by
  obtain ⟨w, inside, isRoot⟩ := begun
  rcases rests.mem_worker inside with ⟨v, before, like⟩ | fresh
  · exact absurd ⟨v, before, like.work.root.symm.trans isRoot⟩ first
  · obtain ⟨i, isKnown, sameRoot, queue⟩ := fresh.first
    have together := sameRoot.symm.trans isRoot
    have isFirst := (attentive.untouched trigger known isLater).resolve_right first
    have alsoFirst := (attentive.untouched i isKnown (together ▸ isLater)).resolve_right
      (together ▸ first)
    have same : i = trigger := attentive.isPlain.orderly.sound.log.eq_of_id_eq isKnown known
      (alsoFirst.symm.trans (together.trans isFirst))
    refine ⟨w, inside, isRoot, .inl (.inl ⟨?_, ?_⟩)⟩
    · rw [fresh.point]
      rfl
    · rw [queue, same]
      exact List.mem_singleton_self _

theorem Attentive.rests (attentive : s.Attentive since) (rests : s.Rests t) : t.Attentive since := by
  have orderly := attentive.isPlain.orderly
  obtain ⟨added, history, areRoots⟩ := rests.history
  constructor
  case isPlain => exact attentive.isPlain.rests rests
  case attends =>
    intro trigger held isLater begun rule registered frame matched
    have known := attentive.known_of_begun rests held begun
    have before := rests.evolves.held_before orderly.sound known held
    have same := rests.evolves.log.matchAt_eq orderly.sound.reached before held rule
    rw [same] at matched
    rw [rests.evolves.rules] at registered
    rw [rests.fired]
    by_cases already : s.HasBegun trigger.root
    · have attends := attentive.attends trigger before isLater already rule registered frame matched
      exact attends.imp_right (Faces.rests rests)
    · exact .inr (attentive.faces_of_fresh rests known isLater already begun)
  case untouched =>
    intro i inside isLater
    rw [history] at inside
    rcases List.mem_append.mp inside with old | new
    · exact (attentive.untouched i old isLater).imp_right (HasBegun.rests rests)
    · exact .inl (areRoots i new)
  case rooted =>
    intro w inside
    obtain ⟨i, known, isRoot⟩ := attentive.rooted_of_rests rests w inside
    exact ⟨i, history ▸ List.mem_append_left _ known, isRoot⟩

theorem Attentive.turned (attentive : s.Attentive since) (working : s.workers[n]? = some w)
    (moves : Run.IsMove s.engine w.run.cascade w.run.point turn) :
    (s.turned n w turn).Attentive since := by
  have isPlain := attentive.isPlain.turned working moves
  have orderly := attentive.isPlain.orderly
  have grounded := orderly.grounded w (List.mem_of_getElem? working)
  have evolves := (Moves.sound moves orderly.sound grounded.point).2
  have mover := mover_mem_turned turn working
  have later := isPlain.orderly.grounded _ mover
  constructor
  case isPlain => exact isPlain
  case attends =>
    intro trigger held isLater begun rule registered frame matched
    rcases List.mem_append.mp (isPlain.orderly.sound.log.mem_history held) with old | new
    · have before := evolves.held_before orderly.sound old held
      have same := evolves.log.matchAt_eq orderly.sound.reached before held rule
      have listed : rule ∈ s.engine.rules.rules := evolves.rules ▸ registered
      have found : frame ∈ rule.matchAt trigger s.engine.log := same ▸ matched
      rcases attentive.attends trigger before isLater (begun.of_turned working moves) rule listed
        frame found with fired | faces
      · exact .inl (mem_fired_of_evolves evolves isPlain.orderly.sound.coherent held matched fired)
      · exact faces.turned attentive.isPlain working moves before listed found
    · refine .inr ⟨_, mover, (Moves.root_of_posted moves later.point new).symm, .inl ?_⟩
      exact Moves.faces_posted moves new
  case untouched =>
    intro i inside isLater
    rcases List.mem_append.mp inside with old | new
    · exact (attentive.untouched i old isLater).imp_right (HasBegun.turned working moves)
    · exact .inr ⟨_, mover, (Moves.root_of_posted moves later.point new).symm⟩
  case rooted =>
    intro v inside
    obtain ⟨u, before, sameRoot⟩ : ∃ u ∈ s.workers, v.run.cascade.root = u.run.cascade.root := by
      rcases mem_turned_workers inside with before | rfl
      · exact ⟨v, before, rfl⟩
      · exact ⟨w, List.mem_of_getElem? working, Moves.root_eq moves⟩
    obtain ⟨i, known, isRoot⟩ := attentive.rooted u before
    exact ⟨i, List.mem_append_left _ known, sameRoot.trans isRoot⟩

theorem attentive_preserved (since : InvocationId) : Preserved (Attentive · since) where
  coherent attentive := attentive.isPlain.orderly.sound.coherent
  rest := Attentive.rests
  turn := Attentive.turned

end System

end Choreography
