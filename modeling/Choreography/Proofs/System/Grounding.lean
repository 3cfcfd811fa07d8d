import Choreography.Proofs.Matching.Stability
import Choreography.Proofs.System

/-! Every run stays in its own cascade. The invocations that it has before it, the triggers of
its rules, and the supports of its frames all belong there, so that whatever it claims
belongs there too. -/

namespace Choreography

open InvocationLog

/-- What a dispatch has logged so far. -/
def Dispatching.made : Dispatching → List Invocation
  | .next _ produced => produced
  | .calling _ _ _ produced _ => produced
  | .finished produced => produced
  | .raised _ => []

/-- The firings that an evaluation has claimed so far. -/
def Point.claims : Point → List Firing
  | .frames _ _ claimed => claimed
  | .dispatching _ _ claimed _ _ => claimed
  | _ => []

/-- All of a support was logged in one cascade. -/
def Together (history : List Invocation) (root : InvocationId) (support : List InvocationId) : Prop :=
  ∀ id ∈ support, ∃ i ∈ history, i.id = id ∧ i.root = root

/-- A trigger of a cascade, and frames that rest on it and on nothing outside the cascade. -/
structure Site.Grounded (s : Site) (history : List Invocation) (root : InvocationId)
    (ahead : Frames) : Prop where
  logged : s.trigger ∈ history
  resting : ∀ f ∈ ahead, s.trigger.id ∈ f.support
  together : ∀ f ∈ ahead, Together history root f.support
  root : s.trigger.root = root

/-- Invocations of a cascade. -/
def Within (history : List Invocation) (root : InvocationId) (invocations : List Invocation) : Prop :=
  ∀ i ∈ invocations, i ∈ history ∧ i.root = root

/-- What a run is in the middle of belongs to its cascade. -/
def Point.Grounded (history : List Invocation) (root : InvocationId) : Point → Prop
  | .rules trigger _ => trigger ∈ history ∧ trigger.root = root
  | .enriching site stage => site.Grounded history root stage.frames
  | .frames site left _ => site.Grounded history root left
  | .dispatching site left claimed work stage =>
    site.Grounded history root (work.frame :: left) ∧ work.rule = site.rule ∧
      work.firing ∈ claimed ∧ Within history root stage.made
  | _ => True

/-- A run and all that it has before it belong to its cascade. -/
structure Run.Grounded (r : Run) (history : List Invocation) : Prop where
  point : r.point.Grounded history r.cascade.root
  queue : Within history r.cascade.root r.cascade.queue

variable {e f : Engine} {c d : Cascade} {p q : Point} {events : List Event}
  {history added : List Invocation} {root : InvocationId} {firing : Firing} {site : Site}
  {ahead behind : Frames} {invocations : List Invocation}

/-! ### More history -/

theorem Within.more (within : Within history root invocations) :
    Within (history ++ added) root invocations :=
  fun i inside => ⟨List.mem_append_left _ (within i inside).1, (within i inside).2⟩

theorem Within.append {others : List Invocation} (first : Within history root invocations)
    (second : Within history root others) : Within history root (invocations ++ others) :=
  fun i inside => (List.mem_append.mp inside).elim (first i) (second i)

theorem Together.more (together : Together history root support) :
    Together (history ++ added) root support := by
  intro id inside
  obtain ⟨i, known, isMember⟩ := together id inside
  exact ⟨i, List.mem_append_left _ known, isMember⟩

theorem Site.Grounded.more (grounded : site.Grounded history root ahead) :
    site.Grounded (history ++ added) root ahead :=
  { grounded with
    logged := List.mem_append_left _ grounded.logged
    together := fun f inside => (grounded.together f inside).more }

theorem Site.Grounded.descend (grounded : site.Grounded history root ahead)
    (descend : behind.DescendFrom ahead) : site.Grounded history root behind :=
  { grounded with
    resting := fun f inside => by
      obtain ⟨g, isAhead, same⟩ := descend f inside
      exact same ▸ grounded.resting g isAhead
    together := fun f inside => by
      obtain ⟨g, isAhead, same⟩ := descend f inside
      exact same ▸ grounded.together g isAhead }

/-- Fewer frames rest where more do. -/
theorem Site.Grounded.fewer (grounded : site.Grounded history root ahead)
    (included : ∀ f ∈ behind, f ∈ ahead) : site.Grounded history root behind :=
  grounded.descend fun f inside => ⟨f, included f inside, rfl⟩

theorem Site.Grounded.belongs (grounded : site.Grounded history root ahead) {log : InvocationLog}
    (remembers : log.Remembers history) {frame : Frame} (inside : frame ∈ ahead) (name : String) :
    Firing.BelongsTo ⟨name, frame.support⟩ log root :=
  ⟨site.trigger.id, grounded.resting frame inside,
    grounded.root ▸ remembers.assigned grounded.logged⟩

theorem Point.Grounded.more (grounded : p.Grounded history root) :
    p.Grounded (history ++ added) root := by
  cases p with
  | next => trivial
  | rules => exact ⟨List.mem_append_left _ grounded.1, grounded.2⟩
  | enriching => exact Site.Grounded.more grounded
  | frames => exact Site.Grounded.more grounded
  | dispatching => exact ⟨grounded.1.more, grounded.2.1, grounded.2.2.1, grounded.2.2.2.more⟩
  | saving => trivial
  | ended => trivial

theorem Run.Grounded.more {r : Run} (grounded : r.Grounded history) : r.Grounded (history ++ added) :=
  ⟨grounded.point.more, grounded.queue.more⟩

/-- A call is logged in the cascade of any of its causes. -/
theorem InvocationLog.Remembers.append_root {log grown : InvocationLog} {i cause : Invocation}
    (remembers : log.Remembers history)
    (logged : log.append action input output causes = .ok (grown, i))
    (known : cause ∈ history) (isCause : cause.id ∈ causes) : i.root = cause.root := by
  refine (remembers.append logged).root_eq_of_cause (List.mem_append_right _ (List.mem_singleton_self i))
    (List.mem_append_left _ known) ?_
  obtain ⟨parents, areCauses, _, _, rfl, _⟩ := remembers.coherent.append_eq_ok logged
  have inParents : cause.id ∈ parents.map (·.id) := by
    rw [areCauses]
    exact mem_sortedSet.mpr isCause
  exact inParents

theorem Dispatching.Called.made_eq {stage : Dispatching}
    (called : stage.Called catalogue work action input patterns produced) : stage.made = produced := by
  cases called <;> rfl

theorem Dispatching.Over.made_eq {stage : Dispatching} (isOver : stage.Over produced) :
    stage.made = produced := by
  cases isOver <;> rfl

/-! ### What a move leaves as it is -/

theorem Engine.retain_isQuiet (e : Engine) (root : InvocationId) :
    ∀ event ∈ (e.retain root).2, event.IsQuiet := by
  intro event inside
  rw [retain] at inside
  split at inside
  · cases inside
  · obtain ⟨_, _, rfl⟩ := List.mem_map.mp inside
    exact ⟨rfl, rfl⟩

/-- A move logs one invocation at most, as what a call of a dispatch has come to. -/
theorem Moves.posts (moves : Moves e c p f d q events) : posted events = [] ∨
    ∃ site left claimed work patterns produced i,
      q = .dispatching site left claimed work (.next patterns (produced ++ [i])) ∧
        posted events = [i] ∧ ∃ action input output,
          e.log.append action input output work.frame.support = .ok (f.log, i) := by
  cases moves with
  | log _ _ logged posts => exact .inr ⟨_, _, _, _, _, _, _, rfl, posts, _, _, _, logged⟩
  | drain _ notes | leave _ _ _ notes => exact .inl (posted_eq_nil notes)
  | enrich _ _ _ silent | answer _ _ _ silent | lose _ _ _ _ silent | dispatch _ _ _ silent
  | breakOff _ _ silent | reject _ _ silent => exact .inl silent
  | save => exact .inl (posted_eq_nil (e.retain_isQuiet _))
  | _ => exact .inl rfl

theorem Engine.Claims.sound (claims : e.Claims root firing claimed f mine)
    (sound : e.Sound history) (belongs : firing.BelongsTo e.log root) :
    f.Sound history ∧ e.Evolves f := by
  cases claims with
  | again => exact ⟨sound, .refl e⟩
  | first => exact ⟨sound.claim belongs, Engine.evolves_claim e root firing⟩

/-- A move keeps the engine sound, and forgets no firing that is not spent. -/
theorem Moves.sound (moves : Moves e c p f d q events) (sound : e.Sound history)
    (grounded : p.Grounded history c.root) :
    f.Sound (history ++ posted events) ∧ e.Evolves f := by
  have still : e.Sound (history ++ posted []) ∧ e.Evolves e :=
    ⟨by rwa [show posted [] = [] from rfl, List.append_nil], .refl e⟩
  cases moves with
  | pop | turn | settle | evaluate | close | skip | call | finish | fail => exact still
  | drain _ notes | leave _ _ _ notes =>
    rw [posted_eq_nil notes, List.append_nil]
    exact ⟨sound.deactivate _, e.evolves_deactivate _⟩
  | enrich _ _ _ silent | answer _ _ _ silent =>
    rw [silent, List.append_nil]
    exact ⟨sound, .refl e⟩
  | lose _ claims _ _ silent =>
    obtain ⟨claimedSound, evolves⟩ :=
      claims.sound sound (grounded.belongs sound.log List.mem_cons_self _)
    rw [silent, List.append_nil]
    exact ⟨claimedSound.deactivate _, evolves.trans (Engine.evolves_deactivate _ _) sound.reached⟩
  | dispatch _ claims _ silent =>
    rw [silent, List.append_nil]
    exact claims.sound sound (grounded.belongs sound.log List.mem_cons_self _)
  | log _ _ logged posts =>
    rw [posts]
    exact ⟨sound.append logged, Engine.evolves_append logged⟩
  | breakOff _ _ silent | reject _ _ silent =>
    rw [silent, List.append_nil]
    exact ⟨sound.deactivate _, e.evolves_deactivate _⟩
  | save =>
    rw [posted_eq_nil (e.retain_isQuiet _), List.append_nil]
    exact sound.retain _

theorem Moves.root_eq (moves : Moves e c p f d q events) : d.root = c.root := by
  cases moves with
  | settle same | evaluate same | enrich same | answer same | skip same | dispatch same | call same
  | log same | lose same | leave same | breakOff same | reject same => exact same.root
  | _ => rfl

theorem Run.Grounded.of_sameWork (same : d.SameWork c) (point : p.Grounded history c.root)
    (queue : Within history c.root c.queue) : Run.Grounded ⟨d, p⟩ history := by
  refine ⟨?_, ?_⟩
  · rw [same.root]
    exact point
  · rw [same.root, same.queue]
    exact queue

/-- A rule fires for its trigger only together with it, and within its cascade. -/
theorem Engine.Sound.grounded_unfired {trigger : Invocation} {rule : Rule} {later : List Rule}
    (sound : e.Sound history) (logged : trigger ∈ history) (isRoot : trigger.root = root) :
    Site.Grounded ⟨trigger, rule, later⟩ history root (e.unfired rule trigger) where
  logged
  root := isRoot
  resting f unfired := trigger_mem_support (mem_unfired_iff.mp unfired).1
  together f unfired id inside := by
    have matched := (mem_unfired_iff.mp unfired).1
    rcases mem_past_of_mem_support sound.coherent matched inside with rfl | ⟨i, inPast, isId⟩
    · exact ⟨trigger, logged, rfl, isRoot⟩
    · obtain ⟨held, sameRoot, _⟩ := mem_past_iff.mp inPast
      exact ⟨i, sound.log.mem_history held, isId, sameRoot.trans isRoot⟩

theorem Engine.Claims.mem (claims : e.Claims root firing claimed f mine) : firing ∈ mine := by
  cases claims with
  | again isMine => exact isMine
  | first => exact List.mem_append_right _ (List.mem_singleton_self firing)

theorem Engine.Claims.mem_or_eq (claims : e.Claims root firing claimed f mine) {other : Firing}
    (inside : other ∈ mine) : other ∈ claimed ∨ other = firing := by
  cases claims with
  | again => exact .inl inside
  | first => exact (List.mem_append.mp inside).imp_right List.mem_singleton.mp

/-- A move stays in its cascade. -/
theorem Moves.grounded (moves : Moves e c p f d q events) (sound : e.Sound history)
    (grounded : Run.Grounded ⟨c, p⟩ history) : Run.Grounded ⟨d, q⟩ (history ++ posted events) := by
  have later : Run.Grounded ⟨c, p⟩ (history ++ posted events) := grounded.more
  obtain ⟨point, queue⟩ := later
  cases moves with
  | drain => exact ⟨trivial, queue⟩
  | turn => exact ⟨trivial, queue⟩
  | save => exact ⟨trivial, queue⟩
  | fail => exact ⟨trivial, queue⟩
  | close => exact ⟨⟨point.logged, point.root⟩, queue⟩
  | leave same | lose same | breakOff same | reject same => exact .of_sameWork same trivial queue
  | settle same => exact .of_sameWork same point queue
  | pop queued =>
    have all := queue
    rw [queued] at all
    obtain ⟨first, rest⟩ := List.forall_mem_cons.mp all
    exact ⟨first, rest⟩
  | evaluate same _ held =>
    refine .of_sameWork same (Site.Grounded.fewer (Site.Grounded.more ?_) held) queue
    exact sound.grounded_unfired grounded.point.1 grounded.point.2
  | enrich same descend => exact .of_sameWork same (Site.Grounded.descend point descend) queue
  | answer same descend => exact .of_sameWork same (Site.Grounded.descend point descend) queue
  | skip same =>
    exact .of_sameWork same (Site.Grounded.fewer point fun f => List.mem_cons_of_mem _) queue
  | dispatch same claims =>
    refine .of_sameWork same ⟨point, rfl, claims.mem, ?_⟩ queue
    unfold Dispatch.beginning
    split <;> exact List.forall_mem_nil _
  | call same => exact .of_sameWork same point queue
  | log same called logged posts =>
    obtain ⟨site, rule, claimed, made⟩ := point
    refine .of_sameWork same ⟨site, rule, claimed, ?_⟩ queue
    rw [called.made_eq] at made
    apply made.append
    intro j isNew
    rw [List.mem_singleton.mp isNew]
    refine ⟨List.mem_append_right _ (posts ▸ List.mem_singleton_self _), ?_⟩
    rw [sound.log.append_root logged grounded.point.1.logged
      (site.resting _ List.mem_cons_self), site.root]
  | finish isOver =>
    obtain ⟨site, _, _, made⟩ := point
    rw [isOver.made_eq] at made
    exact ⟨site.fewer fun f => List.mem_cons_of_mem _, queue.append made⟩

end Choreography
