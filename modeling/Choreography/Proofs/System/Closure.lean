import Choreography.Proofs.System.Attention
import Choreography.Proofs.System.Postings

/-! A drained cascade is closed under the rules. Whatever matches in it has fired once and
was dispatched in full, whatever has fired matches, and whatever was logged after its root
was logged for a firing. Processing it again does nothing. -/

namespace Choreography

open InvocationLog

namespace System

/-- A rule has fired for a frame, once: all its calls are logged, in order, or none if they would
be too deep. -/
def HasSettled (s : System) (rule : Rule) (frame : Frame) : Prop :=
  ∃ depth, Dispatch.depthOf s.engine.log frame.support = .ok depth ∧
    s.dispatches ⟨rule.name, frame.support⟩ = [⟨rule, frame, depth⟩] ∧
    Dispatch.Settles ⟨rule, frame, depth⟩ s.engine.catalogue s.engine.limits.depth
      (s.calls ⟨rule.name, frame.support⟩) (s.postings ⟨rule.name, frame.support⟩)

/-- A cascade in which the rules have nothing left to do and have done nothing else. -/
structure Closed (s : System) (root : InvocationId) : Prop where
  fires : ∀ trigger ∈ s.engine.log.cascade root, ∀ rule ∈ s.engine.rules.rules,
    ∀ frame ∈ rule.matchAt trigger s.engine.log,
      ⟨rule.name, frame.support⟩ ∈ s.engine.fired ∧ s.HasSettled rule frame
  matched : ∀ firing ∈ s.engine.fired, ∀ i ∈ s.engine.log.cascade root, i.id ∈ firing.support →
    ∃ trigger ∈ s.engine.log.cascade root, ∃ rule ∈ s.engine.rules.rules,
      ∃ frame ∈ rule.matchAt trigger s.engine.log, firing = ⟨rule.name, frame.support⟩
  logged : ∀ firing ∈ s.engine.fired, ∀ i ∈ s.engine.log.cascade root, i.id ∈ firing.support →
    ∀ j ∈ s.postings firing, j ∈ s.engine.log.cascade root
  placed : ∀ i ∈ s.engine.log.cascade root, i.id ≠ root →
    ∃! place : Firing × Nat, place.1 ∈ s.engine.fired ∧ (s.postings place.1)[place.2]? = some i

/-- A cascade is in the log. -/
def Holds (s : System) (root : InvocationId) : Prop :=
  ∃ i ∈ s.engine.log.entries, i.id = root ∧ i.root = root

instance (s : System) (root : InvocationId) : Decidable (s.Holds root) :=
  inferInstanceAs (Decidable (∃ i ∈ s.engine.log.entries, i.id = root ∧ i.root = root))

/-- A cascade was processed from its beginning, all its runs have ended with the report of a
drained cascade, and it is still in the log. -/
structure Drained (s : System) (since root : InvocationId) : Prop where
  later : since ≤ root
  held : s.Holds root
  begun : s.HasBegun root
  ended : ∀ w ∈ s.workers, w.run.cascade.root = root → w.run.point.HasDrained

variable {s t start : System} {trigger i : Invocation} {since root : InvocationId}
  {firing : Firing} {rule : Rule} {frame : Frame} {work : Dispatch} {deed : Deed}

/-! ### One dispatch for each firing -/

theorem firing?_of_dispatch? (dispatched : deed.dispatch? = some work) :
    deed.firing? = some work.firing := by
  obtain ⟨_, before, after, _⟩ := deed
  cases before with
  | frames =>
    cases after with
    | dispatching =>
      cases dispatched
      rfl
    | _ => cases dispatched
  | _ => cases dispatched

theorem Concludes.exists_returned {evaluation : Evaluation} {frames : Frames}
    (concludes : s.Concludes evaluation firing frames) :
    ∃ deed ∈ s.chronicle, deed.returned? = some frames := by
  have inside : frames ∈ s.returned evaluation := concludes.returned ▸ List.mem_singleton_self frames
  obtain ⟨deed, made, returned⟩ := List.mem_filterMap.mp inside
  exact ⟨deed, (List.mem_filter.mp made).1, returned⟩

/-- Of the frames of a rule without a where-clause no two rest on the same support, so that a
firing that was dispatched was dispatched once. -/
theorem IsPlain.dispatches_eq (isPlain : s.IsPlain) (made : deed ∈ s.chronicle)
    (dispatched : deed.dispatch? = some work) {evaluation : Evaluation} {frames : Frames}
    (concludes : s.Concludes evaluation work.firing frames) :
    s.dispatches work.firing = [work] := by
  have isOne : work ∈ s.dispatches work.firing := List.mem_filterMap.mpr
    ⟨deed, List.mem_filter.mpr ⟨made, decide_eq_true (firing?_of_dispatch? dispatched)⟩, dispatched⟩
  obtain ⟨other, told, returned⟩ := concludes.exists_returned
  have distinct : ((frames.filter (·.support = work.firing.support)).map (·.support)).Nodup :=
    (List.filter_sublist.map _).nodup (isPlain.distinct other told frames returned)
  have same : (frames.filter (·.support = work.firing.support)).map (·.support) =
      List.replicate (s.dispatches work.firing).length work.firing.support := by
    rw [← concludes.dispatched, List.eq_replicate_iff, List.length_map, List.length_map]
    refine ⟨rfl, ?_⟩
    intro support inside
    rw [concludes.dispatched] at inside
    obtain ⟨g, isKept, rfl⟩ := List.mem_map.mp inside
    exact of_decide_eq_true (List.mem_filter.mp isKept).2
  rw [same, List.nodup_replicate] at distinct
  match s.dispatches work.firing, isOne, distinct with
  | [only], isOne, _ => rw [List.mem_singleton.mp isOne]

/-! ### What has fired in a drained cascade -/

/-- A cascade on which something rests that rests together in another is that other. -/
theorem Orderly.root_eq_of_together (orderly : s.Orderly) {support : List InvocationId}
    {other : InvocationId} (known : i ∈ s.history) (resting : i.id ∈ support)
    (together : Together s.history other support) : other = i.root := by
  obtain ⟨j, inHistory, sameId, isRoot⟩ := together i.id resting
  rw [← isRoot, orderly.sound.log.eq_of_id_eq inHistory known sameId]

section Draining

variable (accountable : s.Accountable) (isPlain : s.IsPlain) (drained : s.Drained since root)
  (known : i ∈ s.history) (sameRoot : i.root = root) (resting : i.id ∈ firing.support)

include isPlain drained known sameRoot

theorem Drained.held_of_root : i ∈ s.engine.log.entries := by
  obtain ⟨first, held, _, ofRoot⟩ := drained.held
  exact isPlain.orderly.sound.log.held_together known held (sameRoot.trans ofRoot.symm)

include resting

/-- What was done for a firing of a drained cascade was done by a run that has drained. -/
theorem Drained.hasDrained (made : deed ∈ s.chronicle) (about : deed.firing? = some firing) :
    s.HasDrained deed.evaluation.worker := by
  obtain ⟨w, working, together⟩ := isPlain.within deed made firing about
  have isRoot := isPlain.orderly.root_eq_of_together known resting together
  exact ⟨w, working, drained.ended w (List.mem_of_getElem? working) (isRoot.trans sameRoot)⟩

theorem Drained.not_hasLost : ¬s.HasLost firing := by
  rintro ⟨w, working, brokeOff, together⟩
  have isRoot := isPlain.orderly.root_eq_of_together known resting together
  exact brokeOff.not_hasDrained (drained.ended w working (isRoot.trans sameRoot))

include accountable

/-- What has fired in a drained cascade matches there, and was dispatched once and in full. -/
theorem Drained.settles (fired : firing ∈ s.engine.fired) :
    ∃ trigger ∈ s.engine.log.entries, trigger.root = root ∧
      ∃ work, work.IsRightful s.engine s.history trigger ∧ work.firing = firing ∧
        s.dispatches firing = [work] ∧ work.Settles s.engine.catalogue s.engine.limits.depth
          (s.calls firing) (s.postings firing) := by
  have notLost := drained.not_hasLost isPlain known sameRoot resting
  obtain ⟨deed, made, work, dispatched, rfl⟩ := (isPlain.fired firing fired).resolve_right notLost
  have about := firing?_of_dispatch? dispatched
  obtain ⟨trigger, rightful⟩ := isPlain.rightful deed made work dispatched
  have ofRoot := (isPlain.orderly.root_eq_of_together known resting rightful.together).trans sameRoot
  obtain ⟨frames, concludes⟩ := accountable.concludes (.done made about)
    (drained.hasDrained isPlain known sameRoot resting made about)
  have only := isPlain.dispatches_eq made dispatched concludes
  have balances := concludes.balances
  rw [Balances, only] at balances
  exact ⟨trigger, drained.held_of_root isPlain rightful.logged ofRoot, ofRoot, work, rightful, rfl,
    only, balances.of_singleton⟩

end Draining

/-- A run that has drained has nothing before it. -/
theorem not_faces_of_hasDrained {r : Run} (drained : r.point.HasDrained) :
    ¬r.Faces trigger rule frame := by
  obtain ⟨c, p⟩ := r
  cases p with
  | ended =>
    rintro (⟨atWork, _⟩ | faces)
    · cases atWork
    · exact faces
  | _ => exact drained.elim

theorem Drained.not_faces (drained : s.Drained since root) (sameRoot : trigger.root = root) :
    ¬s.Faces trigger rule frame := by
  rintro ⟨w, working, isRoot, faces⟩
  have hasDrained := drained.ended w working (isRoot.trans sameRoot)
  rcases faces with faces | brokeOff
  · exact not_faces_of_hasDrained hasDrained faces
  · exact brokeOff.not_hasDrained hasDrained

/-! ### The closure -/

section Closing

variable (accountable : s.Accountable) (booked : s.Booked since) (attentive : s.Attentive since)
  (drained : s.Drained since root)

include accountable attentive drained

theorem Drained.fires (inCascade : trigger ∈ s.engine.log.cascade root)
    (registered : rule ∈ s.engine.rules.rules) (matched : frame ∈ rule.matchAt trigger s.engine.log) :
    ⟨rule.name, frame.support⟩ ∈ s.engine.fired ∧ s.HasSettled rule frame := by
  have isPlain := attentive.isPlain
  have sound := isPlain.orderly.sound
  obtain ⟨held, sameRoot⟩ := sound.coherent.mem_cascade.mp inCascade
  have fired := (attentive.attends trigger held (sameRoot ▸ drained.later) (sameRoot ▸ drained.begun)
    rule registered frame matched).resolve_right (drained.not_faces sameRoot)
  have known := sound.log.mem_history held
  have resting : trigger.id ∈ (Firing.mk rule.name frame.support).support := trigger_mem_support matched
  obtain ⟨first, firstHeld, _, ⟨other, g, depth⟩, rightful, isFiring, only, settles⟩ :=
    drained.settles accountable isPlain known sameRoot resting fired
  obtain ⟨sameName, sameSupport⟩ := Firing.mk.inj isFiring
  have sameRule := isPlain.plain.registered.eq_of_name_eq rightful.registered registered sameName
  dsimp only at sameRule sameSupport
  subst sameRule
  have isTrigger := trigger_eq_of_matched sound.coherent firstHeld held (rightful.matched firstHeld)
    matched sameSupport
  subst isTrigger
  have isFrame := eq_of_mem_matchAt sound.reached held (rightful.matched held) matched sameSupport
  dsimp only at isFrame
  subst isFrame
  exact ⟨fired, depth, rightful.deep held, only, settles⟩

include booked

theorem Drained.closed : s.Closed root where
  fires trigger inCascade rule registered frame matched :=
    drained.fires accountable attentive inCascade registered matched
  matched firing fired i inCascade resting := by
    have sound := attentive.isPlain.orderly.sound
    obtain ⟨held, sameRoot⟩ := sound.coherent.mem_cascade.mp inCascade
    obtain ⟨trigger, isHeld, isRoot, work, rightful, rfl, _⟩ := drained.settles accountable
      attentive.isPlain (sound.log.mem_history held) sameRoot resting fired
    exact ⟨trigger, sound.coherent.mem_cascade.mpr ⟨isHeld, isRoot⟩, work.rule, rightful.registered,
      work.frame, rightful.matched isHeld, rfl⟩
  logged firing fired i inCascade resting j isPosted := by
    have sound := attentive.isPlain.orderly.sound
    obtain ⟨held, sameRoot⟩ := sound.coherent.mem_cascade.mp inCascade
    have known := sound.log.mem_history held
    obtain ⟨_, _, _, work, _, rfl, _, settles⟩ :=
      drained.settles accountable attentive.isPlain known sameRoot resting fired
    obtain ⟨p, _, answers⟩ := settles.exists_answers isPosted
    have isKnown := booked.logged j ((s.postings_sublist work.firing).subset isPosted)
    have isRoot := sound.log.root_eq_of_cause isKnown known
      (answers.causes ▸ mem_sortedSet.mpr resting)
    exact sound.coherent.mem_cascade.mpr
      ⟨drained.held_of_root attentive.isPlain isKnown (isRoot.trans sameRoot), isRoot.trans sameRoot⟩
  placed i inCascade notRoot := by
    have orderly := attentive.isPlain.orderly
    obtain ⟨held, sameRoot⟩ := orderly.sound.coherent.mem_cascade.mp inCascade
    have known := orderly.sound.log.mem_history held
    obtain ⟨firing, place, ⟨deed, made, about⟩, causes, found⟩ := booked.exists_place known
      (sameRoot ▸ drained.later) (fun isRoot => notRoot (isRoot.symm.trans sameRoot))
    have unlost : ¬firing.IsLost s.engine.log := Firing.not_isLost_of_held fun id inside => by
      obtain ⟨j, isKnown, isId, isRoot⟩ := orderly.sound.log.exists_cause known
        (causes ▸ mem_sortedSet.mpr inside)
      exact ⟨j, drained.held_of_root attentive.isPlain isKnown (isRoot.trans sameRoot), isId⟩
    have fired := (orderly.spent (.done made about)).resolve_right unlost
    refine ⟨(firing, place), ⟨fired, found⟩, ?_⟩
    intro other isOther
    obtain ⟨sameFiring, samePlace⟩ := booked.place_unique isOther.2 found
    exact Prod.ext sameFiring samePlace

end Closing

end System

end Choreography
