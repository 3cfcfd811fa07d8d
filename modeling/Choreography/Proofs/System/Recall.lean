import Choreography.Proofs.Matching.InOrder
import Choreography.Proofs.System.Replay
import Choreography.Proofs.System.Retention

/-! Matching again. What a rule finds around a trigger rests on the past of the trigger alone: on
what its cascade had come to when the trigger was logged. Other cascades may come, go on and be
forgotten, and the cascade itself may go on; as long as that past is in the log, the frames are
the same, and in the same order. -/

namespace Choreography

open InvocationLog

/-- Two logs hold the same of the past of a trigger, whatever else they hold. -/
def InvocationLog.SharesPast (log other : InvocationLog) (trigger : Invocation) : Prop :=
  ∀ i : Invocation, i.root = trigger.root → i.id ≤ trigger.id → (i ∈ other.entries ↔ i ∈ log.entries)

variable {log other : InvocationLog} {trigger : Invocation} {rule : Rule}

theorem InvocationLog.Coherent.sharesPast_iff (coherent : log.Coherent)
    (otherCoherent : other.Coherent) :
    log.SharesPast other trigger ↔ other.past trigger = log.past trigger := by
  constructor
  · intro shares
    refine coherent.filter_congr otherCoherent fun i inPast => ?_
    obtain ⟨sameRoot, early⟩ := of_decide_eq_true inPast
    exact shares i sameRoot early
  · intro same i sameRoot early
    have inPast : i ∈ other.past trigger ↔ i ∈ log.past trigger := by rw [same]
    simpa only [mem_past_iff, sameRoot, early, and_true] using inPast

namespace System

variable {start s t : System}

/-- What was logged in a cascade is in the log as long as a run of the cascade is at work. -/
theorem Guarded.mem_entries_of_isAtWork (guarded : s.Guarded) (known : trigger ∈ s.history)
    (atWork : s.IsAtWork trigger.root) : trigger ∈ s.engine.log.entries :=
  guarded.orderly.mem_entries_of_holds (guarded.held _ atWork) known rfl

end System

/-- Logs that hold the same of the past of a trigger give it the same frames, in the same order. So
in whatever a system comes to, a rule finds around a trigger what it found before, as long as the
trigger is in the log. Where each cascade has one run at a time, that is as long as it is being
processed. -/
theorem matching_recalls (rule : Rule) (trigger : Invocation) :
    (∀ log other : InvocationLog, log.Reachable → other.Reachable → log.SharesPast other trigger →
      rule.matchAt trigger other = rule.matchAt trigger log) ∧
    (∀ start s t : System, start.Initial → start.Reaches s → s.Reaches t →
      trigger ∈ s.engine.log.entries → trigger ∈ t.engine.log.entries →
      rule.matchAt trigger t.engine.log = rule.matchAt trigger s.engine.log) ∧
    (∀ start s t : System, start.Initial → Relation.ReflTransGen System.Sequential start s →
      Relation.ReflTransGen System.Sequential s t → trigger ∈ s.history →
      s.IsAtWork trigger.root → t.IsAtWork trigger.root →
      rule.matchAt trigger t.engine.log = rule.matchAt trigger s.engine.log) := by
  have overTime (s t : System) (orderly : s.Orderly) (later : s.Reaches t)
      (held : trigger ∈ s.engine.log.entries) (stays : trigger ∈ t.engine.log.entries) :
      rule.matchAt trigger t.engine.log = rule.matchAt trigger s.engine.log :=
    (orderly.evolves later).log.matchAt_eq orderly.sound.reached held stays rule
  refine ⟨?_, ?_, ?_⟩
  · intro log other reached otherReached shares
    exact matchAt_congr reached otherReached ((reached.coherent.sharesPast_iff otherReached.coherent).mp shares)
  · intro start s t initial reached later
    exact overTime s t (reached.orderly initial) later
  · intro start s t initial reached further known atWork stillAtWork
    have guarded := initial.guarded.reaches reached
    have later := guarded.reaches_later further
    have stays := (guarded.reaches further).mem_entries_of_isAtWork
      (later.history_prefix.subset known) stillAtWork
    exact overTime s t guarded.orderly later (guarded.mem_entries_of_isAtWork known atWork) stays

/-! ### Around an answer -/

namespace Relay

def ringing : List Happening :=
  [.record ⟨"Bell", "ring"⟩ [("n", .int 3)] [], .process 0] ++ List.replicate 5 (.go 0) ++
    [.hear 0 silence]

/-- A ring is answered, and the run is still at work. -/
def answered : System := start.after ringing

def another : List Happening := [.record ⟨"Bell", "ring"⟩ [("n", .int 7)] []]

/-- Meanwhile somebody else rings. -/
def disturbed : System := answered.after another

def further : List Happening := List.replicate 9 (.go 0) ++ [.hear 0 silence]

/-- The answer has led to another ring. -/
def rung : System := answered.after further

theorem answered_reached : Relation.ReflTransGen System.Sequential start answered :=
  Relation.ReflTransGen.mono (fun _ _ => And.left) _ _
    (System.Plays.paced_after start_initial.guarded (by decide +kernel))

theorem rung_reached : Relation.ReflTransGen System.Sequential answered rung :=
  Relation.ReflTransGen.mono (fun _ _ => And.left) _ _
    (System.Plays.paced_after (start_initial.guarded.reaches answered_reached) (by decide +kernel))

/-- The frames around the answer are the same whoever else rings and whatever it leads to. -/
theorem answer_recalls : ∃ trigger ∈ answered.engine.log.entries,
    (again.matchAt trigger answered.engine.log).map (·.support) = [[1, 2]] ∧
    again.matchAt trigger disturbed.engine.log = again.matchAt trigger answered.engine.log ∧
    again.matchAt trigger rung.engine.log = again.matchAt trigger answered.engine.log ∧
    disturbed.engine.log.SharesPast rung.engine.log trigger ∧
    again.matchAt trigger rung.engine.log = again.matchAt trigger disturbed.engine.log := by
  have reached : start.Reaches answered := start.reaches_after ringing
  have disturbs : answered.Reaches disturbed := answered.reaches_after another
  have rings : answered.Reaches rung := answered.reaches_after further
  have orderly := reached.orderly start_initial
  have isSecond : ∃ i, answered.engine.log.entries[1]? = some i :=
    Option.isSome_iff_exists.mp (by decide +kernel)
  obtain ⟨trigger, found⟩ := isSecond
  have matched : ∀ i ∈ answered.engine.log.entries[1]?, i.root = 1 ∧
      (again.matchAt i answered.engine.log).map (·.support) = [[1, 2]] := by decide +kernel
  obtain ⟨isRoot, supports⟩ := matched trigger found
  have held : trigger ∈ answered.engine.log.entries := List.mem_of_getElem? found
  have known : trigger ∈ answered.history := orderly.sound.log.mem_history held
  have stays {t : System} (later : answered.Reaches t) (holds : t.Holds 1) :
      trigger ∈ t.engine.log.entries :=
    ((reached.trans later).orderly start_initial).mem_entries_of_holds holds
      (later.history_prefix.subset known) isRoot
  have past {t : System} (later : answered.Reaches t) (holds : t.Holds 1) :
      t.engine.log.past trigger = answered.engine.log.past trigger :=
    (orderly.evolves later).log.past_eq orderly.sound.reached held (stays later holds)
  have sound {t : System} (later : answered.Reaches t) : t.engine.Sound t.history :=
    ((reached.trans later).orderly start_initial).sound
  have shares : disturbed.engine.log.SharesPast rung.engine.log trigger := by
    rw [(sound disturbs).coherent.sharesPast_iff (sound rings).coherent,
      past rings (by decide +kernel), past disturbs (by decide +kernel)]
  refine ⟨trigger, held, supports, ?_, ?_, shares, ?_⟩
  · exact (matching_recalls again trigger).2.1 start answered disturbed start_initial reached disturbs
      held (stays disturbs (by decide +kernel))
  · have atWork : answered.IsAtWork 1 ∧ rung.IsAtWork 1 := by decide +kernel
    rw [← isRoot] at atWork
    exact (matching_recalls again trigger).2.2 start answered rung start_initial answered_reached
      rung_reached known atWork.1 atWork.2
  · exact (matching_recalls again trigger).1 _ _ (sound disturbs).reached (sound rings).reached shares

end Relay

end Choreography
