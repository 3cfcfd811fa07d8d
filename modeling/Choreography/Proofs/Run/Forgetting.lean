import Choreography.Proofs.Engine.Retention
import Choreography.Proofs.System.Attention

/-! When cascades are forgotten. Only a run that comes back from the repository forgets any,
and it spares those that are marked as having a run at work. A run takes the mark of its
cascade away when it leaves its work loop, whoever has put it there. -/

namespace Choreography

open InvocationLog

/-- The cascade that was forgotten, if one was. -/
def Event.forgotten? : Event → Option InvocationId
  | .forgot root => some root
  | _ => none

/-- The cascades that were forgotten, in order. -/
def forgotten (events : List Event) : List InvocationId := events.filterMap Event.forgotten?

variable {e f : Engine} {c d : Cascade} {p q : Point} {events : List Event} {root : InvocationId}
  {i : Invocation} {turn : Turn} {r : Run}

/-! ### What is forgotten by whom -/

theorem forgotten_append (first second : List Event) :
    forgotten (first ++ second) = forgotten first ++ forgotten second := by
  simp [forgotten]

theorem forgotten_faults (faults : List Failure) : forgotten (faults.map .fault) = [] :=
  List.filterMap_eq_nil_iff.mpr fun event inside => by
    obtain ⟨_, _, rfl⟩ := List.mem_map.mp inside
    rfl

namespace Enrichment

variable (x : Enrichment) (now : Instant) (stage : Enriching)

theorem report_forgotten (c : Cascade) (rejected : List Rejection) :
    forgotten (x.report c rejected).2 = [] :=
  forgotten_faults _

theorem start_forgotten (frames : Frames) (c : Cascade) :
    forgotten (x.start frames c now).events = [] := by
  unfold start
  split
  · rfl
  · split <;> rfl

theorem step_forgotten (c : Cascade) : forgotten (x.step now c stage).events = [] := by
  unfold step
  split
  · rfl
  · split <;> rfl
  · rfl

theorem Hears.forgotten {x : Enrichment} {held : Frames} {c : Cascade} {turn : StageTurn Enriching}
    (hears : x.Hears held c turn) : forgotten turn.events = [] := by
  cases hears with
  | reports => exact x.report_forgotten c _
  | stops | isolates => rfl

theorem resume_forgotten (c : Cascade) (outcome : Outcome Returned) :
    forgotten (x.resume now c outcome stage).events = [] := by
  cases asked : stage.asked? with
  | some => exact (x.resume_hears now c outcome asked).forgotten
  | none =>
    rw [x.resume_of_unasked now c outcome asked]
    rfl

end Enrichment

namespace Dispatch

variable (work : Dispatch) (now : Instant) (c : Cascade) (log : InvocationLog) (stage : Dispatching)

theorem conclude_forgotten (action : ActionRef) (input : Fields) (left : List Pattern)
    (produced : List Invocation) (call : CallEnd) :
    forgotten (work.conclude c log action input left produced call).events = [] := by
  unfold conclude
  dsimp only
  split <;> cases call.fault? (work.context c) <;> rfl

theorem start_forgotten (limit : Int) : forgotten (work.start limit c log).events = [] := by
  unfold start
  split <;> rfl

theorem step_forgotten (catalogue : Catalogue) :
    forgotten (work.step catalogue now c log stage).events = [] := by
  unfold step
  split
  · rfl
  · dsimp only
    split
    · split <;> rfl
    · exact work.conclude_forgotten ..
  · rfl

theorem resume_forgotten (outcome : Outcome Value) :
    forgotten (work.resume now c log outcome stage).events = [] := by
  unfold resume
  split
  · dsimp only
    split
    · rfl
    · exact work.conclude_forgotten ..
  · rfl

end Dispatch

namespace Run

theorem leave_forgotten (e : Engine) (c : Cascade) (error : Error) :
    forgotten (leave e c error).events = [] := by
  unfold leave
  split <;> rfl

theorem afterEnriching_forgotten {stageTurn : StageTurn Enriching} (site : Site)
    (silent : forgotten stageTurn.events = []) :
    forgotten (afterEnriching e site stageTurn).events = [] := by
  unfold afterEnriching
  split
  · exact silent
  · rw [forgotten_append, silent, leave_forgotten]
    rfl
  · exact silent

theorem afterDispatching_forgotten {dispatchTurn : DispatchTurn} (site : Site) (left : Frames)
    (claimed : List Firing) (work : Dispatch) (silent : forgotten dispatchTurn.events = []) :
    forgotten (afterDispatching e site left claimed work dispatchTurn).events = [] := by
  unfold afterDispatching
  dsimp only
  split
  · exact silent
  · rw [forgotten_append, silent, leave_forgotten]
    rfl
  · exact silent

/-- A run that waits for nothing forgets nothing. -/
theorem step_forgotten (r : Run) (e : Engine) (now : Instant) :
    forgotten (r.step e now).events = [] := by
  unfold step
  dsimp only
  split
  · split <;> rfl
  · rfl
  · unfold takeRule
    split
    · exact leave_forgotten ..
    · split
      · rfl
      · exact Enrichment.start_forgotten ..
  · exact afterEnriching_forgotten _ (Enrichment.step_forgotten ..)
  · rfl
  · unfold takeFrame
    split
    · exact leave_forgotten ..
    · dsimp only
      split
      · rfl
      · split
        · exact leave_forgotten ..
        · exact Dispatch.start_forgotten ..
  · exact afterDispatching_forgotten _ _ _ _ (Dispatch.step_forgotten ..)
  · rfl
  · rfl

theorem retain_forgotten (e : Engine) (root : InvocationId) :
    forgotten (e.retain root).2 = e.evicted root := by
  rw [Engine.retain_snd, forgotten, List.filterMap_map]
  exact List.filterMap_some

/-- A run that goes on after a wait forgets cascades only if the repository has answered. -/
theorem resume_forgotten (r : Run) (e : Engine) (now : Instant) (reply : Reply) :
    forgotten (r.resume e now reply).events = [] ∨
      r.point = .saving ∧ reply = .repository (.ok ()) ∧
        forgotten (r.resume e now reply).events = e.evicted r.cascade.root := by
  unfold resume
  dsimp only
  split
  · exact .inl (afterEnriching_forgotten _ (Enrichment.resume_forgotten ..))
  · exact .inl (afterDispatching_forgotten _ _ _ _ (Dispatch.resume_forgotten ..))
  · next isSaving => exact .inr ⟨isSaving, rfl, retain_forgotten e r.cascade.root⟩
  · exact .inl rfl
  · exact .inl rfl

end Run

/-! ### What a move does to the marks and to the log -/

theorem Engine.Claims.active_eq {firing : Firing} {claimed mine : List Firing}
    (claims : e.Claims root firing claimed f mine) : f.active = e.active := by
  cases claims <;> rfl

/-- The marks stay as long as a run is at work or is not, and one that leaves its work loop takes
the mark of its cascade away. -/
theorem Moves.active (moves : Moves e c p f d q events) :
    (q.isAtWork = p.isAtWork ∧ f.active = e.active) ∨
      (p.isAtWork = true ∧ q.isAtWork = false ∧ f.active = (e.deactivate c.root).active) := by
  cases moves with
  | drain | breakOff | reject => exact .inr ⟨rfl, rfl, rfl⟩
  | lose _ claims =>
    refine .inr ⟨rfl, rfl, ?_⟩
    rw [Engine.deactivate, Engine.deactivate, claims.active_eq]
  | leave _ busy =>
    refine .inr ⟨?_, rfl, rfl⟩
    cases p <;> first | rfl | cases busy
  | dispatch _ claims => exact .inl ⟨rfl, claims.active_eq⟩
  | save => exact .inl ⟨rfl, e.retain_active _⟩
  | _ => exact .inl ⟨rfl, rfl⟩

/-- A mark stays, unless it is of the cascade of a run that leaves its work loop. -/
theorem Moves.isRunning (moves : Moves e c p f d q events)
    (stays : p.isAtWork = true → q.isAtWork = false → c.root ≠ root)
    (running : e.isRunning root = true) : f.isRunning root = true := by
  rcases moves.active with ⟨_, same⟩ | ⟨atWork, notAtWork, gone⟩
  · rw [Engine.isRunning, same]
    exact running
  · have other := stays atWork notAtWork
    have kept : f.isRunning root = (e.deactivate c.root).isRunning root := by
      rw [Engine.isRunning, gone, ← Engine.isRunning]
    rw [kept, Engine.isRunning_deactivate, running]
    simpa using other.symm

/-- What is in the log stays there, unless its cascade is forgotten by a run that comes back from
the repository. -/
theorem Moves.kept (moves : Moves e c p f d q events) (coherent : e.log.Coherent)
    (held : i ∈ e.log.entries) :
    i ∈ f.log.entries ∨ p = .saving ∧ q = .ended (.ok c.report) ∧ i.root ∈ e.evicted c.root := by
  cases moves with
  | dispatch _ claims => exact .inl (claims.log_eq ▸ held)
  | lose _ claims =>
    rw [Engine.deactivate, claims.log_eq]
    exact .inl held
  | log _ _ logged =>
    rw [(coherent.append_entries logged).1]
    exact .inl (List.mem_append_left _ held)
  | save =>
    by_cases isGone : i.root ∈ e.evicted c.root
    · exact .inr ⟨rfl, rfl, isGone⟩
    · exact .inl ((Engine.mem_entries_retain coherent).mpr ⟨held, isGone⟩)
  | _ => exact .inl held

/-- What is in the log stays there, as long as its cascade is marked. -/
theorem Moves.held (moves : Moves e c p f d q events) (coherent : e.log.Coherent)
    (held : i ∈ e.log.entries) (running : e.isRunning i.root = true) : i ∈ f.log.entries := by
  rcases moves.kept coherent held with kept | ⟨_, _, isGone⟩
  · exact kept
  · exact absurd running (Bool.eq_false_iff.mp (Engine.not_isRunning_of_evicted isGone))

end Choreography
