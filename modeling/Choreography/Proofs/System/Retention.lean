import Choreography.Proofs.System.Sequence
import Mathlib.Data.List.Induction

/-! What retention keeps. Cascades are listed in the order in which they were first reported
as drained. As long as no run comes back from the repository after its cascade was forgotten,
the latest of them are in the log as a whole, and of the others nothing is left but what is
being processed again. -/

namespace Choreography

open InvocationLog

/-! ### The order of what has drained -/

/-- The first of their kind, when one more comes. -/
theorem eraseDups_concat (ids : List InvocationId) (id : InvocationId) : (ids ++ [id]).eraseDups =
    if id ∈ ids.eraseDups then ids.eraseDups else ids.eraseDups ++ [id] := by
  rw [List.eraseDups_append]
  split <;> simp_all [List.removeAll, List.eraseDups_cons]

theorem nodup_eraseDups (ids : List InvocationId) : ids.eraseDups.Nodup := by
  induction ids using List.reverseRecOn with
  | nil => exact List.nodup_nil
  | append_singleton ids id ih =>
    rw [eraseDups_concat]
    split
    · exact ih
    · next isNew =>
      refine List.nodup_append.mpr ⟨ih, List.nodup_singleton id, ?_⟩
      rintro other isOld _ isId rfl
      exact isNew (List.mem_singleton.mp isId ▸ isOld)

/-- If the last of a list are all held, what is held beyond their number is what is held of the
others. -/
theorem take_excess (order : List InvocationId) (holds : InvocationId → Bool) (n : Nat)
    (newest : ∀ r ∈ order.drop (order.length - n), holds r = true) :
    (order.filter holds).take (((order.filter holds).length : Int) - n).toNat =
      (order.take (order.length - n)).filter holds := by
  have split : order.filter holds =
      (order.take (order.length - n)).filter holds ++ order.drop (order.length - n) := by
    conv_lhs => rw [← List.take_append_drop (order.length - n) order]
    rw [List.filter_append, List.filter_eq_self.mpr newest]
  rw [split, List.length_append, List.length_drop]
  by_cases enough : n ≤ order.length
  · have isLength : ((((order.take (order.length - n)).filter holds).length +
        (order.length - (order.length - n)) : Nat) : Int) - n =
        ((order.take (order.length - n)).filter holds).length := by omega
    rw [isLength, Int.toNat_natCast, List.take_left']
    rfl
  · have noOlder : order.length - n = 0 := by omega
    have noExcess : (((order.length : Nat) : Int) - n).toNat = 0 := by omega
    simp [noOlder, noExcess]

/-- The cascade that was reported as drained, if one was: its run has come back from the
repository. -/
def Deed.reported? (d : Deed) : Option InvocationId :=
  match d.before, d.after with
  | .saving, .ended (.ok report) => some report.root
  | _, _ => none

theorem Deed.not_isAtWork_of_reported {d : Deed} (reported : d.reported? = some root) :
    d.before.isAtWork = false ∧ d.after.isAtWork = false := by
  unfold reported? at reported
  split at reported
  · next isSaving isEnded => exact ⟨isSaving ▸ rfl, isEnded ▸ rfl⟩
  · cases reported

namespace System

/-- The cascades that were reported as drained, in the order in which each was reported first. -/
def drainedOrder (s : System) : List InvocationId :=
  (s.chronicle.filterMap Deed.reported?).eraseDups

/-- The last of the drained cascades. -/
def newest (s : System) (n : Nat) : List InvocationId :=
  s.drainedOrder.drop (s.drainedOrder.length - n)

/-- The drained cascades before those. -/
def older (s : System) (n : Nat) : List InvocationId :=
  s.drainedOrder.take (s.drainedOrder.length - n)

/-- Nothing is left of a cascade: neither its invocations, nor what has fired for them, nor
what was noted for it. -/
structure HasForgotten (s : System) (root : InvocationId) : Prop where
  log : s.engine.log.cascade root = []
  fired : ∀ firing ∈ s.engine.fired, ∀ i ∈ s.history, i.id ∈ firing.support → i.root ≠ root
  noted : List.lookup root s.engine.firedByRoot = none

/-- What came back from the repository meanwhile was of cascades in the log. -/
def Timely (s t : System) : Prop :=
  ∀ deed ∈ t.chronicle.drop s.chronicle.length, ∀ root ∈ deed.reported?, s.Holds root

instance (s t : System) : Decidable (s.Timely t) :=
  inferInstanceAs
    (Decidable (∀ deed ∈ t.chronicle.drop s.chronicle.length, ∀ root ∈ deed.reported?, s.Holds root))

/-- One run at a time in each cascade, and none comes back from the repository too late. -/
def Paced (s t : System) : Prop := s.Sequential t ∧ s.Timely t

/-- What has fired is noted for the cascade of its support, and only for cascades in the log. -/
structure Filed (s : System) : Prop where
  noted : ∀ firing ∈ s.engine.fired, ∃ root,
    firing ∈ (List.lookup root s.engine.firedByRoot).getD [] ∧ Together s.history root firing.support
  held : ∀ root, (List.lookup root s.engine.firedByRoot).isSome = true → s.Holds root

/-- The engine lists what has drained and is in the log, and the last of what has drained is. -/
structure Ranked (s : System) (n : Nat) : Prop where
  limit : s.engine.limits.retention = some (n : Int)
  known : ∀ r ∈ s.drainedOrder, ∃ i ∈ s.history, i.root = r
  listed : s.engine.drained = s.drainedOrder.filter (s.Holds ·)
  newest : ∀ r ∈ s.newest n, s.Holds r

end System

variable {e f : Engine} {c d : Cascade} {p q : Point} {events : List Event} {i : Invocation}
  {root : InvocationId} {history : List Invocation}

/-! ### What a move does to what the engine remembers -/

/-- A run that reports a drained cascade has just kept the latest of them. -/
theorem Moves.retains (moves : Moves e c p f d q events)
    (reported : Deed.reported? ⟨evaluation, p, q, events⟩ = some root) :
    root = c.root ∧ f = (e.retain c.root).1 := by
  cases moves with
  | save =>
    cases reported
    exact ⟨rfl, rfl⟩
  | leave _ busy =>
    cases p with
    | next | saving | ended => cases busy
    | _ => cases reported
  | _ => cases reported

section Unreported

variable (moves : Moves e c p f d q events)
  (unreported : Deed.reported? ⟨evaluation, p, q, events⟩ = none)

include moves unreported

theorem Moves.kept_of_unreported (coherent : e.log.Coherent) (held : i ∈ e.log.entries) :
    i ∈ f.log.entries := by
  rcases moves.kept coherent held with kept | ⟨rfl, rfl, _⟩
  · exact kept
  · cases unreported

theorem Moves.drained_eq : f.drained = e.drained := by
  cases moves with
  | save => cases unreported
  | lose _ claims | dispatch _ claims => cases claims <;> rfl
  | _ => rfl

/-- As long as nothing is reported, what has fired stays as it is, or a run at work claims a
firing for its cascade. -/
theorem Moves.notes (grounded : p.Grounded history c.root) :
    (f.fired = e.fired ∧ f.firedByRoot = e.firedByRoot) ∨
      ∃ firing, p.isAtWork = true ∧ Together history c.root firing.support ∧
        f.fired = e.fired ++ [firing] ∧ f.firedByRoot = (e.claim c.root firing).firedByRoot := by
  cases moves with
  | lose _ claims | dispatch _ claims =>
    cases claims with
    | again => exact .inl ⟨rfl, rfl⟩
    | first =>
      have together := Site.Grounded.together grounded _ List.mem_cons_self
      exact .inr ⟨_, rfl, together, rfl, rfl⟩
  | save => cases unreported
  | _ => exact .inl ⟨rfl, rfl⟩

end Unreported

namespace System

variable {start s t : System} {n m : Nat} {w v : Worker} {turn : Turn}

/-! ### What has fired -/

theorem Filed.keeps (filed : s.Filed) (keeps : s.Keeps t) : t.Filed := by
  obtain ⟨added, history, _⟩ := keeps.rests.history
  constructor
  case noted =>
    intro firing fired
    rw [keeps.rests.fired] at fired
    obtain ⟨root, isNoted, together⟩ := filed.noted firing fired
    exact ⟨root, keeps.noted ▸ isNoted, history ▸ together.more⟩
  case held =>
    intro root isNoted
    exact (filed.held root (keeps.noted ▸ isNoted)).of_entries fun i held _ => keeps.entries i held

/-- A move that reports nothing forgets nothing. -/
theorem Guarded.holds_turned (guarded : s.Guarded)
    (moves : Run.IsMove s.engine w.run.cascade w.run.point turn)
    (unreported : (w.deed n turn).reported? = none) (holds : s.Holds root) :
    (s.turned n w turn).Holds root :=
  holds.of_entries fun _ held _ =>
    Moves.kept_of_unreported moves unreported guarded.orderly.sound.coherent held

/-- What a cascade at work claims is noted for it, and it is in the log. -/
theorem Filed.turned_of_unreported (filed : s.Filed) (guarded : s.Guarded)
    (working : s.workers[n]? = some w)
    (moves : Run.IsMove s.engine w.run.cascade w.run.point turn)
    (unreported : (w.deed n turn).reported? = none) : (s.turned n w turn).Filed := by
  have inside := List.mem_of_getElem? working
  have grounded := (guarded.orderly.grounded w inside).point
  have holds {r : InvocationId} (holds : s.Holds r) : (s.turned n w turn).Holds r :=
    guarded.holds_turned moves unreported holds
  rcases Moves.notes moves unreported grounded with
    ⟨sameFired, sameNotes⟩ | ⟨firing, atWork, together, claimed, notes⟩
  · constructor
    case noted =>
      intro firing fired
      obtain ⟨root, isNoted, together⟩ := filed.noted firing (sameFired ▸ fired)
      exact ⟨root, sameNotes ▸ isNoted, together.more⟩
    case held => exact fun root isNoted => holds (filed.held root (sameNotes ▸ isNoted))
  · have found (r : InvocationId) : List.lookup r (s.turned n w turn).engine.firedByRoot =
        if r = w.run.cascade.root then
          some ((List.lookup w.run.cascade.root s.engine.firedByRoot).getD [] ++ [firing])
        else List.lookup r s.engine.firedByRoot := by
      rw [turned_engine, notes]
      exact s.engine.lookup_claim _ r firing
    constructor
    case noted =>
      intro other fired
      rw [turned_engine, claimed] at fired
      rcases List.mem_append.mp fired with before | isNew
      · obtain ⟨r, isNoted, together⟩ := filed.noted other before
        refine ⟨r, ?_, together.more⟩
        rw [found]
        split
        · next isRoot =>
          rw [isRoot] at isNoted
          exact List.mem_append_left _ isNoted
        · exact isNoted
      · rw [List.mem_singleton.mp isNew]
        refine ⟨w.run.cascade.root, ?_, together.more⟩
        rw [found, if_pos rfl]
        exact List.mem_append_right _ (List.mem_singleton_self firing)
    case held =>
      intro r isNoted
      rw [found] at isNoted
      split at isNoted
      · next isRoot => exact holds (guarded.held r ⟨w, inside, isRoot.symm, atWork⟩)
      · exact holds (filed.held r isNoted)

/-- What belongs to a cascade that is forgotten is forgotten with it. -/
theorem Filed.turned_of_reported (filed : s.Filed) (coherent : s.engine.log.Coherent)
    (retains : turn.engine = (s.engine.retain w.run.cascade.root).1) :
    (s.turned n w turn).Filed := by
  constructor
  case noted =>
    intro firing fired
    rw [turned_engine, retains] at fired ⊢
    obtain ⟨stays, notGone⟩ := Engine.mem_fired_retain.mp fired
    obtain ⟨r, isNoted, together⟩ := filed.noted firing stays
    refine ⟨r, ?_, together.more⟩
    rw [Engine.lookup_retain, if_neg fun isGone => notGone r isGone isNoted]
    exact isNoted
  case held =>
    intro r isNoted
    rw [turned_engine, retains, Engine.lookup_retain] at isNoted
    split at isNoted
    · cases isNoted
    · next notGone =>
      refine (filed.held r isNoted).of_entries fun i held isRoot => ?_
      rw [turned_engine, retains]
      exact (Engine.mem_entries_retain coherent).mpr ⟨held, isRoot ▸ notGone⟩

theorem Filed.turned (filed : s.Filed) (guarded : s.Guarded) (working : s.workers[n]? = some w)
    (moves : Run.IsMove s.engine w.run.cascade w.run.point turn) : (s.turned n w turn).Filed := by
  cases reported : (w.deed n turn).reported? with
  | none => exact filed.turned_of_unreported guarded working moves reported
  | some =>
    have retains := (Moves.retains moves reported).2
    exact filed.turned_of_reported guarded.orderly.sound.coherent retains

theorem Filed.sequential (filed : s.Filed) (guarded : s.Guarded) (next : s.Sequential t) : t.Filed := by
  have orderly := guarded.orderly
  rcases (next.step orderly).keeps_or_turns orderly.sound.coherent with
    ⟨u, first, rfl | second⟩ | ⟨n, w, turn, working, turns, _, rfl⟩
  · exact filed.keeps first
  · exact (filed.keeps first).keeps second
  · exact filed.turned guarded working turns.isMove

theorem Initial.filed (initial : start.Initial) : start.Filed where
  noted firing fired := by simp [initial.fired] at fired
  held root isNoted := by simp [initial.firedByRoot] at isNoted

/-! ### What has drained -/

theorem nodup_drainedOrder (s : System) : s.drainedOrder.Nodup := nodup_eraseDups _

theorem turned_drainedOrder (s : System) (n : Nat) (w : Worker) (turn : Turn) :
    (s.turned n w turn).drainedOrder =
      match (w.deed n turn).reported? with
      | none => s.drainedOrder
      | some root => if root ∈ s.drainedOrder then s.drainedOrder else s.drainedOrder ++ [root] := by
  rw [drainedOrder, turned_chronicle, List.filterMap_append]
  cases reported : (w.deed n turn).reported? with
  | none => simp [reported, drainedOrder]
  | some root =>
    have isLast : List.filterMap Deed.reported? [w.deed n turn] = [root] := by simp [reported]
    rw [isLast, eraseDups_concat]
    rfl

/-- The order stays, and with it what is in the log of it. -/
theorem Ranked.stays (ranked : s.Ranked n) (orderly : s.Orderly) (later : t.Orderly)
    (evolves : s.engine.Evolves t.engine) (history : ∃ added, t.history = s.history ++ added)
    (order : t.drainedOrder = s.drainedOrder) (listed : t.engine.drained = s.engine.drained)
    (holds : ∀ r, s.Holds r → t.Holds r) : t.Ranked n where
  limit := evolves.limits ▸ ranked.limit
  known r inOrder := by
    obtain ⟨i, known, isRoot⟩ := ranked.known r (order ▸ inOrder)
    obtain ⟨added, history⟩ := history
    exact ⟨i, history ▸ List.mem_append_left _ known, isRoot⟩
  listed := by
    rw [listed, ranked.listed, order]
    refine List.filter_congr fun r inOrder => decide_eq_decide.mpr ⟨holds r, ?_⟩
    exact Holds.before orderly later evolves history (ranked.known r inOrder)
  newest r isNew := by
    rw [System.newest, order] at isNew
    exact holds r (ranked.newest r isNew)

theorem Ranked.keeps (ranked : s.Ranked n) (orderly : s.Orderly) (keeps : s.Keeps t) : t.Ranked n := by
  obtain ⟨added, history, _⟩ := keeps.rests.history
  refine ranked.stays orderly (orderly.rests keeps.rests) keeps.rests.evolves ⟨added, history⟩ ?order
    keeps.listed fun r holds => holds.of_entries fun i held _ => keeps.entries i held
  case order => rw [drainedOrder, drainedOrder, keeps.rests.chronicle]

theorem Ranked.turned_of_unreported (ranked : s.Ranked m) (guarded : s.Guarded)
    (working : s.workers[n]? = some w)
    (moves : Run.IsMove s.engine w.run.cascade w.run.point turn)
    (unreported : (w.deed n turn).reported? = none) : (s.turned n w turn).Ranked m := by
  have inside := List.mem_of_getElem? working
  have grounded := (guarded.orderly.grounded w inside).point
  have evolves := (Moves.sound moves guarded.orderly.sound grounded).2
  have order := s.turned_drainedOrder n w turn
  rw [unreported] at order
  exact ranked.stays guarded.orderly (guarded.orderly.turned working moves) evolves ⟨_, rfl⟩ order
    (Moves.drained_eq moves unreported) fun _ => guarded.holds_turned moves unreported

section Reporting

/-- A run comes back from the repository in time. -/
structure Reports (s : System) (n : Nat) (w : Worker) (turn : Turn) : Prop where
  guarded : s.Guarded
  working : s.workers[n]? = some w
  moves : Run.IsMove s.engine w.run.cascade w.run.point turn
  reported : (w.deed n turn).reported? = some w.run.cascade.root
  inTime : s.Holds w.run.cascade.root

variable (ranked : s.Ranked m) (reports : s.Reports n w turn)

include reports

theorem Reports.engine_eq : turn.engine = (s.engine.retain w.run.cascade.root).1 :=
  (Moves.retains reports.moves reports.reported).2

theorem Reports.drainedOrder_eq : (s.turned n w turn).drainedOrder =
    if w.run.cascade.root ∈ s.drainedOrder then s.drainedOrder
    else s.drainedOrder ++ [w.run.cascade.root] := by
  rw [turned_drainedOrder, reports.reported]

/-- A run that comes back from the repository has left its work loop before. -/
theorem Reports.isAtWork (atWork : s.IsAtWork root) : (s.turned n w turn).IsAtWork root := by
  refine atWork.turned reports.working reports.moves ?_
  obtain ⟨before, after⟩ := Deed.not_isAtWork_of_reported reports.reported
  exact after.trans before.symm

include ranked

theorem Reports.known : ∀ r ∈ (s.turned n w turn).drainedOrder, ∃ i ∈ s.history, i.root = r := by
  intro r inOrder
  rw [reports.drainedOrder_eq] at inOrder
  split at inOrder
  · exact ranked.known r inOrder
  · rcases List.mem_append.mp inOrder with before | isLast
    · exact ranked.known r before
    · rw [List.mem_singleton.mp isLast]
      exact reports.guarded.known w (List.mem_of_getElem? reports.working)

/-- What is listed once the cascade has been listed is what has drained and is in the log. -/
theorem Reports.enlisted : (s.engine.enlist w.run.cascade.root).drained =
    (s.turned n w turn).drainedOrder.filter (s.Holds ·) := by
  have inTime : decide (s.Holds w.run.cascade.root) = true := decide_eq_true reports.inTime
  have isListed : s.engine.drained.contains w.run.cascade.root = true ↔
      w.run.cascade.root ∈ s.drainedOrder := by
    rw [List.contains_iff_mem, ranked.listed, List.mem_filter, inTime]
    simp
  rw [reports.drainedOrder_eq, Engine.enlist]
  by_cases before : w.run.cascade.root ∈ s.drainedOrder
  · rw [if_pos (isListed.mpr before), if_pos before, ranked.listed]
  · have isLast : [w.run.cascade.root].filter (s.Holds ·) = [w.run.cascade.root] :=
      List.filter_cons_of_pos inTime
    rw [if_neg (isListed.not.mpr before), if_neg before, List.filter_append, ranked.listed, isLast]

/-- Before the pass the last of what has drained are in the log. -/
theorem Reports.newest_held : ∀ r ∈ (s.turned n w turn).newest m, s.Holds r := by
  intro r isNew
  rw [newest, reports.drainedOrder_eq] at isNew
  split at isNew
  · exact ranked.newest r isNew
  · rw [List.length_append, List.drop_append] at isNew
    rcases List.mem_append.mp isNew with before | isLast
    · refine ranked.newest r ((List.drop_sublist_drop_left s.drainedOrder ?_).subset before)
      omega
    · rw [List.mem_singleton.mp (List.mem_of_mem_drop isLast)]
      exact reports.inTime

/-- The pass forgets what is older, in the log and not at work. -/
theorem Reports.evicted_eq : s.engine.evicted w.run.cascade.root =
    (((s.turned n w turn).older m).filter (s.Holds ·)).filter (!s.engine.isRunning ·) := by
  have newest : ∀ r ∈ (s.turned n w turn).newest m, decide (s.Holds r) = true := fun r isNew =>
    decide_eq_true (reports.newest_held ranked r isNew)
  rw [Engine.evicted, ranked.limit]
  dsimp only
  rw [Engine.evictable, reports.enlisted ranked, take_excess _ _ m newest]
  exact List.filter_congr fun r _ => by rw [Engine.isRunning_enlist]

omit ranked in
theorem Reports.holds_iff : (s.turned n w turn).Holds root ↔
    s.Holds root ∧ root ∉ s.engine.evicted w.run.cascade.root := by
  have coherent := reports.guarded.orderly.sound.coherent
  have entries {i : Invocation} : i ∈ (s.turned n w turn).engine.log.entries ↔
      i ∈ s.engine.log.entries ∧ i.root ∉ s.engine.evicted w.run.cascade.root := by
    rw [turned_engine, reports.engine_eq]
    exact Engine.mem_entries_retain coherent
  constructor
  · rintro ⟨i, held, isId, isRoot⟩
    obtain ⟨before, stays⟩ := entries.mp held
    exact ⟨⟨i, before, isId, isRoot⟩, isRoot ▸ stays⟩
  · rintro ⟨holds, stays⟩
    exact holds.of_entries fun i held isRoot => entries.mpr ⟨held, isRoot ▸ stays⟩

/-- After the pass, the engine lists again what has drained and is in the log, the last of it
included. -/
theorem Ranked.turned_of_reported : (s.turned n w turn).Ranked m where
  limit := by
    rw [turned_engine, reports.engine_eq, Engine.retain_limits]
    exact ranked.limit
  known r inOrder := by
    obtain ⟨i, known, isRoot⟩ := reports.known ranked r inOrder
    exact ⟨i, List.mem_append_left _ known, isRoot⟩
  listed := by
    have enlisted := reports.enlisted ranked
    have distinct : (s.engine.enlist w.run.cascade.root).drained.Nodup :=
      enlisted ▸ (nodup_drainedOrder _).filter _
    rw [turned_engine, reports.engine_eq, Engine.retain_drained ranked.limit distinct, enlisted,
      List.filter_filter]
    refine List.filter_congr fun r _ => ?_
    rw [← Bool.decide_and, decide_eq_decide, reports.holds_iff, and_comm]
  newest r isNew := by
    refine reports.holds_iff.mpr ⟨reports.newest_held ranked r isNew, fun isGone => ?_⟩
    rw [reports.evicted_eq ranked] at isGone
    have isOld : r ∈ (s.turned n w turn).older m :=
      List.mem_of_mem_filter (List.mem_of_mem_filter isGone)
    exact List.disjoint_take_drop (nodup_drainedOrder _) (Nat.le_refl _) isOld isNew

/-- After the pass, nothing older is in the log without a run at work. -/
theorem Reports.not_holds_of_older (isOld : root ∈ (s.turned n w turn).older m)
    (idle : ¬s.IsAtWork root) : ¬(s.turned n w turn).Holds root := by
  intro holds
  obtain ⟨before, stays⟩ := reports.holds_iff.mp holds
  refine stays ?_
  rw [reports.evicted_eq ranked, List.mem_filter, List.mem_filter]
  have notMarked : s.engine.isRunning root = false :=
    Bool.eq_false_iff.mpr fun marked => idle ((reports.guarded.marked root).mp marked)
  exact ⟨⟨isOld, decide_eq_true before⟩, by rw [notMarked]; rfl⟩

end Reporting

/-! ### What every paced step preserves -/

/-- What is in the log, what has fired and what is listed as drained fit together. -/
structure Tidy (s : System) (n : Nat) : Prop where
  guarded : s.Guarded
  filed : s.Filed
  ranked : s.Ranked n

theorem Timely.reports (guarded : s.Guarded) (working : s.workers[n]? = some w)
    (moves : Run.IsMove s.engine w.run.cascade w.run.point turn)
    (timely : s.Timely (s.turned n w turn)) (reported : (w.deed n turn).reported? = some root) :
    s.Reports n w turn := by
  have isRoot := (Moves.retains moves reported).1
  rw [isRoot] at reported
  refine ⟨guarded, working, moves, reported, timely (w.deed n turn) ?_ _ reported⟩
  rw [drop_turned_chronicle (Nat.le_refl _), List.drop_length]
  exact List.mem_singleton_self _

theorem Tidy.paced (tidy : s.Tidy n) (next : s.Paced t) : t.Tidy n := by
  obtain ⟨sequential, timely⟩ := next
  have orderly := tidy.guarded.orderly
  refine ⟨tidy.guarded.sequential sequential, tidy.filed.sequential tidy.guarded sequential, ?_⟩
  rcases (sequential.step orderly).keeps_or_turns orderly.sound.coherent with
    ⟨u, first, rfl | second⟩ | ⟨k, w, turn, working, turns, _, rfl⟩
  · exact tidy.ranked.keeps orderly first
  · exact (tidy.ranked.keeps orderly first).keeps (orderly.rests first.rests) second
  · have moves := turns.isMove
    cases reported : (w.deed k turn).reported? with
    | none => exact tidy.ranked.turned_of_unreported tidy.guarded working moves reported
    | some =>
      have reports := timely.reports tidy.guarded working moves reported
      exact tidy.ranked.turned_of_reported reports

theorem Initial.tidy (initial : start.Initial) (fresh : start.engine.drained = [])
    (limit : start.engine.limits.retention = some (n : Int)) : start.Tidy n where
  guarded := initial.guarded
  filed := initial.filed
  ranked := {
    limit
    known := fun r inOrder => by simp [drainedOrder, initial.chronicle] at inOrder
    listed := by simp [drainedOrder, initial.chronicle, fresh]
    newest := fun r isNew => by simp [newest, drainedOrder, initial.chronicle] at isNew }

theorem Tidy.reaches (tidy : s.Tidy n) (reached : Relation.ReflTransGen Paced s t) : t.Tidy n := by
  induction reached with
  | refl => exact tidy
  | tail _ next ih => exact ih.paced next

/-- If something was reported in a step, that was the step of a run that came back from the
repository in time. -/
theorem Tidy.exists_reports (tidy : s.Tidy m) (next : s.Paced t)
    (passed : ∃ deed ∈ t.chronicle.drop s.chronicle.length, deed.reported?.isSome = true) :
    ∃ n w turn, s.Reports n w turn ∧ t = s.turned n w turn := by
  obtain ⟨sequential, timely⟩ := next
  obtain ⟨deed, made, isReport⟩ := passed
  have orderly := tidy.guarded.orderly
  have silent (same : t.chronicle = s.chronicle) : False := by
    rw [same, List.drop_length] at made
    cases made
  rcases (sequential.step orderly).keeps_or_turns orderly.sound.coherent with
    ⟨u, first, rfl | second⟩ | ⟨n, w, turn, working, turns, _, rfl⟩
  · exact (silent first.rests.chronicle).elim
  · exact (silent (second.rests.chronicle.trans first.rests.chronicle)).elim
  · rw [drop_turned_chronicle (Nat.le_refl _), List.drop_length] at made
    rw [List.mem_singleton.mp made] at isReport
    obtain ⟨root, reported⟩ := Option.isSome_iff_exists.mp isReport
    exact ⟨n, w, turn, timely.reports tidy.guarded working turns.isMove reported, rfl⟩

/-- What is not in the log has left nothing behind. -/
theorem Tidy.hasForgotten (tidy : s.Tidy n) (isGone : ¬s.Holds root) : s.HasForgotten root := by
  have orderly := tidy.guarded.orderly
  constructor
  case log =>
    refine List.eq_nil_iff_forall_not_mem.mpr fun i inCascade => isGone ?_
    obtain ⟨held, isRoot⟩ := orderly.sound.coherent.mem_cascade.mp inCascade
    exact isRoot ▸ orderly.holds held
  case fired =>
    intro firing fired i known resting isRoot
    obtain ⟨r, isNoted, together⟩ := tidy.filed.noted firing fired
    obtain ⟨j, alsoKnown, sameId, otherRoot⟩ := together i.id resting
    have same : j = i := orderly.sound.log.eq_of_id_eq alsoKnown known sameId
    have sameRoot : r = root := otherRoot.symm.trans (same ▸ isRoot)
    refine isGone (sameRoot ▸ tidy.filed.held r ?_)
    cases found : List.lookup r s.engine.firedByRoot with
    | none =>
      rw [found] at isNoted
      cases isNoted
    | some => rfl
  case noted =>
    cases found : List.lookup root s.engine.firedByRoot with
    | none => rfl
    | some => exact absurd (tidy.filed.held root (by rw [found]; rfl)) isGone

/-- Cascades are processed one run at a time, and no run comes back from the repository after its
cascade was forgotten. Then whenever a run has come back and the latest drained cascades have
been kept, each of these is in the log with all that it has ever logged, and of every older one
that is not being processed again nothing is left. -/
theorem keeps_newest (initial : start.Initial) (fresh : start.engine.drained = [])
    (limit : start.engine.limits.retention = some (m : Int))
    (reached : Relation.ReflTransGen Paced start s) (next : s.Paced t)
    (passed : ∃ deed ∈ t.chronicle.drop s.chronicle.length, deed.reported?.isSome = true) :
    (∀ root ∈ t.newest m, t.Holds root ∧ ∀ i ∈ t.history, i.root = root → i ∈ t.engine.log.entries) ∧
      ∀ root ∈ t.older m, ¬t.IsAtWork root → t.HasForgotten root := by
  have tidy := (initial.tidy fresh limit).reaches reached
  have later := tidy.paced next
  constructor
  · intro root isNew
    have holds := later.ranked.newest root isNew
    exact ⟨holds, fun i known isRoot => later.guarded.orderly.mem_entries_of_holds holds known isRoot⟩
  · intro root isOld idle
    obtain ⟨n, w, turn, reports, rfl⟩ := tidy.exists_reports next passed
    have wasIdle : ¬s.IsAtWork root := fun atWork => idle (reports.isAtWork atWork)
    exact later.hasForgotten (reports.not_holds_of_older tidy.ranked isOld wasIdle)

/-- A schedule can happen one step after the other, in time. -/
def Plays (s : System) : List Happening → Prop
  | [] => True
  | happening :: later => s.Fits happening ∧ ∃ t ∈ s.happen? happening, s.Timely t ∧ t.Plays later

instance decidablePlays (s : System) : (schedule : List Happening) → Decidable (s.Plays schedule)
  | [] => .isTrue trivial
  | happening :: later =>
    have (t : System) : Decidable (t.Plays later) := decidablePlays t later
    inferInstanceAs
      (Decidable (s.Fits happening ∧ ∃ t ∈ s.happen? happening, s.Timely t ∧ t.Plays later))

theorem Plays.paced_after {schedule : List Happening} (guarded : s.Guarded)
    (plays : s.Plays schedule) : Relation.ReflTransGen Paced s (s.after schedule) := by
  suffices follows : ∃ t, s.follow? schedule = some t ∧ Relation.ReflTransGen Paced s t by
    obtain ⟨t, follows, reached⟩ := follows
    rw [after, follows]
    exact reached
  induction schedule generalizing s with
  | nil => exact ⟨s, rfl, .refl⟩
  | cons happening later ih =>
    obtain ⟨fits, t, happens, timely, plays⟩ := plays
    have next : s.Sequential t := .of_happen guarded.orderly fits happens
    obtain ⟨u, follows, reached⟩ := ih (guarded.sequential next) plays
    refine ⟨u, ?_, .head ⟨next, timely⟩ reached⟩
    exact Option.bind_eq_some_iff.mpr ⟨t, happens, follows⟩

end System

/-! ### A run that comes back too late -/

namespace Shop

/-- Nobody listens, and the latest drained cascade is kept. -/
def start : System where
  engine := { limits := { retention := some 1 } }

theorem start_initial : start.Initial where
  log := .start
  fired := rfl
  firedByRoot := rfl
  active := rfl
  workers := rfl
  chronicle := rfl

def enter : Happening := .record ⟨"Shop", "enter"⟩ [] []

/-- The cascade at a place of the history is processed by the next run, up to the repository. -/
def visit (place n : Nat) : List Happening := [.process place, .go n, .go n, .go n]

/-- A run comes back from the repository. -/
def comeBack (n : Nat) : Happening := .hear n (.repository (.ok ()))

/-- One cascade has drained, and the next is with the repository. -/
def busy : System := start.after ([enter] ++ visit 0 0 ++ [comeBack 0, enter] ++ visit 1 1)

def quiet : System := busy.after [comeBack 1]

theorem keeps_newest_quiet : quiet.newest 1 = [2] ∧ quiet.older 1 = [1] ∧
    (∀ root ∈ quiet.newest 1, quiet.Holds root ∧
      ∀ i ∈ quiet.history, i.root = root → i ∈ quiet.engine.log.entries) ∧
    ∀ root ∈ quiet.older 1, ¬quiet.IsAtWork root → quiet.HasForgotten root := by
  have reached : Relation.ReflTransGen System.Paced start busy :=
    System.Plays.paced_after start_initial.guarded (by decide +kernel)
  have fits : busy.Fits (comeBack 1) := trivial
  have guarded := (start_initial.tidy (n := 1) rfl rfl).reaches reached |>.guarded
  have happens : busy.happen? (comeBack 1) = some quiet := rfl
  have next : busy.Paced quiet := ⟨.of_happen guarded.orderly fits happens, by decide +kernel⟩
  exact ⟨by decide +kernel, by decide +kernel,
    System.keeps_newest start_initial rfl rfl reached next (by decide +kernel)⟩

/-- The first cascade has drained and is with the repository once more; the second has drained
and has come back, and the first is forgotten. -/
def hurried : System :=
  start.after ([enter] ++ visit 0 0 ++ [comeBack 0] ++ visit 0 1 ++ [enter] ++ visit 1 2 ++ [comeBack 2])

/-- The first cascade comes back as well. -/
def haunted : System := hurried.after [comeBack 1]

/-- The repository refuses the first cascade, and two more drain. -/
def refused : System :=
  start.after ([enter] ++ visit 0 0 ++ [.hear 0 (.repository (.error (.missingKey "dictionary is empty")))] ++
    [enter] ++ visit 1 1 ++ [comeBack 1, enter] ++ visit 2 2 ++ [comeBack 2])

/-- Of the cascades that have drained the latest is to be kept, and no other. A run that comes back
too late lists its cascade again although it was forgotten, and the latest is forgotten in its place.
A cascade that the repository refuses is never listed, and stays for ever. -/
theorem keeps_others :
    (Relation.ReflTransGen System.Sequential start haunted ∧ haunted.newest 1 = [2] ∧
      ¬haunted.Holds 2 ∧ haunted.engine.drained = [1]) ∧
    (Relation.ReflTransGen System.Sequential start refused ∧ refused.newest 1 = [3] ∧
      (∃ w ∈ refused.workers[0]?, w.run.cascade.root = 1 ∧ w.run.cascade.state = .drained) ∧
      refused.AtRest 1 ∧ refused.Holds 1) := by
  have sequential {s t : System} (reached : Relation.ReflTransGen System.Paced s t) :
      Relation.ReflTransGen System.Sequential s t :=
    Relation.ReflTransGen.mono (fun _ _ => And.left) s t reached
  have hurries : Relation.ReflTransGen System.Paced start hurried :=
    System.Plays.paced_after start_initial.guarded (by decide +kernel)
  have orderly := ((start_initial.guarded).reaches (sequential hurries)).orderly
  have happens : hurried.happen? (comeBack 1) = some haunted := rfl
  have fits : hurried.Fits (comeBack 1) := trivial
  have late : hurried.Sequential haunted := .of_happen orderly fits happens
  have refuses : Relation.ReflTransGen System.Paced start refused :=
    System.Plays.paced_after start_initial.guarded (by decide +kernel)
  exact ⟨⟨(sequential hurries).tail late, by decide +kernel, by decide +kernel, by decide +kernel⟩,
    sequential refuses, by decide +kernel, by decide +kernel, by decide +kernel, by decide +kernel⟩

end Shop

end Choreography
