import Choreography.Proofs.System.Unhindered

/-! Concurrent calls do not influence each other. However the runs of several calls take turns,
the cascade of each takes the course that it takes when its call is the only one, made in a new
engine. -/

namespace Choreography

/-- What a run that is at work does next when its components answer at once. -/
def Run.next (answer : Responses) (e : Engine) (r : Run) : Turn :=
  match r.wait? e with
  | some (.component action input _) => r.resume e 0 (.component (.finished (answer action input)))
  | _ => r.step e 0

namespace System

/-- A new engine with the same components, rules and limits. -/
def fresh (s : System) : System where
  engine := { catalogue := s.engine.catalogue, rules := s.engine.rules, limits := s.engine.limits }

/-- The next move of the first run, if that is at work. Its components answer at once. -/
def proceed (answer : Responses) (s : System) : System :=
  match s.workers with
  | w :: _ => if w.run.point.isAtWork then s.turned 0 w (w.run.next answer s.engine) else s
  | [] => s

/-- A call in a new engine, after some moves of its run. -/
def solo (answer : Responses) (start : System) (action : ActionRef) (input output : Fields) :
    Nat → System
  | 0 => start.fresh.invoked action input output none 0
  | moves + 1 => (solo answer start action input output moves).proceed answer

/-- A call was made in a new engine, and no other. -/
structure IsAlone (answer : Responses) (start : System) (action : ActionRef) (input : Fields)
    (alone : System) (v : Worker) : Prop where
  reached : Relation.ReflTransGen (Unhindered answer) start.fresh alone
  only : alone.workers = [v]
  first : ∃ i ∈ alone.history, i.id = v.run.cascade.root ∧ i.action = action ∧ i.input = input

variable {answer : Responses} {start s t alone : System} {n m k : Nat} {w v : Worker} {turn : Turn}
  {i : Invocation}

/-! ### A call that is alone -/

/-- A run that is at work goes on alone, whether it waits for a component or for nothing. -/
theorem Unhindered.of_next (working : s.workers[n]? = some w) (atWork : w.run.point.isAtWork = true)
    (ready : w.run.wait? s.engine = none ∨
      ∃ action input ends, w.run.wait? s.engine = some (.component action input ends)) :
    Unhindered answer s (s.turned n w (w.run.next answer s.engine)) ∧
      Run.IsMove s.engine w.run.cascade w.run.point (w.run.next answer s.engine) := by
  rw [Run.next]
  rcases ready with ready | ⟨action, input, ends, waits⟩
  · have going := Run.hasEnded_of_isAtWork atWork
    rw [ready]
    exact ⟨.go working ready going 0, Run.step_isMove _ 0 ready going⟩
  · rw [waits]
    exact ⟨.call working waits 0, Run.resume_isMove _ 0 waits (Wait.component_isAnswered _)⟩

/-- The only run of a call that is alone makes its next move. -/
theorem IsAlone.proceeds {action : ActionRef} {input : Fields}
    (isAlone : IsAlone answer start action input alone v)
    (atWork : v.run.point.isAtWork = true) (ready : v.run.wait? alone.engine = none ∨
      ∃ action input ends, v.run.wait? alone.engine = some (.component action input ends)) :
    alone.proceed answer = alone.turned 0 v (v.run.next answer alone.engine) ∧
      IsAlone answer start action input (alone.proceed answer)
        { run := (v.run.next answer alone.engine).run, taken := v.number } := by
  have working : alone.workers[0]? = some v := by
    rw [isAlone.only]
    rfl
  have proceeds : alone.proceed answer = alone.turned 0 v (v.run.next answer alone.engine) := by
    rw [proceed, isAlone.only]
    exact if_pos atWork
  obtain ⟨moved, moves⟩ := Unhindered.of_next working atWork ready
  obtain ⟨j, known, isRoot, sameCall⟩ := isAlone.first
  rw [proceeds]
  refine ⟨rfl, isAlone.reached.tail moved, ?_, j, List.mem_append_left _ known, ?_, sameCall⟩
  · rw [turned, isAlone.only]
    rfl
  · exact isRoot.trans (Moves.root_eq moves).symm

/-- A run that has left its work loop makes no further moves alone. -/
theorem solo_of_left {action : ActionRef} {input output : Fields}
    (only : (solo answer start action input output k).workers = [v])
    (left : v.run.point.isAtWork = false) (later : k ≤ m) :
    solo answer start action input output m = solo answer start action input output k := by
  -- The induction is on the moves after the last one that the run has made.
  induction m, later using Nat.le_induction with
  | base => rfl
  | succ m _ ih =>
    rw [solo, ih, proceed, only]
    exact if_neg (Bool.eq_false_iff.mp left)

/-- Alone, the run of a call comes to one end. -/
theorem solo_unique {action : ActionRef} {input output : Fields}
    (only : (solo answer start action input output k).workers = [v])
    (left : v.run.point.isAtWork = false)
    (alsoOnly : (solo answer start action input output m).workers = [w])
    (alsoLeft : w.run.point.isAtWork = false) :
    solo answer start action input output k = solo answer start action input output m ∧ v = w := by
  have same : solo answer start action input output k = solo answer start action input output m := by
    rcases Nat.le_total k m with later | later
    · exact (solo_of_left only left later).symm
    · exact solo_of_left alsoOnly alsoLeft later
  rw [same, alsoOnly] at only
  exact ⟨same, (List.singleton_inj.mp only).symm⟩

theorem solo_fresh (action : ActionRef) (input output : Fields) :
    solo answer start.fresh action input output k = solo answer start action input output k := by
  induction k with
  | zero => rfl
  | succ k ih => rw [solo, solo, ih]

/-! ### Side by side -/

/-- A run of a call stands where the run of the same call stands alone, after some moves. -/
structure Shadow (answer : Responses) (start s : System) (w : Worker) (i : Invocation) (call : CallEnd)
    (moves : Nat) (v : Worker) : Prop where
  known : i ∈ s.history
  isRoot : i.id = w.run.cascade.root
  called : CallEnd.ofResult i.action (answer i.action i.input) = .ok call
  isAlone : IsAlone answer start i.action i.input
    (solo answer start i.action i.input call.output moves) v
  alike : Run.Mirrors s.engine w.run (solo answer start i.action i.input call.output moves).engine v.run

def HasShadow (answer : Responses) (start s : System) (w : Worker) : Prop :=
  ∃ i call moves v, Shadow answer start s w i call moves v

/-- Every run stands where the run of its call stands alone, and no two runs share a cascade. -/
structure Separate (answer : Responses) (start s : System) : Prop where
  guarded : s.Guarded
  filed : s.Filed
  evolves : start.engine.Evolves s.engine
  apart : ∀ (n m : Nat) (v w : Worker), s.workers[n]? = some v → s.workers[m]? = some w →
    v.run.cascade.root = w.run.cascade.root → n = m
  shadows : ∀ w ∈ s.workers, HasShadow answer start s w

/-- What other runs do is nothing to a run. -/
theorem HasShadow.later (shadow : HasShadow answer start s w) (known : ∀ i ∈ s.history, i ∈ t.history)
    (same : s.engine.SameFor t.engine w.run.cascade.root) : HasShadow answer start t w := by
  obtain ⟨i, call, moves, v, shadow⟩ := shadow
  exact ⟨i, call, moves, v, { shadow with known := known i shadow.known, alike := shadow.alike.congr same }⟩

section Moving

variable (moves : Run.IsMove s.engine w.run.cascade w.run.point turn)

include moves

/-- A run that is at work and its shadow make their next move together. -/
theorem Shadow.turned {call : CallEnd} (shadow : Shadow answer start s w i call k v)
    (atWork : w.run.point.isAtWork = true)
    (ready : v.run.wait? (solo answer start i.action i.input call.output k).engine = none ∨
      ∃ action input ends, v.run.wait? (solo answer start i.action i.input call.output k).engine =
        some (.component action input ends))
    (alike : turn.Mirrors (v.run.next answer (solo answer start i.action i.input call.output k).engine)) :
    HasShadow answer start (s.turned n w turn) { run := turn.run, taken := w.number } := by
  have alsoAtWork := shadow.alike.isAtWork_eq.symm.trans atWork
  obtain ⟨proceeds, isAlone⟩ := shadow.isAlone.proceeds alsoAtWork ready
  refine ⟨i, call, k + 1, _, List.mem_append_left _ shadow.known, ?_, shadow.called, isAlone, ?_⟩
  · exact shadow.isRoot.trans (Moves.root_eq moves).symm
  · rw [solo, proceeds]
    exact alike

/-- A run that waits for nothing takes the step that it takes alone. -/
theorem HasShadow.go (shadow : HasShadow answer start s w) (plain : s.engine.IsPlain)
    (atWork : w.run.point.isAtWork = true) (ready : w.run.wait? s.engine = none) (now : Instant)
    (isStep : turn = w.run.step s.engine now) :
    HasShadow answer start (s.turned n w turn) { run := turn.run, taken := w.number } := by
  obtain ⟨i, call, k, v, shadow⟩ := shadow
  obtain ⟨alsoReady, alike⟩ := shadow.alike.step plain atWork ready now 0
  refine shadow.turned moves atWork (.inl alsoReady) ?_
  rw [Run.next, alsoReady, isStep]
  exact alike

/-- A run that is answered goes on as it does alone, where the answer is the same. -/
theorem HasShadow.call {action : ActionRef} {input : Fields} {ends : Option Instant}
    (shadow : HasShadow answer start s w) (atWork : w.run.point.isAtWork = true)
    (waits : w.run.wait? s.engine = some (.component action input ends)) (now : Instant)
    (isAnswer : turn = w.run.resume s.engine now (.component (.finished (answer action input)))) :
    HasShadow answer start (s.turned n w turn) { run := turn.run, taken := w.number } := by
  obtain ⟨i, call, k, v, shadow⟩ := shadow
  obtain ⟨_, _, _, ends', same, alsoWaits, alike⟩ := shadow.alike.resume atWork waits now 0
  cases same
  refine shadow.turned moves atWork (.inr ⟨_, _, _, alsoWaits⟩) ?_
  rw [Run.next, alsoWaits, isAnswer]
  exact alike _

end Moving

/-- A run that has left its work loop changes nothing when it ends. -/
theorem HasShadow.save (shadow : HasShadow answer start s w)
    (unlimited : s.engine.limits.retention = none) (isSaving : w.run.point = .saving)
    (result : Except Error Unit) (now : Instant) :
    HasShadow answer start (s.turned n w (w.run.resume s.engine now (.repository result)))
      { run := (w.run.resume s.engine now (.repository result)).run, taken := w.number } := by
  obtain ⟨i, call, k, v, shadow⟩ := shadow
  obtain ⟨sameEngine, sameCascade, atRest⟩ := Run.resume_of_saving unlimited isSaving result now
  have alsoAtRest : v.run.point.isAtWork = false := by
    rw [← shadow.alike.isAtWork_eq, isSaving]
    rfl
  refine ⟨i, call, k, v, List.mem_append_left _ shadow.known, ?_, shadow.called, shadow.isAlone, ?_⟩
  · exact shadow.isRoot.trans (congrArg Cascade.root sameCascade).symm
  · rw [turned_engine, sameEngine]
    refine ⟨?_, fun atWork => absurd atWork (Bool.eq_false_iff.mp atRest), .idle atRest alsoAtRest⟩
    rw [sameCascade]
    exact shadow.alike.engine

theorem fresh_initial (s : System) : s.fresh.Initial := ⟨.start, rfl, rfl, rfl, rfl, rfl⟩

/-- A call that is made begins as it does alone. -/
theorem hasShadow_invoked {action : ActionRef} {input : Fields} {call : CallEnd} {operation : Operation}
    (guarded : s.Guarded) (filed : s.Filed) (evolves : start.engine.Evolves s.engine)
    (offered : s.engine.catalogue.operation action = .ok operation)
    (isAction : operation.kind = .action)
    (called : CallEnd.ofResult action (answer action input) = .ok call) (now : Instant) :
    HasShadow answer start (s.invoked action input call.output none now)
      { run := (Run.start s.engine s.workers.length
          (s.engine.log.describe action input call.output []) none now).2 } := by
  have orderly := guarded.orderly
  have initial := fresh_initial start
  have isNew := initial.guarded.orderly
  have alsoOffered : start.fresh.engine.catalogue.operation action = .ok operation :=
    evolves.catalogue ▸ offered
  obtain ⟨mirrors, pair⟩ := Engine.Mirrors.begin (f := start.fresh.engine) evolves.catalogue
    evolves.rules (congrArg Limits.depth evolves.limits) (filed.knows orderly)
    (initial.filed.knows isNew) orderly.sound.coherent isNew.sound.coherent orderly.cascade_next
    isNew.cascade_next action input call.output
  refine ⟨s.engine.log.describe action input call.output [], call, 0, _,
    List.mem_append_right _ (List.mem_singleton_self _), rfl, called, ⟨?_, rfl, ?_⟩, ?_⟩
  · exact .single (.invoke alsoOffered isAction called (Engine.record_eq _ _ _ _) 0)
  · exact ⟨_, List.mem_append_right _ (List.mem_singleton_self _), rfl, rfl, rfl⟩
  · exact Run.start_mirrors mirrors pair _ _ now 0

/-- If one run and its shadow move together, all other runs keep theirs. -/
theorem Separate.turned (separate : Separate answer start s) (begins : start.engine.log.Reachable)
    (unlimited : start.engine.limits.retention = none) (next : s.Sequential (s.turned n w turn))
    (working : s.workers[n]? = some w)
    (moves : Run.IsMove s.engine w.run.cascade w.run.point turn)
    (shadow : HasShadow answer start (s.turned n w turn) { run := turn.run, taken := w.number }) :
    Separate answer start (s.turned n w turn) := by
  have stillUnlimited : s.engine.limits.retention = none := separate.evolves.limits ▸ unlimited
  have before {m : Nat} {v : Worker} (isWorker : (s.turned n w turn).workers[m]? = some v) :
      ∃ u, s.workers[m]? = some u ∧ u.run.cascade.root = v.run.cascade.root := by
    rcases turned_worker working isWorker with ⟨rfl, rfl⟩ | ⟨_, before⟩
    · exact ⟨w, working, (Moves.root_eq moves).symm⟩
    · exact ⟨v, before, rfl⟩
  constructor
  case guarded => exact separate.guarded.turned working moves
  case filed => exact separate.filed.turned separate.guarded working moves
  case evolves => exact separate.evolves.trans (separate.guarded.evolves next) begins
  case apart =>
    intro k m u v isFirst isSecond sameRoot
    obtain ⟨u', isWorker, isRoot⟩ := before isFirst
    obtain ⟨v', alsoWorker, alsoRoot⟩ := before isSecond
    exact separate.apart k m u' v' isWorker alsoWorker (isRoot.trans (sameRoot.trans alsoRoot.symm))
  case shadows =>
    intro v inside
    obtain ⟨m, isWorker⟩ := List.getElem?_of_mem inside
    rcases turned_worker working isWorker with ⟨rfl, rfl⟩ | ⟨elsewhere, isOther⟩
    · exact shadow
    · refine (separate.shadows v (List.mem_of_getElem? isOther)).later
        (fun i known => List.mem_append_left _ known) ?_
      refine turned_sameFor separate.guarded separate.filed stillUnlimited working moves ?_
      exact fun sameRoot => elsewhere (separate.apart m n v w isOther working sameRoot)

theorem Separate.invoked {action : ActionRef} {input : Fields} {call : CallEnd}
    {operation : Operation} (separate : Separate answer start s)
    (begins : start.engine.log.Reachable)
    (offered : s.engine.catalogue.operation action = .ok operation)
    (isAction : operation.kind = .action)
    (called : CallEnd.ofResult action (answer action input) = .ok call) (now : Instant) :
    Separate answer start (s.invoked action input call.output none now) := by
  have guarded := separate.guarded
  have next : s.Sequential (s.invoked action input call.output none now) :=
    .invoke offered isAction _ called (Engine.record_eq _ _ _ _) none now
  have isOld {v : Worker} (inside : v ∈ s.workers) : v.run.cascade.root ≠ s.engine.log.next :=
    Int.ne_of_lt (guarded.root_lt_next inside)
  constructor
  case guarded => exact guarded.sequential next
  case filed => exact separate.filed.sequential guarded next
  case evolves => exact separate.evolves.trans (guarded.evolves next) begins
  case apart =>
    intro n m v w isFirst isSecond sameRoot
    rcases mem_begun_workers isFirst with before | ⟨isLast, isRoot, _⟩ <;>
      rcases mem_begun_workers isSecond with alsoBefore | ⟨isLast', isRoot', _⟩
    · exact separate.apart n m v w before alsoBefore sameRoot
    · exact absurd (sameRoot.trans isRoot') (isOld (List.mem_of_getElem? before))
    · exact absurd (sameRoot.symm.trans isRoot) (isOld (List.mem_of_getElem? alsoBefore))
    · exact isLast.trans isLast'.symm
  case shadows =>
    intro v inside
    rcases List.mem_append.mp inside with before | isNew
    · refine (separate.shadows v before).later (fun i known => List.mem_append_left _ known) ?_
      exact invoked_sameFor guarded separate.filed action input call.output none now (isOld before)
    · rw [List.mem_singleton.mp isNew]
      exact hasShadow_invoked guarded separate.filed separate.evolves offered isAction called now

theorem Separate.unhindered (separate : Separate answer start s)
    (begins : start.engine.log.Reachable) (plain : start.engine.IsPlain)
    (unlimited : start.engine.limits.retention = none) (next : Unhindered answer s t) :
    Separate answer start t := by
  have isPlain := separate.evolves.isPlain plain
  have stillUnlimited : s.engine.limits.retention = none := separate.evolves.limits ▸ unlimited
  have sequential := next.sequential
  cases next with
  | invoke offered isAction called logged now =>
    cases (Engine.record_eq _ _ _ _).symm.trans logged
    exact separate.invoked begins offered isAction called now
  | go working ready going now =>
    have moves := Run.step_isMove _ now ready going
    have shadow := separate.shadows _ (List.mem_of_getElem? working)
    have atWork := Run.isAtWork_of_ready ready going
    exact separate.turned begins unlimited sequential working moves
      (shadow.go moves isPlain atWork ready now rfl)
  | @call _ _ action input _ _ working waits now =>
    have moves := Run.resume_isMove _ now waits (Wait.component_isAnswered (.finished (answer action input)))
    have shadow := separate.shadows _ (List.mem_of_getElem? working)
    have atWork := Run.isAtWork_of_component waits
    exact separate.turned begins unlimited sequential working moves
      (shadow.call moves atWork waits now rfl)
  | save working waits result now =>
    have moves := Run.resume_isMove _ now waits (Wait.repository_isAnswered result)
    have shadow := separate.shadows _ (List.mem_of_getElem? working)
    have isSaving := Run.point_of_repository waits
    exact separate.turned begins unlimited sequential working moves
      (shadow.save stillUnlimited isSaving result now)

theorem Initial.separate (initial : start.Initial) : Separate answer start start where
  guarded := initial.guarded
  filed := initial.filed
  evolves := .refl start.engine
  apart n m v w isFirst := by simp [initial.workers] at isFirst
  shadows w inside := by simp [initial.workers] at inside

theorem Separate.reaches (initial : start.Initial) (plain : start.engine.IsPlain)
    (unlimited : start.engine.limits.retention = none)
    (reached : Relation.ReflTransGen (Unhindered answer) start s) : Separate answer start s := by
  induction reached with
  | refl => exact initial.separate
  | tail _ next ih => exact ih.unhindered initial.log.reached plain unlimited next

/-- Calls are made of components without a state, by rules without where-clauses, and nothing
stops or forgets them. Of every run that has left its work loop, the cascade has taken the course
that it takes when the call is made alone, in a new engine: there the run leaves its work loop
too, and whenever it has, the course is the same. -/
theorem course_alone (initial : start.Initial) (plain : start.engine.IsPlain)
    (unlimited : start.engine.limits.retention = none)
    (reached : Relation.ReflTransGen (Unhindered answer) start s) (working : s.workers[n]? = some w)
    (left : w.run.point.isAtWork = false) :
    ∃ i ∈ s.history, i.id = w.run.cascade.root ∧
      (∃ alone v, IsAlone answer start i.action i.input alone v ∧ v.run.point.isAtWork = false) ∧
      ∀ alone v, IsAlone answer start i.action i.input alone v → v.run.point.isAtWork = false →
        s.engine.log.course w.run.cascade.root = alone.engine.log.course v.run.cascade.root := by
  have separate := Separate.reaches initial plain unlimited reached
  obtain ⟨i, call, k, v, shadow⟩ := separate.shadows w (List.mem_of_getElem? working)
  have alsoLeft : v.run.point.isAtWork = false := shadow.alike.isAtWork_eq.symm.trans left
  refine ⟨i, shadow.known, shadow.isRoot, ⟨_, v, shadow.isAlone, alsoLeft⟩, ?_⟩
  intro alone u isAlone uLeft
  -- A system with one call is itself one of several calls, so that its run has the same shadow.
  have alsoSeparate : Separate answer start.fresh alone :=
    Separate.reaches (fresh_initial start) ⟨plain.registered, plain.plain⟩ unlimited isAlone.reached
  obtain ⟨j, again, m, x, image⟩ :=
    alsoSeparate.shadows u (isAlone.only ▸ List.mem_singleton_self u)
  obtain ⟨r, known, isRoot, sameAction, sameInput⟩ := isAlone.first
  obtain rfl : j = r := alsoSeparate.guarded.orderly.sound.log.eq_of_id_eq image.known known
    (image.isRoot.trans isRoot.symm)
  have alike := image.alike
  have only := image.isAlone.only
  have called := image.called
  rw [sameAction, sameInput] at called
  obtain rfl : call = again := Except.ok.inj (shadow.called.symm.trans called)
  rw [sameAction, sameInput, solo_fresh] at alike only
  have xLeft : x.run.point.isAtWork = false := alike.isAtWork_eq.symm.trans uLeft
  obtain ⟨sameSystem, rfl⟩ := solo_unique shadow.isAlone.only alsoLeft only xLeft
  rw [shadow.alike.engine.log.course_eq, sameSystem, ← alike.engine.log.course_eq]

end System

/-! ### Two guests with the same order -/

namespace Inn

/-- Every order is cooked. -/
def cook : Rule where
  name := "cook"
  whens := [{ action := ⟨"Table", "order"⟩, inputs := [("dish", .variable "dish")] }]
  thens := [{ action := ⟨"Kitchen", "cook"⟩, inputs := [("dish", .variable "dish")] }]

/-- What was ordered and cooked is served. -/
def serve : Rule where
  name := "serve"
  whens := [{ action := ⟨"Table", "order"⟩, inputs := [("dish", .variable "dish")] },
    { action := ⟨"Kitchen", "cook"⟩, inputs := [("dish", .variable "dish")] }]
  thens := [{ action := ⟨"Table", "serve"⟩, inputs := [("dish", .variable "dish")] }]

def start : System where
  engine :=
    { catalogue :=
        { operations :=
            [⟨⟨"Table", "order"⟩, .action⟩, ⟨⟨"Kitchen", "cook"⟩, .action⟩,
              ⟨⟨"Table", "serve"⟩, .action⟩] }
      rules := (({} : RuleRegistry).registerAll [.ok cook, .ok serve]).1 }

theorem start_initial : start.Initial where
  log := .start
  fired := rfl
  firedByRoot := rfl
  active := rfl
  workers := rfl
  chronicle := rfl

theorem start_isPlain : start.engine.IsPlain where
  registered := RuleRegistry.Reachable.empty.registerAll _
  plain := by decide +kernel

/-- Whatever is asked for comes back. -/
def answer : Responses := fun _ input => .ok (.map input)

def order : System.Turning := .invoke ⟨"Table", "order"⟩ [("dish", .text "soup")]

/-- Two guests have ordered the same, and are waited on by turns. -/
def evening : System :=
  start.progress answer ([order, order] ++ (List.replicate 24 [.go 0, .go 1]).flatten)

theorem course_alone_evening :
    (evening.engine.log.cascade 1).map (·.id) = [1, 3, 5] ∧
      ∃ w ∈ evening.workers[0]?, w.run.point.isAtWork = false ∧
        ∃ i ∈ evening.history, i.id = w.run.cascade.root ∧
          (∃ alone v, System.IsAlone answer start i.action i.input alone v ∧
            v.run.point.isAtWork = false) ∧
          ∀ alone v, System.IsAlone answer start i.action i.input alone v →
            v.run.point.isAtWork = false →
              evening.engine.log.course w.run.cascade.root =
                alone.engine.log.course v.run.cascade.root := by
  refine ⟨by decide +kernel, ?_⟩
  have left : ∃ w ∈ evening.workers[0]?, w.run.point.isAtWork = false := by decide +kernel
  obtain ⟨w, working, left⟩ := left
  exact ⟨w, working, left, System.course_alone start_initial start_isPlain rfl
    (start.unhindered_progress _) working left⟩

end Inn

end Choreography
