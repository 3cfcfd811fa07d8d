import Choreography.Proofs.Dispatch
import Choreography.Proofs.Enrichment.Course
import Choreography.Proofs.System.Calm

/-! Dispatches that nothing disturbs. The log keeps what belongs to the cascade, nobody cancels, and
time does not run out. Such a dispatch comes to its end, and by then every pattern of its rule has
been dealt with. For this the frame has to rest on one cascade: nothing is logged that two cascades
have caused. -/

namespace Choreography

open InvocationLog

/-- A component has answered, and has not cancelled. -/
def Outcome.IsAnswer (outcome : Outcome α) : Prop :=
  ∃ result, outcome = .finished result ∧ ∀ error, result = .error error → error.IsOrdinary

namespace Dispatch

/-- A dispatch that nothing disturbs does its next piece of work, at that moment or later. Components
answer whatever they like, as long as they do not cancel, and the log keeps the cascade. -/
inductive Proceeds (d : Dispatch) (catalogue : Catalogue) (root : InvocationId) :
    Course × Instant → Course × Instant → Prop where
  | turn (passes : now ≤ later) (calm : x.cascade.IsCalmAt later)
      (spares : x.log.GoesOn (· ≠ root) more log) (answered : ∀ outcome ∈ outcome?, outcome.IsAnswer)
      (turns : d.Turns catalogue later (x.over log more) outcome? y) :
      Proceeds d catalogue root (x, now) (y, later)

/-- A dispatch has come to its end. Every pattern was dealt with, in order. -/
structure Completes (d : Dispatch) (catalogue : Catalogue) (c : Cascade) (root : InvocationId)
    (history : List Invocation) (x : Course) (done : List Dispatched) : Prop where
  thens : d.rule.thens = done.map (·.pattern)
  right : ∀ one ∈ done, one.IsRight catalogue d.frame (d.context c) root
  issued : x.issued = done.filterMap (·.call?)
  heard : x.heard = done.filterMap (·.answer)
  stage : x.stage = .finished (done.map (·.logged))
  posts : posted x.events = done.map (·.logged)
  adds : x.Adds history
  held : ∀ one ∈ done, one.logged ∈ x.log.entries
  ascending : (done.map (·.logged.id)).Pairwise (· < ·)
  tells : delivered x.events = done.filterMap (·.fault?)
  records : x.cascade.faults = c.faults ++ done.filterMap (·.fault?)

/-- What a dispatch needs to log its calls, and what it has logged, is in the log. -/
structure Kept (d : Dispatch) (root : InvocationId) (x : Course) : Prop where
  reached : x.log.Reachable
  together : Together x.log.entries root d.frame.support
  held : ∀ i ∈ posted x.events, i ∈ x.log.entries ∧ i.root = root

end Dispatch

variable {log later : InvocationLog} {history more : List Invocation} {root : InvocationId}
  {action : ActionRef} {input : Fields} {call : CallEnd} {c : Cascade} {now : Instant} {d : Dispatch}
  {catalogue : Catalogue} {x : Course} {i : Invocation} {result : Except Error Value}
  {left : List Pattern} {produced : List Invocation}

/-! ### Answers and logs -/

theorem Eventually.mono {α : Type} {next : α → α → Prop} {goal weaker : α → Prop} {a : α}
    (eventually : Eventually next goal a) (weaken : ∀ b, goal b → weaker b) :
    Eventually next weaker a := by
  induction eventually with
  | now reached => exact .now (weaken _ reached)
  | later goesOn _ ih => exact .later goesOn ih

theorem Outcome.none_isAnswer : ∀ outcome ∈ (none : Option (Outcome α)), outcome.IsAnswer :=
  fun _ inside => nomatch inside

theorem Outcome.ok_isAnswer (value : α) :
    ∀ outcome ∈ some (Outcome.finished (.ok value)), outcome.IsAnswer := by
  intro outcome isOutcome
  cases isOutcome
  exact ⟨_, rfl, fun _ raised => nomatch raised⟩

/-- What belongs to a cascade that is not forgotten stays in the log. -/
theorem InvocationLog.GoesOn.held (spares : log.GoesOn (· ≠ root) more later) (reached : log.Reachable)
    (isHeld : i ∈ log.entries) (isRoot : i.root = root) : i ∈ later.entries := by
  induction spares with
  | refl => exact isHeld
  | append spares logged ih =>
    have coherent := (spares.becomes.reached reached).coherent
    rw [(coherent.append_entries logged).1]
    exact List.mem_append_left _ (ih reached isHeld)
  | forget isOther spares ih =>
    have coherent := (spares.becomes.reached reached).coherent
    have kept : i.root ≠ _ := fun same => isOther (same.symm.trans isRoot)
    exact coherent.mem_entries_forget.mpr ⟨ih reached isHeld, kept⟩

namespace Cascade

theorem IsCalmAt.noted (calm : c.IsCalmAt now) (fault? : Option Failure) :
    ((fault?.map c.recordFault).getD c).IsCalmAt now := by
  cases fault? with
  | none => exact calm
  | some fault => exact calm.recordFaults [fault]

end Cascade

theorem Together.assigned {support : List InvocationId} (together : Together log.entries root support)
    (coherent : log.Coherent) : ∀ id ∈ support, log.Assigned root id := by
  intro id inside
  obtain ⟨i, isHeld, rfl, rfl⟩ := together id inside
  refine ⟨(coherent.bounded i isHeld).2, fun j alsoHeld same => ?_⟩
  rw [coherent.eq_of_id_eq alsoHeld isHeld same]

theorem Together.exists_depthOf {support : List InvocationId}
    (together : Together log.entries root support) (coherent : log.Coherent) (notEmpty : support ≠ []) :
    ∃ depth, Dispatch.depthOf log support = .ok depth := by
  obtain ⟨id, inside⟩ := List.exists_mem_of_ne_nil support notEmpty
  have held : ∀ id ∈ support, ∃ i ∈ log.entries, i.id = id := by
    intro id inside
    obtain ⟨i, isHeld, isId, _⟩ := together id inside
    exact ⟨i, isHeld, isId⟩
  exact Dispatch.exists_depthOf coherent held inside

namespace Dispatch

theorem Kept.elsewhere (kept : d.Kept root x) (spares : x.log.GoesOn (· ≠ root) more later) :
    d.Kept root (x.over later more) where
  reached := spares.becomes.reached kept.reached
  together id inside := by
    obtain ⟨i, isHeld, isId, isRoot⟩ := kept.together id inside
    exact ⟨i, spares.held kept.reached isHeld isRoot, isId, isRoot⟩
  held i inside := by
    obtain ⟨isHeld, isRoot⟩ := kept.held i inside
    exact ⟨spares.held kept.reached isHeld isRoot, isRoot⟩

theorem Kept.goOn (kept : d.Kept root x) (stage : Dispatching) (cascade : Cascade)
    (answers : List (Except Error Value)) :
    d.Kept root (x.followedBy { stage, cascade, log := x.log } answers) where
  reached := kept.reached
  together := kept.together
  held := by
    change ∀ i ∈ posted (x.events ++ []), _
    rw [List.append_nil]
    exact kept.held

/-- Whatever a call came to, it is logged. -/
theorem Kept.conclude (kept : d.Kept root x) (notEmpty : d.frame.support ≠ []) (action : ActionRef)
    (input : Fields) (left : List Pattern) (produced : List Invocation) (call : CallEnd)
    (answers : List (Except Error Value)) :
    ∃ turn i, d.conclude x.cascade x.log action input left produced call = turn ∧
      turn.stage = .next left (produced ++ [i]) ∧
      (∀ now, x.cascade.IsCalmAt now → turn.cascade.IsCalmAt now) ∧
      d.Kept root (x.followedBy turn answers) := by
  have coherent := kept.reached.coherent
  have logs : ∃ i, x.log.append action input call.output d.frame.support = .ok (x.log.enter i, i) :=
    coherent.append_ok kept.together
  have assigned := kept.together.assigned coherent
  rcases d.conclude_cases x.cascade x.log action input left produced call with
    ⟨failure, _, _, unlogged, _⟩ | ⟨grown, i, events, logged, posts, _, isTurn⟩
  · obtain ⟨_, logged⟩ := logs
    cases unlogged.symm.trans logged
  obtain ⟨_, _, _, _, ofRoot⟩ := kept.reached.append_assigned assigned notEmpty logged
  have entries := (coherent.append_entries logged).1
  refine ⟨_, i, isTurn, rfl, fun _ calm => calm.noted _, kept.reached.append logged, ?_, ?_⟩
  · change Together grown.entries root _
    rw [entries]
    exact kept.together.mono fun j held => List.mem_append_left _ held
  · change ∀ j ∈ posted (x.events ++ events), j ∈ grown.entries ∧ j.root = root
    rw [posted_append, posts, entries, List.forall_mem_append]
    refine ⟨fun j inside => ?_, List.forall_mem_singleton.mpr ⟨by simp, ofRoot⟩⟩
    exact (kept.held j inside).imp_left (List.mem_append_left _)

variable {goal : Course × Instant → Prop}

theorem eventually_of_ready (ready : x.stage = .next left produced) (calm : x.cascade.IsCalmAt now)
    (each : ∀ log more later, x.log.GoesOn (· ≠ root) more log → x.cascade.IsCalmAt later →
      Eventually (d.Proceeds catalogue root) goal
        ((x.over log more).followedBy (d.step catalogue later x.cascade log x.stage) [], later)) :
    Eventually (d.Proceeds catalogue root) goal (x, now) := by
  have steps : d.Turns catalogue now (x.over x.log []) none _ := .step ready
  refine .later ⟨_, .turn (Int.le_refl now) calm (.refl _) Outcome.none_isAnswer steps⟩ ?_
  rintro _ (⟨_, stillCalm, spares, _, turns⟩)
  cases turns with
  | step => exact each _ _ _ spares stillCalm
  | hear waits =>
    have isStage : x.stage.asked? = some _ := waits
    rw [ready] at isStage
    cases isStage

theorem eventually_of_asked {asked : ActionRef × Fields} (waits : x.stage.asked? = some asked)
    (calm : x.cascade.IsCalmAt now)
    (each : ∀ log more later result, x.log.GoesOn (· ≠ root) more log → x.cascade.IsCalmAt later →
      (∀ error, result = .error error → error.IsOrdinary) →
      Eventually (d.Proceeds catalogue root) goal
        ((x.over log more).followedBy
          (d.resume later x.cascade log (.finished result) x.stage) [result], later)) :
    Eventually (d.Proceeds catalogue root) goal (x, now) := by
  have timely : Outcome.finished (.ok Value.null) = .woken → (x.over x.log []).cascade.IsStopped now :=
    fun woken => nomatch woken
  have hears : d.Turns catalogue now (x.over x.log []) (some (.finished (.ok .null))) _ :=
    .hear waits timely
  refine .later ⟨_, .turn (Int.le_refl now) calm (.refl _) (Outcome.ok_isAnswer _) hears⟩ ?_
  rintro _ (⟨_, stillCalm, spares, isAnswer, turns⟩)
  cases turns with
  | step ready =>
    have isStage : x.stage = _ := ready
    rw [isStage] at waits
    cases waits
  | hear _ _ =>
    obtain ⟨result, rfl, raises⟩ := isAnswer _ rfl
    exact each _ _ _ result spares stillCalm raises

theorem resume_finished {ends : Option Instant} (d : Dispatch) (now : Instant) (c : Cascade)
    (log : InvocationLog) (input : Fields) (left : List Pattern) (produced : List Invocation)
    (called : CallEnd.ofResult action result = .ok call) :
    d.resume now c log (.finished result) (.calling action input left produced ends) =
      d.conclude c log action input left produced call := by
  rw [resume]
  dsimp only [Cascade.endWait]
  rw [called]

/-- What is logged next, the dispatch goes on from there. -/
theorem eventually_of_concluded (kept : d.Kept root x) (notEmpty : d.frame.support ≠ [])
    (calm : x.cascade.IsCalmAt now) (action : ActionRef) (input : Fields) (call : CallEnd)
    (more : List (Except Error Value))
    (each : ∀ y made, y.stage = .next left made → y.cascade.IsCalmAt now → d.Kept root y →
      Eventually (d.Proceeds catalogue root) goal (y, now)) :
    Eventually (d.Proceeds catalogue root) goal
      (x.followedBy (d.conclude x.cascade x.log action input left produced call) more, now) := by
  obtain ⟨turn, i, rfl, isStage, staysCalm, kept⟩ :=
    kept.conclude notEmpty action input left produced call more
  exact each _ _ isStage (staysCalm now calm) kept

theorem eventually_of_calling {ends : Option Instant}
    (waits : x.stage = .calling action input left produced ends) (calm : x.cascade.IsCalmAt now)
    (kept : d.Kept root x) (notEmpty : d.frame.support ≠ [])
    (each : ∀ y made later, y.stage = .next left made → y.cascade.IsCalmAt later → d.Kept root y →
      Eventually (d.Proceeds catalogue root) goal (y, later)) :
    Eventually (d.Proceeds catalogue root) goal (x, now) := by
  have asked : x.stage.asked? = some (action, input) := by rw [waits]; rfl
  refine eventually_of_asked asked calm fun log more later result spares calm raises => ?_
  have ordinary : (Outcome.finished result).IsOrdinary := raises
  obtain ⟨call, called⟩ : ∃ call, CallEnd.ofResult action result = .ok call :=
    CallEnd.exists_ofResult action ordinary
  rw [waits, resume_finished _ _ _ _ _ _ _ called]
  exact eventually_of_concluded (kept.elsewhere spares) notEmpty calm action input call _
    fun y made => each y made later

/-- A dispatch that nothing disturbs comes to its end. -/
theorem eventually_finished (notEmpty : d.frame.support ≠ []) (ready : x.stage = .next left produced)
    (calm : x.cascade.IsCalmAt now) (kept : d.Kept root x) :
    Eventually (d.Proceeds catalogue root)
      (fun reached => (∃ made, reached.1.stage = .finished made) ∧ d.Kept root reached.1) (x, now) := by
  induction left generalizing x now produced with
  | nil =>
    refine eventually_of_ready ready calm fun log more later spares _ => .now ?_
    rw [ready]
    exact ⟨⟨produced, rfl⟩, (kept.elsewhere spares).goOn _ _ _⟩
  | cons p left ih =>
    refine eventually_of_ready ready calm fun log more later spares calm => ?_
    have kept := kept.elsewhere spares
    rw [ready, step]
    cases registered : catalogue.has p.action with
    | false =>
      rw [if_neg Bool.false_ne_true]
      exact eventually_of_concluded kept notEmpty calm p.action _ _ _ fun y made => ih
    | true =>
      rw [if_pos rfl, calm.beginWait]
      exact eventually_of_calling rfl calm (kept.goOn _ _ _) notEmpty fun y made later => ih

/-! ### What becomes of the patterns -/

theorem Sound.proceeds {before after : Course × Instant}
    (sound : d.Sound catalogue c root history before.1) (notEmpty : d.frame.support ≠ [])
    (proceeds : d.Proceeds catalogue root before after) :
    d.Sound catalogue c root history after.1 := by
  cases proceeds with
  | turn _ _ spares _ turns => exact (sound.elsewhere spares).turn notEmpty turns

theorem Sound.exists_completes {made : List Invocation} (sound : d.Sound catalogue c root history x)
    (kept : d.Kept root x) (isStage : x.stage = .finished made) :
    ∃ done, d.Completes catalogue c root history x done := by
  obtain ⟨done, accounts⟩ := sound.exists_accounts fun _ lost => nomatch isStage.symm.trans lost
  obtain ⟨thens, rfl, issued, heard⟩ := accounts.of_finished isStage
  have held : ∀ one ∈ done, one.logged ∈ x.log.entries := by
    intro one inside
    refine (kept.held one.logged ?_).1
    rw [accounts.posts]
    exact List.mem_map_of_mem inside
  exact ⟨done, thens, accounts.right, issued, heard, isStage, accounts.posts, sound.adds, held,
    accounts.ascending, accounts.tells, sound.faults_eq accounts⟩

theorem eventually_completes (sound : d.Sound catalogue c root history x) (kept : d.Kept root x)
    (notEmpty : d.frame.support ≠ []) (ready : x.stage = .next left produced)
    (calm : x.cascade.IsCalmAt now) :
    Eventually (d.Proceeds catalogue root)
      (fun reached => ∃ done, d.Completes catalogue c root history reached.1 done) (x, now) := by
  have finishes : Eventually (d.Proceeds catalogue root)
      (fun reached => ((∃ made, reached.1.stage = .finished made) ∧ d.Kept root reached.1) ∧
        d.Sound catalogue c root history reached.1) (x, now) :=
    (eventually_finished notEmpty ready calm kept).and_of_invariant sound
      fun _ _ sound proceeds => sound.proceeds notEmpty proceeds
  refine finishes.mono ?_
  rintro ⟨y, later⟩ ⟨⟨⟨made, isStage⟩, kept⟩, sound⟩
  exact sound.exists_completes kept isStage

/-! ### The beginning of a dispatch -/

theorem Accounts.nil (c : Cascade) (log : InvocationLog) (catalogue : Catalogue) (root : InvocationId)
    (d : Dispatch) :
    d.Accounts catalogue c root { stage := .next d.rule.thens [], cascade := c, log } [] where
  right := List.forall_mem_nil _
  stands := .next d.rule.thens rfl
  posts := rfl
  tells := rfl
  ascending := .nil

variable {f : Frame} {limit depth : Int} {support : List InvocationId}

/-- A dispatch is within the limit if all that it rests on is above it. -/
theorem depth_le_limit (remembers : log.Remembers history)
    (together : Together log.entries root support)
    (shallow : ∀ i ∈ log.entries, i.id ∈ support → (i.depth : Int) < limit)
    (isDepth : depthOf log support = .ok depth) : depth ≤ limit := by
  obtain ⟨⟨i, inHistory, isMember, rfl⟩, _⟩ := remembers.depthOf_isGreatest isDepth
  obtain ⟨j, isHeld, sameId, _⟩ := together i.id isMember
  have same : j = i := remembers.eq_of_id_eq (remembers.mem_history isHeld) inHistory sameId
  exact shallow i (same ▸ isHeld) isMember

theorem begun_eq (within : d.depth ≤ limit) (c : Cascade) (log : InvocationLog) :
    d.begun limit c log = { stage := .next d.rule.thens [], cascade := c, log } := by
  rw [begun, start, if_neg (Int.not_lt.mpr within)]

theorem Sound.begun (remembers : log.Remembers history)
    (together : Together log.entries root d.frame.support) (within : d.depth ≤ limit)
    (catalogue : Catalogue) (c : Cascade) :
    d.Sound catalogue c root history (d.begun limit c log) := by
  rw [begun_eq within]
  have adds : Course.Adds { stage := .next d.rule.thens [], cascade := c, log } history :=
    ⟨history, remembers, .of_eq (List.append_nil history).symm⟩
  exact ⟨adds, together.assigned remembers.coherent, rfl, .refl c, .inr ⟨[], .nil ..⟩⟩

theorem Kept.begun (reached : log.Reachable) (together : Together log.entries root d.frame.support)
    (within : d.depth ≤ limit) (c : Cascade) : d.Kept root (d.begun limit c log) := by
  rw [begun_eq within]
  exact ⟨reached, together, List.forall_mem_nil _⟩

/-- Whatever components do, a dispatch that nothing disturbs deals with every pattern of its rule,
and one that is cancelled at a pattern with those before it. -/
theorem deals_with_patterns (remembers : log.Remembers history) (notEmpty : f.support ≠ [])
    (together : Together log.entries root f.support)
    (shallow : ∀ i ∈ log.entries, i.id ∈ f.support → (i.depth : Int) < limit)
    (rule : Rule) (catalogue : Catalogue) (c : Cascade) :
    ∃ d : Dispatch, d.rule = rule ∧ d.frame = f ∧ depthOf log f.support = .ok d.depth ∧
      (∀ now, c.IsCalmAt now → Eventually (d.Proceeds catalogue root)
        (fun reached => ∃ done, d.Completes catalogue c root history reached.1 done)
        (d.begun limit c log, now)) ∧
      ∀ x text, Relation.ReflTransGen (d.Happens catalogue) (d.begun limit c log) x →
        x.stage = .raised (.plain .cascadeCancelled text) →
        ∃ done p left, d.StopsAt catalogue c root history x done p left := by
  obtain ⟨depth, isDepth⟩ := together.exists_depthOf remembers.coherent notEmpty
  have within := depth_le_limit remembers together shallow isDepth
  refine ⟨⟨rule, f, depth⟩, rfl, rfl, isDepth, ?_⟩
  have sound : Sound ⟨rule, f, depth⟩ catalogue c root history _ :=
    .begun remembers together within catalogue c
  constructor
  · intro now calm
    have kept : Kept ⟨rule, f, depth⟩ root _ := .begun remembers.reached together within c
    have isBegun : Dispatch.begun ⟨rule, f, depth⟩ limit c log = _ := begun_eq within c log
    rw [isBegun] at sound kept ⊢
    exact eventually_completes sound kept notEmpty rfl calm
  · intro x text happens isStage
    exact (sound.run notEmpty happens).exists_stopsAt isStage

end Dispatch

namespace Kitchen

open Dispatch

def cooking : Invocation where
  id := 1
  action := ⟨"Kitchen", "cook"⟩
  input := []
  output := []
  causes := []
  root := 1
  depth := 0
  ancestors := []

def washing : Invocation := { cooking with id := 2, action := ⟨"Kitchen", "wash"⟩, root := 2 }

/-- What was cooked is served, as the first course, and somebody who is not there is thanked. -/
def serve : Rule where
  name := "serve"
  whens := [{ action := ⟨"Kitchen", "cook"⟩ }]
  thens :=
    [{ action := ⟨"Waiter", "serve"⟩
       inputs :=
        [("dish", .variable "dish"), ("for", .variable "guest"), ("course", .literal (.int 1))] },
      { action := ⟨"Guest", "thank"⟩ }]

def staff : Catalogue where
  components := ["Waiter"]
  operations := [⟨⟨"Waiter", "serve"⟩, .action⟩]

/-- Nobody knows what was cooked, nor for whom. -/
def cooked : Frame := { bindings := [("dish", .null)], support := [1] }

def kitchen : InvocationLog := InvocationLog.enter {} cooking

theorem remembers_cooking : kitchen.Remembers [cooking] := by
  have logged : ({} : InvocationLog).append ⟨"Kitchen", "cook"⟩ [] [] [] = .ok (kitchen, cooking) := rfl
  exact .append .start logged

theorem together_cooked : Together kitchen.entries 1 cooked.support :=
  List.forall_mem_singleton.mpr ⟨cooking, List.mem_singleton_self _, rfl, rfl⟩

theorem deals_with_patterns_serving :
    kitchen.Remembers [cooking] ∧ cooked.support ≠ [] ∧ Together kitchen.entries 1 cooked.support ∧
      (∀ i ∈ kitchen.entries, i.id ∈ cooked.support → (i.depth : Int) < 32) ∧
      ∃ d : Dispatch, d.rule = serve ∧ d.frame = cooked ∧
        depthOf kitchen cooked.support = .ok d.depth ∧
        (∀ now, ({ root := 1 } : Cascade).IsCalmAt now → Eventually (d.Proceeds staff 1)
          (fun reached => ∃ done, d.Completes staff { root := 1 } 1 [cooking] reached.1 done)
          (d.begun 32 { root := 1 } kitchen, now)) ∧
        ∀ x text, Relation.ReflTransGen (d.Happens staff) (d.begun 32 { root := 1 } kitchen) x →
          x.stage = .raised (.plain .cascadeCancelled text) →
          ∃ done p left, d.StopsAt staff { root := 1 } 1 [cooking] x done p left := by
  have notEmpty : cooked.support ≠ [] := by decide
  have shallow : ∀ i ∈ kitchen.entries, i.id ∈ cooked.support → (i.depth : Int) < 32 :=
    List.forall_mem_singleton.mpr fun _ => by decide
  exact ⟨remembers_cooking, notEmpty, together_cooked, shallow,
    deals_with_patterns remembers_cooking notEmpty together_cooked shallow serve staff { root := 1 }⟩

/-- A frame that rests on two cascades. -/
def mixed : Dispatch where
  rule := serve
  frame := { bindings := [], support := [1, 2] }
  depth := 1

/-- The course of its dispatch before the waiter is called, when it waits for the waiter, and when the
waiter has served. -/
def begins : Course := mixed.begun 32 { root := 1 } (kitchen.enter washing)

def waits : Course :=
  begins.followedBy (mixed.step staff 0 begins.cascade begins.log begins.stage) []

def served : Course :=
  waits.followedBy (mixed.resume 0 waits.cascade waits.log (.finished (.ok .null)) waits.stage)
    [.ok .null]

/-- For a frame that rests on two cascades a call is made, but nothing is logged. A frame that rests
on nothing has no depth. -/
theorem mixed_logs_nothing :
    depthOf kitchen [] = .error (.plain .value "max() arg is an empty sequence") ∧
      depthOf (kitchen.enter washing) mixed.frame.support = .ok mixed.depth ∧
      Relation.ReflTransGen (mixed.Proceeds staff 1) (begins, 0) (served, 0) ∧
        served.issued = [(⟨"Waiter", "serve"⟩, [("course", .int 1)])] ∧ served.heard = [.ok .null] ∧
        served.stage = .raised (.described (.of (.mixedParents [1, 2]) {})) ∧
        posted served.events = [] := by
  have calls : mixed.Turns staff 0 (begins.over begins.log []) none waits := .step rfl
  have hears : mixed.Turns staff 0 (waits.over waits.log []) (some (.finished (.ok .null))) served :=
    .hear rfl fun woken => nomatch woken
  have toWaiter : mixed.Proceeds staff 1 (begins, 0) (waits, 0) :=
    .turn (Int.le_refl 0) rfl (.refl _) Outcome.none_isAnswer calls
  have fromWaiter : mixed.Proceeds staff 1 (waits, 0) (served, 0) :=
    .turn (Int.le_refl 0) rfl (.refl _) (Outcome.ok_isAnswer _) hears
  exact ⟨rfl, rfl, .tail (.tail .refl toWaiter) fromWaiter, rfl, rfl, rfl, rfl⟩

end Kitchen

end Choreography
