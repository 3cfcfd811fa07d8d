import Choreography.Proofs.Run.Blame
import Choreography.Proofs.Run.Stopping

/-! The course of a dispatch. For each of its patterns in turn a component is called, if there is
one, and what the call came to is logged. Whatever components do, and wherever the dispatch is broken
off, there is one invocation in the log for every pattern that was dealt with, and none for any
other. -/

namespace Choreography

open InvocationLog

/-! ### What is to be done for a pattern -/

/-- What a field pattern stands for in a frame: a literal for its value, a variable for what it is
bound to. -/
inductive FieldPattern.Denotes (f : Frame) : FieldPattern → Value → Prop where
  | literal (value : Value) : Denotes f (.literal value) value
  | bound (isBound : f.get? name = some value) : Denotes f (.variable name) value

/-- The input of a call has the fields that stand for something, in the order of the pattern. -/
structure Frame.Fills (f : Frame) (inputs : FieldPatterns) (input : Fields) : Prop where
  fields : ∀ name value,
    (name, value) ∈ input ↔ ∃ field, (name, field) ∈ inputs ∧ field.Denotes f value
  ordered : (input.map (·.1)).Sublist (inputs.map (·.1))

/-- The output that is logged for an answer, and the fault if something went wrong. Without an answer
there was no component to be called. -/
inductive Answered (context : Context) (action : ActionRef) :
    Option (Except Error Value) → Fields → Option Failure → Prop where
  | fields (output : Fields) : Answered context action (some (.ok (.map output))) output none
  | nothing : Answered context action (some (.ok .null)) [] none
  | misshapen (isValue : value ≠ .null) (noFields : ∀ output, value ≠ .map output)
      (isKind : fault.kind? = some .dispatch) (isContext : fault.context = context) :
      Answered context action (some (.ok value))
        [(errorField, .text (action.text ++ " returned an invalid result"))] (some fault)
  | raised (error : Error) (isKind : fault.kind? = some .dispatch)
      (isContext : fault.context = context) :
      Answered context action (some (.error error))
        [(errorField, .text (action.text ++ " failed"))] (some fault)
  | unregistered (isKind : fault.kind? = some .resolution) (isContext : fault.context = context) :
      Answered context action none
        [(errorField, .text (action.text ++ " is not registered"))] (some fault)

/-- What a dispatch did for one of its patterns. -/
structure Dispatched where
  pattern : Pattern
  input : Fields
  /-- What the component answered, if there is one. -/
  answer : Option (Except Error Value)
  logged : Invocation
  fault? : Option Failure

/-- A pattern was dealt with as it should be, on a support that was logged in a cascade. -/
structure Dispatched.IsRight (done : Dispatched) (catalogue : Catalogue) (f : Frame)
    (context : Context) (root : InvocationId) : Prop where
  input : f.Fills done.pattern.inputs done.input
  called : done.answer.isSome = catalogue.has done.pattern.action
  answered : Answered context done.pattern.action done.answer done.logged.output done.fault?
  action : done.logged.action = done.pattern.action
  sameInput : done.logged.input = done.input
  causes : ∀ id, id ∈ done.logged.causes ↔ id ∈ f.support
  root : done.logged.root = root

/-- The call that was made for a pattern, if one was. -/
def Dispatched.call? (done : Dispatched) : Option (ActionRef × Fields) :=
  done.answer.map fun _ => (done.pattern.action, done.input)

/-! ### What happens -/

/-- The call whose answer a dispatch waits for. -/
def Dispatching.asked? : Dispatching → Option (ActionRef × Fields)
  | .calling action input _ _ _ => some (action, input)
  | _ => none

/-- A dispatch with the calls that it has made, the answers that it has heard, what it has told so
far, and what was logged elsewhere. -/
structure Course where
  stage : Dispatching
  cascade : Cascade
  log : InvocationLog
  issued : List (ActionRef × Fields) := []
  heard : List (Except Error Value) := []
  events : List Event := []
  others : List Invocation := []

def Course.followedBy (x : Course) (turn : DispatchTurn) (heard : List (Except Error Value)) :
    Course where
  stage := turn.stage
  cascade := turn.cascade
  log := turn.log
  issued := x.issued ++ turn.stage.asked?.toList
  heard := x.heard ++ heard
  events := x.events ++ turn.events
  others := x.others

/-- A course after more was logged elsewhere. -/
def Course.over (x : Course) (log : InvocationLog) (more : List Invocation) : Course :=
  { x with log, others := x.others ++ more }

/-- All that was ever logged is what was logged before, what was logged elsewhere, and what the
dispatch has logged. -/
def Course.Adds (x : Course) (history : List Invocation) : Prop :=
  ∃ all, x.log.Remembers all ∧ all.Perm (history ++ (x.others ++ posted x.events))

/-- A log goes on elsewhere: calls are logged, and cascades that may be forgotten are forgotten. -/
inductive InvocationLog.GoesOn (mayGo : InvocationId → Prop) :
    InvocationLog → List Invocation → InvocationLog → Prop where
  | refl (log : InvocationLog) : GoesOn mayGo log [] log
  | append (goesOn : GoesOn mayGo log more later)
      (logged : later.append action input output causes = .ok (grown, i)) :
      GoesOn mayGo log (more ++ [i]) grown
  | forget (goes : mayGo root) (goesOn : GoesOn mayGo log more later) :
      GoesOn mayGo log more (later.forget root)

/-- What a component answered, unless the wait for it ended otherwise. -/
def Outcome.answers : Outcome α → List (Except Error α)
  | .finished result => [result]
  | _ => []

namespace Dispatch

/-- The course of a dispatch that has just begun. -/
def begun (d : Dispatch) (limit : Int) (c : Cascade) (log : InvocationLog) : Course :=
  let turn := d.start limit c log
  { stage := turn.stage, cascade := turn.cascade, log := turn.log, events := turn.events }

/-- A dispatch does its next piece of work: it goes on to the next pattern, or hears what has become
of its call. It is woken only if its cascade is to stop. -/
inductive Turns (d : Dispatch) (catalogue : Catalogue) (now : Instant) (x : Course) :
    Option (Outcome Value) → Course → Prop where
  | step (ready : x.stage = .next left produced) :
      Turns d catalogue now x none
        (x.followedBy (d.step catalogue now x.cascade x.log x.stage) [])
  | hear (waits : x.stage.asked? = some call)
      (timely : outcome = .woken → x.cascade.IsStopped now) :
      Turns d catalogue now x (some outcome)
        (x.followedBy (d.resume now x.cascade x.log outcome x.stage) outcome.answers)

/-- What may happen to a dispatch, and meanwhile to the log. -/
inductive Happens (d : Dispatch) (catalogue : Catalogue) (x : Course) : Course → Prop where
  | turn (now : Instant) (turns : d.Turns catalogue now x outcome y) : Happens d catalogue x y
  | cancel : Happens d catalogue x { x with cascade := x.cascade.cancel }
  | elsewhere (goesOn : x.log.GoesOn (fun _ => True) more later) :
      Happens d catalogue x (x.over later more)

/-- How far a dispatch has come when some of its patterns have been dealt with, with the calls that
were made and the answers that were heard. -/
inductive Stands (d : Dispatch) (catalogue : Catalogue) (done : List Dispatched) :
    Dispatching → List (ActionRef × Fields) → List (Except Error Value) → Prop where
  | next (left : List Pattern) (thens : d.rule.thens = done.map (·.pattern) ++ left) :
      Stands d catalogue done (.next left (done.map (·.logged))) (done.filterMap (·.call?))
        (done.filterMap (·.answer))
  | calling (thens : d.rule.thens = done.map (·.pattern) ++ p :: left)
      (registered : catalogue.has p.action = true) (fills : d.frame.Fills p.inputs input)
      (ends : Option Instant) :
      Stands d catalogue done (.calling p.action input left (done.map (·.logged)) ends)
        (done.filterMap (·.call?) ++ [(p.action, input)]) (done.filterMap (·.answer))
  | finished (thens : d.rule.thens = done.map (·.pattern)) :
      Stands d catalogue done (.finished (done.map (·.logged))) (done.filterMap (·.call?))
        (done.filterMap (·.answer))
  /-- The next pattern may have been called already, but nothing came of it. -/
  | brokenOff {issued : List (ActionRef × Fields)} {heard : List (Except Error Value)}
      (thens : d.rule.thens = done.map (·.pattern) ++ p :: left)
      (atMost : issued = done.filterMap (·.call?) ∨ ∃ input, d.frame.Fills p.inputs input ∧
        issued = done.filterMap (·.call?) ++ [(p.action, input)])
      (kind : ErrorKind) (text : String) :
      Stands d catalogue done (.raised (.plain kind text)) issued heard

/-- A course is accounted for by what was done for the patterns that were dealt with. -/
structure Accounts (d : Dispatch) (catalogue : Catalogue) (c : Cascade) (root : InvocationId)
    (x : Course) (done : List Dispatched) : Prop where
  right : ∀ one ∈ done, one.IsRight catalogue d.frame (d.context c) root
  stands : d.Stands catalogue done x.stage x.issued x.heard
  posts : posted x.events = done.map (·.logged)
  tells : delivered x.events = done.filterMap (·.fault?)
  ascending : (done.map (·.logged.id)).Pairwise (· < ·)

/-- What every course preserves. It is accounted for, unless it was broken off because nothing more
could be logged. -/
structure Sound (d : Dispatch) (catalogue : Catalogue) (c : Cascade) (root : InvocationId)
    (history : List Invocation) (x : Course) : Prop where
  adds : x.Adds history
  assigned : ∀ id ∈ d.frame.support, x.log.Assigned root id
  cascade : x.cascade.root = c.root
  records : c.Records x.cascade x.events
  accounts : (∃ failure, x.stage = .raised (.described failure)) ∨
    ∃ done, d.Accounts catalogue c root x done

/-- A dispatch was cancelled at a pattern, which it may have called. The patterns before it were dealt
with, and for no other was anything logged. -/
structure StopsAt (d : Dispatch) (catalogue : Catalogue) (c : Cascade) (root : InvocationId)
    (history : List Invocation) (x : Course) (done : List Dispatched) (p : Pattern)
    (left : List Pattern) : Prop where
  thens : d.rule.thens = done.map (·.pattern) ++ p :: left
  right : ∀ one ∈ done, one.IsRight catalogue d.frame (d.context c) root
  issued : x.issued = done.filterMap (·.call?) ∨ ∃ input, d.frame.Fills p.inputs input ∧
    x.issued = done.filterMap (·.call?) ++ [(p.action, input)]
  posts : posted x.events = done.map (·.logged)
  adds : x.Adds history
  ascending : (done.map (·.logged.id)).Pairwise (· < ·)
  tells : delivered x.events = done.filterMap (·.fault?)
  records : x.cascade.faults = c.faults ++ done.filterMap (·.fault?)

end Dispatch

open scoped List

variable {f : Frame} {log grown later : InvocationLog} {history more : List Invocation}
  {mayGo : InvocationId → Prop} {root : InvocationId} {action : ActionRef}
  {input : Fields} {call : CallEnd} {c : Cascade} {now : Instant} {d : Dispatch}
  {catalogue : Catalogue} {x y : Course} {outcome : Outcome Value} {i : Invocation}
  {result : Except Error Value} {left : List Pattern} {produced : List Invocation}

theorem posted_append (first second : List Event) :
    posted (first ++ second) = posted first ++ posted second :=
  List.filterMap_append

/-! ### All that was ever logged -/

namespace InvocationLog.GoesOn

theorem becomes (goesOn : log.GoesOn mayGo more later) : log.Becomes later := by
  induction goesOn with
  | refl => exact .refl _
  | append _ logged ih => exact ih.append logged
  | forget _ _ ih => exact ih.forget _

theorem remembers (goesOn : log.GoesOn mayGo more later) (remembers : log.Remembers history) :
    later.Remembers (history ++ more) := by
  induction goesOn with
  | refl =>
    rw [List.append_nil]
    exact remembers
  | append _ logged ih =>
    rw [← List.append_assoc]
    exact (ih remembers).append logged
  | forget _ _ ih => exact (ih remembers).forget _

end InvocationLog.GoesOn

namespace Course

variable {turn : DispatchTurn}

theorem Adds.reached (adds : x.Adds history) : x.log.Reachable := by
  obtain ⟨_, remembers, _⟩ := adds
  exact remembers.reached

theorem Adds.id_lt_next (adds : x.Adds history) (inside : i ∈ posted x.events) :
    i.id < x.log.next := by
  obtain ⟨all, remembers, isAll⟩ := adds
  refine remembers.id_lt_next (isAll.mem_iff.mpr ?_)
  exact List.mem_append_right _ (List.mem_append_right _ inside)

/-- A turn that logs nothing. -/
theorem Adds.silent (adds : x.Adds history) (heard : List (Except Error Value))
    (same : turn.log = x.log) (posts : posted turn.events = []) :
    (x.followedBy turn heard).Adds history := by
  obtain ⟨all, remembers, isAll⟩ := adds
  have still : turn.log.Remembers all := by rwa [same]
  refine ⟨all, still, ?_⟩
  change all.Perm (history ++ (x.others ++ posted (x.events ++ turn.events)))
  rwa [posted_append, posts, List.append_nil]

/-- A turn that logs an invocation. -/
theorem Adds.logged (adds : x.Adds history) (heard : List (Except Error Value))
    (logged : x.log.append action input output causes = .ok (turn.log, i))
    (posts : posted turn.events = [i]) : (x.followedBy turn heard).Adds history := by
  obtain ⟨all, remembers, isAll⟩ := adds
  refine ⟨all ++ [i], remembers.append logged, ?_⟩
  change (all ++ [i]).Perm (history ++ (x.others ++ posted (x.events ++ turn.events)))
  rw [posted_append, posts, ← List.append_assoc, ← List.append_assoc, List.append_assoc history]
  exact isAll.append_right [i]

theorem Adds.elsewhere (adds : x.Adds history) (goesOn : x.log.GoesOn mayGo more later) :
    (x.over later more).Adds history := by
  obtain ⟨all, remembers, isAll⟩ := adds
  refine ⟨all ++ more, goesOn.remembers remembers, ?_⟩
  calc all ++ more
    _ ~ history ++ (x.others ++ posted x.events) ++ more := isAll.append_right more
    _ = history ++ (x.others ++ (posted x.events ++ more)) := by simp only [List.append_assoc]
    _ ~ history ++ (x.others ++ (more ++ posted x.events)) :=
      (List.perm_append_comm.append_left _).append_left _
    _ = history ++ (x.others ++ more ++ posted x.events) := by simp only [List.append_assoc]

end Course

/-! ### Inputs and answers -/

theorem FieldPattern.denotes_iff {field : FieldPattern} {value : Value} :
    field.Denotes f value ↔ f.resolve? field = some value := by
  constructor
  · rintro (_ | isBound)
    · rfl
    · exact isBound
  · intro resolves
    match field with
    | .literal stated => exact Option.some.inj resolves ▸ .literal stated
    | .wildcard => cases resolves
    | .variable _ => exact .bound resolves

theorem Frame.fills_resolve (f : Frame) (inputs : FieldPatterns) :
    f.Fills inputs (f.resolve inputs) where
  fields name value := by
    constructor
    · intro inside
      obtain ⟨⟨_, field⟩, isField, resolves⟩ := List.mem_filterMap.mp inside
      obtain ⟨_, isValue, ⟨⟩⟩ := Option.map_eq_some_iff.mp resolves
      exact ⟨field, isField, FieldPattern.denotes_iff.mpr isValue⟩
    · rintro ⟨field, isField, denotes⟩
      refine List.mem_filterMap.mpr ⟨(name, field), isField, ?_⟩
      rw [FieldPattern.denotes_iff.mp denotes]
      rfl
  ordered := by
    induction inputs with
    | nil => exact .slnil
    | cons head inputs ih =>
      rw [resolve, List.filterMap_cons]
      cases f.resolve? head.2 with
      | none => exact ih.cons head.1
      | some value => exact ih.cons_cons head.1

theorem CallEnd.answered_of_ofResult (called : ofResult action result = .ok call)
    (context : Context) :
    Answered context action (some result) call.output (call.fault? context) := by
  unfold ofResult at called
  split at called
  · cases called
    exact .nothing
  · cases called
    exact .fields _
  · next isValue noFields =>
    cases called
    exact .misshapen isValue noFields rfl rfl
  · cases called
  · cases called
  · cases called
    exact .raised _ rfl rfl

theorem CallEnd.answered_unregistered (action : ActionRef) (context : Context) :
    Answered context action none (unregistered action).output ((unregistered action).fault? context) :=
  .unregistered rfl rfl

theorem CallEnd.plain_of_ofResult {error : Error} (stopped : ofResult action result = .error error) :
    ∃ kind text, error = .plain kind text := by
  unfold ofResult at stopped
  split at stopped <;> cases stopped
  · exact ⟨_, _, rfl⟩
  · exact ⟨_, _, rfl⟩

/-- If a wait comes to an answer that is logged, the component has given it. -/
theorem CallEnd.exists_finished (timely : outcome = .woken → c.IsStopped now)
    (called : ofResult action (c.endWait now outcome).1 = .ok call) :
    ∃ result, outcome = .finished result ∧ ofResult action result = .ok call := by
  cases outcome with
  | finished result => exact ⟨result, rfl, called⟩
  | abandoned => cases called
  | woken =>
    have stopped := Cascade.check_cancelled.mpr (timely rfl)
    unfold Cascade.endWait at called
    dsimp only at called
    rw [if_pos stopped] at called
    cases called

/-! ### What is logged -/

/-- A call for a support that belongs to a cascade is logged there. -/
theorem InvocationLog.Reachable.append_assigned (reached : log.Reachable) {support : List InvocationId}
    {output : Fields} (assigned : ∀ id ∈ support, log.Assigned root id) (notEmpty : support ≠ [])
    (logged : log.append action input output support = .ok (grown, i)) :
    i.action = action ∧ i.input = input ∧ i.output = output ∧
      (∀ id, id ∈ i.causes ↔ id ∈ support) ∧ i.root = root := by
  obtain ⟨parents, areCauses, held, _, rfl, _⟩ := reached.coherent.append_eq_ok logged
  refine ⟨rfl, rfl, rfl, fun id => ?_, ?_⟩
  · change id ∈ parents.map (·.id) ↔ _
    rw [areCauses, mem_sortedSet]
  · cases parents with
    | nil =>
      obtain ⟨id, inside⟩ := List.exists_mem_of_ne_nil support notEmpty
      rw [← mem_sortedSet, ← areCauses] at inside
      cases inside
    | cons p _ =>
      have isCause : p.id ∈ sortedSet support := areCauses ▸ List.mem_cons_self
      exact (assigned p.id (mem_sortedSet.mp isCause)).2 p (held p List.mem_cons_self) rfl

namespace Dispatch

/-- What a call came to is logged, or the dispatch breaks off. -/
theorem conclude_cases (d : Dispatch) (c : Cascade) (log : InvocationLog) (action : ActionRef)
    (input : Fields) (left : List Pattern) (produced : List Invocation) (call : CallEnd) :
    (∃ failure cascade events, log.append action input call.output d.frame.support = .error failure ∧
      posted events = [] ∧ d.conclude c log action input left produced call =
        { stage := .raised (.described failure), cascade, log, events }) ∨
    ∃ grown i events, log.append action input call.output d.frame.support = .ok (grown, i) ∧
      posted events = [i] ∧ delivered events = (call.fault? (d.context c)).toList ∧
      d.conclude c log action input left produced call =
        { stage := .next left (produced ++ [i])
          cascade := ((call.fault? (d.context c)).map c.recordFault).getD c
          log := grown
          events } := by
  have told : posted ((call.fault? (d.context c)).map Event.fault).toList = [] ∧
      delivered ((call.fault? (d.context c)).map Event.fault).toList =
        (call.fault? (d.context c)).toList := by
    cases call.fault? (d.context c) <;> exact ⟨rfl, rfl⟩
  unfold conclude
  dsimp only
  split
  · next failure unlogged => exact .inl ⟨failure, _, _, unlogged, told.1, rfl⟩
  · next grown i logged =>
    refine .inr ⟨grown, i, _, logged, ?_, ?_, rfl⟩
    · rw [posted_append, told.1]
      rfl
    · rw [delivered_append, told.2]
      exact List.append_nil _

theorem conclude_root (d : Dispatch) (c : Cascade) (log : InvocationLog) (action : ActionRef)
    (input : Fields) (left : List Pattern) (produced : List Invocation) (call : CallEnd) :
    (d.conclude c log action input left produced call).cascade.root = c.root := by
  have noted : (((call.fault? (d.context c)).map c.recordFault).getD c).root = c.root := by
    cases call.fault? (d.context c) <;> rfl
  unfold conclude
  split <;> exact noted

/-! ### What every course preserves -/

variable {done : List Dispatched} {e : Cascade} {p : Pattern} {stage : Dispatching}
  {answers : List (Except Error Value)}

theorem context_congr (d : Dispatch) (same : e.root = c.root) : d.context e = d.context c := by
  rw [context, context, same]

/-- Going on without a word. -/
theorem Sound.goOn (sound : d.Sound catalogue c root history x)
    (accounts : d.Accounts catalogue c root x done)
    (same : e.root = c.root) (waited : e.faults = x.cascade.faults)
    (stands : d.Stands catalogue done stage (x.issued ++ stage.asked?.toList) (x.heard ++ answers)) :
    d.Sound catalogue c root history (x.followedBy { stage, cascade := e, log := x.log } answers) where
  adds := sound.adds.silent answers rfl rfl
  assigned := sound.assigned
  cascade := same
  records := sound.records.trans (.of_eq waited rfl)
  accounts := by
    refine .inr ⟨done, accounts.right, stands, ?_, ?_, accounts.ascending⟩
    · change posted (x.events ++ []) = _
      rw [List.append_nil, accounts.posts]
    · change delivered (x.events ++ []) = _
      rw [List.append_nil, accounts.tells]

theorem filterMap_concat (g : Dispatched → Option β) (done : List Dispatched) (one : Dispatched) :
    (done ++ [one]).filterMap g = done.filterMap g ++ (g one).toList := by
  rw [List.filterMap_append]
  cases isResult : g one <;> simp [isResult]

/-- One more pattern is accounted for. -/
theorem Accounts.concat {one : Dispatched} (accounts : d.Accounts catalogue c root x done)
    (isRight : one.IsRight catalogue d.frame (d.context c) root)
    (thens : d.rule.thens = done.map (·.pattern) ++ one.pattern :: left)
    (isStage : y.stage = .next left (done.map (·.logged) ++ [one.logged]))
    (issued : y.issued = done.filterMap (·.call?) ++ one.call?.toList)
    (heard : y.heard = done.filterMap (·.answer) ++ one.answer.toList)
    (posts : posted y.events = posted x.events ++ [one.logged])
    (tells : delivered y.events = delivered x.events ++ one.fault?.toList)
    (before : ∀ other ∈ done, other.logged.id < one.logged.id) :
    d.Accounts catalogue c root y (done ++ [one]) where
  right := List.forall_mem_append.mpr ⟨accounts.right, List.forall_mem_singleton.mpr isRight⟩
  stands := by
    have isLogged : done.map (·.logged) ++ [one.logged] = (done ++ [one]).map (·.logged) := by
      rw [List.map_append, List.map_singleton]
    rw [isStage, issued, heard, isLogged, ← filterMap_concat, ← filterMap_concat]
    exact .next left (by rw [thens, List.map_append, List.append_assoc]; rfl)
  posts := by
    rw [posts, accounts.posts, List.map_append]
    rfl
  tells := by rw [tells, accounts.tells, filterMap_concat]
  ascending := by
    rw [List.map_append, List.pairwise_append]
    refine ⟨accounts.ascending, List.pairwise_singleton _ _, ?_⟩
    intro id isOld other isNew
    obtain ⟨old, inside, rfl⟩ := List.mem_map.mp isOld
    cases List.mem_singleton.mp isNew
    exact before old inside

/-- What is logged next comes after all that the dispatch has logged. -/
theorem Sound.id_lt_next (sound : d.Sound catalogue c root history x)
    (accounts : d.Accounts catalogue c root x done) : ∀ one ∈ done, one.logged.id < x.log.next := by
  intro one inside
  refine sound.adds.id_lt_next ?_
  rw [accounts.posts]
  exact List.mem_map_of_mem inside

/-- Logging what the call for the next pattern came to. -/
theorem Sound.conclude (sound : d.Sound catalogue c root history x)
    (accounts : d.Accounts catalogue c root x done) (notEmpty : d.frame.support ≠ [])
    (thens : d.rule.thens = done.map (·.pattern) ++ p :: left) (fills : d.frame.Fills p.inputs input)
    (answer : Option (Except Error Value)) (called : answer.isSome = catalogue.has p.action)
    (answered : Answered (d.context c) p.action answer call.output (call.fault? (d.context c)))
    (issued : x.issued = done.filterMap (·.call?) ++ (answer.map fun _ => (p.action, input)).toList)
    (heard : x.heard ++ answers = done.filterMap (·.answer) ++ answer.toList)
    (same : e.root = c.root) (waited : e.faults = x.cascade.faults) :
    d.Sound catalogue c root history
      (x.followedBy (d.conclude e x.log p.action input left (done.map (·.logged)) call) answers) := by
  have records := sound.records.trans ((d.conclude_records x.log e p.action input left
    (done.map (·.logged)) call).after waited)
  have isRoot := (d.conclude_root e x.log p.action input left (done.map (·.logged)) call).trans same
  rcases d.conclude_cases e x.log p.action input left (done.map (·.logged)) call with
    ⟨failure, cascade, events, _, silent, isTurn⟩ | ⟨grown, i, events, logged, posts, tells, isTurn⟩
  · rw [isTurn] at records isRoot ⊢
    exact ⟨sound.adds.silent answers rfl silent, sound.assigned, isRoot, records, .inl ⟨failure, rfl⟩⟩
  · rw [isTurn] at records isRoot ⊢
    obtain ⟨isAction, isInput, isOutput, causes, ofRoot⟩ :=
      sound.adds.reached.append_assigned sound.assigned notEmpty logged
    obtain ⟨_, isNext, _⟩ := sound.adds.reached.coherent.append_entries logged
    have becomes : x.log.Becomes grown := (Becomes.refl x.log).append logged
    have isPosted : posted (x.events ++ events) = posted x.events ++ [i] := by
      rw [posted_append, posts]
    have isTold : delivered (x.events ++ events) =
        delivered x.events ++ (call.fault? (d.context c)).toList := by
      rw [delivered_append, tells, d.context_congr same]
    have before : ∀ one ∈ done, one.logged.id < i.id := by
      rw [isNext]
      exact sound.id_lt_next accounts
    have isRight : Dispatched.IsRight ⟨p, input, answer, i, call.fault? (d.context c)⟩ catalogue d.frame
        (d.context c) root := ⟨fills, called, isOutput ▸ answered, isAction, isInput, causes, ofRoot⟩
    refine ⟨sound.adds.logged answers logged posts,
      fun id inside => becomes.assigned sound.adds.reached (sound.assigned id inside), isRoot, records,
      .inr ⟨_, accounts.concat isRight thens rfl ?_ heard isPosted isTold before⟩⟩
    exact (List.append_nil _).trans issued

theorem Accounts.of_next (accounts : d.Accounts catalogue c root x done)
    (ready : x.stage = .next left produced) :
    d.rule.thens = done.map (·.pattern) ++ left ∧ produced = done.map (·.logged) ∧
      x.issued = done.filterMap (·.call?) ∧ x.heard = done.filterMap (·.answer) := by
  have stands := accounts.stands
  rw [ready] at stands
  generalize x.issued = issued, x.heard = heard at stands ⊢
  cases stands with
  | next _ thens => exact ⟨thens, rfl, rfl, rfl⟩

theorem Accounts.of_calling {ends : Option Instant} (accounts : d.Accounts catalogue c root x done)
    (waits : x.stage = .calling action input left produced ends) :
    ∃ p, d.rule.thens = done.map (·.pattern) ++ p :: left ∧ action = p.action ∧
      catalogue.has p.action = true ∧ d.frame.Fills p.inputs input ∧
      produced = done.map (·.logged) ∧
      x.issued = done.filterMap (·.call?) ++ [(p.action, input)] ∧
      x.heard = done.filterMap (·.answer) := by
  have stands := accounts.stands
  rw [waits] at stands
  generalize x.issued = issued, x.heard = heard at stands ⊢
  cases stands with
  | calling thens registered fills => exact ⟨_, thens, rfl, registered, fills, rfl, rfl, rfl⟩

theorem Accounts.of_finished {made : List Invocation} (accounts : d.Accounts catalogue c root x done)
    (isStage : x.stage = .finished made) :
    d.rule.thens = done.map (·.pattern) ∧ made = done.map (·.logged) ∧
      x.issued = done.filterMap (·.call?) ∧ x.heard = done.filterMap (·.answer) := by
  have stands := accounts.stands
  rw [isStage] at stands
  generalize x.issued = issued, x.heard = heard at stands ⊢
  cases stands with
  | finished thens => exact ⟨thens, rfl, rfl, rfl⟩

theorem Accounts.of_brokenOff {kind : ErrorKind} {text : String}
    (accounts : d.Accounts catalogue c root x done) (isStage : x.stage = .raised (.plain kind text)) :
    ∃ p left, d.rule.thens = done.map (·.pattern) ++ p :: left ∧
      (x.issued = done.filterMap (·.call?) ∨ ∃ input, d.frame.Fills p.inputs input ∧
        x.issued = done.filterMap (·.call?) ++ [(p.action, input)]) := by
  have stands := accounts.stands
  rw [isStage] at stands
  generalize x.issued = issued, x.heard = heard at stands ⊢
  cases stands with
  | brokenOff thens atMost => exact ⟨_, _, thens, atMost⟩

/-- A cascade that waits for nothing says so when it begins to wait. -/
theorem beginWait_cases (c : Cascade) (now : Instant) :
    ∃ e, e.root = c.root ∧ e.faults = c.faults ∧
      (c.beginWait now = (.ok (), e) ∨
        ∃ text, c.beginWait now = (.error (.plain .cascadeCancelled text), e)) := by
  refine ⟨c.check now, (c.check_sameWork now).root, c.check_faults now, ?_⟩
  unfold Cascade.beginWait
  dsimp only
  split
  · exact .inr ⟨_, rfl⟩
  · exact .inl rfl

theorem Sound.exists_accounts (sound : d.Sound catalogue c root history x)
    (logs : ∀ failure, x.stage ≠ .raised (.described failure)) :
    ∃ done, d.Accounts catalogue c root x done := by
  rcases sound.accounts with ⟨failure, lost⟩ | accounted
  · exact absurd lost (logs failure)
  · exact accounted

theorem Sound.step (sound : d.Sound catalogue c root history x) (notEmpty : d.frame.support ≠ [])
    (ready : x.stage = .next left produced) :
    d.Sound catalogue c root history
      (x.followedBy (d.step catalogue now x.cascade x.log x.stage) []) := by
  obtain ⟨done, accounts⟩ := sound.exists_accounts fun _ lost => nomatch ready.symm.trans lost
  obtain ⟨thens, rfl, issued, heard⟩ := accounts.of_next ready
  rw [ready]
  cases left with
  | nil =>
    refine sound.goOn accounts sound.cascade rfl ?_
    change d.Stands catalogue done _ (x.issued ++ []) (x.heard ++ [])
    rw [List.append_nil, List.append_nil, issued, heard]
    exact .finished (by rw [thens, List.append_nil])
  | cons p left =>
    have fills := d.frame.fills_resolve p.inputs
    rw [Dispatch.step]
    cases registered : catalogue.has p.action with
    | true =>
      obtain ⟨e, same, waited, began | ⟨text, stopped⟩⟩ := beginWait_cases x.cascade now
      · rw [if_pos rfl, began]
        refine sound.goOn accounts (same.trans sound.cascade) waited ?_
        rw [issued, heard, List.append_nil]
        exact .calling thens registered fills _
      · rw [if_pos rfl, stopped]
        refine sound.goOn accounts (same.trans sound.cascade) waited ?_
        rw [issued]
        exact .brokenOff thens (.inl (List.append_nil _)) _ text
    | false =>
      rw [if_neg Bool.false_ne_true]
      refine sound.conclude accounts notEmpty thens fills none registered.symm
        (CallEnd.answered_unregistered p.action _) ?_ ?_ sound.cascade rfl
      · rw [issued]
        exact (List.append_nil _).symm
      · rw [heard]
        rfl

theorem Sound.hear {asked : ActionRef × Fields} (sound : d.Sound catalogue c root history x)
    (notEmpty : d.frame.support ≠ []) (waits : x.stage.asked? = some asked)
    (timely : outcome = .woken → x.cascade.IsStopped now) :
    d.Sound catalogue c root history
      (x.followedBy (d.resume now x.cascade x.log outcome x.stage) outcome.answers) := by
  match isStage : x.stage with
  | .next .. | .finished _ | .raised _ =>
    rw [isStage] at waits
    cases waits
  | .calling action input left produced ends =>
  obtain ⟨done, accounts⟩ := sound.exists_accounts fun _ lost => nomatch isStage.symm.trans lost
  obtain ⟨p, thens, rfl, registered, fills, rfl, issued, heard⟩ := accounts.of_calling isStage
  have same := (x.cascade.endWait_sameWork now outcome).root.trans sound.cascade
  have waited := x.cascade.endWait_faults now outcome
  rw [resume]
  dsimp only
  cases ended : CallEnd.ofResult p.action (x.cascade.endWait now outcome).1 with
  | error error =>
    obtain ⟨kind, text, rfl⟩ := CallEnd.plain_of_ofResult ended
    refine sound.goOn accounts same waited (.brokenOff thens (.inr ⟨input, fills, ?_⟩) kind text)
    rw [issued]
    exact List.append_nil _
  | ok call =>
    obtain ⟨result, rfl, called⟩ := CallEnd.exists_finished timely ended
    refine sound.conclude accounts notEmpty thens fills (some result) registered.symm
      (CallEnd.answered_of_ofResult called _) issued ?_ same waited
    rw [heard]
    rfl

theorem Sound.turn {outcome? : Option (Outcome Value)} (sound : d.Sound catalogue c root history x)
    (notEmpty : d.frame.support ≠ []) (turns : d.Turns catalogue now x outcome? y) :
    d.Sound catalogue c root history y := by
  cases turns with
  | step ready => exact sound.step notEmpty ready
  | hear waits timely => exact sound.hear notEmpty waits timely

theorem Sound.elsewhere (sound : d.Sound catalogue c root history x)
    (goesOn : x.log.GoesOn mayGo more later) :
    d.Sound catalogue c root history (x.over later more) where
  adds := sound.adds.elsewhere goesOn
  assigned id inside := goesOn.becomes.assigned sound.adds.reached (sound.assigned id inside)
  cascade := sound.cascade
  records := sound.records
  accounts := by
    refine sound.accounts.imp_right ?_
    rintro ⟨done, right, stands, posts, tells, ascending⟩
    exact ⟨done, right, stands, posts, tells, ascending⟩

theorem Sound.cancel (sound : d.Sound catalogue c root history x) :
    d.Sound catalogue c root history { x with cascade := x.cascade.cancel } where
  adds := sound.adds
  assigned := sound.assigned
  cascade := sound.cascade
  records := sound.records
  accounts := by
    refine sound.accounts.imp_right ?_
    rintro ⟨done, right, stands, posts, tells, ascending⟩
    exact ⟨done, right, stands, posts, tells, ascending⟩

theorem Sound.happens (sound : d.Sound catalogue c root history x) (notEmpty : d.frame.support ≠ [])
    (happens : d.Happens catalogue x y) : d.Sound catalogue c root history y := by
  cases happens with
  | turn now turns => exact sound.turn notEmpty turns
  | cancel => exact sound.cancel
  | elsewhere goesOn => exact sound.elsewhere goesOn

theorem Sound.run (sound : d.Sound catalogue c root history x) (notEmpty : d.frame.support ≠ [])
    (run : Relation.ReflTransGen (d.Happens catalogue) x y) : d.Sound catalogue c root history y := by
  induction run with
  | refl => exact sound
  | tail _ happens ih => exact ih.happens notEmpty happens

/-- The cascade remembers what was told of it. -/
theorem Sound.faults_eq (sound : d.Sound catalogue c root history x)
    (accounts : d.Accounts catalogue c root x done) :
    x.cascade.faults = c.faults ++ done.filterMap (·.fault?) := by
  rw [← accounts.tells]
  exact sound.records

theorem Sound.exists_stopsAt {kind : ErrorKind} {text : String}
    (sound : d.Sound catalogue c root history x) (isStage : x.stage = .raised (.plain kind text)) :
    ∃ done p left, d.StopsAt catalogue c root history x done p left := by
  obtain ⟨done, accounts⟩ := sound.exists_accounts fun _ lost => nomatch isStage.symm.trans lost
  obtain ⟨p, left, thens, issued⟩ := accounts.of_brokenOff isStage
  exact ⟨done, p, left, thens, accounts.right, issued, accounts.posts, sound.adds,
    accounts.ascending, accounts.tells, sound.faults_eq accounts⟩

end Dispatch

end Choreography
