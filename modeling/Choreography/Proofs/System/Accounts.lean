import Choreography.Proofs.System.Firings
import Mathlib.Data.List.Forall2

/-! The accounts of a firing. Each of its dispatches makes one call for every then-pattern
whose action somebody offers, and logs one invocation for every then-pattern, in order; or,
if it is too deep, it does neither. An evaluation dispatches the frames of a firing that it
has claimed in the order in which they came back from the where-stage, and leaves out none
unless its run breaks off. -/

namespace Choreography

/-- The calls that patterns of a dispatch lead to, one for each whose action is offered. -/
def Dispatch.issued (work : Dispatch) (catalogue : Catalogue) (patterns : List Pattern) :
    List (ActionRef × Fields) :=
  (patterns.filter fun p => catalogue.has p.action).map fun p => (p.action, work.frame.resolve p.inputs)

/-- An invocation is what a pattern of a dispatch led to. -/
structure Dispatch.Answers (work : Dispatch) (p : Pattern) (i : Invocation) : Prop where
  action : i.action = p.action
  input : i.input = work.frame.resolve p.inputs
  causes : i.causes = sortedSet work.frame.support

/-- What a dispatch that is over has called and logged. -/
def Dispatch.Settles (work : Dispatch) (catalogue : Catalogue) (limit : Int)
    (calls : List (ActionRef × Fields)) (logged : List Invocation) : Prop :=
  if limit < work.depth then calls = [] ∧ logged = []
  else calls = work.issued catalogue work.rule.thens ∧
    List.Forall₂ work.Answers work.rule.thens logged

/-- What a dispatch that is under way has called and logged so far. -/
inductive Dispatch.Underway (work : Dispatch) (catalogue : Catalogue) (limit : Int) :
    Dispatching → List (ActionRef × Fields) → List Invocation → Prop where
  | tooDeep (deep : limit < work.depth) : Underway work catalogue limit (.finished []) [] []
  | next (shallow : ¬limit < work.depth) (thens : work.rule.thens = past ++ left)
      (answers : List.Forall₂ work.Answers past produced) :
      Underway work catalogue limit (.next left produced) (work.issued catalogue past) produced
  | calling (shallow : ¬limit < work.depth) (thens : work.rule.thens = past ++ p :: left)
      (offered : catalogue.has p.action = true)
      (answers : List.Forall₂ work.Answers past produced) :
      Underway work catalogue limit
        (.calling p.action (work.frame.resolve p.inputs) left produced ends)
        (work.issued catalogue (past ++ [p])) produced

/-- The dispatches of a firing with all that they have called and logged, when each of them
is over. -/
inductive Balanced (catalogue : Catalogue) (limit : Int) :
    List Dispatch → List (ActionRef × Fields) → List Invocation → Prop where
  | none : Balanced catalogue limit [] [] []
  | settle (before : Balanced catalogue limit works calls logged)
      (settles : Dispatch.Settles work catalogue limit newCalls newLogged) :
      Balanced catalogue limit (works ++ [work]) (calls ++ newCalls) (logged ++ newLogged)

/-! ### The progress of a dispatch -/

namespace Dispatch

variable {work : Dispatch} {catalogue : Catalogue} {limit : Int} {stage : Dispatching}
  {calls : List (ActionRef × Fields)} {logged produced : List Invocation} {p : Pattern}

theorem issued_append (work : Dispatch) (catalogue : Catalogue) (past : List Pattern) (p : Pattern) :
    work.issued catalogue (past ++ [p]) = work.issued catalogue past ++
      if catalogue.has p.action then [(p.action, work.frame.resolve p.inputs)] else [] := by
  rw [issued, issued, List.filter_append, List.map_append, List.filter_singleton]
  cases catalogue.has p.action <;> rfl

theorem underway_beginning (work : Dispatch) (catalogue : Catalogue) (limit : Int) :
    work.Underway catalogue limit (work.beginning limit) [] [] := by
  unfold beginning
  split
  · next deep => exact .tooDeep deep
  · next shallow => exact .next shallow rfl .nil

theorem Underway.call (underway : work.Underway catalogue limit (.next (p :: left) produced) calls logged)
    (offered : catalogue.has p.action = true) (ends : Option Instant) :
    work.Underway catalogue limit
      (.calling p.action (work.frame.resolve p.inputs) left produced ends)
      (calls ++ [(p.action, work.frame.resolve p.inputs)]) logged := by
  cases underway with
  | @next past _ _ shallow thens answers =>
    have issued := work.issued_append catalogue past p
    rw [if_pos offered] at issued
    rw [← issued]
    exact .calling shallow thens offered answers

theorem Underway.log (underway : work.Underway catalogue limit stage calls logged)
    (called : stage.Called catalogue work action input left produced) {i : Invocation}
    (isAction : i.action = action) (isInput : i.input = input)
    (causes : i.causes = sortedSet work.frame.support) :
    work.Underway catalogue limit (.next left (produced ++ [i])) calls (logged ++ [i]) := by
  cases called with
  | unregistered missing =>
    cases underway with
    | @next past _ _ shallow thens answers =>
      have later : work.Underway catalogue limit (.next left (logged ++ [i]))
          (work.issued catalogue (past ++ [_])) (logged ++ [i]) :=
        .next shallow (thens.trans (List.append_cons ..))
          (List.rel_append answers (.cons ⟨isAction, isInput, causes⟩ .nil))
      rw [issued_append, if_neg (Bool.eq_false_iff.mp missing), List.append_nil] at later
      exact later
  | awaited ends =>
    cases underway with
    | calling shallow thens offered answers =>
      exact .next shallow (thens.trans (List.append_cons ..))
        (List.rel_append answers (.cons ⟨isAction, isInput, causes⟩ .nil))

theorem Underway.settles (underway : work.Underway catalogue limit stage calls logged)
    (isOver : stage.Over produced) : work.Settles catalogue limit calls logged := by
  cases isOver with
  | called =>
    cases underway with
    | next shallow thens answers =>
      rw [Settles, if_neg shallow, thens, List.append_nil]
      exact ⟨rfl, answers⟩
  | finished =>
    cases underway with
    | tooDeep deep =>
      rw [Settles, if_pos deep]
      exact ⟨rfl, rfl⟩

end Dispatch

/-- Whatever was logged in a dispatch answers to one of its then-patterns. -/
theorem Dispatch.Settles.exists_answers {work : Dispatch} {calls : List (ActionRef × Fields)}
    {logged : List Invocation} {i : Invocation} (settles : work.Settles catalogue limit calls logged)
    (inside : i ∈ logged) : ∃ p ∈ work.rule.thens, work.Answers p i := by
  unfold Settles at settles
  split at settles
  · rw [settles.2] at inside
    cases inside
  · obtain ⟨_, answers⟩ := settles
    generalize work.rule.thens = patterns at answers ⊢
    induction answers with
    | nil => cases inside
    | @cons p j patterns later isAnswer _ ih =>
      rcases List.mem_cons.mp inside with rfl | inLater
      · exact ⟨p, List.mem_cons_self, isAnswer⟩
      · obtain ⟨q, isPattern, answers⟩ := ih inLater
        exact ⟨q, List.mem_cons_of_mem p isPattern, answers⟩

theorem Balanced.of_nil {calls : List (ActionRef × Fields)} {logged : List Invocation}
    (balanced : Balanced catalogue limit [] calls logged) : calls = [] ∧ logged = [] := by
  generalize isNone : ([] : List Dispatch) = works at balanced
  cases balanced with
  | none => exact ⟨rfl, rfl⟩
  | settle => simp at isNone

/-- A dispatch that is the only one of its firing has made all its calls. -/
theorem Balanced.of_singleton {work : Dispatch} {calls : List (ActionRef × Fields)}
    {logged : List Invocation} (balanced : Balanced catalogue limit [work] calls logged) :
    work.Settles catalogue limit calls logged := by
  generalize isOnly : [work] = works at balanced
  cases balanced with
  | none => cases isOnly
  | @settle before _ _ last _ _ settled settles =>
    have parts : [] ++ [work] = before ++ [last] := isOnly
    obtain ⟨rfl, same⟩ := List.append_inj' parts rfl
    cases same
    obtain ⟨rfl, rfl⟩ := settled.of_nil
    exact settles

namespace System

/-- The accounts of two systems agree about a firing. -/
def SameAccounts (s t : System) (firing : Firing) : Prop :=
  t.dispatches firing = s.dispatches firing ∧ t.calls firing = s.calls firing ∧
    t.postings firing = s.postings firing

variable {s t : System} {w : Worker} {n : Nat} {turn : Turn} {firing : Firing}
  {evaluation : Evaluation}

/-! ### One more deed -/

private theorem filterMap_singleton (f : α → Option β) (a : α) : [a].filterMap f = (f a).toList := by
  rw [List.filterMap_cons]
  cases f a <;> rfl

section Adding

variable {deed : Deed} (added : t.chronicle = s.chronicle ++ [deed])

include added

theorem concerning_added : t.concerning firing =
    s.concerning firing ++ if deed.firing? = some firing then [deed] else [] := by
  rw [concerning, added, List.filter_append, List.filter_singleton]
  by_cases about : deed.firing? = some firing
  · rw [if_pos about, decide_eq_true about]
    rfl
  · rw [if_neg about, decide_eq_false about]
    rfl

/-- A deed is on the accounts of a firing only if it is about it. -/
theorem sameAccounts_added (elsewhere : deed.firing? ≠ some firing) : s.SameAccounts t firing := by
  have same : t.concerning firing = s.concerning firing := by
    rw [concerning_added added, if_neg elsewhere, List.append_nil]
  rw [SameAccounts, dispatches, calls, postings, same]
  exact ⟨rfl, rfl, rfl⟩

/-- What a deed adds to the accounts of the firing that it is about. -/
theorem accounts_added (about : deed.firing? = some firing) :
    t.dispatches firing = s.dispatches firing ++ deed.dispatch?.toList ∧
      t.calls firing = s.calls firing ++ deed.call?.toList ∧
      t.postings firing = s.postings firing ++ posted deed.events := by
  have more : t.concerning firing = s.concerning firing ++ [deed] := by
    rw [concerning_added added, if_pos about]
  refine ⟨?_, ?_, ?_⟩
  · rw [dispatches, more, List.filterMap_append, ← dispatches, filterMap_singleton]
  · rw [calls, more, List.filterMap_append, ← calls, filterMap_singleton]
  · rw [postings, more, List.flatMap_append, ← postings, List.flatMap_singleton]

/-- A deed that begins no dispatch leaves those that there were. -/
theorem dispatches_eq (elsewhere : deed.dispatch? = none) :
    t.dispatches firing = s.dispatches firing := by
  by_cases about : deed.firing? = some firing
  · rw [(accounts_added added about).1, elsewhere]
    exact List.append_nil _
  · exact (sameAccounts_added added about).1

theorem returned_added : t.returned evaluation = s.returned evaluation ++
    if deed.evaluation = evaluation then deed.returned?.toList else [] := by
  rw [returned, added, List.filter_append, List.filterMap_append, ← returned, List.filter_singleton]
  by_cases same : deed.evaluation = evaluation
  · rw [if_pos same, decide_eq_true same]
    exact congrArg _ (filterMap_singleton _ _)
  · rw [if_neg same, decide_eq_false same]
    rfl

/-- A deed that does not come back from the where-stage leaves what has come back. -/
theorem returned_eq (elsewhere : deed.returned? = none) :
    t.returned evaluation = s.returned evaluation := by
  rw [returned_added added, elsewhere]
  split <;> exact List.append_nil _

end Adding

/-- Nothing is on the accounts of a firing without an owner. -/
theorem accounts_unowned (unowned : ∀ evaluation, ¬s.Owns firing evaluation) :
    s.dispatches firing = [] ∧ s.calls firing = [] ∧ s.postings firing = [] := by
  have none : s.concerning firing = [] := List.filter_eq_nil_iff.mpr fun deed made about =>
    unowned _ (.done made (of_decide_eq_true about))
  rw [dispatches, calls, postings, none]
  exact ⟨rfl, rfl, rfl⟩

/-! ### How far an evaluation has come -/

/-- The frames of an evaluation that are behind it, of which it has dispatched those whose
firing it has claimed, and the frames that are left. -/
structure Serves (s : System) (evaluation : Evaluation) (site : Site) (claimed : List Firing)
    (behind left : Frames) : Prop where
  returned : s.returned evaluation = [behind ++ left]
  spent : ∀ f ∈ behind, s.engine.Spent ⟨site.rule.name, f.support⟩
  named : ∀ firing ∈ claimed, firing.rule = site.rule.name
  served : ∀ firing ∈ claimed,
    (s.dispatches firing).map (·.frame) = behind.filter (·.support = firing.support)

section Terms

variable (catalogue : Catalogue) (limit : Int)

/-- Every dispatch for a firing is over. -/
def Balances (s : System) (firing : Firing) : Prop :=
  Balanced catalogue limit (s.dispatches firing) (s.calls firing) (s.postings firing)

/-- The last dispatch for its firing is under way, and those before it are over. -/
def Continues (s : System) (work : Dispatch) (stage : Dispatching) : Prop :=
  ∃ works calls logged newCalls newLogged,
    s.dispatches work.firing = works ++ [work] ∧ s.calls work.firing = calls ++ newCalls ∧
      s.postings work.firing = logged ++ newLogged ∧ Balanced catalogue limit works calls logged ∧
      work.Underway catalogue limit stage newCalls newLogged

/-- The accounts are in accordance with where an evaluation stands. -/
def Accounted (s : System) (evaluation : Evaluation) : Point → Prop
  | .enriching _ _ => s.returned evaluation = []
  | .frames site left claimed =>
    ∃ behind, s.Serves evaluation site claimed behind left ∧
      ∀ firing ∈ claimed, s.Balances catalogue limit firing
  | .dispatching site left claimed work stage =>
    ∃ behind, s.Serves evaluation site claimed behind left ∧
      (∀ firing ∈ claimed, firing ≠ work.firing → s.Balances catalogue limit firing) ∧
      s.Continues catalogue limit work stage
  | _ => True

variable {catalogue limit} {p : Point}

theorem Balances.keep (balances : s.Balances catalogue limit firing)
    (same : s.SameAccounts t firing) : t.Balances catalogue limit firing := by
  rw [Balances, same.1, same.2.1, same.2.2]
  exact balances

theorem Continues.keep {work : Dispatch} {stage : Dispatching}
    (continues : s.Continues catalogue limit work stage) (same : s.SameAccounts t work.firing) :
    t.Continues catalogue limit work stage := by
  rw [Continues, same.1, same.2.1, same.2.2]
  exact continues

theorem Serves.keep {site : Site} {claimed : List Firing} {behind left : Frames}
    (serves : s.Serves evaluation site claimed behind left)
    (returned : t.returned evaluation = s.returned evaluation)
    (spent : ∀ firing, s.engine.Spent firing → t.engine.Spent firing)
    (same : ∀ firing ∈ claimed, t.dispatches firing = s.dispatches firing) :
    t.Serves evaluation site claimed behind left where
  returned := returned.trans serves.returned
  spent f inside := spent _ (serves.spent f inside)
  named := serves.named
  served firing inside := by
    rw [same firing inside]
    exact serves.served firing inside

/-- What stays as it is stays accounted for. -/
theorem Accounted.keep (accounted : s.Accounted catalogue limit evaluation p)
    (grounded : p.Grounded logged root) (returned : t.returned evaluation = s.returned evaluation)
    (spent : ∀ firing, s.engine.Spent firing → t.engine.Spent firing)
    (same : ∀ firing ∈ p.claims, s.SameAccounts t firing) : t.Accounted catalogue limit evaluation p := by
  cases p with
  | next | rules | saving | ended => trivial
  | enriching => exact returned.trans accounted
  | frames =>
    obtain ⟨behind, serves, balances⟩ := accounted
    exact ⟨behind, serves.keep returned spent fun firing inside => (same firing inside).1,
      fun firing inside => (balances firing inside).keep (same firing inside)⟩
  | dispatching =>
    obtain ⟨behind, serves, balances, continues⟩ := accounted
    exact ⟨behind, serves.keep returned spent fun firing inside => (same firing inside).1,
      fun firing inside other => (balances firing inside other).keep (same firing inside),
      continues.keep (same _ grounded.2.2.1)⟩

/-! ### The evaluation that moves on -/

section Turning

variable {e f : Engine} {c d : Cascade} {p q : Point} {events : List Event} {taken : Nat}
  {site : Site} {frame : Frame} {left behind : Frames} {claimed mine : List Firing}
  {work : Dispatch} {stage : Dispatching}

/-- A frame of a firing that is not claimed is on the account of no claimed one. -/
theorem Serves.filter_snoc (serves : s.Serves evaluation site claimed behind left)
    (inside : firing ∈ claimed) (other : firing ≠ ⟨site.rule.name, frame.support⟩) :
    (behind ++ [frame]).filter (·.support = firing.support) =
      behind.filter (·.support = firing.support) := by
  rw [List.filter_append, List.filter_singleton]
  have differ : frame.support ≠ firing.support := by
    intro same
    apply other
    obtain ⟨rule, support⟩ := firing
    rw [← serves.named _ inside, same]
  rw [decide_eq_false differ]
  exact List.append_nil _

theorem accounted_skip
    (accounted : s.Accounted catalogue limit evaluation (.frames site (frame :: left) claimed))
    (notMine : ⟨site.rule.name, frame.support⟩ ∉ claimed)
    (fired : ⟨site.rule.name, frame.support⟩ ∈ s.engine.fired)
    (returned : t.returned evaluation = s.returned evaluation)
    (spent : ∀ firing, s.engine.Spent firing → t.engine.Spent firing)
    (same : ∀ firing, s.SameAccounts t firing) :
    t.Accounted catalogue limit evaluation (.frames site left claimed) := by
  obtain ⟨behind, serves, balances⟩ := accounted
  refine ⟨behind ++ [frame], ⟨?_, fun f inside => ?_, serves.named, fun firing inside => ?_⟩,
    fun firing inside => (balances firing inside).keep (same firing)⟩
  · rw [returned, serves.returned, List.append_assoc, List.singleton_append]
  · rcases List.mem_append.mp inside with before | isNew
    · exact spent _ (serves.spent f before)
    · rw [List.mem_singleton.mp isNew]
      exact spent _ (.inl fired)
  · rw [(same firing).1, serves.served firing inside, serves.filter_snoc inside]
    exact fun isSame => notMine (isSame ▸ inside)

/-- Nothing is on the account of a firing that is free, and none of its frames is behind. -/
theorem Serves.unspent (serves : s.Serves evaluation site claimed behind left) (orderly : s.Orderly)
    (isRule : firing.rule = site.rule.name) (unspent : ¬s.engine.Spent firing) :
    s.Balances catalogue limit firing ∧
      (s.dispatches firing).map (·.frame) = behind.filter (·.support = firing.support) := by
  have unowned : ∀ evaluation, ¬s.Owns firing evaluation := by
    intro evaluation owns
    exact unspent (orderly.spent owns)
  obtain ⟨noDispatches, noCalls, noPostings⟩ := accounts_unowned unowned
  have noFrames : behind.filter (·.support = firing.support) = [] := by
    apply List.filter_eq_nil_iff.mpr
    intro f inside same
    have spent := serves.spent f inside
    have isSupport : f.support = firing.support := of_decide_eq_true same
    rw [isSupport, ← isRule] at spent
    exact unspent spent
  rw [Balances, noDispatches, noCalls, noPostings, noFrames]
  exact ⟨.none, rfl⟩

/-- The frame that is dispatched now comes after those of its firing that were dispatched
before, and nothing of the firing was left out. -/
theorem accounted_dispatch
    (accounted : s.Accounted catalogue limit evaluation (.frames site (frame :: left) claimed))
    (claims : e.Claims root work.firing claimed f mine) (isEngine : e = s.engine)
    (orderly : s.Orderly) (unlost : ¬work.firing.IsLost s.engine.log)
    (isRule : work.rule = site.rule) (isFrame : work.frame = frame)
    (returned : t.returned evaluation = s.returned evaluation)
    (spent : ∀ firing, s.engine.Spent firing → t.engine.Spent firing)
    (spends : t.engine.Spent work.firing) (same : ∀ firing ≠ work.firing, s.SameAccounts t firing)
    (dispatches : t.dispatches work.firing = s.dispatches work.firing ++ [work])
    (calls : t.calls work.firing = s.calls work.firing)
    (postings : t.postings work.firing = s.postings work.firing) :
    t.Accounted catalogue limit evaluation (.dispatching site left mine work (work.beginning limit)) := by
  obtain ⟨behind, serves, balances⟩ := accounted
  have isFiring : work.firing = ⟨site.rule.name, frame.support⟩ := by
    rw [Dispatch.firing, isRule, isFrame]
  have before : s.Balances catalogue limit work.firing ∧
      (s.dispatches work.firing).map (·.frame) = behind.filter (·.support = work.firing.support) := by
    cases claims with
    | again isMine => exact ⟨balances _ isMine, serves.served _ isMine⟩
    | first _ free =>
      refine serves.unspent orderly (congrArg (·.rule) isFiring) ?_
      rintro (fired | lost)
      · exact free (isEngine ▸ fired)
      · exact unlost lost
  refine ⟨behind ++ [frame], ?serves, ?balances, ?continues⟩
  case serves =>
    constructor
    case returned => rw [returned, serves.returned, List.append_assoc, List.singleton_append]
    case spent =>
      intro g inside
      rcases List.mem_append.mp inside with isBehind | isNew
      · exact spent _ (serves.spent g isBehind)
      · rw [List.mem_singleton.mp isNew, ← isFiring]
        exact spends
    case named =>
      intro firing inside
      rcases claims.mem_or_eq inside with isClaimed | rfl
      · exact serves.named firing isClaimed
      · rw [isFiring]
    case served =>
      intro firing inside
      by_cases isWork : firing = work.firing
      · rw [isWork, dispatches, List.map_append, before.2, List.filter_append, isFiring]
        simp [isFrame]
      · have isClaimed := (claims.mem_or_eq inside).resolve_right isWork
        rw [(same firing isWork).1, serves.served firing isClaimed, serves.filter_snoc isClaimed]
        exact fun isSame => isWork (isSame.trans isFiring.symm)
  case balances =>
    intro firing inside other
    have isClaimed := (claims.mem_or_eq inside).resolve_right other
    exact (balances firing isClaimed).keep (same firing other)
  case continues =>
    refine ⟨_, _, _, [], [], dispatches, ?_, ?_, before.1, work.underway_beginning catalogue limit⟩
    · rw [calls, List.append_nil]
    · rw [postings, List.append_nil]

/-- A call is added to the account of its firing. -/
theorem accounted_call {pattern : Pattern} {patterns : List Pattern}
    (accounted : s.Accounted catalogue limit evaluation
      (.dispatching site left claimed work (.next (pattern :: patterns) produced)))
    (offered : catalogue.has pattern.action = true) (ends : Option Instant)
    (returned : t.returned evaluation = s.returned evaluation)
    (spent : ∀ firing, s.engine.Spent firing → t.engine.Spent firing)
    (same : ∀ firing ≠ work.firing, s.SameAccounts t firing)
    (dispatches : ∀ firing, t.dispatches firing = s.dispatches firing)
    (calls : t.calls work.firing = s.calls work.firing ++
      [(pattern.action, work.frame.resolve pattern.inputs)])
    (postings : t.postings work.firing = s.postings work.firing) :
    t.Accounted catalogue limit evaluation (.dispatching site left claimed work
      (.calling pattern.action (work.frame.resolve pattern.inputs) patterns produced ends)) := by
  obtain ⟨behind, serves, balances, works, before, logged, newCalls, newLogged, isWork, isCalls,
    isPostings, settled, underway⟩ := accounted
  refine ⟨behind, serves.keep returned spent fun firing _ => dispatches firing,
    fun firing inside other => (balances firing inside other).keep (same firing other),
    works, before, logged, newCalls ++ [_], newLogged, (dispatches _).trans isWork, ?_,
    postings.trans isPostings, settled, underway.call offered ends⟩
  rw [calls, isCalls, List.append_assoc]

/-- What was logged is added to the account of its firing. -/
theorem accounted_log {i : Invocation}
    (accounted : s.Accounted catalogue limit evaluation (.dispatching site left claimed work stage))
    (called : stage.Called catalogue work action input patterns produced)
    (isAction : i.action = action) (isInput : i.input = input)
    (causes : i.causes = sortedSet work.frame.support)
    (returned : t.returned evaluation = s.returned evaluation)
    (spent : ∀ firing, s.engine.Spent firing → t.engine.Spent firing)
    (same : ∀ firing ≠ work.firing, s.SameAccounts t firing)
    (dispatches : ∀ firing, t.dispatches firing = s.dispatches firing)
    (calls : t.calls work.firing = s.calls work.firing)
    (postings : t.postings work.firing = s.postings work.firing ++ [i]) :
    t.Accounted catalogue limit evaluation
      (.dispatching site left claimed work (.next patterns (produced ++ [i]))) := by
  obtain ⟨behind, serves, balances, works, before, logged, newCalls, newLogged, isWork, isCalls,
    isPostings, settled, underway⟩ := accounted
  refine ⟨behind, serves.keep returned spent fun firing _ => dispatches firing,
    fun firing inside other => (balances firing inside other).keep (same firing other),
    works, before, logged, newCalls, newLogged ++ [i], (dispatches _).trans isWork,
    calls.trans isCalls, ?_, settled, underway.log called isAction isInput causes⟩
  rw [postings, isPostings, List.append_assoc]

/-- A dispatch that is over balances the accounts of its firing. -/
theorem accounted_finish
    (accounted : s.Accounted catalogue limit evaluation (.dispatching site left claimed work stage))
    (isOver : stage.Over made) (returned : t.returned evaluation = s.returned evaluation)
    (spent : ∀ firing, s.engine.Spent firing → t.engine.Spent firing)
    (same : ∀ firing, s.SameAccounts t firing) :
    t.Accounted catalogue limit evaluation (.frames site left claimed) := by
  obtain ⟨behind, serves, balances, works, before, logged, newCalls, newLogged, isWork, isCalls,
    isPostings, settled, underway⟩ := accounted
  refine ⟨behind, serves.keep returned spent fun firing _ => (same firing).1, ?_⟩
  intro firing inside
  by_cases isFiring : firing = work.firing
  · refine Balances.keep ?_ (same firing)
    rw [Balances, isFiring, isWork, isCalls, isPostings]
    exact settled.settle (underway.settles isOver)
  · exact (balances firing inside isFiring).keep (same firing)

/-- The move of a run keeps the accounts in accordance with where it stands. -/
theorem accounted_moves (orderly : s.Orderly)
    (accounted : s.Accounted s.engine.catalogue s.engine.limits.depth evaluation p)
    (grounded : p.Grounded s.history c.root) (moves : Moves s.engine c p f d q events)
    (added : t.chronicle = s.chronicle ++ [⟨evaluation, p, q, events⟩]) (isEngine : t.engine = f)
    (unfree : ∀ firing ∈ p.claims, s.engine.Spent firing)
    (isNew : p.takesRule = true → s.returned evaluation = []) :
    t.Accounted s.engine.catalogue s.engine.limits.depth evaluation q := by
  have spent : ∀ firing, s.engine.Spent firing → t.engine.Spent firing := fun firing =>
    isEngine ▸ (Moves.sound moves orderly.sound grounded).2.spent orderly.sound.reached
  cases moves with
  | drain | pop | turn | settle | close | leave | lose | breakOff | reject | save | fail => trivial
  | evaluate => exact (returned_eq added rfl).trans (isNew rfl)
  | enrich => exact (returned_eq added rfl).trans accounted
  | answer =>
    have nothing : s.returned evaluation = [] := accounted
    refine ⟨[], ⟨?_, List.forall_mem_nil _, List.forall_mem_nil _, List.forall_mem_nil _⟩,
      List.forall_mem_nil _⟩
    rw [returned_added added, nothing]
    exact if_pos rfl
  | skip _ notMine fired =>
    exact accounted_skip accounted notMine fired (returned_eq added rfl) spent
      fun firing => sameAccounts_added added fun about => by cases about
  | dispatch _ claims deep silent =>
    obtain ⟨dispatches, calls, postings⟩ := accounts_added added rfl
    refine accounted_dispatch accounted claims rfl orderly ?_ rfl rfl (returned_eq added rfl) spent ?_
      (fun firing other => sameAccounts_added added fun about => other (Option.some.inj about).symm)
      dispatches (calls.trans ?_) (postings.trans ?_)
    · exact Firing.not_isLost_of_held (Dispatch.held_of_depthOf orderly.sound.coherent deep)
    · rw [isEngine]
      cases claims with
      | again isMine => exact unfree _ isMine
      | first => exact Engine.spent_claim _ _ _
    · unfold Dispatch.beginning
      split <;> exact List.append_nil _
    · rw [silent, List.append_nil]
  | call same offered =>
    obtain ⟨_, calls, postings⟩ := accounts_added added rfl
    refine accounted_call accounted offered _ (returned_eq added rfl) spent
      (fun firing other => sameAccounts_added added fun about => other (Option.some.inj about).symm)
      (fun firing => dispatches_eq added rfl) calls (postings.trans (List.append_nil _))
  | log _ called logged posts =>
    obtain ⟨_, calls, postings⟩ := accounts_added added rfl
    obtain ⟨parents, areCauses, _, _, rfl, _⟩ := orderly.sound.coherent.append_eq_ok logged
    refine accounted_log accounted called rfl rfl areCauses (returned_eq added rfl) spent
      (fun firing other => sameAccounts_added added fun about => other (Option.some.inj about).symm)
      (fun firing => dispatches_eq added rfl) (calls.trans (List.append_nil _)) (by rw [postings, posts])
  | finish isOver =>
    exact accounted_finish accounted isOver (returned_eq added rfl) spent
      fun firing => sameAccounts_added added fun about => by cases about

end Turning

end Terms

end System

end Choreography
