import Choreography.Proofs.System.Reception
import Choreography.Proofs.System.Repertoire

/-! The lobby in front of the reception. Some of those who come with a request are taken in as
callers, others go straight to an operation, as the policy lets them. Either may leave something
pending at the desk, and so may the runs. Whatever happens in whatever order, a caller's request
is dropped when his call ends, and not before. Nobody drops a request that a visitor has left at
the desk by himself. -/

namespace Choreography

/-- For whom the desk took a request in. -/
inductive Origin where
  /-- Somebody whose request goes through the engine. -/
  | caller (n : Nat)
  /-- Somebody who went straight to the desk. -/
  | visitor (n : Nat)
  /-- A run that called the desk, as one of its rules says. -/
  | rule (worker : Nat)
  /-- A where-clause that a run had asked. -/
  | clause (worker : Nat)
  /-- Anybody else. -/
  | outside
deriving DecidableEq

/-- Somebody who went straight to an operation, and what came of that. -/
structure Visitor where
  gateway : Gateway
  path : String
  result : Except Error Fields

/-- A reception and all who have come. The origins are for the record only: they say of each request
that the desk ever took in, in order, for whom it did. -/
structure Lobby where
  reception : Reception
  visitors : List Visitor := []
  origins : List Origin := []

def Phase.isHere : Phase → Bool
  | .waiting | .listening _ => true
  | .left _ _ | .gone => false

/-- A request is pending at the desk. -/
def Desk.Holds (d : Desk) (id : String) : Prop := (d.standing id).isSome = true

instance (d : Desk) (id : String) : Decidable (d.Holds id) :=
  inferInstanceAs (Decidable ((d.standing id).isSome = true))

/-- The request of every caller, and whether he is still here. -/
def Reception.attendance (s : Reception) : List (String × Bool) :=
  s.callers.map fun c => (c.ticket.id, c.phase.isHere)

namespace Lobby

/-- The lobby after something has happened at the reception. What was taken in there was taken in
for somebody. -/
def took (s : Lobby) (t : Reception) (origin : Origin) : Lobby :=
  { s with
    reception := t
    origins := s.origins ++ List.replicate (t.desk.taken - s.reception.desk.taken) origin }

/-- The lobby after somebody went straight to an operation. -/
def visited (s : Lobby) (t : Reception) (g : Gateway) (path : String) (target : ActionRef)
    (result : Except Error Value) : Lobby :=
  { s.took t (.visitor s.visitors.length) with
    visitors := s.visitors ++ [⟨g, path, Gateway.directBody target path result⟩] }

/-- Everything that can happen in one go. The reception goes on as it does; but whenever the desk
takes a request in, it is known for whom. A visitor finds the desk among the operations that he may
go straight to. A run calls it if it stands in a rule, and what a where-clause does while it is
asked is left open. -/
inductive Step : Lobby → Lobby → Prop where
  | along {s : Lobby} (next : s.reception.Step t) (untaken : t.desk.taken = s.reception.desk.taken) :
      Step s { s with reception := t }
  | receive {s : Lobby} {g : Gateway} (way : g.way path = .throughEngine) (params : Fields)
      (takenIn : s.reception.desk.call "request" (Gateway.input path params) = (d, .ok output))
      (logged : s.reception.system.engine.record requestAction (Gateway.input path params)
        (output.fields?.getD []) = .ok (e, root)) :
      Step s (s.took (s.reception.received g path (Gateway.input path params) e root)
        (.caller s.reception.callers.length))
  | visitDesk {s : Lobby} {g : Gateway}
      (way : g.way (normalRoute path) = .direct ⟨requestingName, operation⟩)
      (offered : operation ∈ Desk.methods) (params : Fields) :
      Step s (s.visited (s.reception.called operation params) g path ⟨requestingName, operation⟩
        (s.reception.desk.call operation params).2)
  | visit {s : Lobby} {g : Gateway} (way : g.way (normalRoute path) = .direct target)
      (elsewhere : ¬(target.component = requestingName ∧ target.operation ∈ Desk.methods))
      (result : Except Error Value) :
      Step s (s.visited s.reception g path target result)
  | rule {s : Lobby} (working : s.reception.system.workers[n]? = some w)
      (calls : w.run.wait? s.reception.system.engine =
        some (.component ⟨requestingName, operation⟩ input ends))
      (offered : operation ∈ Desk.methods) :
      Step s (s.took (s.reception.called operation input) (.rule n))
  | clause {s : Lobby} (working : s.reception.system.workers[n]? = some w)
      (asks : w.run.wait? s.reception.system.engine = some (.clause rule frames ends))
      (offered : operation ∈ Desk.methods) (input : Fields) :
      Step s (s.took (s.reception.called operation input) (.clause n))
  | outside {s : Lobby} (offered : operation ∈ Desk.methods) (input : Fields) :
      Step s (s.took (s.reception.called operation input) .outside)

/-- Whatever happens, in any number of steps. -/
inductive Reaches (start : Lobby) : Lobby → Prop where
  | start : Reaches start start
  | step (reached : Reaches start s) (next : Step s t) : Reaches start t

/-- Nobody has come yet. -/
structure Initial (s : Lobby) : Prop where
  reception : s.reception.Initial
  system : s.reception.system.Initial
  visitors : s.visitors = []
  origins : s.origins = []

/-- Who attends once a request was taken in: a caller who has just come, if it is his. -/
inductive Joins (s : Lobby) : Origin → List (String × Bool) → Prop where
  | caller : Joins s (.caller s.reception.attendance.length)
      (s.reception.attendance ++ [(requestId (s.reception.desk.taken + 1), true)])
  | other (notCaller : ∀ n, origin ≠ .caller n) : Joins s origin s.reception.attendance

/-- What a step makes of the requests. It leaves them as they are, though one may be answered; the
desk takes one in, for a caller who has just come or for anybody else; or a caller's call ends, and
his request is dropped. -/
inductive Alters (s t : Lobby) : Prop where
  | still (attendance : t.reception.attendance = s.reception.attendance)
      (origins : t.origins = s.origins)
      (taken : t.reception.desk.taken = s.reception.desk.taken)
      (holds : ∀ id, t.reception.desk.Holds id ↔ s.reception.desk.Holds id)
  | takes (joins : s.Joins origin t.reception.attendance) (origins : t.origins = s.origins ++ [origin])
      (taken : t.reception.desk.taken = s.reception.desk.taken + 1)
      (holds : ∀ id, t.reception.desk.Holds id ↔
        id = requestId (s.reception.desk.taken + 1) ∨ s.reception.desk.Holds id)
  | closes {id : String} (here : s.reception.attendance[n]? = some (id, true))
      (attendance : t.reception.attendance = s.reception.attendance.set n (id, false))
      (origins : t.origins = s.origins) (taken : t.reception.desk.taken = s.reception.desk.taken)
      (standing : ∀ other, t.reception.desk.standing other =
        if other = id then none else s.reception.desk.standing other)

end Lobby

/-! ### What happens at the desk -/

namespace Desk

variable {d : Desk} {operation : String}

/-- A call of the desk takes a request in, or leaves pending what is. -/
theorem call_takes_or_not (numbered : d.IsNumbered) (offered : operation ∈ methods) (input : Fields) :
    ((d.call operation input).1.taken = d.taken ∧
        ∀ id, (d.call operation input).1.Holds id ↔ d.Holds id) ∨
      operation = "request" ∧ (d.call operation input).1.taken = d.taken + 1 ∧
        ∀ id, (d.call operation input).1.Holds id ↔ id = requestId (d.taken + 1) ∨ d.Holds id := by
  simp only [methods, List.mem_cons, List.not_mem_nil, or_false] at offered
  rcases offered with rfl | rfl | rfl
  · rw [call_get_pending]
    exact .inl ⟨rfl, fun _ => .rfl⟩
  · rcases d.call_request input with ⟨error, refused⟩ | ⟨path, params, accepted⟩
    · rw [refused]
      exact .inl ⟨rfl, fun _ => .rfl⟩
    · rw [accepted]
      refine .inr ⟨rfl, rfl, fun id => ?_⟩
      unfold Holds
      rw [standing_request numbered]
      by_cases isNew : id = requestId (d.taken + 1)
      · simp [isNew]
      · simp [isNew]
  · refine .inl ?_
    by_cases isNamed : ∃ id, subject "respond" input = .ok (.text id)
    · obtain ⟨about, named⟩ := isNamed
      by_cases unanswered : d.standing about = some none
      · rw [call_respond_first named unanswered]
        refine ⟨rfl, fun id => ?_⟩
        unfold Holds
        rw [standing_respond]
        by_cases isIt : id = about
        · simp [isIt]
        · simp [isIt]
      · obtain ⟨text, refused⟩ := call_respond_other named unanswered
        rw [refused]
        exact ⟨rfl, fun _ => .rfl⟩
    · rw [call_respond_unnamed (not_exists.mp isNamed)]
      exact ⟨rfl, fun _ => .rfl⟩

/-- If one request is dropped, all others are as they were. -/
theorem holds_of_dropped {before after : Desk} {id : String}
    (standing : ∀ other, after.standing other = if other = id then none else before.standing other)
    (other : String) : after.Holds other ↔ other ≠ id ∧ before.Holds other := by
  unfold Holds
  rw [standing]
  by_cases isIt : other = id
  · simp [isIt]
  · simp [isIt]

end Desk

/-! ### What happens to the callers -/

namespace Reception

variable {s : Reception} {c : Caller} {n : Nat} {phase : Phase}

theorem attendance_of_caller (isCaller : s.callers[n]? = some c) :
    s.attendance[n]? = some (c.ticket.id, c.phase.isHere) := by
  rw [attendance, List.getElem?_map, isCaller]
  rfl

theorem caller_of_attendance {id : String} {here : Bool} (attends : s.attendance[n]? = some (id, here)) :
    ∃ c, s.callers[n]? = some c ∧ c.ticket.id = id ∧ c.phase.isHere = here := by
  rw [attendance, List.getElem?_map] at attends
  obtain ⟨c, isCaller, same⟩ := Option.map_eq_some_iff.mp attends
  exact ⟨c, isCaller, congrArg Prod.fst same, congrArg Prod.snd same⟩

theorem attendance_turned : (s.turned n c phase).attendance =
    s.attendance.set n (c.ticket.id, phase.isHere) :=
  List.map_set

/-- A caller who stays makes no difference. -/
theorem attendance_turned_here (isCaller : s.callers[n]? = some c)
    (same : phase.isHere = c.phase.isHere) :
    (s.turned n c phase).attendance = s.attendance := by
  rw [attendance_turned, same]
  refine List.ext_getElem? fun m => ?_
  by_cases isIt : n = m
  · subst isIt
    have inside := (List.getElem?_eq_some_iff.mp (attendance_of_caller isCaller)).1
    rw [List.getElem?_set_self inside, attendance_of_caller isCaller]
  · rw [List.getElem?_set_ne isIt]

theorem system_reported (s : Reception) (n : Nat) (c : Caller) (report : Report) :
    (s.reported n c report).system = s.system := by
  unfold reported
  cases c.ticket.afterRun report (s.desk.responseOf c.ticket.id) s.now <;> rfl

/-- The system behind a reception goes on as it does. -/
theorem Step.system {t : Reception} (next : s.Step t) : s.system.Reaches t.system := by
  cases next with
  | work next => exact .step .start next
  | call | wake | giveUp | tick => exact .start
  | receive _ _ _ logged =>
    have known : ∀ history : List Invocation, ∀ root, root ∈ history ++ [root] := by simp
    exact (System.Reaches.start.step (.record logged)).step (.process (known _ _) _ _)
  | report => exact system_reported .. ▸ .start

end Reception

namespace Lobby

open Reception

variable {start s t : Lobby} {e : Engine} {operation : String} {input : Fields} {c : Caller}
  {n : Nat} {phase : Phase} {origin : Origin} {reception : Reception}

theorem took_of_untaken (untaken : reception.desk.taken = s.reception.desk.taken) :
    (s.took reception origin).origins = s.origins := by
  simp [took, untaken]

theorem took_of_taken (taken : reception.desk.taken = s.reception.desk.taken + 1) :
    (s.took reception origin).origins = s.origins ++ [origin] := by
  simp [took, taken]

/-- A call of the desk, on whosoever's behalf. -/
theorem Alters.of_called (origin : Origin) (numbered : s.reception.desk.IsNumbered)
    (offered : operation ∈ Desk.methods) (input : Fields) (notCaller : ∀ n, origin ≠ .caller n)
    (isReception : t.reception = s.reception.called operation input)
    (origins : t.origins = (s.took (s.reception.called operation input) origin).origins) :
    s.Alters t := by
  rcases Desk.call_takes_or_not numbered offered input with ⟨untaken, same⟩ | ⟨_, taken, more⟩
  · rw [took_of_untaken untaken] at origins
    refine .still ?_ origins ?_ ?_ <;> rw [isReception]
    · rfl
    · exact untaken
    · exact same
  · rw [took_of_taken taken] at origins
    refine .takes ?_ origins ?_ ?_ <;> rw [isReception]
    · exact .other notCaller
    · exact taken
    · exact more

/-- A caller whose call ends. -/
theorem Alters.of_closed (isCaller : s.reception.callers[n]? = some c) (here : c.phase.isHere = true)
    (isGone : phase.isHere = false) (callers : reception.callers = s.reception.callers)
    (desk : reception.desk = s.reception.desk) :
    s.Alters { s with reception := reception.closed n c phase } := by
  have attends := attendance_of_caller isCaller
  rw [here] at attends
  refine .closes attends ?_ rfl ?_ fun other => ?_
  · have same : reception.attendance = s.reception.attendance := by
      rw [attendance, callers, ← attendance]
    rw [← same, ← isGone]
    exact attendance_turned
  · have sameTaken : reception.desk.taken = s.reception.desk.taken := congrArg Desk.taken desk
    exact sameTaken
  · rw [← desk]
    exact reception.desk.standing_discard c.ticket.id other

theorem Alters.of_reported (isCaller : s.reception.callers[n]? = some c) (waits : c.phase = .waiting)
    (report : Report) : s.Alters { s with reception := s.reception.reported n c report } := by
  have here : c.phase.isHere = true := waits ▸ rfl
  unfold Reception.reported
  cases c.ticket.afterRun report (s.reception.desk.responseOf c.ticket.id) s.reception.now with
  | leaves answer => exact .of_closed isCaller here rfl rfl rfl
  | listens =>
    refine .still ?_ rfl rfl fun _ => .rfl
    exact attendance_turned_here (s := s.reception.noted _ _) isCaller here.symm

/-- Somebody who comes with a request is taken in as a caller. -/
theorem Alters.of_received {g : Gateway} {path : String} {input : Fields} {engine : Engine}
    {root : Invocation} (numbered : s.reception.desk.IsNumbered)
    (takenIn : s.reception.desk.call "request" input = (d, .ok output)) :
    s.Alters (s.took (s.reception.received g path input engine root)
      (.caller s.reception.callers.length)) := by
  have taken := (exists_called_request takenIn).1
  have sameCount : s.reception.attendance.length = s.reception.callers.length := List.length_map _
  rcases Desk.call_takes_or_not numbered (show "request" ∈ Desk.methods by decide) input with
    ⟨untaken, _⟩ | ⟨_, _, more⟩
  · exact absurd (taken.symm.trans untaken) (Nat.succ_ne_self _)
  · have isNew : (s.reception.newcomer g path input).ticket.id =
        requestId (s.reception.desk.taken + 1) := congrArg requestId taken
    have attendance : (s.reception.received g path input engine root).attendance =
        s.reception.attendance ++ [(requestId (s.reception.desk.taken + 1), true)] := by
      rw [← isNew]
      exact List.map_append
    refine .takes ?_ (took_of_taken taken) taken more
    rw [took, attendance, ← sameCount]
    exact .caller

/-- The reception goes on as it does. -/
theorem Step.goesOn (next : s.Step t) :
    t.reception = s.reception ∨ s.reception.Step t.reception := by
  cases next with
  | along next => exact .inr next
  | receive way params takenIn logged => exact .inr (.receive way params takenIn logged)
  | visitDesk _ offered params => exact .inr (.call offered params)
  | visit => exact .inl rfl
  | rule _ _ offered | clause _ _ offered | outside offered => exact .inr (.call offered _)

theorem Step.alters (next : s.Step t) (orderly : s.reception.IsOrderly none) : s.Alters t := by
  have numbered := orderly.describes.numbered
  cases next with
  | along next untaken =>
    cases next with
    | work | tick => exact .still rfl rfl rfl fun _ => .rfl
    | call offered input =>
      rcases Desk.call_takes_or_not numbered offered input with ⟨_, same⟩ | ⟨_, taken, _⟩
      · exact .still rfl rfl untaken same
      · exact absurd (taken.symm.trans untaken) (Nat.succ_ne_self _)
    | receive way params takenIn logged =>
      have taken := (exists_called_request takenIn).1
      exact absurd (taken.symm.trans untaken) (Nat.succ_ne_self _)
    | report isCaller waits reports => exact .of_reported isCaller waits _
    | wake isCaller listens hears => exact .of_closed isCaller (listens ▸ rfl) rfl rfl rfl
    | giveUp isCaller here =>
      refine .of_closed isCaller ?_ rfl rfl rfl
      rcases here with waits | ⟨report, listens⟩
      · exact waits ▸ rfl
      · exact listens ▸ rfl
  | receive way params takenIn logged => exact .of_received numbered takenIn
  | visitDesk way offered params => exact .of_called (.visitor _) numbered offered params nofun rfl rfl
  | visit => exact .still rfl (took_of_untaken rfl) rfl fun _ => .rfl
  | rule working calls offered => exact .of_called (.rule _) numbered offered _ nofun rfl rfl
  | clause working asks offered input =>
    exact .of_called (.clause _) numbered offered input nofun rfl rfl
  | outside offered input => exact .of_called .outside numbered offered input nofun rfl rfl

/-! ### What is pending -/

/-- The origins tell of every request that was ever taken in. The callers are those for whom one
was, and a request is pending unless it was taken in for a caller who is not here any more. -/
structure IsKept (s : Lobby) : Prop where
  orderly : s.reception.IsOrderly none
  counted : s.origins.length = s.reception.desk.taken
  callers : ∀ (n : Nat) (id : String) (here : Bool), s.reception.attendance[n]? = some (id, here) →
    ∃ k, s.origins[k]? = some (.caller n) ∧ id = requestId (k + 1)
  attends : ∀ (k n : Nat), s.origins[k]? = some (.caller n) →
    ∃ here, s.reception.attendance[n]? = some (requestId (k + 1), here)
  numbered : ∀ id, s.reception.desk.Holds id →
    ∃ k origin, s.origins[k]? = some origin ∧ id = requestId (k + 1)
  holds : ∀ (k : Nat) (origin : Origin), s.origins[k]? = some origin →
    (s.reception.desk.Holds (requestId (k + 1)) ↔
      ∀ n, origin = .caller n → s.reception.attendance[n]? = some (requestId (k + 1), true))

theorem getElem?_concat_eq_some {α : Type} {l : List α} {a b : α} {k : Nat} :
    (l ++ [a])[k]? = some b ↔ l[k]? = some b ∨ k = l.length ∧ b = a := by
  by_cases inside : k < l.length
  · rw [List.getElem?_append_left inside]
    exact ⟨.inl, fun or => or.resolve_right fun isLast => Nat.ne_of_lt inside isLast.1⟩
  · have outside := Nat.le_of_not_lt inside
    rw [List.getElem?_append_right outside, List.getElem?_eq_none outside, List.getElem?_singleton]
    by_cases isLast : k = l.length
    · simp [isLast, eq_comm]
    · have notZero : k - l.length ≠ 0 := by omega
      simp [isLast, notZero]

theorem IsKept.still (kept : s.IsKept) (orderly : t.reception.IsOrderly none)
    (attendance : t.reception.attendance = s.reception.attendance) (origins : t.origins = s.origins)
    (taken : t.reception.desk.taken = s.reception.desk.taken)
    (holds : ∀ id, t.reception.desk.Holds id ↔ s.reception.desk.Holds id) : t.IsKept where
  orderly
  counted := by rw [origins, taken, kept.counted]
  callers := by
    rw [attendance, origins]
    exact kept.callers
  attends := by
    rw [attendance, origins]
    exact kept.attends
  numbered id := by
    rw [holds, origins]
    exact kept.numbered id
  holds k origin := by
    rw [holds, attendance, origins]
    exact kept.holds k origin

/-- The next request has a number that no other has. -/
theorem IsKept.isNew (kept : s.IsKept) {k : Nat} (isOld : s.origins[k]? = some origin) :
    requestId (k + 1) ≠ requestId (s.reception.desk.taken + 1) := by
  intro same
  have inside := (List.getElem?_eq_some_iff.mp isOld).1
  have isLast := requestId_injective same
  rw [kept.counted] at inside
  omega

section Joining

variable {attending : List (String × Bool)} {x : String × Bool}

theorem Joins.mono (joins : s.Joins origin attending)
    (attends : s.reception.attendance[n]? = some x) :
    attending[n]? = some x := by
  cases joins with
  | caller => exact getElem?_concat_eq_some.mpr (.inl attends)
  | other => exact attends

theorem Joins.own (joins : s.Joins (.caller n) attending) :
    attending[n]? = some (requestId (s.reception.desk.taken + 1), true) := by
  cases joins with
  | caller => exact getElem?_concat_eq_some.mpr (.inr ⟨rfl, rfl⟩)
  | other notCaller => exact absurd rfl (notCaller n)

theorem Joins.attended (joins : s.Joins origin attending) {id : String} {here : Bool}
    (attends : attending[n]? = some (id, here)) : s.reception.attendance[n]? = some (id, here) ∨
      origin = .caller n ∧ id = requestId (s.reception.desk.taken + 1) := by
  cases joins with
  | caller =>
    rcases getElem?_concat_eq_some.mp attends with old | ⟨rfl, isNew⟩
    · exact .inl old
    · exact .inr ⟨rfl, congrArg Prod.fst isNew⟩
  | other => exact .inl attends

end Joining

/-- A request is taken in, for a caller who has just come or for anybody else. -/
theorem IsKept.takes (kept : s.IsKept) (orderly : t.reception.IsOrderly none)
    (joins : s.Joins origin t.reception.attendance) (origins : t.origins = s.origins ++ [origin])
    (taken : t.reception.desk.taken = s.reception.desk.taken + 1)
    (holds : ∀ id, t.reception.desk.Holds id ↔
      id = requestId (s.reception.desk.taken + 1) ∨ s.reception.desk.Holds id) : t.IsKept where
  orderly
  counted := by rw [origins, taken, List.length_append, kept.counted, List.length_singleton]
  callers n id here attends := by
    rw [origins]
    rcases joins.attended attends with old | ⟨rfl, isNew⟩
    · obtain ⟨k, isOrigin, isId⟩ := kept.callers n id here old
      exact ⟨k, getElem?_concat_eq_some.mpr (.inl isOrigin), isId⟩
    · exact ⟨_, getElem?_concat_eq_some.mpr (.inr ⟨rfl, rfl⟩), kept.counted ▸ isNew⟩
  attends k n isCaller := by
    rw [origins] at isCaller
    rcases getElem?_concat_eq_some.mp isCaller with isOld | ⟨rfl, rfl⟩
    · obtain ⟨here, attends⟩ := kept.attends k n isOld
      exact ⟨here, joins.mono attends⟩
    · exact ⟨true, kept.counted ▸ joins.own⟩
  numbered id isHeld := by
    rw [origins]
    rcases (holds id).mp isHeld with isNew | old
    · exact ⟨_, _, getElem?_concat_eq_some.mpr (.inr ⟨rfl, rfl⟩), kept.counted ▸ isNew⟩
    · obtain ⟨k, other, isOld, isId⟩ := kept.numbered id old
      exact ⟨k, other, getElem?_concat_eq_some.mpr (.inl isOld), isId⟩
  holds k other isOrigin := by
    rw [origins] at isOrigin
    rw [holds]
    rcases getElem?_concat_eq_some.mp isOrigin with isOld | ⟨rfl, rfl⟩
    · rw [or_iff_right (kept.isNew isOld), kept.holds k other isOld]
      refine forall₂_congr fun n _ => ⟨joins.mono, fun attends => ?_⟩
      exact (joins.attended attends).resolve_right fun isNow => kept.isNew isOld isNow.2
    · refine iff_of_true (.inl (congrArg (requestId <| · + 1) kept.counted)) fun n isCaller => ?_
      subst isCaller
      exact kept.counted ▸ joins.own

/-- A caller's call ends, and his request is dropped. -/
theorem IsKept.closes (kept : s.IsKept) (orderly : t.reception.IsOrderly none) {id : String}
    (here : s.reception.attendance[n]? = some (id, true))
    (attendance : t.reception.attendance = s.reception.attendance.set n (id, false))
    (origins : t.origins = s.origins) (taken : t.reception.desk.taken = s.reception.desk.taken)
    (standing : ∀ other, t.reception.desk.standing other =
      if other = id then none else s.reception.desk.standing other) : t.IsKept := by
  have inside := (List.getElem?_eq_some_iff.mp here).1
  have holds := Desk.holds_of_dropped standing
  have attended {m : Nat} {other : String} {still : Bool}
      (attends : t.reception.attendance[m]? = some (other, still)) :
      ∃ before, s.reception.attendance[m]? = some (other, before) := by
    rw [attendance] at attends
    by_cases isIt : n = m
    · subst isIt
      rw [List.getElem?_set_self inside] at attends
      cases attends
      exact ⟨true, here⟩
    · rw [List.getElem?_set_ne isIt] at attends
      exact ⟨still, attends⟩
  constructor
  case orderly => exact orderly
  case counted => rw [origins, taken, kept.counted]
  case callers =>
    intro m other still attends
    obtain ⟨before, wasThere⟩ := attended attends
    rw [origins]
    exact kept.callers m other before wasThere
  case attends =>
    intro k m isCaller
    rw [origins] at isCaller
    obtain ⟨before, attends⟩ := kept.attends k m isCaller
    rw [attendance]
    by_cases isIt : n = m
    · subst isIt
      have same := Option.some.inj (here.symm.trans attends)
      have isId : id = requestId (k + 1) := congrArg Prod.fst same
      exact ⟨false, isId ▸ List.getElem?_set_self inside⟩
    · exact ⟨before, (List.getElem?_set_ne isIt).trans attends⟩
  case numbered =>
    intro other isHeld
    rw [origins]
    exact kept.numbered other ((holds other).mp isHeld).2
  case holds =>
    intro k origin isOrigin
    rw [origins] at isOrigin
    rw [holds, kept.holds k origin isOrigin, attendance]
    obtain ⟨own, isCaller, isId⟩ := kept.callers n id true here
    constructor
    · rintro ⟨notIt, attends⟩ m rfl
      have elsewhere : n ≠ m := by
        rintro rfl
        have same := Option.some.inj (here.symm.trans (attends n rfl))
        exact notIt (congrArg Prod.fst same).symm
      exact (List.getElem?_set_ne elsewhere).trans (attends m rfl)
    · intro attends
      have elsewhere (m : Nat) (isIt : origin = .caller m) : n ≠ m := by
        rintro rfl
        have isGone := attends n isIt
        rw [List.getElem?_set_self inside] at isGone
        exact Bool.false_ne_true (congrArg Prod.snd (Option.some.inj isGone))
      refine ⟨fun same => ?_, fun m isIt => ?_⟩
      · obtain rfl := Nat.succ.inj (requestId_injective (same.trans isId))
        cases isOrigin.symm.trans isCaller
        exact elsewhere n rfl rfl
      · exact (List.getElem?_set_ne (elsewhere m isIt)).symm.trans (attends m isIt)

theorem IsKept.step (kept : s.IsKept) (next : s.Step t) : t.IsKept := by
  have orderly : t.reception.IsOrderly none := by
    rcases next.goesOn with same | next
    · exact same ▸ kept.orderly
    · exact kept.orderly.step next
  cases next.alters kept.orderly with
  | still attendance origins taken holds => exact kept.still orderly attendance origins taken holds
  | takes joins origins taken holds => exact kept.takes orderly joins origins taken holds
  | closes here attendance origins taken standing =>
    exact kept.closes orderly here attendance origins taken standing

theorem Initial.isKept (initial : start.Initial) : start.IsKept := by
  have noCaller : start.reception.attendance = [] := by
    rw [Reception.attendance, initial.reception.callers]
    rfl
  have noRequest (id : String) : ¬start.reception.desk.Holds id := by
    rw [initial.reception.desk]
    exact Bool.false_ne_true
  constructor
  case orderly => exact initial.reception.isOrderly
  case counted =>
    rw [initial.origins, initial.reception.desk]
    rfl
  case callers =>
    rw [noCaller]
    exact fun n id here attends => nomatch attends
  case attends =>
    rw [initial.origins]
    exact fun k n isCaller => nomatch isCaller
  case numbered => exact fun id isHeld => absurd isHeld (noRequest id)
  case holds =>
    rw [initial.origins]
    exact fun k origin isOrigin => nomatch isOrigin

/-! ### Where requests come from -/

/-- It is known how an origin came to leave a request: the path of a visitor leads straight to the
desk, and a run does what a registered rule says. -/
def Explains (s : Lobby) (e : Engine) : Origin → Prop
  | .visitor n => ∃ v, s.visitors[n]? = some v ∧
      v.gateway.way (normalRoute v.path) = .direct requestAction
  | .rule _ => ∃ rule ∈ e.rules.rules, ∃ p ∈ rule.thens, p.action = requestAction
  | .caller _ | .clause _ | .outside => True

/-- A lobby where runs take registered rules, and every origin is explained. -/
structure Attributes (s : Lobby) (e : Engine) : Prop where
  kept : s.IsKept
  performs : s.reception.system.Performs e
  explained : ∀ origin ∈ s.origins, s.Explains e origin

theorem Explains.mono (explains : s.Explains e origin)
    (more : ∀ (n : Nat) (v : Visitor), s.visitors[n]? = some v → t.visitors[n]? = some v) :
    t.Explains e origin := by
  cases origin with
  | visitor n =>
    obtain ⟨v, isThere, isTarget⟩ := explains
    exact ⟨v, more n v isThere, isTarget⟩
  | rule => exact explains
  | caller | clause | outside => trivial

theorem mem_took {other : Origin} (inside : other ∈ (s.took reception origin).origins) :
    other ∈ s.origins ∨ other = origin ∧ reception.desk.taken ≠ s.reception.desk.taken := by
  refine (List.mem_append.mp inside).imp_right fun isNew => ?_
  obtain ⟨some, isIt⟩ := List.mem_replicate.mp isNew
  exact ⟨isIt, fun same => some (same ▸ Nat.sub_self _)⟩

/-- Whoever calls the desk has called for a request if one was taken in for him. -/
theorem mem_called {other : Origin} (kept : s.IsKept) (offered : operation ∈ Desk.methods)
    (inside : other ∈ (s.took (s.reception.called operation input) origin).origins) :
    other ∈ s.origins ∨ other = origin ∧ operation = "request" := by
  refine (mem_took inside).imp_right fun ⟨isIt, takes⟩ => ⟨isIt, ?_⟩
  rcases Desk.call_takes_or_not kept.orderly.describes.numbered offered input with
    ⟨untaken, _⟩ | ⟨isRequest, _⟩
  · exact absurd untaken takes
  · exact isRequest

theorem Attributes.step (attributes : s.Attributes e) (next : s.Step t) : t.Attributes e := by
  have kept := attributes.kept.step next
  have performs : t.reception.system.Performs e := by
    rcases next.goesOn with same | next
    · exact same ▸ attributes.performs
    · exact (System.performs_preserved e).reaches attributes.performs next.system
  refine ⟨kept, performs, fun other inside => ?_⟩
  have before (old : other ∈ s.origins) (new : List Visitor)
      (visitors : t.visitors = s.visitors ++ new) : t.Explains e other := by
    refine Explains.mono (attributes.explained other old) fun n v isThere => ?_
    rw [visitors, List.getElem?_append_left (List.getElem?_eq_some_iff.mp isThere).1, isThere]
  have same := (List.append_nil s.visitors).symm
  cases next with
  | along => exact before inside [] same
  | receive | clause | outside =>
    rcases mem_took inside with old | ⟨rfl, _⟩
    · exact before old [] same
    · trivial
  | rule working calls offered =>
    rcases mem_called attributes.kept offered inside with old | ⟨rfl, rfl⟩
    · exact before old [] same
    · exact attributes.performs.exists_then_of_wait working calls
  | visit =>
    rcases mem_took inside with old | ⟨_, untaken⟩
    · exact before old _ rfl
    · exact absurd rfl untaken
  | visitDesk way offered params =>
    rcases mem_called attributes.kept offered inside with old | ⟨rfl, rfl⟩
    · exact before old _ rfl
    · exact ⟨_, getElem?_concat_eq_some.mpr (.inr ⟨rfl, rfl⟩), way⟩

theorem Reaches.attributes (reached : start.Reaches s) (initial : start.Initial)
    (registered : start.reception.system.engine.rules.Reachable) :
    s.Attributes start.reception.system.engine := by
  induction reached with
  | start =>
    refine ⟨initial.isKept, System.Reaches.start.performs initial.system registered, ?_⟩
    rw [initial.origins]
    exact List.forall_mem_nil _
  | step _ next ih => exact ih.step next

/-- The call of a caller ends in a step. -/
structure Ends (s t : Lobby) (n : Nat) (c : Caller) : Prop where
  isCaller : s.reception.callers[n]? = some c
  here : c.phase.isHere = true
  gone : ∃ d, t.reception.callers[n]? = some d ∧ d.phase.isHere = false

/-- A request was taken in on behalf of a caller: it is his own, or the run for it has made another.
-/
inductive ServesCaller (n worker : Nat) : Origin → Prop where
  | own : ServesCaller n worker (.caller n)
  | rule : ServesCaller n worker (.rule worker)
  | clause : ServesCaller n worker (.clause worker)

/-- A caller whose request is dropped is one whose call ends. -/
theorem Alters.ends (alters : s.Alters t) {id : String} (held : s.reception.desk.Holds id)
    (dropped : ¬t.reception.desk.Holds id) : ∃ n c, s.Ends t n c ∧ c.ticket.id = id := by
  cases alters with
  | still _ _ _ holds => exact absurd ((holds id).mpr held) dropped
  | takes _ _ _ holds => exact absurd ((holds id).mpr (.inr held)) dropped
  | @closes n own here attendance _ _ standing =>
    obtain ⟨c, isCaller, isId, isHere⟩ := caller_of_attendance here
    have isNow : t.reception.attendance[n]? = some (own, false) := by
      rw [attendance, List.getElem?_set_self (List.getElem?_eq_some_iff.mp here).1]
    obtain ⟨d, isThere, _, isGone⟩ := caller_of_attendance isNow
    refine ⟨n, c, ⟨isCaller, isHere, d, isThere, isGone⟩, isId.trans ?_⟩
    by_contra other
    exact dropped ((Desk.holds_of_dropped standing id).mpr ⟨Ne.symm other, held⟩)

/-- When a call ends, no other request is touched. -/
theorem Alters.untouched (alters : s.Alters t) (ends : s.Ends t n c) {id : String}
    (other : id ≠ c.ticket.id) :
    t.reception.desk.standing id = s.reception.desk.standing id := by
  have attends := attendance_of_caller ends.isCaller
  obtain ⟨d, isThere, isGone⟩ := ends.gone
  have attended := attendance_of_caller isThere
  rw [ends.here] at attends
  rw [isGone] at attended
  cases alters with
  | still attendance =>
    rw [attendance, attends] at attended
    exact absurd (congrArg Prod.snd (Option.some.inj attended)) nofun
  | takes joins =>
    rw [joins.mono attends] at attended
    exact absurd (congrArg Prod.snd (Option.some.inj attended)) nofun
  | @closes m own here attendance _ _ standing =>
    have isIt : m = n := by
      by_contra elsewhere
      rw [attendance, List.getElem?_set_ne elsewhere, attends] at attended
      exact absurd (congrArg Prod.snd (Option.some.inj attended)) nofun
    subst isIt
    have isOwn : own = c.ticket.id := congrArg Prod.fst (Option.some.inj (here.symm.trans attends))
    rw [standing, isOwn, if_neg other]

/-- If no rule calls for requests, a caller's request is pending exactly as long as he is here. Of
all that was taken in on his behalf only what a where-clause has asked for outlasts him. What was
taken in for a visitor stays pending, though his call has ended; his path leads straight to the
desk. Nothing else is ever pending. When a call ends no other request is touched, and a request is
dropped only then. -/
theorem requests_end_with_calls (initial : start.Initial)
    (registered : start.reception.system.engine.rules.Reachable)
    (unasked : ∀ rule ∈ start.reception.system.engine.rules.rules, ∀ p ∈ rule.thens,
      p.action ≠ requestAction) (reached : start.Reaches s) :
    (∀ (n : Nat) (c : Caller), s.reception.callers[n]? = some c →
      ∀ (k : Nat) (origin : Origin), s.origins[k]? = some origin → ServesCaller n c.worker origin →
        (s.reception.desk.Holds (requestId (k + 1)) ↔
          c.phase.isHere = true ∨ origin = .clause c.worker)) ∧
    (∀ k n : Nat, s.origins[k]? = some (.visitor n) → s.reception.desk.Holds (requestId (k + 1)) ∧
      ∃ v, s.visitors[n]? = some v ∧ v.gateway.way (normalRoute v.path) = .direct requestAction) ∧
    (∀ id, s.reception.desk.Holds id →
      ∃ k origin, s.origins[k]? = some origin ∧ id = requestId (k + 1)) ∧
    ∀ t, s.Step t → (∀ n c, s.Ends t n c → ∀ id ≠ c.ticket.id,
        t.reception.desk.standing id = s.reception.desk.standing id) ∧
      ∀ id, s.reception.desk.Holds id → ¬t.reception.desk.Holds id →
        ∃ n c, s.Ends t n c ∧ c.ticket.id = id := by
  have attributes := reached.attributes initial registered
  have kept := attributes.kept
  refine ⟨fun n c isCaller k origin isOrigin serves => ?_, fun k n isVisitor => ⟨?_, ?_⟩, kept.numbered,
    fun t next => ⟨fun n c ends id other => ?_, fun id held dropped => ?_⟩⟩
  · rw [kept.holds k origin isOrigin]
    cases serves with
    | own =>
      obtain ⟨here, attends⟩ := kept.attends k n isOrigin
      have isHere : c.phase.isHere = here :=
        congrArg Prod.snd (Option.some.inj ((attendance_of_caller isCaller).symm.trans attends))
      rw [isHere, or_iff_left nofun]
      constructor
      · intro attended
        exact congrArg Prod.snd (Option.some.inj (attends.symm.trans (attended n rfl)))
      · rintro rfl m isIt
        cases isIt
        exact attends
    | rule =>
      obtain ⟨rule, isRule, p, isThen, asks⟩ :=
        attributes.explained _ (List.mem_of_getElem? isOrigin)
      exact absurd asks (unasked rule isRule p isThen)
    | clause => exact iff_of_true nofun (.inr rfl)
  · exact (kept.holds k _ isVisitor).mpr nofun
  · exact attributes.explained _ (List.mem_of_getElem? isVisitor)
  · exact (next.alters kept.orderly).untouched ends other
  · exact (next.alters kept.orderly).ends held dropped

end Lobby

/-! ### A letter that is left at the desk -/

namespace Parcel

open Lobby

/-- Whatever is asked for is loaded. -/
def load : Rule where
  name := "load"
  whens := [{ action := requestAction, inputs := [] }]
  thens := [{ action := ⟨"Cart", "load"⟩, inputs := [] }]

/-- One may go straight to the desk. -/
def gateway : Gateway := { policy := { inclusions := [("/Requesting/request", .text "public")] } }

def start : Lobby where
  reception.system.engine :=
    { catalogue := { operations := [⟨requestAction, .action⟩, ⟨⟨"Cart", "load"⟩, .action⟩] }
      rules := (({} : RuleRegistry).registerAll [.ok load]).1 }

theorem start_initial : start.Initial where
  reception := ⟨rfl, rfl, rfl⟩
  system :=
    { log := .start, fired := rfl, firedByRoot := rfl, active := rfl, workers := rfl,
      chronicle := rfl }
  visitors := rfl
  origins := rfl

theorem start_registered : start.reception.system.engine.rules.Reachable :=
  RuleRegistry.Reachable.empty.registerAll _

theorem start_unasked : ∀ rule ∈ start.reception.system.engine.rules.rules, ∀ p ∈ rule.thens,
    p.action ≠ requestAction := by decide

def request : Fields := Gateway.input "/parcel" []

def root : Invocation :=
  start.reception.system.engine.log.describe requestAction request [("request", .text (requestId 1))] []

/-- Somebody asks for a parcel. -/
def asked : Lobby :=
  start.took (start.reception.received gateway "/parcel" request
    { start.reception.system.engine with log := start.reception.system.engine.log.enter root } root)
    (.caller 0)

theorem start_reaches_asked : start.Reaches asked :=
  Reaches.start.step (.receive (by decide +kernel) [] (by rfl) (by rfl))

/-- What is asked for straight at the desk. -/
def letter : Fields := [("path", .text "/letter")]

/-- Somebody else goes straight to the desk and asks for a letter. -/
def visited : Lobby :=
  asked.visited (asked.reception.called "request" letter) gateway "/Requesting/request" requestAction
    (asked.reception.desk.call "request" letter).2

theorem start_reaches_visited : start.Reaches visited :=
  start_reaches_asked.step
    (.visitDesk (by decide +kernel) (show "request" ∈ Desk.methods by decide) letter)

def caller : Caller := start.reception.newcomer gateway "/parcel" request

/-- The first one gives up. -/
def deserted : Lobby := { visited with reception := visited.reception.closed 0 caller .gone }

theorem start_reaches_deserted : start.Reaches deserted :=
  start_reaches_visited.step (.along (.giveUp (n := 0) (c := caller) (by rfl) (.inl rfl)) rfl)

/-- The parcel is not pending any more, and the letter is. -/
theorem requests_end_deserted : deserted.origins = [.caller 0, .visitor 0] ∧
    ¬deserted.reception.desk.Holds (requestId 1) ∧ deserted.reception.desk.Holds (requestId 2) := by
  have holds :=
    requests_end_with_calls start_initial start_registered start_unasked start_reaches_deserted
  refine ⟨rfl, fun held => ?_, (holds.2.1 1 0 rfl).1⟩
  rcases (holds.1 0 { caller with phase := .gone } rfl 0 (.caller 0) rfl .own).mp held with here | asks
  · cases here
  · cases asks

/-- The visitor has gone with the number of his request, which is still pending. -/
theorem visited_leaves_letter : start.Reaches visited ∧ visited.origins[1]? = some (.visitor 0) ∧
    (visited.visitors.map fun v => v.result.toOption) = [some [("request", .text (requestId 2))]] ∧
      visited.reception.desk.Holds (requestId 2) :=
  ⟨start_reaches_visited, rfl, rfl, by decide +kernel⟩

end Parcel

end Choreography
