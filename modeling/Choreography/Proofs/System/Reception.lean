import Choreography.Proofs.Desk.Book
import Choreography.Proofs.System.Reports
import Choreography.Proofs.System.Schedule

/-! The reception: a system with a gateway and a desk in front of it, and the callers who came
with requests. Whatever happens in whatever order, every caller leaves with the first response
to his own request if it came in time, and else with nothing. -/

namespace Choreography

/-- What a caller whose request goes through the engine is doing. -/
inductive Phase where
  /-- The cascade of his request runs. -/
  | waiting
  /-- The run has drained, and he listens for a response. -/
  | listening (report : Report)
  /-- He has left, after the report of the run, with an answer or an error. -/
  | left (report : Report) (result : Except Error Fields)
  /-- He gave up, or the run for his request came back without a report. -/
  | gone

/-- The report that a caller knows of. -/
def Phase.report? : Phase → Option Report
  | .listening report | .left report _ => some report
  | .waiting | .gone => none

/-- Somebody who came with a request, and the number of the run for it. -/
structure Caller where
  ticket : Gateway.Ticket
  worker : Nat
  phase : Phase := .waiting

/-- A system with a desk in front of it. The book is for the record only. -/
structure Reception where
  system : System
  desk : Desk := {}
  now : Instant := 0
  callers : List Caller := []
  book : Desk.Book := []

namespace Reception

open Desk Desk.Book

/-- The reception after something has happened at the desk. -/
def noted (s : Reception) (act : Act) (desk : Desk) : Reception :=
  { s with desk, book := s.book ++ [⟨s.now, act, s.desk, desk⟩] }

/-- The reception after an operation of the desk was called. -/
def called (s : Reception) (operation : String) (input : Fields) : Reception :=
  let (desk, result) := s.desk.call operation input
  s.noted (.called operation input result) desk

/-- The reception after a caller has gone on to something else. -/
def turned (s : Reception) (n : Nat) (c : Caller) (phase : Phase) : Reception :=
  { s with callers := s.callers.set n { c with phase } }

/-- The reception after a caller's request was dropped, whether he leaves or gives up. -/
def closed (s : Reception) (n : Nat) (c : Caller) (phase : Phase) : Reception :=
  (s.noted (.discarded c.ticket.id) (s.desk.discard c.ticket.id).1).turned n c phase

/-- The reception after a caller has left, perhaps with an answer. -/
def left (s : Reception) (n : Nat) (c : Caller) (report : Report) (answer : Option Fields) :
    Reception :=
  s.closed n c (.left report (c.ticket.result report answer))

/-- The reception after the run for a request has come back. -/
def reported (s : Reception) (n : Nat) (c : Caller) (report : Report) : Reception :=
  let t := s.noted (.reported c.ticket.id) s.desk
  match c.ticket.afterRun report (s.desk.responseOf c.ticket.id) s.now with
  | .leaves answer => t.left n c report answer
  | .listens => t.turned n c (.listening report)

/-- Somebody who comes with a request, once it was taken in. -/
def newcomer (s : Reception) (g : Gateway) (path : String) (input : Fields) : Caller where
  ticket := g.ticket (s.called "request" input).desk path s.now
  worker := s.system.workers.length

/-- The reception after somebody came with a request, which was taken in and logged. -/
def received (s : Reception) (g : Gateway) (path : String) (input : Fields) (engine : Engine)
    (root : Invocation) : Reception :=
  { s.called "request" input with
    system := (s.system.recorded engine root).begun root (some g.limit) s.now
    callers := s.callers ++ [s.newcomer g path input] }

/-- A caller hears of a response, and notices when his time is over. -/
def Hears (s : Reception) (ticket : Gateway.Ticket) : Prop :=
  (s.desk.responseOf ticket.id).isSome ∨ ticket.deadline ≤ s.now

/-- Everything that can happen in one go. The operations of the desk may be called at any time, by
whichever cascade or by nobody's, and a run may be told anything of a call it made. The clock does not
pass the deadline of somebody who listens as long as he has still to hear of a response. -/
inductive Step : Reception → Reception → Prop where
  | work {s : Reception} {t : System} (next : s.system.Step t) : Step s { s with system := t }
  | call {s : Reception} (offered : operation ∈ Desk.methods) (input : Fields) :
      Step s (s.called operation input)
  | receive {s : Reception} {g : Gateway} (way : g.way path = .throughEngine) (params : Fields)
      (takenIn : s.desk.call "request" (Gateway.input path params) = (d, .ok output))
      (logged : s.system.engine.record requestAction (Gateway.input path params)
        (output.fields?.getD []) = .ok (e, root)) :
      Step s (s.received g path (Gateway.input path params) e root)
  | report {s : Reception} (isCaller : s.callers[n]? = some c) (waits : c.phase = .waiting)
      (reports : s.system.reportOf c.worker = some report) : Step s (s.reported n c report)
  | wake {s : Reception} (isCaller : s.callers[n]? = some c) (listens : c.phase = .listening report)
      (hears : s.Hears c.ticket) :
      Step s (s.left n c report (c.ticket.afterListening (s.desk.responseOf c.ticket.id) s.now))
  | giveUp {s : Reception} (isCaller : s.callers[n]? = some c)
      (here : c.phase = .waiting ∨ ∃ report, c.phase = .listening report) : Step s (s.closed n c .gone)
  | tick {s : Reception} (later : Instant) (forward : s.now ≤ later)
      (prompt : ∀ c ∈ s.callers, ∀ report, c.phase = .listening report →
        (s.desk.responseOf c.ticket.id).isSome → s.now < c.ticket.deadline →
          later < c.ticket.deadline) : Step s { s with now := later }

/-- Whatever happens, in any number of steps. -/
inductive Reaches (start : Reception) : Reception → Prop where
  | start : Reaches start start
  | step (reached : Reaches start s) (next : Step s t) : Reaches start t

/-- Nobody has come yet. The system may have been at work for a while. -/
structure Initial (s : Reception) : Prop where
  desk : s.desk = {}
  callers : s.callers = []
  book : s.book = []

/-- The body that a caller is owed after the report of his run: the payload of the first response
to his request, if it took effect before the report came, or else before his deadline and the
cascade has drained. -/
def Owes (book : Book) (ticket : Gateway.Ticket) (report : Report) (body : Fields) : Prop :=
  ∃ e, response? ticket.id book = some e ∧ e.act.payload = body ∧
    (response? ticket.id (beforeReport ticket.id book) = some e ∨
      report.drained = true ∧ e.moment < ticket.deadline)

/-! ### What is known of a caller -/

/-- The run for the request has not come back. -/
structure Waits (book : Book) (ticket : Gateway.Ticket) : Prop where
  pending : IsPending book ticket.id
  unreported : ¬HasReported book ticket.id

/-- The run has drained without a response. If there is one now that came in time, there is still time
to hear of it. -/
structure Listens (book : Book) (now : Instant) (ticket : Gateway.Ticket) (report : Report) : Prop where
  pending : IsPending book ticket.id
  reported : HasReported book ticket.id
  drained : report.drained = true
  before : response? ticket.id (beforeReport ticket.id book) = none
  heard : ∀ e, response? ticket.id book = some e → (e.moment < ticket.deadline ↔ now < ticket.deadline)

/-- The caller has left with what he is owed. If there is no response, none can come in time. -/
structure HasLeft (book : Book) (now : Instant) (ticket : Gateway.Ticket) (report : Report)
    (result : Except Error Fields) : Prop where
  reported : HasReported book ticket.id
  result : ∃ answer, result = ticket.result report answer ∧
    ∀ body, answer = some body ↔ Owes book ticket report body
  late : response? ticket.id book = none → report.drained = true → ticket.deadline ≤ now

def IsInPhase (book : Book) (now : Instant) (c : Caller) : Prop :=
  match c.phase with
  | .waiting => Waits book c.ticket
  | .listening report => Listens book now c.ticket report
  | .left report result => HasLeft book now c.ticket report result
  | .gone => True

section Phases

variable {book : Book} {now : Instant} {desk : Desk} {e : Entry} {c : Caller}
  {ticket : Gateway.Ticket} {report : Report} {result : Except Error Fields} {body : Fields}

/-- When it is too late for a response, no entry makes a difference to what a caller is owed. -/
theorem owes_append (reported : HasReported book ticket.id)
    (late : response? ticket.id book = none → report.drained = true → ticket.deadline ≤ e.moment) :
    Owes (book ++ [e]) ticket report body ↔ Owes book ticket report body := by
  unfold Owes
  rw [beforeReport_append reported]
  cases responded : response? ticket.id book with
  | some f => rw [response?_append_some responded]
  | none =>
    refine ⟨fun ⟨f, first, isBody, inTime⟩ => ?_, fun ⟨f, first, _⟩ => by cases first⟩
    rcases inTime with before | ⟨drained, early⟩
    · cases responded.symm.trans (response?_of_beforeReport before)
    · -- the new entry is the first response, and it comes after the deadline
      have isLast : f = e := by
        by_cases taken : HasTaken book ticket.id
        · rw [response?_append taken, responded, Option.none_or] at first
          split at first <;> cases first
          rfl
        · cases (response?_append_new taken).symm.trans first
      subst isLast
      exact absurd early (not_lt.mpr (late responded drained))

theorem Waits.append (waits : Waits book ticket) (kept : e.act.discarded? ≠ some ticket.id)
    (unreported : e.act.reported? ≠ some ticket.id) : Waits (book ++ [e]) ticket where
  pending := isPending_append.mpr ⟨.inl waits.pending.taken, waits.pending.kept, kept⟩
  unreported := by
    intro reported
    rcases hasReported_append.mp reported with earlier | now
    · exact waits.unreported earlier
    · exact unreported now

theorem Listens.append (listens : Listens book e.moment ticket report)
    (kept : e.act.discarded? ≠ some ticket.id) :
    Listens (book ++ [e]) e.moment ticket report where
  pending := isPending_append.mpr ⟨.inl listens.pending.taken, listens.pending.kept, kept⟩
  reported := hasReported_append.mpr (.inl listens.reported)
  drained := listens.drained
  before := by
    rw [beforeReport_append listens.reported]
    exact listens.before
  heard := by
    intro f responded
    cases earlier : response? ticket.id book with
    | some g =>
      rw [response?_append_some earlier] at responded
      exact listens.heard f (earlier.trans responded)
    | none =>
      rw [response?_append listens.pending.taken, earlier, Option.none_or] at responded
      split at responded <;> cases responded
      exact Iff.rfl

theorem HasLeft.append (hasLeft : HasLeft book e.moment ticket report result) :
    HasLeft (book ++ [e]) e.moment ticket report result where
  reported := hasReported_append.mpr (.inl hasLeft.reported)
  result := by
    obtain ⟨answer, isResult, isOwed⟩ := hasLeft.result
    refine ⟨answer, isResult, fun body => (isOwed body).trans ?_⟩
    exact (owes_append hasLeft.reported hasLeft.late).symm
  late := by
    intro unanswered
    refine hasLeft.late ?_
    cases earlier : response? ticket.id book with
    | none => rfl
    | some f => cases (response?_append_some earlier _).symm.trans unanswered

/-- What happens at the desk leaves a caller in his phase, unless it is his own request that is
discarded or his own run that has come back. -/
theorem IsInPhase.append (inPhase : IsInPhase book e.moment c)
    (kept : e.act.discarded? ≠ some c.ticket.id) (unreported : e.act.reported? ≠ some c.ticket.id) :
    IsInPhase (book ++ [e]) e.moment c := by
  unfold IsInPhase at inPhase ⊢
  cases phase : c.phase with
  | waiting =>
    rw [phase] at inPhase
    exact inPhase.append kept unreported
  | listening report =>
    rw [phase] at inPhase
    exact inPhase.append kept
  | left report result =>
    rw [phase] at inPhase
    exact inPhase.append
  | gone => trivial

/-- Time passes, but not the deadline of a caller who has still to hear of a response. -/
theorem IsInPhase.tick {later : Instant} (inPhase : IsInPhase book now c) (forward : now ≤ later)
    (prompt : ∀ report, c.phase = .listening report → (response? c.ticket.id book).isSome →
      now < c.ticket.deadline → later < c.ticket.deadline) : IsInPhase book later c := by
  unfold IsInPhase at inPhase ⊢
  cases phase : c.phase with
  | waiting =>
    rw [phase] at inPhase
    exact inPhase
  | listening report =>
    rw [phase] at inPhase
    refine ⟨inPhase.pending, inPhase.reported, inPhase.drained, inPhase.before, ?_⟩
    intro e responded
    rw [inPhase.heard e responded]
    exact ⟨prompt report phase (Option.isSome_of_eq_some responded), forward.trans_lt⟩
  | left report result =>
    rw [phase] at inPhase
    exact ⟨inPhase.reported, inPhase.result,
      fun none drained => (inPhase.late none drained).trans forward⟩
  | gone => trivial

/-- A caller who listens and hears something leaves with what he is owed. -/
theorem Listens.hasLeft (listens : Listens book now ticket report) (describes : Describes book desk)
    (hears : (desk.responseOf ticket.id).isSome ∨ ticket.deadline ≤ now) :
    HasLeft book now ticket report
      (ticket.result report (ticket.afterListening (desk.responseOf ticket.id) now)) := by
  have response := describes.responseOf_eq listens.pending
  refine ⟨listens.reported, ⟨_, rfl, fun body => ?_⟩, fun unanswered _ => ?_⟩
  · unfold Gateway.Ticket.afterListening
    constructor
    · intro answered
      split at answered
      · next early =>
        rw [response] at answered
        obtain ⟨e, first, isBody⟩ := Option.map_eq_some_iff.mp answered
        exact ⟨e, first, isBody, .inr ⟨listens.drained, (listens.heard e first).mpr early⟩⟩
      · cases answered
    · rintro ⟨e, first, rfl, before | ⟨_, early⟩⟩
      · cases listens.before.symm.trans before
      · rw [if_pos ((listens.heard e first).mp early), response, first]
        rfl
  · refine hears.resolve_left ?_
    rw [response, unanswered]
    decide

variable {answer : Option Fields}

/-- A caller who leaves when his run comes back leaves with what he is owed. -/
theorem Waits.hasLeft (waits : Waits book ticket) (describes : Describes book desk)
    (reports : e.act.reported? = some ticket.id) (unnamed : e.act.named? = none)
    (verdict : ticket.afterRun report (desk.responseOf ticket.id) now = .leaves answer) :
    HasLeft (book ++ [e]) now ticket report (ticket.result report answer) := by
  have sameResponse : response? ticket.id (book ++ [e]) = response? ticket.id book :=
    response?_append_other (by simp [unnamed])
  rw [describes.responseOf_eq waits.pending] at verdict
  unfold Gateway.Ticket.afterRun at verdict
  refine ⟨hasReported_append.mpr (.inr reports), ⟨answer, rfl, fun body => ?_⟩, ?_⟩
  · unfold Owes
    rw [beforeReport_append_report waits.unreported reports, sameResponse]
    cases first : response? ticket.id book with
    | some f =>
      rw [first] at verdict
      cases verdict
      exact ⟨fun isBody => ⟨f, rfl, Option.some.inj isBody, .inl rfl⟩,
        fun ⟨g, isFirst, isBody, _⟩ => by cases isFirst; exact congrArg some isBody⟩
    | none =>
      rw [first] at verdict
      simp only [Option.map_none] at verdict
      split at verdict <;> cases verdict
      exact ⟨fun isBody => by (cases isBody), fun ⟨f, isFirst, _⟩ => by (cases isFirst)⟩
  · intro unanswered drained
    rw [← sameResponse, unanswered] at verdict
    simp only [Option.map_none] at verdict
    split at verdict
    · cases verdict
    · next tooLate => exact not_lt.mp fun early => tooLate ⟨drained, early⟩

/-- A caller who does not leave then has a drained cascade and no response. -/
theorem Waits.listens (waits : Waits book ticket) (describes : Describes book desk)
    (reports : e.act.reported? = some ticket.id) (unnamed : e.act.named? = none)
    (kept : e.act.discarded? = none)
    (verdict : ticket.afterRun report (desk.responseOf ticket.id) now = .listens) :
    Listens (book ++ [e]) now ticket report := by
  have sameResponse : response? ticket.id (book ++ [e]) = response? ticket.id book :=
    response?_append_other (by simp [unnamed])
  rw [describes.responseOf_eq waits.pending] at verdict
  unfold Gateway.Ticket.afterRun at verdict
  cases first : response? ticket.id book with
  | some f =>
    rw [first] at verdict
    cases verdict
  | none =>
    rw [first] at verdict
    simp only [Option.map_none] at verdict
    split at verdict
    · next inTime =>
      constructor
      case pending =>
        exact isPending_append.mpr ⟨.inl waits.pending.taken, waits.pending.kept, by simp [kept]⟩
      case reported => exact hasReported_append.mpr (.inr reports)
      case drained => exact inTime.1
      case before => rw [beforeReport_append_report waits.unreported reports, first]
      case heard =>
        intro e responded
        cases (sameResponse.trans first).symm.trans responded
    · cases verdict

end Phases

/-! ### Between the steps -/

/-- The book describes the desk, and all callers are in their phases, one perhaps apart who is just
about to go on. Their requests are different, and the reports are those of their runs. -/
structure IsOrderly (s : Reception) (apart : Option Nat) : Prop where
  describes : Describes s.book s.desk
  known : ∀ c ∈ s.callers, HasTaken s.book c.ticket.id
  distinct : ∀ (n m : Nat) (c d : Caller), s.callers[n]? = some c → s.callers[m]? = some d →
    c.ticket.id = d.ticket.id → n = m
  phases : ∀ (n : Nat) (c : Caller), s.callers[n]? = some c → apart ≠ some n →
    IsInPhase s.book s.now c
  reports : ∀ c ∈ s.callers, ∀ report, c.phase.report? = some report →
    s.system.reportOf c.worker = some report

section Stepping

variable {start s t : Reception} {system : System} {c d : Caller} {n m : Nat} {act : Act}
  {desk taken : Desk} {apart : Option Nat} {report : Report} {phase : Phase} {input : Fields}
  {output : Value} {engine : Engine} {root : Invocation}

theorem IsOrderly.noted (orderly : s.IsOrderly apart) (describes : Describes (s.noted act desk).book desk)
    {still : Option Nat} (frame : ∀ (m : Nat) (d : Caller), s.callers[m]? = some d → still ≠ some m →
      apart ≠ some m ∧ act.discarded? ≠ some d.ticket.id ∧ act.reported? ≠ some d.ticket.id) :
    (s.noted act desk).IsOrderly still where
  describes := describes
  known c inside := hasTaken_append.mpr (.inl (orderly.known c inside))
  distinct := orderly.distinct
  phases m d isCaller elsewhere := by
    obtain ⟨notApart, kept, unreported⟩ := frame m d isCaller elsewhere
    exact (orderly.phases m d isCaller notApart).append kept unreported
  reports := orderly.reports

theorem turned_caller (isCaller : s.callers[n]? = some c)
    (isThere : (s.turned n c phase).callers[m]? = some d) :
    m = n ∧ d = { c with phase } ∨ m ≠ n ∧ s.callers[m]? = some d := by
  by_cases isTurned : n = m
  · subst isTurned
    have inside := (List.getElem?_eq_some_iff.mp isCaller).1
    rw [turned, List.getElem?_set_self inside] at isThere
    exact .inl ⟨rfl, (Option.some.inj isThere).symm⟩
  · rw [turned, List.getElem?_set_ne isTurned] at isThere
    exact .inr ⟨Ne.symm isTurned, isThere⟩

/-- The caller who is apart goes on. -/
theorem IsOrderly.turned (orderly : s.IsOrderly (some n)) (isCaller : s.callers[n]? = some c)
    (inPhase : IsInPhase s.book s.now { c with phase })
    (reports : ∀ report, phase.report? = some report → s.system.reportOf c.worker = some report) :
    (s.turned n c phase).IsOrderly none := by
  have wasThere {m : Nat} {d : Caller} (isThere : (s.turned n c phase).callers[m]? = some d) :
      ∃ e, s.callers[m]? = some e ∧ d.ticket = e.ticket := by
    rcases turned_caller isCaller isThere with ⟨rfl, rfl⟩ | ⟨_, isOld⟩
    · exact ⟨c, isCaller, rfl⟩
    · exact ⟨d, isOld, rfl⟩
  constructor
  case describes => exact orderly.describes
  case known =>
    intro d inside
    obtain ⟨m, isThere⟩ := List.getElem?_of_mem inside
    obtain ⟨e, isOld, same⟩ := wasThere isThere
    exact same ▸ orderly.known e (List.mem_of_getElem? isOld)
  case distinct =>
    intro m k d e isThere isElsewhere sameId
    obtain ⟨d', wasD, sameD⟩ := wasThere isThere
    obtain ⟨e', wasE, sameE⟩ := wasThere isElsewhere
    exact orderly.distinct m k d' e' wasD wasE (by rw [← sameD, ← sameE, sameId])
  case phases =>
    intro m d isThere _
    rcases turned_caller isCaller isThere with ⟨rfl, rfl⟩ | ⟨elsewhere, isOld⟩
    · exact inPhase
    · exact orderly.phases m d isOld fun isIt => elsewhere (Option.some.inj isIt).symm
  case reports =>
    intro d inside report knows
    rcases List.mem_or_eq_of_mem_set inside with isOld | rfl
    · exact orderly.reports d isOld report knows
    · exact reports report knows

/-- The caller who leaves or gives up is the only one whose request is discarded. -/
theorem IsOrderly.closed (orderly : s.IsOrderly apart) (isApart : apart = none ∨ apart = some n)
    (isCaller : s.callers[n]? = some c)
    (inPhase : IsInPhase (s.closed n c phase).book s.now { c with phase })
    (reports : ∀ report, phase.report? = some report → s.system.reportOf c.worker = some report) :
    (s.closed n c phase).IsOrderly none := by
  have taken := orderly.known c (List.mem_of_getElem? isCaller)
  refine (orderly.noted (orderly.describes.discard taken _ _) ?_).turned isCaller inPhase reports
  intro m d isOther notApart
  have elsewhere : n ≠ m := fun same => notApart (congrArg some same)
  refine ⟨?_, fun same => ?_, nofun⟩
  · rcases isApart with rfl | rfl
    · exact nofun
    · exact notApart
  · exact elsewhere (orderly.distinct n m c d isCaller isOther (Option.some.inj same))

theorem IsOrderly.called (orderly : s.IsOrderly none) (offered : operation ∈ methods)
    (input : Fields) : (s.called operation input).IsOrderly none :=
  orderly.noted (orderly.describes.call offered input _) fun _ _ _ _ => ⟨nofun, nofun, nofun⟩

theorem IsOrderly.tick {later : Instant} (orderly : s.IsOrderly none) (forward : s.now ≤ later)
    (prompt : ∀ c ∈ s.callers, ∀ report, c.phase = .listening report →
      (s.desk.responseOf c.ticket.id).isSome → s.now < c.ticket.deadline → later < c.ticket.deadline) :
    ({ s with now := later } : Reception).IsOrderly none where
  describes := orderly.describes
  known := orderly.known
  distinct := orderly.distinct
  phases n c isCaller elsewhere := by
    have inPhase := orderly.phases n c isCaller elsewhere
    refine inPhase.tick forward fun report phase responded => ?_
    refine prompt c (List.mem_of_getElem? isCaller) report phase ?_
    rw [IsInPhase, phase] at inPhase
    rw [orderly.describes.responseOf_eq inPhase.pending, Option.isSome_map]
    exact responded
  reports := orderly.reports

theorem IsOrderly.worked (orderly : s.IsOrderly none)
    (keeps : ∀ (n : Nat) (report : Report), s.system.reportOf n = some report →
      system.reportOf n = some report) : ({ s with system } : Reception).IsOrderly none where
  describes := orderly.describes
  known := orderly.known
  distinct := orderly.distinct
  phases := orderly.phases
  reports c inside report knows := keeps _ _ (orderly.reports c inside report knows)

theorem IsOrderly.reported (orderly : s.IsOrderly none) (isCaller : s.callers[n]? = some c)
    (waits : c.phase = .waiting) (reports : s.system.reportOf c.worker = some report) :
    (s.reported n c report).IsOrderly none := by
  have isWaiting : Waits s.book c.ticket := by
    have inPhase := orderly.phases n c isCaller nofun
    rwa [IsInPhase, waits] at inPhase
  have isApart : (s.noted (.reported c.ticket.id) s.desk).IsOrderly (some n) := by
    refine orderly.noted (orderly.describes.report isWaiting.pending.taken _) ?_
    intro m d isOther notApart
    refine ⟨nofun, nofun, fun same => notApart ?_⟩
    exact congrArg some (orderly.distinct n m c d isCaller isOther (Option.some.inj same))
  have known (other : Report) (isIt : some report = some other) :
      s.system.reportOf c.worker = some other := isIt ▸ reports
  unfold Reception.reported
  cases verdict : c.ticket.afterRun report (s.desk.responseOf c.ticket.id) s.now with
  | leaves answer =>
    have hasLeft := isWaiting.hasLeft (e := ⟨s.now, .reported c.ticket.id, s.desk, s.desk⟩)
      orderly.describes rfl rfl verdict
    exact isApart.closed (.inr rfl) isCaller hasLeft.append known
  | listens =>
    exact isApart.turned isCaller (isWaiting.listens orderly.describes rfl rfl rfl verdict) known

/-- A request that is taken in gets the next number, and the book says so. -/
theorem exists_called_request (takenIn : s.desk.call "request" input = (taken, .ok output)) :
    (s.called "request" input).desk.taken = s.desk.taken + 1 ∧
      ∃ e : Entry, (s.called "request" input).book = s.book ++ [e] ∧
        e.act.taken? = some (requestId (s.desk.taken + 1)) ∧ e.act.reported? = none ∧
          e.act.discarded? = none := by
  rcases s.desk.call_request input with ⟨error, refused⟩ | ⟨_, _, accepted⟩
  · cases takenIn.symm.trans refused
  · rw [called, accepted]
    exact ⟨rfl, _, rfl, rfl, rfl, rfl⟩

/-- The request of a newcomer has a new number, and its run has not come back. -/
theorem newcomer_waits (describes : Describes s.book s.desk)
    (takenIn : s.desk.call "request" input = (taken, .ok output)) (g : Gateway) (path : String) :
    ¬HasTaken s.book (s.newcomer g path input).ticket.id ∧
      Waits (s.called "request" input).book (s.newcomer g path input).ticket := by
  obtain ⟨next, e, isNoted, takes, unreported, kept⟩ := exists_called_request takenIn
  have newId : (s.newcomer g path input).ticket.id = requestId (s.desk.taken + 1) :=
    congrArg requestId next
  have unknown := newId ▸ describes.unknown
  have mentioned := describes.mentioned (s.newcomer g path input).ticket.id
  rw [isNoted]
  refine ⟨unknown, ?pending, ?unreported⟩
  case pending =>
    exact isPending_append.mpr ⟨.inr (newId ▸ takes),
      fun discarded => unknown (mentioned (.inr discarded)), by simp [kept]⟩
  case unreported =>
    rw [hasReported_append, unreported]
    simpa using fun reported => unknown (mentioned (.inl reported))

theorem received_caller {g : Gateway} {path : String}
    (isCaller : (s.received g path input engine root).callers[m]? = some c) :
    s.callers[m]? = some c ∨ m = s.callers.length ∧ c = s.newcomer g path input := by
  by_cases inside : m < s.callers.length
  · exact .inl ((List.getElem?_append_left inside).symm.trans isCaller)
  · have isNew := (List.getElem?_append_right (Nat.le_of_not_lt inside)).symm.trans isCaller
    rw [List.getElem?_singleton] at isNew
    split at isNew <;> cases isNew
    exact .inr ⟨by omega, rfl⟩

/-- Somebody who comes with a request waits for a new run, and the others go on as they did. -/
theorem IsOrderly.received {g : Gateway} {path : String} (orderly : s.IsOrderly none)
    (takenIn : s.desk.call "request" input = (taken, .ok output)) :
    (s.received g path input engine root).IsOrderly none := by
  have still := orderly.called (show "request" ∈ methods by decide) input
  obtain ⟨unknown, waits⟩ := newcomer_waits orderly.describes takenIn g path
  have isOther {m : Nat} {c : Caller} (old : s.callers[m]? = some c) :
      c.ticket.id ≠ (s.newcomer g path input).ticket.id :=
    fun same => unknown (same ▸ orderly.known c (List.mem_of_getElem? old))
  constructor
  case describes => exact still.describes
  case known =>
    intro c inside
    rcases List.mem_append.mp inside with old | isNew
    · exact still.known c old
    · cases List.mem_singleton.mp isNew
      exact waits.pending.taken
  case distinct =>
    intro m k c c' isCaller isCaller' same
    rcases received_caller isCaller with old | ⟨rfl, rfl⟩ <;>
      rcases received_caller isCaller' with old' | ⟨rfl, rfl⟩
    · exact orderly.distinct m k c c' old old' same
    · exact absurd same (isOther old)
    · exact absurd same.symm (isOther old')
    · rfl
  case phases =>
    intro m c isCaller _
    rcases received_caller isCaller with old | ⟨_, rfl⟩
    · exact still.phases m c old nofun
    · exact waits
  case reports =>
    intro c inside report knows
    rcases List.mem_append.mp inside with old | isNew
    · exact System.reportOf_begun (orderly.reports c old report knows) _ _ _
    · cases List.mem_singleton.mp isNew
      cases knows

/-- Whatever happens, the reception stays in order. -/
theorem IsOrderly.step (orderly : s.IsOrderly none) (next : s.Step t) : t.IsOrderly none := by
  cases next with
  | work next => exact orderly.worked fun _ _ reports => next.reportOf reports
  | call offered input => exact orderly.called offered input
  | receive _ _ takenIn _ => exact orderly.received takenIn
  | report isCaller waits reports => exact orderly.reported isCaller waits reports
  | wake isCaller listens hears =>
    have inPhase := orderly.phases _ _ isCaller nofun
    rw [IsInPhase, listens] at inPhase
    refine orderly.closed (.inl rfl) isCaller (inPhase.hasLeft orderly.describes hears).append ?_
    intro other knows
    refine orderly.reports _ (List.mem_of_getElem? isCaller) other ?_
    rw [listens]
    exact knows
  | giveUp isCaller => exact orderly.closed (.inl rfl) isCaller trivial nofun
  | tick later forward prompt => exact orderly.tick forward prompt

theorem Initial.isOrderly (initial : start.Initial) : start.IsOrderly none where
  describes := by
    rw [initial.book, initial.desk]
    exact .empty
  known c inside := by simp [initial.callers] at inside
  distinct n m c d isCaller := by simp [initial.callers] at isCaller
  phases n c isCaller := by simp [initial.callers] at isCaller
  reports c inside := by simp [initial.callers] at inside

theorem Reaches.isOrderly (initial : start.Initial) (reached : start.Reaches s) :
    s.IsOrderly none := by
  induction reached with
  | start => exact initial.isOrderly
  | step _ next ih => exact ih.step next

/-- Every caller gets the first response to his own request that the desk takes, and nothing else. He
leaves with a body exactly if he is owed it, and with a timeout if he is owed none. The first response
to a pending request takes effect. Every other response, and every response to a request that is
unknown or discarded, is refused with an error and changes nothing. What the desk does not take as a
response, for its arguments, changes nothing either. -/
theorem first_response (initial : start.Initial) (reached : start.Reaches s) :
    (∀ c ∈ s.callers, ∀ report result, c.phase = .left report result →
      s.system.reportOf c.worker = some report ∧
      (∀ body, result = .ok body ↔ Owes s.book c.ticket report body) ∧
      ((∀ body, ¬Owes s.book c.ticket report body) → result = .error (c.ticket.unanswered report))) ∧
    ∀ earlier e later, s.book = earlier ++ e :: later →
      (∀ id, e.act.named? = some id →
        (IsPending earlier id → response? id earlier = none → e.IsAccepted id) ∧
        (¬HasTaken earlier id ∨ HasDiscarded earlier id ∨ (response? id earlier).isSome →
          e.IsRefused)) ∧
      (e.act.named? = none → e.act.taken? = none → e.act.discarded? = none → e.after = e.before) := by
  have orderly := reached.isOrderly initial
  refine ⟨fun c inside report result leftWith => ?_, fun earlier e later split => ?_⟩
  · obtain ⟨n, isCaller⟩ := List.getElem?_of_mem inside
    have hasLeft := orderly.phases n c isCaller nofun
    rw [IsInPhase, leftWith] at hasLeft
    obtain ⟨answer, rfl, isOwed⟩ := hasLeft.result
    refine ⟨orderly.reports c inside report (by rw [leftWith]; rfl), fun body => ?_, fun nothing => ?_⟩
    · rw [← isOwed body]
      cases answer <;> simp [Gateway.Ticket.result]
    · cases answer with
      | none => rfl
      | some body => exact absurd ((isOwed body).mp rfl) (nothing body)
  · have fits := orderly.describes.fits earlier e later split
    refine ⟨fun id named => ⟨fits.accepted id named, fun closed => fits.refused id named ?_⟩,
      fun unnamed notTaken => fits.still notTaken unnamed⟩
    rcases closed with unknown | discarded | responded
    · exact .inl fun pending => unknown pending.taken
    · exact .inl fun pending => pending.kept discarded
    · exact .inr responded

/-- The system may work on for any time while nothing happens at the desk. -/
theorem Reaches.work {system : System} (reached : start.Reaches s) (works : s.system.Reaches system) :
    start.Reaches { s with system } := by
  induction works with
  | start => exact reached
  | step _ next ih => exact ih.step (.work next)

end Stepping

end Reception

/-! ### A ferry that is asked for -/

namespace Ferry

open Desk Desk.Book

def gateway : Gateway := { limit := .whole 2 }

def start : Reception := { system := { engine := {} } }

theorem start_initial : start.Initial := ⟨rfl, rfl, rfl⟩

def request : Fields := Gateway.input "/cross" []

def id : String := requestId 1

def root : Invocation :=
  start.system.engine.log.describe requestAction request [("request", .text id)] []

/-- Somebody asks for the ferry, and waits. -/
def asked : Reception :=
  start.received gateway "/cross" request
    { start.system.engine with log := start.system.engine.log.enter root } root

theorem start_reaches_asked : start.Reaches asked :=
  Reception.Reaches.start.step (.receive (by decide +kernel) [] (by rfl) (by rfl))

def passenger : Caller := start.newcomer gateway "/cross" request

/-- No rule listens for the request. -/
def course : List Happening := [.go 0, .go 0, .go 0, .hear 0 (.repository (.ok ()))]

def report : Report where
  root := 1
  state := .drained
  invocations := []
  faults := []
  depthExceeded := false

/-- What the passenger is told of the ferry: when it sails, and more of it. -/
def telling (content : Fields) : Fields := ("request", .text id) :: content

/-- The run has drained, and the passenger listens. -/
def listening : Reception :=
  ({ asked with system := asked.system.after course } : Reception).reported 0 passenger report

theorem start_reaches_listening : start.Reaches listening :=
  (start_reaches_asked.work (System.reaches_after _ course)).step
    (.report (n := 0) (c := passenger) (by rfl) rfl (by rfl))

def listener : Caller := { passenger with phase := .listening report }

/-- After a second some other cascade tells him of the ferry, and yet another of a later one. -/
def told : Reception :=
  (({ listening with now := 1000000000 } : Reception).called "respond"
    (telling [("sails", .int 3)])).called "respond" (telling [("sails", .int 4)])

theorem start_reaches_told : start.Reaches told := by
  have later : start.Reaches { listening with now := 1000000000 } := by
    refine start_reaches_listening.step (.tick _ (by decide) fun c inside _ _ _ _ => ?_)
    cases List.mem_singleton.mp (show c ∈ [listener] from inside)
    decide +kernel
  have first := later.step (.call (show "respond" ∈ methods by decide) (telling [("sails", .int 3)]))
  exact first.step (.call (show "respond" ∈ methods by decide) (telling [("sails", .int 4)]))

/-- The passenger has left. -/
def landed : Reception :=
  told.left 0 listener report (listener.ticket.afterListening (told.desk.responseOf id) told.now)

theorem start_reaches_landed : start.Reaches landed :=
  start_reaches_told.step (.wake (n := 0) (c := listener) (by rfl) rfl (.inl (by rfl)))

theorem first_response_landed :
    (landed.callers.map (·.phase) = [.left report (.ok [("sails", .int 3)])] ∧
      Reception.Owes landed.book listener.ticket report [("sails", .int 3)]) ∧
    ∃ e, landed.book[3]? = some e ∧ e.act.payload = [("sails", .int 4)] ∧ e.IsRefused := by
  have holds := Reception.first_response start_initial start_reaches_landed
  constructor
  · have isOwed := (holds.1 { listener with phase := .left report (.ok [("sails", .int 3)]) }
      (.head _) report _ rfl).2.1 [("sails", .int 3)]
    exact ⟨rfl, isOwed.mp rfl⟩
  · have refused := ((holds.2 (landed.book.take 3) _ (landed.book.drop 4) rfl).1 id rfl).2
    exact ⟨_, rfl, rfl, refused (.inr (.inr rfl))⟩

/-- Two responses come before the run does. The desk does not take the first: one of its arguments is
called as the desk calls itself. -/
def met : Reception :=
  let told := (asked.called "respond" (telling [("sails", .int 3), ("self", .text "ferry")])).called
    "respond" (telling [("sails", .int 4)])
  ({ told with system := told.system.after course } : Reception).reported 0 passenger report

/-- The passenger leaves with the second response. -/
theorem first_response_missed : start.Reaches met ∧
    (beforeReport id met.book).map (·.act.payload) =
      [[("path", .text "/cross")], [("sails", .int 3), ("self", .text "ferry")], [("sails", .int 4)]] ∧
    (∃ e error, met.book[1]? = some e ∧ e.act = .called "respond"
      (telling [("sails", .int 3), ("self", .text "ferry")]) (.error error) ∧ e.after = e.before) ∧
    met.callers.map (·.phase) = [.left report (.ok [("sails", .int 4)])] := by
  refine ⟨?_, rfl, ⟨_, _, rfl, rfl, rfl⟩, rfl⟩
  have first := start_reaches_asked.step
    (.call (show "respond" ∈ methods by decide) (telling [("sails", .int 3), ("self", .text "ferry")]))
  have second := first.step (.call (show "respond" ∈ methods by decide) (telling [("sails", .int 4)]))
  exact (second.work (System.reaches_after _ course)).step
    (.report (n := 0) (c := passenger) (by rfl) rfl (by rfl))

end Ferry

end Choreography
