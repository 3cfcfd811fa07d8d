import Choreography.Proofs.System.Eviction
import Choreography.Proofs.System.Repertoire
import Choreography.Proofs.System.Termination

/-! Nothing starts after a cancellation. From the moment at which a run is to stop it gives nothing
to a where-clause and calls no component any more. The operation that it is waiting for may still
come back and be logged; then the run is cancelled, unless there is nothing left to handle. Only two
things get in the way: what comes back from a component cannot be logged if its causes have been
forgotten meanwhile, and what comes back from a where-clause may be something that cannot be checked.
-/

namespace Choreography

open InvocationLog

namespace System

/-- What can happen after a moment, as one run sees it. Its own turns come later than that, and
between them anything may happen. -/
inductive Late (n : Nat) (moment : Instant) : System → System → Prop where
  | around {s t : System} (next : s.Step t) (elsewhere : t.deedsOf n = s.deedsOf n) :
      Late n moment s t
  | own {s : System} (working : s.workers[n]? = some w) (passed : moment ≤ now)
      (turns : w.run.TurnsAt s.engine now turn) : Late n moment s (s.turned n w turn)

/-- A cause of what a run is calling for is not in the log any more. -/
def LacksCauseFor (s : System) (w : Worker) : Prop :=
  ∃ site left claimed work stage, w.run.point = .dispatching site left claimed work stage ∧
    ∃ id ∈ work.frame.support, ∀ i ∈ s.engine.log.entries, i.id ≠ id

/-- How a run ends that was to stop. It is cancelled; or it drains, if it had nothing to handle; or
what it was waiting for could not be logged, or could not be checked. -/
inductive Ends (n : Nat) (moment : Instant) (registry : RuleRegistry) (s : System) (w : Worker)
    (t : System) (v : Worker) : Prop where
  | cancelled (ended : v.run.hasEnded = true) (state : v.run.cascade.state = .cancelled)
      (busy : w.run.point.asks = false → ¬w.run.IsIdle registry)
  | drained (state : v.run.cascade.state = .drained) (idle : w.run.IsIdle registry)
  | lost (waits : w.run.wait? s.engine = some (.component action input ends))
      (failed : v.run.point = .ended (.error (.described reason)))
      (before : Relation.ReflTransGen (Late n moment) s u) (forgotten : u.LacksCauseFor w)
      (after : Relation.ReflTransGen (Late n moment) u t)
  | brokenOff (waits : w.run.wait? s.engine = some (.clause rule frames ends))
      (failed : v.run.point = .ended (.error error))
      (before : Relation.ReflTransGen (Late n moment) s u) (working : u.workers[n]? = some x)
      (breaksOff : x.run.BreaksOff u.engine frames outcome error turn)
      (after : Relation.ReflTransGen (Late n moment) (u.turned n x turn) t)

/-- What a run does that is to stop. It asks no where-clause and no component. It logs what it was
waiting for, if that comes back, and nothing else. Whatever was logged before stays in the log,
unless a run that has drained forgets its cascade. -/
structure Hushes (n : Nat) (s : System) (w : Worker) (t : System) (v : Worker) : Prop where
  working : t.workers[n]? = some v
  silent : ∃ deeds, t.deedsOf n = s.deedsOf n ++ deeds ∧ ∀ deed ∈ deeds, deed.after.asks = false
  logged : t.loggedBy n = s.loggedBy n ∨
    ∃ action input ends i, w.run.wait? s.engine = some (.component action input ends) ∧
      i.action = action ∧ i.input = input ∧ t.loggedBy n = s.loggedBy n ++ [i]
  kept : ∃ deeds, t.chronicle = s.chronicle ++ deeds ∧ ∀ i ∈ s.engine.log.entries,
    i ∈ t.engine.log.entries ∨ ∃ deed ∈ deeds, deed.before = .saving ∧ i.root ∈ forgotten deed.events

/-- Nothing starts any more in a run that is to stop, and in the end it is cancelled if it has left
something to handle. -/
structure Ceases (n : Nat) (moment : Instant) (s : System) (w : Worker) (t : System) (v : Worker) :
    Prop extends Hushes n s w t v where
  ends : v.run.point.isAtWork = false → Ends n moment s.engine.rules s w t v

/-- Where a run stands that was to stop: it still waits for what it was waiting for, or has come
back from that, or has ended. -/
inductive Winds (n : Nat) (moment : Instant) (registry : RuleRegistry) (s : System) (w : Worker)
    (t : System) (v : Worker) : Prop where
  | waits (asks : w.run.point.asks = true) (like : v.Like w)
      (stopped : v.run.cascade.IsStopped moment) (quiet : t.deedsOf n = s.deedsOf n)
  | goesOn (going : v.run.point.isGoing = true) (silent : v.run.point.asks = false)
      (stopped : v.run.cascade.IsStopped moment)
      (busy : ¬w.run.IsIdle registry → ¬v.run.IsIdle registry)
      (idle : w.run.point.asks = false → w.run.IsIdle registry → v.run.IsIdle registry)
      (drained : v.run.point = .saving → v.run.cascade.state = .drained ∧ v.run.cascade.queue = [])
  | ended (hasEnded : v.run.hasEnded = true) (ends : Ends n moment registry s w t v)

end System

variable {e f : Engine} {c d : Cascade} {p q : Point} {events : List Event} {history : List Invocation}
  {root : InvocationId} {work : Dispatch}

namespace Worker

variable {u v w : Worker} {registry : RuleRegistry}

theorem Like.isIdle_iff (like : v.Like w) : v.run.IsIdle registry ↔ w.run.IsIdle registry := by
  constructor
  · exact fun idle => ⟨like.work.queue ▸ idle.queue, like.point ▸ idle.point⟩
  · exact fun idle => ⟨like.work.queue ▸ idle.queue, like.point ▸ idle.point⟩

end Worker

namespace Point

theorem isGoing_of_asks (asks : p.asks = true) : p.isGoing = true := by
  cases p with
  | enriching site stage => cases stage <;> first | rfl | cases asks
  | dispatching site left claimed work stage => cases stage <;> first | rfl | cases asks
  | next | rules | frames | saving | ended => cases asks

theorem isAtWork_of_asks (asks : p.asks = true) : p.isAtWork = true := by
  cases p with
  | enriching | dispatching => rfl
  | next | rules | frames | saving | ended => cases asks

theorem eq_saving (going : p.isGoing = true) (left : p.isAtWork = false) : p = .saving := by
  cases p with
  | saving => rfl
  | ended => cases going
  | next | rules | enriching | frames | dispatching => cases left

theorem asks_of_ended {r : Run} (ended : r.hasEnded = true) : r.point.asks = false := by
  obtain ⟨c, p⟩ := r
  cases p with
  | ended => rfl
  | next | rules | enriching | frames | dispatching | saving => cases ended

end Point

/-! ### One turn -/

/-- What cannot be logged for a frame rests on something that has been forgotten. -/
theorem Together.exists_lost {log : InvocationLog} {support : List InvocationId}
    (together : Together history root support) (remembers : log.Remembers history)
    (rejected : log.append action input output support = .error reason) :
    ∃ id ∈ support, ∀ i ∈ log.entries, i.id ≠ id := by
  by_contra allHeld
  push Not at allHeld
  have inLog : ∀ id ∈ support, ∃ i ∈ log.entries, i.id = id ∧ i.root = root := by
    intro id inside
    obtain ⟨i, held, isId⟩ := allHeld id inside
    obtain ⟨j, known, sameId, isRoot⟩ := together id inside
    have same := remembers.eq_of_id_eq (remembers.mem_history held) known (isId.trans sameId.symm)
    exact ⟨i, held, isId, same ▸ isRoot⟩
  obtain ⟨i, logged⟩ : ∃ i, log.append action input output support = .ok (log.enter i, i) :=
    remembers.coherent.append_ok inLog
  exact nomatch rejected.symm.trans logged

/-- A run that waits for nothing logs nothing, if whatever it calls is offered. -/
theorem Moves.silent_of_ready (moves : Moves e c p f d q events) (ready : p.asks = false)
    (offered : ∀ site left claimed work pattern patterns made,
      p = .dispatching site left claimed work (.next (pattern :: patterns) made) →
        e.catalogue.has pattern.action = true) : posted events = [] := by
  cases moves with
  | log _ called =>
    cases called with
    | unregistered missing =>
      exact absurd (offered _ _ _ _ _ _ _ rfl) (Bool.eq_false_iff.mp missing)
    | awaited => cases ready
  | drain _ notes | leave _ _ _ notes => exact posted_eq_nil notes
  | enrich _ _ _ silent | answer _ _ _ silent | lose _ _ _ _ silent | dispatch _ _ _ silent
  | breakOff _ _ silent | reject _ _ silent => exact silent
  | save => exact posted_eq_nil (e.retain_isQuiet _)
  | _ => rfl

/-- A run that waits logs at most what it waits for. -/
theorem Moves.logs_of_asks {r : Run} (moves : Moves e r.cascade r.point f d q events)
    (coherent : e.log.Coherent) (asks : r.point.asks = true) : posted events = [] ∨
      ∃ action input ends i, r.wait? e = some (.component action input ends) ∧
        i.action = action ∧ i.input = input ∧ posted events = [i] := by
  obtain ⟨c, p⟩ := r
  cases moves with
  | log _ called logged posts =>
    cases called with
    | unregistered => cases asks
    | awaited ends =>
      obtain ⟨_, _, _, _, rfl, _⟩ := coherent.append_eq_ok logged
      exact .inr ⟨_, _, ends, _, rfl, rfl, rfl, posts⟩
  | leave _ _ _ notes => exact .inl (posted_eq_nil notes)
  | enrich _ _ _ silent | answer _ _ _ silent | breakOff _ _ silent | reject _ _ silent =>
    exact .inl silent
  | _ => first | exact .inl rfl | cases asks

/-- What is in the log stays there, unless a run forgets it that comes back from the repository. -/
theorem Moves.kept_or_forgotten {i : Invocation} (moves : Moves e c p f d q events)
    (coherent : e.log.Coherent) (held : i ∈ e.log.entries) :
    i ∈ f.log.entries ∨ p = .saving ∧ i.root ∈ forgotten events := by
  rcases Moves.kept moves coherent held with kept | ⟨rfl, rfl, isGone⟩
  · exact .inl kept
  · cases moves with
    | save => exact .inr ⟨rfl, (Run.retain_forgotten e _).symm ▸ isGone⟩
    | leave _ busy => cases busy

/-- A run that has not ended has met no error yet. -/
theorem Run.isGoing_lawful : Lawful fun r _ => r.point.isGoing = true ∨ r.hasEnded = true where
  begins e n i limit now := .inl rfl
  cancels holds := holds
  turns {e n w deeds turn} holds turns := by
    have moves := turns.isMove
    obtain ⟨⟨c, p⟩, taken⟩ := w
    rcases turns.lands with lands | isSaving
    · cases lands with
      | goesOn going => exact .inl going
      | brokenOff isRun => exact .inr (isRun ▸ hasEnded_leave _ _ _)
    · cases isSaving
      obtain ⟨f, ⟨d, q⟩, events⟩ := turn
      cases moves with
      | save | fail => exact .inr rfl
      | leave _ busy => cases busy

/-- What a run asks for can be seen from where it stands. -/
theorem Run.wait?_eq_of_asks {r v : Run} (point : v.point = r.point) (asks : r.point.asks = true) :
    v.wait? f = r.wait? e := by
  unfold wait?
  rw [point]
  cases isPoint : r.point with
  | enriching site stage => cases stage <;> rfl
  | dispatching site left claimed work stage => cases stage <;> rfl
  | saving =>
    rw [isPoint] at asks
    cases asks
  | next | rules | frames | ended => rfl

theorem Run.asks_of_clause {r : Run} (waits : r.wait? e = some (.clause rule frames ends)) :
    r.point.asks = true := by
  obtain ⟨c, p⟩ := r
  cases p with
  | enriching site stage => cases stage <;> first | rfl | cases waits
  | dispatching site left claimed work stage => cases stage <;> cases waits
  | next | rules | frames | saving | ended => cases waits

/-- A run that comes back from the repository has ended as it was. -/
theorem Moves.ended_of_saving (moves : Moves e c p f d q events) (saved : p = .saving) :
    (Run.mk d q).hasEnded = true ∧ d.state = c.state := by
  cases saved
  cases moves with
  | save | fail => exact ⟨rfl, rfl⟩
  | leave _ busy => cases busy

namespace System

variable {start s t u : System} {n m : Nat} {v w : Worker} {now moment : Instant} {turn : Turn}
  {registry : RuleRegistry}

/-! ### What happens around a run -/

theorem Late.step (late : Late n moment s t) : s.Step t := by
  cases late with
  | around next => exact next
  | own working _ turns => exact .of_turns working turns.turns

/-- Whatever happens around a run, it is left as it is, or its token is set. -/
theorem Step.worker (next : s.Step t) (working : s.workers[n]? = some w)
    (elsewhere : t.deedsOf n = s.deedsOf n) :
    ∃ v, t.workers[n]? = some v ∧ (v = w ∨ v = w.cancel) := by
  cases next with
  | record => exact ⟨w, working, .inl rfl⟩
  | invoke _ _ _ _ _ limit now => exact ⟨w, begun_worker working _ limit now, .inl rfl⟩
  | process _ limit now => exact ⟨w, begun_worker working _ limit now, .inl rfl⟩
  | cancel root =>
    unfold cancelled
    split
    · next m _ =>
      by_cases isMeant : m = n
      · subst isMeant
        refine ⟨w.cancel, ?_, .inr rfl⟩
        rw [List.getElem?_modify_eq, working]
        rfl
      · exact ⟨w, (List.getElem?_modify_ne _ _ isMeant).trans working, .inl rfl⟩
    · exact ⟨w, working, .inl rfl⟩
  | go isWorker | hear isWorker =>
    rw [deedsOf_turned] at elsewhere
    split at elsewhere
    · simp at elsewhere
    · next isOther => exact ⟨w, turned_other (Ne.symm isOther) working, .inl rfl⟩

/-- What is in the log stays there, unless a run forgets it that comes back from the repository. -/
theorem Step.kept_or_forgotten (next : s.Step t) (coherent : s.engine.log.Coherent) :
    ∃ deeds, t.chronicle = s.chronicle ++ deeds ∧ ∀ i ∈ s.engine.log.entries,
      i ∈ t.engine.log.entries ∨
        ∃ deed ∈ deeds, deed.before = .saving ∧ i.root ∈ forgotten deed.events := by
  rcases next.keeps_or_turns coherent with ⟨u, first, others⟩ | ⟨n, w, turn, _, turns, _, rfl⟩
  · refine ⟨[], ?_, fun i held => .inl ?_⟩
    · rw [List.append_nil]
      rcases others with rfl | second
      · exact first.rests.chronicle
      · exact second.rests.chronicle.trans first.rests.chronicle
    · rcases others with rfl | second
      · exact first.entries i held
      · exact second.entries i (first.entries i held)
  · refine ⟨[w.deed n turn], rfl, fun i held => ?_⟩
    exact (Moves.kept_or_forgotten turns.isMove coherent held).imp_right fun gone =>
      ⟨_, List.mem_singleton_self _, gone⟩

/-- Whatever a run has still to call is offered, once the rules have been validated. -/
theorem Performs.offered (performs : s.Performs e) (validated : e.IsValidated)
    (working : s.workers[n]? = some w) {site : Site} {left : Frames} {claimed : List Firing}
    {work : Dispatch} {pattern : Pattern} {patterns : List Pattern} {made : List Invocation}
    (isPoint : w.run.point = .dispatching site left claimed work (.next (pattern :: patterns) made)) :
    s.engine.catalogue.has pattern.action = true := by
  obtain ⟨isRule, areThens⟩ := performs.mem_thens_of_next working isPoint
  rw [performs.catalogue]
  exact validated _ isRule pattern (areThens pattern List.mem_cons_self)

/-! ### From one moment to the next -/

theorem Hushes.refl (working : s.workers[n]? = some w) : Hushes n s w s w where
  working
  silent := ⟨[], (List.append_nil _).symm, List.forall_mem_nil _⟩
  logged := .inl rfl
  kept := ⟨[], (List.append_nil _).symm, fun _ held => .inl held⟩

theorem Hushes.kept_step (hushes : Hushes n s w t v) (coherent : t.engine.log.Coherent)
    (next : t.Step u) :
    ∃ deeds, u.chronicle = s.chronicle ++ deeds ∧ ∀ i ∈ s.engine.log.entries,
      i ∈ u.engine.log.entries ∨
        ∃ deed ∈ deeds, deed.before = .saving ∧ i.root ∈ forgotten deed.events := by
  obtain ⟨before, first, kept⟩ := hushes.kept
  obtain ⟨after, second, keptToo⟩ := next.kept_or_forgotten coherent
  refine ⟨before ++ after, ?_, fun i held => ?_⟩
  · rw [second, first, List.append_assoc]
  · rcases kept i held with still | ⟨deed, made, gone⟩
    · refine (keptToo i still).imp_right ?_
      rintro ⟨deed, made, gone⟩
      exact ⟨deed, List.mem_append_right _ made, gone⟩
    · exact .inr ⟨deed, List.mem_append_left _ made, gone⟩

/-- A run that has ended is left alone. -/
theorem Ends.later {x : Worker} (ends : Ends n moment registry s w t v) (next : Late n moment t u)
    (like : x.Like v) (state : x.run.cascade.state = v.run.cascade.state) :
    Ends n moment registry s w u x := by
  cases ends with
  | cancelled ended isCancelled busy =>
    exact .cancelled (like.hasEnded_eq.trans ended) (state.trans isCancelled) busy
  | drained isDrained idle => exact .drained (state.trans isDrained) idle
  | lost waits failed before gone after =>
    exact .lost waits (like.point.trans failed) before gone (after.tail next)
  | brokenOff waits failed before working breaksOff after =>
    exact .brokenOff waits (like.point.trans failed) before working breaksOff (after.tail next)

/-- What happens around a run does not keep it from winding down. -/
theorem Winds.around {x : Worker} (winds : Winds n moment registry s w t v) (next : t.Step u)
    (elsewhere : u.deedsOf n = t.deedsOf n) (isWorker : x = v ∨ x = v.cancel) :
    Winds n moment registry s w u x := by
  have state : x.run.cascade.state = v.run.cascade.state := by rcases isWorker with rfl | rfl <;> rfl
  have like : x.Like v := by
    rcases isWorker with rfl | rfl
    · exact .refl x
    · exact v.cancel_like
  have stays (stopped : v.run.cascade.IsStopped moment) : x.run.cascade.IsStopped moment := by
    rcases isWorker with rfl | rfl
    · exact stopped
    · exact .inl rfl
  have sameIdle : x.run.IsIdle registry ↔ v.run.IsIdle registry := like.isIdle_iff
  cases winds with
  | waits asks isLike stopped quiet =>
    exact .waits asks (like.trans isLike) (stays stopped) (elsewhere.trans quiet)
  | goesOn going silent stopped busy idle drained =>
    refine .goesOn (like.point ▸ going) (like.point ▸ silent) (stays stopped) ?_ ?_ ?_
    · exact fun isBusy isIdle => busy isBusy (sameIdle.mp isIdle)
    · exact fun ready isIdle => sameIdle.mpr (idle ready isIdle)
    · rw [like.point, state, like.work.queue]
      exact drained
  | ended hasEnded ends =>
    exact .ended (like.hasEnded_eq.trans hasEnded) (ends.later (.around next elsewhere) like state)

/-- A turn brings a run that is to stop nearer to its end. -/
theorem Winds.own (winds : Winds n moment registry s w t v) (performs : t.Performs e)
    (validated : e.IsValidated) (sameRules : t.engine.rules = registry)
    (late : Relation.ReflTransGen (Late n moment) s t) (working : t.workers[n]? = some v)
    (passed : moment ≤ now) (turns : v.run.TurnsAt t.engine now turn) :
    Winds n moment registry s w (t.turned n v turn) { run := turn.run, taken := v.number } := by
  have moves := turns.turns.isMove
  have orderly := performs.accountable.orderly
  have next : Late n moment t (t.turned n v turn) := .own working passed turns
  subst sameRules
  cases winds with
  | waits asks like stopped quiet =>
    have waiting : v.run.point.asks = true := like.point ▸ asks
    have going : v.run.point.isGoing = true := Point.isGoing_of_asks waiting
    have notSaving : v.run.point ≠ .saving := by
      intro isSaving
      rw [isSaving] at waiting
      cases waiting
    cases turns.windsDown stopped passed going notSaving
      fun _ _ _ _ _ _ _ isPoint => performs.offered validated working isPoint with
    | goesOn going silent stopped busy idle =>
      refine .goesOn going silent stopped (fun isBusy => busy (isBusy ∘ like.isIdle_iff.mp)) ?_ ?_
      · exact fun ready => absurd asks (Bool.eq_false_iff.mp ready)
      · exact Moves.drained_of_saving moves
    | cancelled ended state =>
      exact .ended ended (.cancelled ended state fun ready => absurd asks (Bool.eq_false_iff.mp ready))
    | @lost _ _ _ _ action input _ _ ends _ _ isPoint failed rejected =>
      have grounded := (orderly.grounded v (List.mem_of_getElem? working)).point
      rw [isPoint] at grounded
      have lost := (grounded.1.together _ List.mem_cons_self).exists_lost orderly.sound.log rejected
      have isPointToo := like.point ▸ isPoint
      have waits : w.run.wait? s.engine = some (.component action input ends) := by
        rw [Run.wait?, isPointToo]
      refine .ended ?_ (.lost waits failed late ⟨_, _, _, _, _, isPointToo, lost⟩ (.single next))
      unfold Run.hasEnded
      rw [failed]
    | brokenOff breaksOff =>
      have failed := breaksOff.point_eq
      obtain ⟨heard, flawed, hearing⟩ := breaksOff
      have waits : w.run.wait? s.engine = some (.clause _ _ _) :=
        (Run.wait?_eq_of_asks like.point.symm waiting).trans heard
      refine .ended ?_ (.brokenOff waits failed late working (.hear heard flawed hearing) .refl)
      unfold Run.hasEnded
      rw [failed]
  | goesOn going silent stopped busy idle drained =>
    by_cases isSaving : v.run.point = .saving
    · obtain ⟨state, empty⟩ := drained isSaving
      have isIdle : v.run.IsIdle t.engine.rules := by
        refine ⟨empty ▸ List.forall_mem_nil _, ?_⟩
        rw [isSaving]
        trivial
      obtain ⟨ended, sameState⟩ := Moves.ended_of_saving moves isSaving
      have wasIdle : w.run.IsIdle _ := by_contra fun isBusy => busy isBusy isIdle
      exact .ended ended (.drained (sameState.trans state) wasIdle)
    · cases turns.windsDown stopped passed going isSaving
        fun _ _ _ _ _ _ _ => performs.offered validated working with
      | goesOn going silentToo stopped stillBusy stillIdle =>
        refine .goesOn going silentToo stopped (fun isBusy => stillBusy (busy isBusy)) ?_ ?_
        · exact fun ready isIdle => stillIdle silent (idle ready isIdle)
        · exact Moves.drained_of_saving moves
      | cancelled ended state isBusy =>
        exact .ended ended (.cancelled ended state fun ready isIdle => isBusy silent (idle ready isIdle))
      | lost isPoint =>
        rw [isPoint] at silent
        cases silent
      | brokenOff breaksOff =>
        obtain ⟨waits⟩ := breaksOff
        exact absurd (Run.asks_of_clause waits) (Bool.eq_false_iff.mp silent)
  | ended hasEnded => exact absurd hasEnded (Bool.eq_false_iff.mp turns.turns.not_hasEnded)

theorem Hushes.around {x : Worker} (hushes : Hushes n s w t v) (performs : t.Performs e)
    (next : t.Step u) (elsewhere : u.deedsOf n = t.deedsOf n) (isNow : u.workers[n]? = some x) :
    Hushes n s w u x where
  working := isNow
  silent := elsewhere ▸ hushes.silent
  logged := by
    have same : u.loggedBy n = t.loggedBy n := congrArg (·.flatMap fun d => posted d.events) elsewhere
    rw [same]
    exact hushes.logged
  kept := hushes.kept_step performs.accountable.orderly.sound.coherent next

/-- A turn of a run that is to stop starts nothing. -/
theorem Hushes.own (hushes : Hushes n s w t v) (winds : Winds n moment registry s w t v)
    (later : Winds n moment registry s w (t.turned n v turn) { run := turn.run, taken := v.number })
    (performs : t.Performs e) (validated : e.IsValidated)
    (turns : v.run.Turns t.engine turn) :
    Hushes n s w (t.turned n v turn) { run := turn.run, taken := v.number } := by
  have moves := turns.isMove
  have coherent := performs.accountable.orderly.sound.coherent
  have working := hushes.working
  have unasked : turn.run.point.asks = false := by
    cases later with
    | waits _ _ _ quiet =>
      obtain ⟨deeds, isDeeds, _⟩ := hushes.silent
      rw [deedsOf_turned, if_pos rfl, isDeeds] at quiet
      simp at quiet
    | goesOn _ silent => exact silent
    | ended hasEnded => exact Point.asks_of_ended hasEnded
  constructor
  case working => exact turned_mover working
  case silent =>
    obtain ⟨deeds, isDeeds, silent⟩ := hushes.silent
    refine ⟨deeds ++ [v.deed n turn], ?_, ?_⟩
    · rw [deedsOf_turned, if_pos rfl, isDeeds, List.append_assoc]
    · exact List.forall_mem_append.mpr ⟨silent, List.forall_mem_singleton.mpr unasked⟩
  case logged =>
    rw [loggedBy_turned]
    cases winds with
    | waits asks like stopped quiet =>
      have soFar : t.loggedBy n = s.loggedBy n := congrArg (·.flatMap fun d => posted d.events) quiet
      rw [soFar]
      rcases moves.logs_of_asks coherent (like.point ▸ asks) with
        none | ⟨action, input, ends, i, waits, logs⟩
      · rw [none, List.append_nil]
        exact .inl rfl
      · obtain ⟨isAction, isInput, one⟩ := logs
        have waited : w.run.wait? s.engine = some (.component action input ends) :=
          (Run.wait?_eq_of_asks like.point.symm (like.point ▸ asks)).trans waits
        exact .inr ⟨action, input, ends, i, waited, isAction, isInput, one ▸ rfl⟩
    | goesOn going silent =>
      have none := moves.silent_of_ready silent
        fun _ _ _ _ _ _ _ => performs.offered validated working
      rw [none, List.append_nil]
      exact hushes.logged
    | ended hasEnded => exact absurd hasEnded (Bool.eq_false_iff.mp turns.not_hasEnded)
  case kept => exact hushes.kept_step coherent (.of_turns working turns)

theorem Winds.begin (going : w.run.point.isGoing = true) (atWork : w.run.point.isAtWork = true)
    (stopped : w.run.cascade.IsStopped moment) : Winds n moment registry s w s w := by
  cases asks : w.run.point.asks with
  | true => exact .waits asks (.refl w) stopped rfl
  | false =>
    refine .goesOn going asks stopped id (fun _ => id) fun isSaving => ?_
    rw [isSaving] at atWork
    cases atWork

/-- A run that has left its work loop has ended, or is about to. -/
theorem Winds.ends (winds : Winds n moment registry s w t v) (left : v.run.point.isAtWork = false) :
    Ends n moment registry s w t v := by
  cases winds with
  | waits asks like =>
    rw [Point.isAtWork_of_asks (like.point ▸ asks)] at left
    cases left
  | goesOn going _ _ busy _ drained =>
    have isSaving : v.run.point = .saving := Point.eq_saving going left
    obtain ⟨state, empty⟩ := drained isSaving
    refine .drained state (by_contra fun isBusy => busy isBusy ⟨empty ▸ List.forall_mem_nil _, ?_⟩)
    rw [isSaving]
    trivial
  | ended _ ends => exact ends

/-- Whatever happens after it was to stop, a run winds down. -/
theorem Performs.winds (performs : s.Performs e) (validated : e.IsValidated)
    (working : s.workers[n]? = some w) (begins : Winds n moment e.rules s w s w)
    (late : Relation.ReflTransGen (Late n moment) s t) :
    t.Performs e ∧ ∃ v, Hushes n s w t v ∧ Winds n moment e.rules s w t v := by
  induction late with
  | refl => exact ⟨performs, w, .refl working, begins⟩
  | tail late next ih =>
    obtain ⟨performs, v, hushes, winds⟩ := ih
    refine ⟨(performs_preserved e).step performs next.step, ?_⟩
    cases next with
    | around next elsewhere =>
      obtain ⟨x, isNow, same⟩ := next.worker hushes.working elsewhere
      exact ⟨x, hushes.around performs next elsewhere isNow, winds.around next elsewhere same⟩
    | own isWorker passed turns =>
      obtain rfl := Option.some.inj (hushes.working.symm.trans isWorker)
      have later := winds.own performs validated performs.rules late isWorker passed turns
      exact ⟨_, hushes.own winds later performs validated turns.turns, later⟩

/-- From the moment at which a run is to stop, because its token is set or because its deadline has
passed, nothing starts in it any more. It asks no where-clause and no component. At most the call
that it was waiting for is logged, and whatever had been logged before stays in the log, as long
as no run that has drained forgets it. If all that it waits for comes back the run leaves its work
loop. It is cancelled then, unless it had nothing left to handle, or unless the causes of the call
that it was waiting for have been forgotten meanwhile, or its where-clause returns something that
cannot be checked. -/
theorem nothing_starts_once_stopped {notes : List LogRecord} (initial : start.Initial)
    (registered : start.engine.rules.Reachable) (valid : e.validate = (start.engine, notes, .ok ()))
    (reached : start.Reaches s) (working : s.workers[n]? = some w)
    (atWork : w.run.point.isAtWork = true) (stopped : w.run.cascade.IsStopped moment) :
    (∀ t, Relation.ReflTransGen (Late n moment) s t → ∃ v, Ceases n moment s w t v) ∧
      ∀ course : Nat → System, course 0 = s → (∀ k, Late n moment (course k) (course (k + 1))) →
        IsServed n course →
          ∃ k v, Ceases n moment s w (course k) v ∧ v.run.point.isAtWork = false := by
  have performs : s.Performs start.engine := reached.performs initial registered
  have validated := Engine.isValidated_of_validate valid
  have going : w.run.point.isGoing = true := by
    rcases (reached.obeys Run.isGoing_lawful initial).obeys n w working with going | ended
    · exact going
    · exact absurd ended (Bool.eq_false_iff.mp (Run.hasEnded_of_isAtWork atWork))
  have ceases : ∀ t, Relation.ReflTransGen (Late n moment) s t → ∃ v, Ceases n moment s w t v := by
    intro t late
    obtain ⟨_, v, hushes, winds⟩ :=
      performs.winds validated working (.begin going atWork stopped) late
    exact ⟨v, hushes, performs.rules ▸ winds.ends⟩
  refine ⟨ceases, fun course begins goesOn served => ?_⟩
  have late : ∀ k, Relation.ReflTransGen (Late n moment) s (course k) := by
    intro k
    induction k with
    | zero => exact begins ▸ .refl
    | succ k ih => exact ih.tail (goesOn k)
  have sinks := reached.sinks initial working
  obtain ⟨last, still⟩ := sinks.exists_last_deed begins fun k => (goesOn k).step
  obtain ⟨v, ceasing⟩ := ceases _ (late last)
  refine ⟨last, v, ceasing, Bool.eq_false_iff.mpr fun stillAtWork => ?_⟩
  obtain ⟨later, isLater, moved⟩ := served last v ceasing.working stillAtWork
  exact moved (still later isLater)

/-! ### Schedules that come after a moment -/

theorem Late.of_turned (working : s.workers[m]? = some v) (passed : moment ≤ now)
    (turns : v.run.TurnsAt s.engine now turn) (n : Nat) : Late n moment s (s.turned m v turn) := by
  by_cases isOwn : m = n
  · exact isOwn ▸ .own working passed turns
  · exact .around (.of_turns working turns.turns) (deedsOf_turned_other (Ne.symm isOwn))

theorem Late.of_happen {happening : Happening} (happens : s.happen? happening = some t) (n : Nat) :
    Late n 0 s t := by
  have next := Step.of_happen happens
  cases happening with
  | record =>
    rw [happen?] at happens
    split at happens <;> cases happens
    exact .around next rfl
  | process =>
    obtain ⟨i, _, rfl⟩ := Option.map_eq_some_iff.mp happens
    exact .around next rfl
  | cancel root =>
    cases happens
    refine .around next ?_
    rw [deedsOf, (s.cancelled_rests root).chronicle, ← deedsOf]
  | go m =>
    obtain ⟨w, working, moved⟩ := Option.bind_eq_some_iff.mp happens
    split at moved
    · next free =>
      cases moved
      exact .of_turned working (le_refl 0) (.step (Option.isNone_iff_eq_none.mp free.1) free.2) n
    · cases moved
  | hear m reply =>
    obtain ⟨w, working, heard⟩ := Option.bind_eq_some_iff.mp happens
    obtain ⟨wait, waits, moved⟩ := Option.bind_eq_some_iff.mp heard
    split at moved
    · next answered =>
      cases moved
      exact .of_turned working (le_refl 0) (.resume waits answered) n
    · cases moved

/-- A schedule comes after the moment at which all of it happens. -/
theorem late_after (s : System) (schedule : List Happening) (n : Nat) :
    Relation.ReflTransGen (Late n 0) s (s.after schedule) := by
  have general (t : System) (follows : s.follow? schedule = some t) :
      Relation.ReflTransGen (Late n 0) s t := by
    induction schedule generalizing s with
    | nil =>
      cases follows
      exact .refl
    | cons happening schedule ih =>
      obtain ⟨u, happens, later⟩ := Option.bind_eq_some_iff.mp follows
      exact .head (.of_happen happens n) (ih u later)
  unfold after
  cases follows : s.follow? schedule with
  | none => exact .refl
  | some t => exact general t follows

end System

/-! ### A bell that stops its own cascade -/

namespace Peal

def door : List Pattern := [{ action := ⟨"Door", "open"⟩, inputs := [] }]

def hall : List Pattern := [{ action := ⟨"Hall", "light"⟩, inputs := [] }]

/-- When the door is opened the hall is lit. -/
def light : Rule where
  name := "light"
  whens := door
  thens := hall

/-- It is lit once more, unless somebody thinks better of it. -/
def relight : Rule where
  name := "relight"
  whens := door
  thens := hall
  enrich := some []

/-- When the hall is lit the bell rings, and then the chime strikes. -/
def ring : Rule where
  name := "ring"
  whens := hall
  thens :=
    [{ action := ⟨"Bell", "ring"⟩, inputs := [] }, { action := ⟨"Chime", "strike"⟩, inputs := [] }]

def engine : Engine where
  catalogue :=
    { operations := [⟨⟨"Door", "open"⟩, .action⟩, ⟨⟨"Hall", "light"⟩, .action⟩,
        ⟨⟨"Bell", "ring"⟩, .action⟩, ⟨⟨"Chime", "strike"⟩, .action⟩] }
  rules := (({} : RuleRegistry).registerAll [.ok light, .ok relight, .ok ring]).1
  limits := { retention := some 0 }

def start : System where
  engine := engine.validate.1

theorem start_initial : start.Initial where
  log := .start
  fired := rfl
  firedByRoot := rfl
  active := rfl
  workers := rfl
  chronicle := rfl

theorem start_registered : start.engine.rules.Reachable :=
  (RuleRegistry.Reachable.empty.registerAll _).freeze

theorem engine_validate : engine.validate = (start.engine, [], .ok ()) := rfl

/-- The hall has been lit, and a where-clause is asked whether to do so again. -/
def lit : System :=
  start.after [.record ⟨"Door", "open"⟩ [] [], .process 0, .go 0, .go 0, .go 0, .go 0, .go 0,
    .hear 0 (.component (.finished (.ok .null))), .go 0, .go 0, .go 0]

/-- Meanwhile another run of the cascade has made the bell ring, and the bell cancels it. -/
def stopping : System := lit.after (.process 1 :: List.replicate 5 (.go 1) ++ [.cancel 1])

theorem start_reaches : start.Reaches stopping := (start.reaches_after _).trans (lit.reaches_after _)

/-- The bell has rung, and the chime does not strike. -/
def silenced : System := stopping.after [.hear 1 (.component (.finished (.ok .null))), .go 1]

theorem nothing_starts_silenced :
    (∃ w ∈ stopping.workers[1]?, w.run.cascade.cancelled = true ∧
        ∃ v, System.Ceases 1 0 stopping w silenced v) ∧
      (silenced.reportOf 1).map (·.state) = some .cancelled ∧
      (silenced.loggedBy 1).map (·.action) = [⟨"Bell", "ring"⟩] := by
  refine ⟨?_, by decide +kernel, by decide +kernel⟩
  have rings : ∃ w ∈ stopping.workers[1]?, w.run.cascade.cancelled = true ∧
      w.run.point.isAtWork = true := by decide +kernel
  obtain ⟨w, working, isSet, atWork⟩ := rings
  have stopped : w.run.cascade.IsStopped 0 := .inl isSet
  have ceases := (System.nothing_starts_once_stopped start_initial start_registered engine_validate
    start_reaches working atWork stopped).1
  exact ⟨w, working, isSet, ceases silenced (stopping.late_after _ 1)⟩

/-- The first run thinks better of it, drains, and forgets the cascade before the bell has rung. -/
def overtaken : System :=
  stopping.after (.hear 0 (.clause (.finished (.ok (.frames [])))) :: List.replicate 6 (.go 0) ++
    [.hear 0 (.repository (.ok ())), .hear 1 (.component (.finished (.ok .null)))])

/-- The second run has not called the chime, but it is not cancelled. -/
theorem ringing_not_cancelled : start.Reaches stopping ∧
    Relation.ReflTransGen (System.Late 1 0) stopping overtaken ∧
      (∃ w ∈ stopping.workers[1]?, w.run.cascade.cancelled = true ∧ w.run.point.isAtWork = true ∧
        ¬w.run.IsIdle stopping.engine.rules) ∧
      ∃ w ∈ overtaken.workers[1]?, w.run.hasEnded = true ∧ w.run.cascade.state ≠ .cancelled :=
  ⟨start_reaches, stopping.late_after _ 1, by decide +kernel, by decide +kernel⟩

end Peal

end Choreography
