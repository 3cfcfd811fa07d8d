import Choreography.Await
import Choreography.Proofs.Run.Stopping

/-! What ends a wait. Four things can end it. The task finishes, the limit of the wait lapses, the
deadline of the cascade passes, or the token of the cascade is set. If no two of them come at the same
moment, the one that comes first decides how the wait ends, although the limit and the deadline are
waited for as one and told apart only afterwards. -/

namespace Choreography

/-- What can end a wait. -/
inductive WaitEnding where
  | finish
  | lapse
  | deadline
  | token

/-- When the things come that can end a wait which begins now, if they ever do. -/
def Cascade.comes (c : Cascade) (limit : Option Seconds) (now : Instant) (p : Prospect α) :
    WaitEnding → Option Instant
  | .finish => p.finishes.map (·.1)
  | .lapse => limit.map fun l => now + max 0 l.nanoseconds
  | .deadline => c.deadline
  | .token => p.token

namespace WaitEnding

variable {comes : WaitEnding → Option Instant} {ending other : WaitEnding} {moment later : Instant}

/-- No two things come at the same moment. -/
def Apart (comes : WaitEnding → Option Instant) : Prop :=
  ∀ ending other moment, comes ending = some moment → comes other = some moment → ending = other

/-- What comes first, and when. -/
structure IsFirst (comes : WaitEnding → Option Instant) (ending : WaitEnding) (moment : Instant) :
    Prop where
  happens : comes ending = some moment
  first : ∀ other later, comes other = some later → moment ≤ later

theorem IsFirst.lt (isFirst : IsFirst comes ending moment) (apart : Apart comes)
    (differs : ending ≠ other) (isLater : comes other = some later) : moment < later := by
  refine Int.lt_iff_le_and_ne.mpr ⟨isFirst.first other later isLater, ?_⟩
  rintro rfl
  exact differs (apart ending other moment isFirst.happens isLater)

theorem IsFirst.eq (isFirst : IsFirst comes ending moment) (apart : Apart comes)
    (same : IsFirst comes other later) : ending = other := by
  have sameMoment : moment = later :=
    Int.le_antisymm (isFirst.first other later same.happens) (same.first ending moment isFirst.happens)
  exact apart ending other moment isFirst.happens (sameMoment ▸ same.happens)

end WaitEnding

open WaitEnding

/-- A wait that was ended by something. -/
def Waited.EndedBy (w : Waited α) (c : Cascade) (p : Prospect α) : WaitEnding → Prop
  | .finish => p.finishes = some (w.now, w.result) ∧ w.cascade = c ∧ w.progress = .finished
  | .lapse => w.result = .error (.plain .taskTimeout "") ∧ w.cascade = c ∧ w.progress = .dropped
  | .deadline | .token =>
    w.result = .error c.stopped ∧ w.cascade = c.cancel ∧ w.progress = .dropped

section Earlier

variable {a b : Option Instant} {bound moment : Instant}

theorem mem_of_earlier_eq_some (isEarlier : earlier a b = some moment) :
    a = some moment ∨ b = some moment := by
  cases a with
  | none => exact .inr isEarlier
  | some first =>
    cases b with
    | none => exact .inl isEarlier
    | some second =>
      cases isEarlier
      rcases Int.le_total first second with le | le
      · exact .inl (congrArg some (Int.min_eq_left le).symm)
      · exact .inr (congrArg some (Int.min_eq_right le).symm)

theorem forall_mem_earlier :
    (∀ moment ∈ earlier a b, bound ≤ moment) ↔
      (∀ moment ∈ a, bound ≤ moment) ∧ ∀ moment ∈ b, bound ≤ moment := by
  cases a with
  | none => simp [earlier]
  | some first =>
    cases b with
    | none => simp [earlier]
    | some second => simp [earlier]

theorem earlier_eq_none : earlier a b = none ↔ a = none ∧ b = none := by
  cases a with
  | none => simp [earlier]
  | some first => cases b <;> simp [earlier]

end Earlier

namespace Cascade

variable {c : Cascade} {limit : Option Seconds} {now moment : Instant} {p : Prospect α}

/-! ### Looking at the clock -/

theorem IsStopped.check_eq_cancel (stopped : c.IsStopped now) : c.check now = c.cancel := by
  unfold Cascade.check
  split
  · rfl
  · next inTime =>
    rcases stopped with isSet | late
    · rw [cancel, ← isSet]
    · exact absurd (remaining_eq_zero.mpr late) inTime

theorem check_of_not_stopped (free : ¬c.IsStopped now) : c.check now = c :=
  if_neg fun late => free (.inr (remaining_eq_zero.mp late))

theorem endWait_woken_of_stopped (stopped : c.IsStopped moment) :
    c.endWait moment (.woken : Outcome α) = (.error c.stopped, c.cancel) := by
  unfold endWait
  dsimp only
  rw [if_pos (check_cancelled.mpr stopped), stopped.check_eq_cancel]
  rfl

theorem endWait_woken_of_not_stopped (free : ¬c.IsStopped moment) :
    c.endWait moment (.woken : Outcome α) = (.error (.plain .taskTimeout ""), c) := by
  have unset : ¬c.cancelled = true := fun isSet => free (.inl isSet)
  unfold endWait
  dsimp only
  rw [check_of_not_stopped free, if_neg unset]

/-- The end of the time of a cascade that is not to stop is its deadline. -/
theorem waitEnd_of_not_stopped (free : ¬c.IsStopped now) (p : Prospect α) :
    c.waitEnd limit now = earlier (c.comes limit now p .lapse) (c.comes limit now p .deadline) := by
  have isDeadline : (c.remaining now).map (now + ·) = c.deadline := by
    unfold remaining
    cases isDeadline : c.deadline with
    | none => rfl
    | some deadline =>
      have inTime : now ≤ deadline :=
        (Int.not_le.mp fun late => free (.inr ⟨deadline, isDeadline, late⟩)).le
      rw [Option.map_some, Option.map_some, Int.max_eq_right (Int.sub_nonneg_of_le inTime),
        Int.add_comm, Int.sub_add_cancel]
  rw [waitEnd, isDeadline]
  rfl

theorem hasCome_eq_false : hasCome later now = false ↔ ∀ moment ∈ later, now < moment := by
  cases later <;> simp [hasCome]

/-! ### How a wait ends -/

/-- The moment at which the first thing comes, if anything ever does. -/
def firstOf (comes : WaitEnding → Option Instant) : Option Instant :=
  earlier (earlier (earlier (comes .lapse) (comes .deadline)) (comes .token)) (comes .finish)

theorem exists_isFirst {comes : WaitEnding → Option Instant} (isFirst : firstOf comes = some moment) :
    ∃ ending, IsFirst comes ending moment := by
  have least : ∀ other later, comes other = some later → moment ≤ later := by
    have bound : ∀ later ∈ firstOf comes, moment ≤ later := by
      intro later isLater
      exact (Option.some.inj (isFirst.symm.trans isLater)).le
    simp only [firstOf, forall_mem_earlier] at bound
    obtain ⟨⟨⟨lapse, deadline⟩, token⟩, finish⟩ := bound
    intro other
    cases other with
    | finish => exact finish
    | lapse => exact lapse
    | deadline => exact deadline
    | token => exact token
  rcases mem_of_earlier_eq_some isFirst with isFirst | isFinish
  · rcases mem_of_earlier_eq_some isFirst with isFirst | isToken
    · rcases mem_of_earlier_eq_some isFirst with isLapse | isDeadline
      · exact ⟨.lapse, isLapse, least⟩
      · exact ⟨.deadline, isDeadline, least⟩
    · exact ⟨.token, isToken, least⟩
  · exact ⟨.finish, isFinish, least⟩

theorem firstOf_eq_none {comes : WaitEnding → Option Instant} (never : firstOf comes = none)
    (ending : WaitEnding) : comes ending = none := by
  simp only [firstOf, earlier_eq_none] at never
  obtain ⟨⟨⟨lapse, deadline⟩, token⟩, finish⟩ := never
  cases ending with
  | finish => exact finish
  | lapse => exact lapse
  | deadline => exact deadline
  | token => exact token

/-- A wait as it stands at the moment at which it ends. -/
def waitedAt (c : Cascade) (limit : Option Seconds) (now : Instant) (p : Prospect α)
    (moment : Instant) : Waited α :=
  let outcome := outcomeAt p (c.waitEnd limit now) now moment
  let (result, c) := (if hasCome p.token moment then c.cancel else c).endWait moment outcome
  { result, cascade := c, now := moment, progress := outcome.progress }

/-- A wait that has begun ends at the moment at which the first thing comes. -/
theorem await_of_not_stopped (free : ¬c.IsStopped now) (patient : p.givesUp = none) :
    c.await limit now p = (firstOf (c.comes limit now p)).map (c.waitedAt limit now p) := by
  unfold await
  rw [patient, if_neg (by simp [hasCome]), beginWait_of_not_stopped free, firstOf,
    ← waitEnd_of_not_stopped free p]
  rfl

theorem await_of_stopped (stopped : c.IsStopped now) (patient : p.givesUp = none) :
    c.await limit now p = some ⟨.error c.stopped, c.cancel, now, .notBegun⟩ := by
  unfold await
  rw [patient, if_neg (by simp [hasCome]), stopped.beginWait, stopped.check_eq_cancel]
  rfl

/-- A task that finishes later is not waited for any longer. -/
theorem outcomeAt_of_unfinished (patient : p.givesUp = none)
    (unfinished : ∀ finish ∈ p.finishes, moment < finish.1) (ends : Option Instant) :
    outcomeAt p ends now moment = .woken := by
  unfold outcomeAt
  rw [patient, if_neg (by simp [hasCome])]
  cases finishes : p.finishes with
  | none => rfl
  | some finish =>
    have later : ¬finish.1 ≤ moment := Int.not_le.mpr (unfinished finish finishes)
    exact if_neg fun finished => later finished.1

/-- A task that finishes in time gives its result. -/
theorem outcomeAt_of_finished {result : Except Error α} {ends : Option Instant}
    (patient : p.givesUp = none) (finished : p.finishes = some (moment, result))
    (inTime : hasCome ends moment = false) : outcomeAt p ends now moment = .finished result := by
  unfold outcomeAt
  rw [patient, if_neg (by simp [hasCome]), finished]
  exact if_pos ⟨Int.le_refl moment, .inr (by rw [inTime]; rfl)⟩

section First

variable (free : ¬c.IsStopped now) (patient : p.givesUp = none)
  (apart : Apart (c.comes limit now p)) {ending : WaitEnding}
  (isFirst : IsFirst (c.comes limit now p) ending moment)

include apart isFirst

theorem unfinished_of_isFirst (differs : ending ≠ .finish) :
    ∀ finish ∈ p.finishes, moment < finish.1 := by
  intro finish finishes
  exact isFirst.lt apart differs (congrArg (Option.map Prod.fst) finishes)

theorem unset_of_isFirst (differs : ending ≠ .token) : hasCome p.token moment = false :=
  hasCome_eq_false.mpr fun _ isToken => isFirst.lt apart differs isToken

include free

theorem not_stopped_of_isFirst (differs : ending ≠ .deadline) : ¬c.IsStopped moment := by
  rintro (isSet | ⟨deadline, isDeadline, late⟩)
  · exact free (.inl isSet)
  · exact absurd late (Int.not_le.mpr (isFirst.lt apart differs isDeadline))

include patient

/-- What comes first decides how the wait ends. -/
theorem endedBy_of_isFirst : (c.waitedAt limit now p moment).EndedBy c p ending := by
  cases ending with
  | finish =>
    obtain ⟨⟨finish, result⟩, finished, rfl⟩ := Option.map_eq_some_iff.mp isFirst.happens
    have inTime : hasCome (c.waitEnd limit now) finish = false := by
      rw [waitEnd_of_not_stopped free p, hasCome_eq_false]
      intro later isLater
      rcases mem_of_earlier_eq_some isLater with isLapse | isDeadline
      · have differs : WaitEnding.finish ≠ .lapse := nofun
        exact isFirst.lt apart differs isLapse
      · have differs : WaitEnding.finish ≠ .deadline := nofun
        exact isFirst.lt apart differs isDeadline
    rw [waitedAt, outcomeAt_of_finished patient finished inTime, unset_of_isFirst apart isFirst nofun,
      if_neg Bool.false_ne_true]
    exact ⟨finished, rfl, rfl⟩
  | lapse =>
    have unfinished := unfinished_of_isFirst apart isFirst nofun
    have free := not_stopped_of_isFirst free apart isFirst nofun
    rw [waitedAt, outcomeAt_of_unfinished patient unfinished, unset_of_isFirst apart isFirst nofun,
      if_neg Bool.false_ne_true, endWait_woken_of_not_stopped free]
    exact ⟨rfl, rfl, rfl⟩
  | deadline =>
    have unfinished := unfinished_of_isFirst apart isFirst nofun
    have stopped : c.IsStopped moment := .inr ⟨moment, isFirst.happens, Int.le_refl moment⟩
    rw [waitedAt, outcomeAt_of_unfinished patient unfinished, unset_of_isFirst apart isFirst nofun,
      if_neg Bool.false_ne_true, endWait_woken_of_stopped stopped]
    exact ⟨rfl, rfl, rfl⟩
  | token =>
    have unfinished := unfinished_of_isFirst apart isFirst nofun
    have isToken : p.token = some moment := isFirst.happens
    have isSet : hasCome p.token moment = true := by simp [hasCome, isToken]
    have stopped : c.cancel.IsStopped moment := .inl rfl
    rw [waitedAt, outcomeAt_of_unfinished patient unfinished, if_pos isSet,
      endWait_woken_of_stopped stopped]
    exact ⟨rfl, rfl, rfl⟩

end First

/-- A cascade that is to stop begins no task. Otherwise the task is waited for until the first thing
comes that ends the wait, and the wait ends as this has it; if nothing ever comes it has no end. -/
theorem await_first (c : Cascade) (limit : Option Seconds) (now : Instant) (p : Prospect α)
    (patient : p.givesUp = none) :
    (c.IsStopped now → c.await limit now p = some ⟨.error c.stopped, c.cancel, now, .notBegun⟩) ∧
    (¬c.IsStopped now → Apart (c.comes limit now p) →
      (∃! ending, ∃ w, c.await limit now p = some w ∧
        IsFirst (c.comes limit now p) ending w.now ∧ w.EndedBy c p ending) ∨
      (∀ ending, c.comes limit now p ending = none) ∧ c.await limit now p = none) := by
  refine ⟨fun stopped => await_of_stopped stopped patient, fun free apart => ?_⟩
  rw [await_of_not_stopped free patient]
  cases ends : firstOf (c.comes limit now p) with
  | none => exact .inr ⟨firstOf_eq_none ends, rfl⟩
  | some moment =>
    obtain ⟨ending, isFirst⟩ := exists_isFirst ends
    refine .inl ⟨ending, ⟨_, rfl, isFirst, endedBy_of_isFirst free patient apart isFirst⟩, ?_⟩
    rintro other ⟨w, _, isOther, _⟩
    exact isOther.eq apart isFirst

end Cascade

namespace Kettle

/-- A cascade that is to be over after five seconds. -/
def tea : Cascade where
  root := 1
  deadline := some 5000000000

/-- The water boils after four seconds, and after six somebody cancels the cascade. -/
def boiling : Prospect Value where
  finishes := some (4000000000, .ok .null)
  token := some 6000000000

theorem apart_boiling : Apart (tea.comes (some (.whole 3)) 0 boiling) := by
  intro ending other moment isMoment same
  cases ending <;> cases other <;> cases isMoment <;> cases same <;> rfl

/-- Whoever waits for the water for three seconds waits in vain, and after five seconds nobody waits
for it. -/
theorem await_first_boiling :
    boiling.givesUp = none ∧ tea.IsStopped 5000000000 ∧ ¬tea.IsStopped 0 ∧
      Apart (tea.comes (some (.whole 3)) 0 boiling) ∧
      tea.await none 5000000000 boiling =
        some ⟨.error tea.stopped, tea.cancel, 5000000000, .notBegun⟩ ∧
      ∃! ending, ∃ w, tea.await (some (.whole 3)) 0 boiling = some w ∧
        IsFirst (tea.comes (some (.whole 3)) 0 boiling) ending w.now ∧ w.EndedBy tea boiling ending := by
  have late : tea.IsStopped 5000000000 := .inr ⟨_, rfl, Int.le_refl _⟩
  have free : ¬tea.IsStopped 0 := by simp [Cascade.IsStopped, tea]
  refine ⟨rfl, late, free, apart_boiling, (Cascade.await_first tea none _ boiling rfl).1 late, ?_⟩
  rcases (Cascade.await_first tea _ 0 boiling rfl).2 free apart_boiling with once | ⟨never, _⟩
  · exact once
  · cases never .token

end Kettle

end Choreography
