import Choreography.Proofs.Audit

/-! What a cascade gets to know of the audit. The recorder is called with any invocations, also while
it waits for the sessions of other calls, and every session may fail. A cascade does not get to know
that. But a recorder that is to track fewer than no cascades has nothing left that it could forget,
and every call whose rows were written ends with an error. -/

namespace Choreography

/-- Where a call of the recorder stands. -/
inductive RecorderCall where
  /-- Waits for its session. -/
  | writing (batch : Batch)
  | returned (result : Except Error Unit)

namespace Recorder

/-- A call that has just begun. It returns at once if nothing is left to be written. -/
def call (r : Recorder) (handed : List Invocation) : RecorderCall :=
  match r.prepare? handed with
  | none => .returned (.ok ())
  | some batch => .writing batch

/-- A recorder and its calls, whatever they were handed and however their sessions end. -/
inductive Serves (start : Recorder) : Recorder → List RecorderCall → Prop where
  | start : start.Serves start []
  | call (serves : start.Serves r calls) (handed : List Invocation) :
      start.Serves r (calls ++ [r.call handed])
  | close (serves : start.Serves r calls) (underway : calls[n]? = some (.writing batch))
      (session : Except Error Unit) :
      start.Serves (r.settle batch session).1
        (calls.set n (.returned (r.settle batch session).2.2))

/-- What a cascade gets to know of a recorder that serves it. -/
structure IsDiscreet (start r : Recorder) (calls : List RecorderCall) : Prop where
  bounded : (r.saved.length : Int) ≤ max start.tracked 0
  returns : 0 ≤ start.tracked → ∀ result, .returned result ∈ calls → result = .ok ()
  /-- Only a session that was not refused can end in an error. -/
  settles : ∀ batch session,
    (r.settle batch session).2.2 = .ok () ↔ session ≠ .ok () ∨ 0 ≤ start.tracked

variable {start r : Recorder} {calls : List RecorderCall} {batch : Batch}
  {session result : Except Error Unit}

theorem settle_ok (r : Recorder) (batch : Batch) :
    r.settle batch (.ok ()) =
      ((r.grown batch).trim.1, [.recorded (batch.fresh.map fun i => ⟨r.run, i⟩)],
        (r.grown batch).trim.2) := rfl

theorem length_saved_trim (r : Recorder) : (r.trim.1.saved.length : Int) ≤ max r.tracked 0 := by
  change ((r.saved.drop _).length : Int) ≤ _
  rw [List.length_drop]
  omega

/-- Fewer than no cascades cannot be tracked. -/
theorem trim_eq_ok_iff (r : Recorder) : r.trim.2 = .ok () ↔ 0 ≤ r.tracked := by
  constructor
  · intro isOk
    by_contra tracks
    have isError : r.trim.2 = .error (.missingKey "dictionary is empty") := if_pos (by omega)
    cases isError.symm.trans isOk
  · exact trim_of_nonneg

theorem tracked_settle (r : Recorder) (batch : Batch) (session : Except Error Unit) :
    (r.settle batch session).1.tracked = r.tracked := by
  cases session with
  | error e => rfl
  | ok => rfl

theorem length_saved_settle (bounded : (r.saved.length : Int) ≤ max r.tracked 0) (batch : Batch)
    (session : Except Error Unit) :
    ((r.settle batch session).1.saved.length : Int) ≤ max r.tracked 0 := by
  cases session with
  | error e => exact bounded
  | ok => exact length_saved_trim (r.grown batch)

theorem settle_eq_ok_iff (r : Recorder) (batch : Batch) (session : Except Error Unit) :
    (r.settle batch session).2.2 = .ok () ↔ session ≠ .ok () ∨ 0 ≤ r.tracked := by
  cases session with
  | error e => exact iff_of_true rfl (.inl nofun)
  | ok =>
    rw [settle_ok]
    exact (trim_eq_ok_iff (r.grown batch)).trans (or_iff_right fun differs => differs rfl).symm

theorem call_eq_returned {handed : List Invocation} (returned : r.call handed = .returned result) :
    result = .ok () := by
  unfold call at returned
  split at returned
  · cases returned
    rfl
  · cases returned

theorem Serves.tracked (serves : start.Serves r calls) : r.tracked = start.tracked := by
  induction serves with
  | start => rfl
  | call _ _ ih => exact ih
  | close _ _ session ih => exact (tracked_settle _ _ session).trans ih

theorem Serves.bounded (fresh : start.saved = []) (serves : start.Serves r calls) :
    (r.saved.length : Int) ≤ max start.tracked 0 := by
  induction serves with
  | start => simp [fresh]
  | call _ _ ih => exact ih
  | close serves _ session ih =>
    rw [← serves.tracked] at ih ⊢
    exact length_saved_settle ih _ session

theorem Serves.returns (serves : start.Serves r calls) (tracks : 0 ≤ start.tracked)
    (ended : .returned result ∈ calls) : result = .ok () := by
  induction serves with
  | start => cases ended
  | call _ handed ih =>
    rcases List.mem_append.mp ended with old | new
    · exact ih old
    · exact call_eq_returned (List.mem_singleton.mp new).symm
  | @close r _ _ batch serves _ session ih =>
    rcases List.mem_or_eq_of_mem_set ended with old | new
    · exact ih old
    · rw [RecorderCall.returned.inj new, settle_eq_ok_iff, serves.tracked]
      exact .inr tracks

/-- The recorder never remembers more than it is to track, and as long as that is not less than
nothing, no trouble with the audit reaches a cascade. -/
theorem isDiscreet (fresh : start.saved = []) (serves : start.Serves r calls) :
    IsDiscreet start r calls where
  bounded := serves.bounded fresh
  returns tracks _ ended := serves.returns tracks ended
  settles batch session := by rw [settle_eq_ok_iff, serves.tracked]

end Recorder

namespace Guestbook

open Recorder

/-- The recorder was called twice with the arrival before it had written it. Of the two sessions the
second was refused. -/
theorem serves_overlapping :
    ({ tracked := 1 } : Recorder).Serves { tracked := 1, saved := [(1, [1])] }
      [.returned (.ok ()), .returned (.ok ())] :=
  have begun : ({ tracked := 1 } : Recorder).Serves { tracked := 1 } [.writing page, .writing page] :=
    .call (.call .start [arriving]) [arriving]
  have written : ({ tracked := 1 } : Recorder).Serves { tracked := 1, saved := [(1, [1])] }
      [.returned (.ok ()), .writing page] := .close (n := 0) begun rfl (.ok ())
  .close (n := 1) written rfl (.error (.plain .runtime "commit refused"))

theorem isDiscreet_overlapping :
    ({ tracked := 1 } : Recorder).saved = [] ∧
      IsDiscreet { tracked := 1 } { tracked := 1, saved := [(1, [1])] }
        [.returned (.ok ()), .returned (.ok ())] :=
  ⟨rfl, isDiscreet rfl serves_overlapping⟩

/-- A recorder that is to track fewer than no cascades writes the arrival and then fails. -/
theorem serves_failing :
    ({ tracked := -1 } : Recorder).Serves { tracked := -1 }
      [.returned (.error (.missingKey "dictionary is empty"))] :=
  have begun : ({ tracked := -1 } : Recorder).Serves { tracked := -1 } [.writing page] :=
    .call .start [arriving]
  .close (n := 0) begun rfl (.ok ())

end Guestbook

end Choreography
