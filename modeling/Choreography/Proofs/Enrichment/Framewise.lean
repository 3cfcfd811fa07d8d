import Choreography.Proofs.Enrichment.Course

/-! Where-clauses that work frame by frame. Such a clause makes frames of each frame, or raises an
error for it, and does the same with frames that it is given together. Then it makes no difference
whether the frames go through it together or, after an error, one by one: each frame is worth what
it would be worth alone, and is blamed for what it would be blamed for alone. -/

namespace Choreography

namespace Enrichment

/-- A where-clause works frame by frame. What it makes of a frame rests on what that frame rests
on. For frames together it returns all that it makes of them, one after the other, or raises an
error if it raises one for any of them. -/
structure IsFramewise (answers : Frames → Outcome Returned → Prop) (made : Frame → Option Frames) :
    Prop where
  support : made f = some outs → ∀ out ∈ outs, out.support = f.support
  answered : ∀ frames, ∃ outcome, answers frames outcome
  returns : answers frames outcome → frames.mapM made = some outs →
    ∃ returned, outcome = .finished (.ok returned) ∧
      returned.sequence? = some (outs.flatten.map .frame)
  raises : answers frames outcome → frames.mapM made = none →
    ∃ error, outcome = .finished (.error error) ∧ error.IsOrdinary ∧
      ∀ text, error ≠ .plain .taskTimeout text

/-- What is left of a frame: the frames made of it that rebind none of its variables, each put over
it. -/
def worth (made : Frame → Option Frames) (f : Frame) : Frames :=
  (((made f).getD []).filter fun out => f.Admits out.bindings).map fun out => f.overlaid out.bindings

/-- What a frame is blamed for: the error that is raised for it, or else every frame made of it
that rebinds one of its variables. -/
def blame (made : Frame → Option Frames) (f : Frame) : List FaultKind :=
  match made f with
  | none => [.enrichment]
  | some outs => (outs.filter fun out => ¬f.Admits out.bindings).map fun _ => .binding

/-- What a check comes to: frames that are kept, and the kinds of the faults. -/
structure Yields (checked : Except Error Frames × List Rejection) (kept : Frames)
    (kinds : List FaultKind) : Prop where
  kept : checked.1 = .ok kept
  kinds : checked.2.map (·.what.kind) = kinds

/-- A stage is over, with frames that are left and faults that were delivered. -/
structure IsOver (turn : StageTurn Enriching) (kept : Frames) (kinds : List FaultKind) : Prop where
  finished : turn.stage = .finished kept
  blamed : (delivered turn.events).map (·.kind?) = kinds.map some

variable {x : Enrichment} {answers : Frames → Outcome Returned → Prop} {made : Frame → Option Frames}
  {rule : Rule} {inputs frames outs kept left : Frames} {f out : Frame} {error : Error} {c : Cascade}
  {kinds : List FaultKind} {s : StageTurn Enriching} {now begun : Instant}

/-! ### Frames that descend from an input -/

theorem origin?_eq_some (distinct : (inputs.map (·.support)).Nodup) (isInput : f ∈ inputs)
    (same : out.support = f.support) : origin? inputs out.draft = some f := by
  cases found : origin? inputs out.draft with
  | none =>
    have differs : (out.support == f.support) = false := isOn_of_origin?_eq_none found f isInput
    rw [same, beq_self_eq_true] at differs
    cases differs
  | some g =>
    obtain ⟨alsoInput, alsoSame⟩ := mem_of_origin? found
    have isOrigin : out.support = g.support := beq_iff_eq.mp alsoSame
    rw [List.inj_on_of_nodup_map distinct alsoInput isInput (isOrigin.symm.trans same)]

theorem Yields.append {more : Frames} {moreKinds : List FaultKind} {first second : List Item}
    (before : Yields (judgeAll rule inputs first) kept kinds)
    (after : Yields (judgeAll rule inputs second) more moreKinds) :
    Yields (judgeAll rule inputs (first ++ second)) (kept ++ more) (kinds ++ moreKinds) := by
  constructor
  · rw [judgeAll_append second before.kept, after.kept]
    rfl
  · rw [judgeAll_append second before.kept, List.map_append, before.kinds, after.kinds]

/-- A frame that descends from an input is kept, put over it, unless it rebinds a variable. -/
theorem yields_descendant (origin : origin? inputs out.draft = some f) :
    Yields (judgeAll rule inputs [.frame out])
      (if f.Admits out.bindings then [f.overlaid out.bindings] else [])
      (if f.Admits out.bindings then [] else [.binding]) := by
  have keyed : out.draft.basis.flaw? = none := rfl
  have same : out.draft.bindings = out.bindings := rfl
  cases isExtended : f.extend out.bindings with
  | ok g =>
    obtain ⟨admits, rfl⟩ := Frame.extend_eq_ok_iff.mp isExtended
    have isKept : judge rule inputs (.frame out) = .keep (f.overlaid out.bindings) := by
      simp only [Item.frame, judge, keyed, origin, same, isExtended]
    rw [if_pos admits, if_pos admits, judgeAll_of_keep [] isKept]
    exact ⟨rfl, rfl⟩
  | error conflict =>
    have rebinds : ¬f.Admits out.bindings := by
      intro admits
      rw [Frame.extend_eq_ok_iff.mpr ⟨admits, rfl⟩] at isExtended
      cases isExtended
    have isDropped : judge rule inputs (.frame out) =
        .drop { what := .rebound conflict.failure.cause.message,
                source := some conflict.failure.cause.name } := by
      simp only [Item.frame, judge, keyed, origin, same, isExtended]
    rw [if_neg rebinds, if_neg rebinds, judgeAll_of_drop [] isDropped]
    exact ⟨rfl, rfl⟩

theorem yields_descendants (origin : ∀ out ∈ outs, origin? inputs out.draft = some f) :
    Yields (judgeAll rule inputs (outs.map .frame))
      ((outs.filter fun out => f.Admits out.bindings).map fun out => f.overlaid out.bindings)
      ((outs.filter fun out => ¬f.Admits out.bindings).map fun _ => .binding) := by
  induction outs with
  | nil => exact ⟨rfl, rfl⟩
  | cons out outs ih =>
    obtain ⟨first, rest⟩ := List.forall_mem_cons.mp origin
    have both := (yields_descendant first).append (ih rest)
    by_cases admits : f.Admits out.bindings
    · simpa [admits] using both
    · simpa [admits] using both

/-- What a framewise clause made of inputs is worth what it made of each of them. -/
theorem IsFramewise.yields (framewise : IsFramewise answers made)
    (distinct : (inputs.map (·.support)).Nodup) (included : frames ⊆ inputs)
    {all : List Frames} (isMade : frames.mapM made = some all) :
    Yields (judgeAll rule inputs (all.flatten.map .frame)) (frames.flatMap (worth made))
      (frames.flatMap (blame made)) := by
  induction frames generalizing all with
  | nil =>
    cases isMade
    exact ⟨rfl, rfl⟩
  | cons f frames ih =>
    rw [List.mapM_cons] at isMade
    obtain ⟨outs, isOuts, more⟩ := Option.bind_eq_some_iff.mp isMade
    obtain ⟨later, isLater, isAll⟩ := Option.bind_eq_some_iff.mp more
    cases isAll
    have origin : ∀ out ∈ outs, origin? inputs out.draft = some f := fun out inside =>
      origin?_eq_some distinct (included List.mem_cons_self) (framewise.support isOuts out inside)
    have both := (yields_descendants origin).append
      (ih (List.subset_of_cons_subset included) isLater)
    rw [List.flatten_cons, List.map_append, List.flatMap_cons, List.flatMap_cons]
    simpa only [worth, blame, isOuts, Option.getD_some] using both

/-! ### Frames together and one by one -/

theorem kinds_of_report (rejected : List Rejection) :
    (delivered (x.report c rejected).2).map (·.kind?) = (rejected.map (·.what.kind)).map some := by
  rw [report, delivered_faults, List.map_map, List.map_map]
  rfl

theorem validate_yields {returned : Returned} {items : List Item}
    (isSequence : returned.sequence? = some items) (yields : Yields (judgeAll rule inputs items) kept kinds) :
    Yields (validate rule inputs returned) kept kinds := by
  rwa [validate_eq_judgeAll isSequence]

theorem afterSingle_of_raised (x : Enrichment) (f : Frame) (kept left : Frames) (c : Cascade)
    (ordinary : error.IsOrdinary) : ∃ rejection, rejection.what.kind = .enrichment ∧
      x.afterSingle f kept left c (.error error) =
        { stage := .isolating kept left
          cascade := (x.report c [rejection]).1
          events := (x.report c [rejection]).2 } := by
  unfold afterSingle
  split
  · next isReturned => cases isReturned
  · next isRaised =>
    cases isRaised
    exact ordinary.elim
  · next isRaised =>
    cases isRaised
    exact ordinary.elim
  · exact ⟨_, rfl, rfl⟩

theorem afterBatch_of_raised (x : Enrichment) (frames : Frames) (c : Cascade)
    (ordinary : error.IsOrdinary) (inTime : ∀ text, error ≠ .plain .taskTimeout text) :
    (∃ f rejection, frames = [f] ∧ rejection.what.kind = .enrichment ∧
      x.afterBatch frames c (.error error) =
        { stage := .finished []
          cascade := (x.report c [rejection]).1
          events := (x.report c [rejection]).2 }) ∨
    x.afterBatch frames c (.error error) =
      { stage := .isolating [] frames, cascade := c, events := [.note (x.isolationNote c frames)] } := by
  unfold afterBatch
  split
  · next isReturned => cases isReturned
  · next isRaised =>
    cases isRaised
    exact ordinary.elim
  · next isRaised =>
    cases isRaised
    exact ordinary.elim
  · next isRaised =>
    cases isRaised
    exact absurd rfl (inTime _)
  · next isRaised =>
    cases isRaised
    split
    · exact .inl ⟨_, _, rfl, rfl, rfl⟩
    · exact .inr rfl

/-- A frame that goes through a framewise clause alone. -/
theorem IsFramewise.exists_afterSingle (framewise : IsFramewise answers made) (x : Enrichment)
    (kept left : Frames) (c : Cascade) (answer : answers [f] outcome) :
    ∃ result rejected, outcome = .finished result ∧ rejected.map (·.what.kind) = blame made f ∧
      x.afterSingle f kept left c result =
        { stage := .isolating (kept ++ worth made f) left
          cascade := (x.report c rejected).1
          events := (x.report c rejected).2 } := by
  cases isMade : made f with
  | none =>
    have isNone : [f].mapM made = none := by
      rw [List.mapM_cons, isMade]
      rfl
    obtain ⟨error, rfl, ordinary, -⟩ := framewise.raises answer isNone
    obtain ⟨rejection, isKind, after⟩ := x.afterSingle_of_raised f kept left c ordinary
    refine ⟨_, [rejection], rfl, ?_, ?_⟩
    · rw [blame, isMade, List.map_cons, isKind, List.map_nil]
    · have worthless : worth made f = [] := by
        rw [worth, isMade]
        rfl
      rw [after, worthless, List.append_nil]
  | some outs =>
    have isSome : [f].mapM made = some [outs] := by
      rw [List.mapM_cons, isMade]
      rfl
    obtain ⟨returned, rfl, isSequence⟩ := framewise.returns answer isSome
    have alone : ([f].map (·.support)).Nodup := List.nodup_singleton _
    have yields : Yields (validate x.rule [f] returned) _ _ :=
      validate_yields isSequence (framewise.yields alone (List.Subset.refl [f]) isSome)
    rw [List.flatMap_singleton, List.flatMap_singleton] at yields
    refine ⟨_, (validate x.rule [f] returned).2, rfl, yields.kinds, ?_⟩
    dsimp only [afterSingle]
    rw [yields.kept]
    rfl

/-- Frames that go through a framewise clause together: they are judged, or they are to go through
it one by one. -/
theorem IsFramewise.exists_afterBatch (framewise : IsFramewise answers made) (x : Enrichment)
    (distinct : (frames.map (·.support)).Nodup) (c : Cascade) (answer : answers frames outcome) :
    ∃ result, outcome = .finished result ∧
      ((∃ rejected, rejected.map (·.what.kind) = frames.flatMap (blame made) ∧
        x.afterBatch frames c result =
          { stage := .finished (frames.flatMap (worth made))
            cascade := (x.report c rejected).1
            events := (x.report c rejected).2 }) ∨
      x.afterBatch frames c result =
        { stage := .isolating [] frames
          cascade := c
          events := [.note (x.isolationNote c frames)] }) := by
  cases isMade : frames.mapM made with
  | none =>
    obtain ⟨error, rfl, ordinary, inTime⟩ := framewise.raises answer isMade
    refine ⟨_, rfl, ?_⟩
    rcases x.afterBatch_of_raised frames c ordinary inTime with ⟨f, rejection, rfl, isKind, after⟩ | after
    · have isNone : made f = none := by
        rw [List.mapM_cons] at isMade
        cases isOuts : made f with
        | none => rfl
        | some outs =>
          rw [isOuts] at isMade
          cases isMade
      refine .inl ⟨[rejection], ?_, ?_⟩
      · rw [List.flatMap_singleton, blame, isNone, List.map_cons, isKind, List.map_nil]
      · rw [after, List.flatMap_singleton, worth, isNone]
        rfl
    · exact .inr after
  | some all =>
    obtain ⟨returned, rfl, isSequence⟩ := framewise.returns answer isMade
    have yields : Yields (validate x.rule frames returned) _ _ :=
      validate_yields isSequence (framewise.yields distinct (List.Subset.refl frames) isMade)
    refine ⟨_, rfl, .inl ⟨(validate x.rule frames returned).2, yields.kinds, ?_⟩⟩
    dsimp only [afterBatch]
    rw [yields.kept]
    rfl

/-- Frames that go through a framewise clause one by one are each worth what they are worth alone,
and are blamed in turn. -/
theorem IsFramewise.eventually_of_left (framewise : IsFramewise answers made)
    (isolating : s.stage = .isolating kept left) (calm : s.cascade.IsCalmAt now)
    (blamed : (delivered s.events).map (·.kind?) = kinds.map some) :
    Eventually (x.Proceeds answers)
      (fun reached => IsOver reached.1 (kept ++ left.flatMap (worth made))
        (kinds ++ left.flatMap (blame made))) (s, now) := by
  induction left generalizing s kept kinds now with
  | nil =>
    refine eventually_of_isolating isolating calm fun later _ => .now ?_
    rw [isolating, List.flatMap_nil, List.flatMap_nil, List.append_nil, List.append_nil]
    refine ⟨rfl, ?_⟩
    rw [StageTurn.followedBy, step, List.append_nil]
    exact blamed
  | cons f left ih =>
    refine eventually_of_isolating isolating calm fun asking isCalm => ?_
    rw [isolating, step, isCalm.beginWait]
    refine eventually_of_asked rfl isCalm (framewise.answered [f]) fun outcome heard answer stillCalm => ?_
    obtain ⟨result, rejected, rfl, areKinds, after⟩ :=
      framewise.exists_afterSingle x kept left s.cascade answer
    rw [List.flatMap_cons, List.flatMap_cons, ← List.append_assoc, ← List.append_assoc]
    dsimp only [StageTurn.followedBy]
    rw [resume_single, after]
    refine ih rfl (stillCalm.recordFaults _) ?_
    rw [List.append_nil, delivered_append, List.map_append, blamed, kinds_of_report, areKinds,
      List.map_append]

end Enrichment

/-! ### Letters -/

namespace Letters

open Enrichment

/-- Every letter is sent home. One without a place cannot be sent at all. -/
def sent (f : Frame) : Option Frames :=
  (f.get? "place").map fun _ => [{ f with bindings := [("place", .text "home")] }]

/-- Sends all letters, or gives up. -/
def post (letters : Frames) : Outcome Returned :=
  match letters.mapM sent with
  | some all => .finished (.ok (.frames all.flatten))
  | none => .finished (.error (.plain .key "place"))

theorem post_framewise : IsFramewise (fun letters outcome => outcome = post letters) sent where
  support isSent out inside := by
    obtain ⟨_, _, rfl⟩ := Option.map_eq_some_iff.mp isSent
    cases List.mem_singleton.mp inside
    rfl
  answered letters := ⟨post letters, rfl⟩
  returns isAnswer isSent := by
    rw [isAnswer, post, isSent]
    exact ⟨_, rfl, Returned.sequence?_frames _⟩
  raises isAnswer isNone := by
    rw [isAnswer, post, isNone]
    exact ⟨_, rfl, trivial, nofun⟩

/-- A letter without a place, one that goes home and one that was to go abroad. -/
def letters : Frames :=
  [{ bindings := [], support := [1] },
    { bindings := [("place", .text "home")], support := [2] },
    { bindings := [("place", .text "abroad")], support := [3] }]

def sorting : Enrichment where
  rule := { name := "sort", whens := [{ action := ⟨"Post", "receive"⟩ }], enrich := some [] }
  trigger :=
    { id := 3, action := ⟨"Post", "receive"⟩, input := [], output := [], causes := [], root := 3,
      depth := 0, ancestors := [] }
  limit := none

/-- A cascade with some time left. -/
def morning : Cascade := { root := 3, deadline := some 10 }

end Letters

end Choreography
