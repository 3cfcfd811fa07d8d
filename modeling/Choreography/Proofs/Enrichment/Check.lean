import Choreography.Enrichment
import Choreography.Proofs.Frame

/-! What comes of the things that a where-clause returns. They are checked one after the other. A
frame that rests on what an input rests on is accepted, put over that input, unless it rebinds one of
its variables; anything else is the reason for exactly one fault. A frame that rests on something
that cannot be looked up is neither: the check breaks off there. -/

namespace Choreography

/-- The things in what came back, if it is a sequence. -/
def Returned.sequence? : Returned → Option (List Item)
  | .drafts given => some (given.map .draft)
  | .sequence _ items => some items
  | .value (.list values) => some (values.map .value)
  | .value _ | .other _ => none

/-- The things in what came back. What is no sequence has none. -/
def Returned.contents (returned : Returned) : List Item := returned.sequence?.getD []

/-- Why something that came back cannot be checked, if it cannot. -/
def Item.flaw? : Item → Option Error
  | .draft d => d.basis.flaw?
  | .value _ | .other _ => none

/-- Why what came back cannot be checked to its end, if it cannot. -/
def Returned.flaw? (returned : Returned) : Option Error := returned.contents.findSome? Item.flaw?

/-- The frame that is kept, if one is. -/
def Ruling.kept? : Ruling → Option Frame
  | .keep frame => some frame
  | .drop _ | .fail _ => none

/-- All frames refine others. -/
def Frames.Refine (frames inputs : Frames) : Prop := ∀ g ∈ frames, ∃ f ∈ inputs, g.Refines f

/-- The frames that a where-stage still holds. -/
def Enriching.frames : Enriching → Frames
  | .batch frames _ => frames
  | .isolating kept left => kept ++ left
  | .single frame kept left _ => kept ++ frame :: left
  | .finished frames => frames
  | .raised _ => []

/-- The frames that a where-stage has given to the where-clause. -/
def Enriching.asked? : Enriching → Option Frames
  | .batch frames _ => some frames
  | .single frame _ _ _ => some [frame]
  | _ => none

/-- A where-clause is to blame for a fault. -/
def FaultKind.IsOfClause (kind : FaultKind) : Prop := kind = .enrichment ∨ kind = .binding

namespace Enrichment

/-- What becomes of one of the things that came back. A frame that rests on what an input rests on
is accepted, put over that input, unless it rebinds one of its variables. -/
inductive Verdict (inputs : Frames) : Item → Except Rejection Frame → Prop where
  | accepted (keyed : out.basis.flaw? = none) (isInput : f ∈ inputs)
      (restsOn : out.basis.isOn f.support = true) (admits : f.Admits out.bindings) :
      Verdict inputs (.draft out) (.ok (f.overlaid out.bindings))
  | rebinds (keyed : out.basis.flaw? = none) (isInput : f ∈ inputs)
      (restsOn : out.basis.isOn f.support = true) (isBound : f.get? name = some bound)
      (isGiven : Fields.get? (Fields.ofList out.bindings) name = some value)
      (disagree : bound.agrees value = false)
      (told : rejection.what = .rebound (Cause.bindingConflict name bound value).message)
      (isKind : rejection.what.kind = .binding) : Verdict inputs (.draft out) (.error rejection)
  | foreign (keyed : out.basis.flaw? = none)
      (unknown : ∀ f ∈ inputs, out.basis.isOn f.support = false)
      (isKind : rejection.what.kind = .enrichment) : Verdict inputs (.draft out) (.error rejection)
  | notAFrame (isOther : ∀ out, item ≠ .draft out) (isKind : rejection.what.kind = .enrichment) :
      Verdict inputs item (.error rejection)

/-- What becomes of the things that came back, one after the other. -/
inductive Sorts (inputs : Frames) : List Item → Frames → List Rejection → Prop where
  | nil : Sorts inputs [] [] []
  | keep (verdict : Verdict inputs item (.ok frame)) (later : Sorts inputs items kept rejected) :
      Sorts inputs (item :: items) (frame :: kept) rejected
  | drop (verdict : Verdict inputs item (.error rejection))
      (later : Sorts inputs items kept rejected) :
      Sorts inputs (item :: items) kept (rejection :: rejected)

/-- What the check of all the things that came back comes to. It goes through all of them, or it
breaks off at the first that cannot be checked. -/
inductive Checks (inputs : Frames) (items : List Item) : Except Error Frames → List Rejection → Prop where
  | through (sorts : Sorts inputs items kept rejected) : Checks inputs items (.ok kept) rejected
  | breaksOff (areItems : items = before ++ bad :: after) (sorts : Sorts inputs before kept rejected)
      (flawed : bad.flaw? = some error) : Checks inputs items (.error error) rejected

/-- What a stage that held frames comes to when it hears an answer. It waits no more, and has reported
what was wrong with the answer; or it stops, or lets each frame go alone. -/
inductive Hears (x : Enrichment) (held : Frames) (c : Cascade) : StageTurn Enriching → Prop where
  | reports (unasked : stage.asked? = none) (refine : stage.frames.Refine held)
      (ofClause : ∀ rejection ∈ rejected, rejection.what.kind.IsOfClause) :
      Hears x held c
        { stage, cascade := (x.report c rejected).1, events := (x.report c rejected).2 }
  | stops (error : Error) : Hears x held c { stage := .raised error, cascade := c }
  | isolates : Hears x held c
      { stage := .isolating [] held, cascade := c, events := [.note (x.isolationNote c held)] }

end Enrichment

variable {inputs frames kept : Frames} {rule : Rule} {item : Item} {items : List Item}
  {checked : Except Error Frames} {rejected : List Rejection} {error : Error} {left : Frames}

theorem Returned.sequence?_frames (given : Frames) :
    (Returned.frames given).sequence? = some (given.map .frame) :=
  congrArg some List.map_map

/-! ### What cannot be checked -/

theorem Error.type_of_notAKey {v : Value} (flawed : notAKey? v = some error) :
    ∃ text, error = .plain .type text := by
  unfold notAKey? at flawed
  split at flawed <;> cases flawed <;> exact ⟨_, rfl⟩

theorem Basis.type_of_flaw {basis : Basis} (flawed : basis.flaw? = some error) :
    ∃ text, error = .plain .type text := by
  cases basis with
  | support => cases flawed
  | tuple members =>
    obtain ⟨_, _, isFlaw⟩ := List.exists_of_findSome?_eq_some flawed
    exact Error.type_of_notAKey isFlaw
  | value => exact Error.type_of_notAKey flawed

/-- Where a check breaks off, the type of something is wrong. -/
theorem Returned.type_of_flaw {returned : Returned} (flawed : returned.flaw? = some error) :
    ∃ text, error = .plain .type text := by
  obtain ⟨item, _, isFlaw⟩ := List.exists_of_findSome?_eq_some flawed
  cases item with
  | draft => exact Basis.type_of_flaw isFlaw
  | value | other => cases isFlaw

/-! ### Refinement -/

namespace Frames.Refine

theorem refl (frames : Frames) : frames.Refine frames :=
  fun f inside => ⟨f, inside, .refl f⟩

theorem trans {middle : Frames} (first : Frames.Refine frames middle)
    (second : middle.Refine inputs) : frames.Refine inputs := by
  intro h inside
  obtain ⟨g, isMiddle, refinesG⟩ := first h inside
  obtain ⟨f, isInput, refinesF⟩ := second g isMiddle
  exact ⟨f, isInput, refinesG.trans refinesF⟩

theorem append {more : Frames} (first : Frames.Refine frames inputs)
    (second : more.Refine inputs) : Frames.Refine (frames ++ more) inputs :=
  fun g inside => (List.mem_append.mp inside).elim (first g) (second g)

theorem mono {more : Frames} (refine : Frames.Refine frames inputs)
    (included : inputs ⊆ more) : frames.Refine more := by
  intro g inside
  obtain ⟨f, isInput, refines⟩ := refine g inside
  exact ⟨f, included isInput, refines⟩

end Frames.Refine

namespace Enrichment

/-! ### One thing -/

theorem mem_of_origin? {out : Draft} {f : Frame} (found : origin? inputs out = some f) :
    f ∈ inputs ∧ out.basis.isOn f.support = true := by
  unfold origin? at found
  have restsOn := List.find?_some found
  exact ⟨List.mem_reverse.mp (List.mem_of_find?_eq_some found), restsOn⟩

theorem isOn_of_origin?_eq_none {out : Draft} (missing : origin? inputs out = none) :
    ∀ f ∈ inputs, out.basis.isOn f.support = false := fun f isInput =>
  Bool.eq_false_iff.mpr (List.find?_eq_none.mp missing f (List.mem_reverse.mpr isInput))

/-- A check breaks off at what cannot be looked up, and at nothing else. -/
theorem judge_eq_fail_iff : judge rule inputs item = .fail error ↔ item.flaw? = some error := by
  cases item with
  | value | other => exact ⟨nofun, nofun⟩
  | draft out =>
    simp only [judge, Item.flaw?]
    split
    · next isFlaw => rw [isFlaw, Ruling.fail.injEq, Option.some.injEq]
    · next keyed _ => exact ⟨nofun, fun isFlaw => nomatch keyed.symm.trans isFlaw⟩
    · next keyed _ =>
      refine ⟨fun fails => ?_, fun isFlaw => nomatch keyed.symm.trans isFlaw⟩
      split at fails <;> cases fails

theorem verdict_of_keep {frame : Frame} (isKept : judge rule inputs item = .keep frame) :
    Verdict inputs item (.ok frame) := by
  cases item with
  | value | other => cases isKept
  | draft out =>
    simp only [judge] at isKept
    split at isKept
    · cases isKept
    · cases isKept
    · next origin keyed found =>
      obtain ⟨isInput, restsOn⟩ := mem_of_origin? found
      split at isKept
      · next extended isExtended =>
        obtain ⟨admits, rfl⟩ := Frame.extend_eq_ok_iff.mp isExtended
        cases isKept
        exact .accepted keyed isInput restsOn admits
      · cases isKept

theorem verdict_of_drop {rejection : Rejection} (isDropped : judge rule inputs item = .drop rejection) :
    Verdict inputs item (.error rejection) := by
  cases item with
  | value | other =>
    cases isDropped
    exact .notAFrame nofun rfl
  | draft out =>
    simp only [judge] at isDropped
    split at isDropped
    · cases isDropped
    · next keyed missing =>
      cases isDropped
      exact .foreign keyed (isOn_of_origin?_eq_none missing) rfl
    · next origin keyed found =>
      obtain ⟨isInput, restsOn⟩ := mem_of_origin? found
      split at isDropped
      · cases isDropped
      · next isConflict =>
        obtain ⟨isBound, isGiven, disagree⟩ := Frame.conflict_of_extend isConflict
        cases isDropped
        exact .rebinds keyed isInput restsOn isBound isGiven disagree rfl rfl

theorem Verdict.isOfClause {rejection : Rejection} (verdict : Verdict inputs item (.error rejection)) :
    rejection.what.kind.IsOfClause := by
  cases verdict with
  | rebinds _ _ _ _ _ _ _ isKind => exact .inr isKind
  | foreign _ _ isKind | notAFrame _ isKind => exact .inl isKind

/-! ### Everything that came back -/

namespace Sorts

theorem length_add_length (sorts : Sorts inputs items kept rejected) :
    kept.length + rejected.length = items.length := by
  induction sorts with
  | nil => rfl
  | keep | drop => simp only [List.length_cons]; omega

theorem refine (sorts : Sorts inputs items kept rejected) : kept.Refine inputs := by
  induction sorts with
  | nil => exact nofun
  | keep verdict _ ih =>
    cases verdict with
    | accepted _ isInput _ admits => exact List.forall_mem_cons.mpr ⟨⟨_, isInput, admits.refines⟩, ih⟩
  | drop _ _ ih => exact ih

theorem isOfClause (sorts : Sorts inputs items kept rejected) :
    ∀ rejection ∈ rejected, rejection.what.kind.IsOfClause := by
  induction sorts with
  | nil => exact List.forall_mem_nil _
  | keep _ _ ih => exact ih
  | drop verdict _ ih => exact List.forall_mem_cons.mpr ⟨verdict.isOfClause, ih⟩

end Sorts

namespace Checks

theorem keep {frame : Frame} (checks : Checks inputs items checked rejected)
    (verdict : Verdict inputs item (.ok frame)) :
    Checks inputs (item :: items) (checked.map (frame :: ·)) rejected := by
  cases checks with
  | through sorts => exact .through (.keep verdict sorts)
  | breaksOff areItems sorts flawed =>
    exact .breaksOff (areItems ▸ (List.cons_append ..).symm) (.keep verdict sorts) flawed

theorem drop {rejection : Rejection} (checks : Checks inputs items checked rejected)
    (verdict : Verdict inputs item (.error rejection)) :
    Checks inputs (item :: items) checked (rejection :: rejected) := by
  cases checks with
  | through sorts => exact .through (.drop verdict sorts)
  | breaksOff areItems sorts flawed =>
    exact .breaksOff (areItems ▸ (List.cons_append ..).symm) (.drop verdict sorts) flawed

theorem isOfClause (checks : Checks inputs items checked rejected) :
    ∀ rejection ∈ rejected, rejection.what.kind.IsOfClause := by
  cases checks with
  | through sorts | breaksOff _ sorts => exact sorts.isOfClause

end Checks

section JudgeAll

variable (items)

theorem judgeAll_of_keep {frame : Frame} (isKept : judge rule inputs item = .keep frame) :
    judgeAll rule inputs (item :: items) =
      ((judgeAll rule inputs items).1.map (frame :: ·), (judgeAll rule inputs items).2) := by
  rw [judgeAll, isKept]

theorem judgeAll_of_drop {rejection : Rejection} (isDropped : judge rule inputs item = .drop rejection) :
    judgeAll rule inputs (item :: items) =
      ((judgeAll rule inputs items).1, rejection :: (judgeAll rule inputs items).2) := by
  rw [judgeAll, isDropped]

theorem judgeAll_of_fail (fails : judge rule inputs item = .fail error) :
    judgeAll rule inputs (item :: items) = (.error error, []) := by
  rw [judgeAll, fails]

end JudgeAll

theorem checks_judgeAll (rule : Rule) (inputs : Frames) (items : List Item) :
    Checks inputs items (judgeAll rule inputs items).1 (judgeAll rule inputs items).2 := by
  induction items with
  | nil => exact .through .nil
  | cons item items ih =>
    cases ruling : judge rule inputs item with
    | keep frame =>
      rw [judgeAll_of_keep items ruling]
      exact ih.keep (verdict_of_keep ruling)
    | drop rejection =>
      rw [judgeAll_of_drop items ruling]
      exact ih.drop (verdict_of_drop ruling)
    | fail error =>
      rw [judgeAll_of_fail items ruling]
      exact .breaksOff (List.nil_append _).symm .nil (judge_eq_fail_iff.mp ruling)

/-- Each thing is judged by itself, as long as all of them can be checked. -/
theorem judgeAll_fst (rule : Rule) (inputs : Frames) (items : List Item) :
    (judgeAll rule inputs items).1 = (items.findSome? Item.flaw?).elim
      (.ok (items.filterMap fun item => (judge rule inputs item).kept?)) .error := by
  induction items with
  | nil => rfl
  | cons item items ih =>
    have checkable (judged : ∀ error, judge rule inputs item ≠ .fail error) : item.flaw? = none :=
      Option.eq_none_iff_forall_ne_some.mpr fun error isFlaw => judged error (judge_eq_fail_iff.mpr isFlaw)
    rw [List.findSome?_cons, List.filterMap_cons]
    cases ruling : judge rule inputs item with
    | keep frame =>
      rw [judgeAll_of_keep items ruling, ih, checkable (by simp [ruling])]
      cases items.findSome? Item.flaw? <;> rfl
    | drop rejection =>
      rw [judgeAll_of_drop items ruling, ih, checkable (by simp [ruling])]
      rfl
    | fail error =>
      rw [judgeAll_of_fail items ruling, judge_eq_fail_iff.mp ruling]
      rfl

/-- What is there before and after can be judged apart, if the check goes through the first part. -/
theorem judgeAll_append {first : List Item} (second : List Item)
    (isKept : (judgeAll rule inputs first).1 = .ok kept) :
    judgeAll rule inputs (first ++ second) =
      ((judgeAll rule inputs second).1.map (kept ++ ·),
        (judgeAll rule inputs first).2 ++ (judgeAll rule inputs second).2) := by
  induction first generalizing kept with
  | nil =>
    cases isKept
    rw [List.nil_append, judgeAll]
    rcases judgeAll rule inputs second with ⟨_ | _, _⟩ <;> rfl
  | cons item items ih =>
    rw [List.cons_append]
    cases ruling : judge rule inputs item with
    | keep frame =>
      rw [judgeAll_of_keep items ruling] at isKept ⊢
      cases isLater : (judgeAll rule inputs items).1 with
      | error => rw [isLater] at isKept; cases isKept
      | ok later =>
        rw [isLater] at isKept
        cases isKept
        rw [judgeAll_of_keep _ ruling, ih isLater]
        rcases judgeAll rule inputs second with ⟨_ | _, _⟩ <;> rfl
    | drop rejection =>
      rw [judgeAll_of_drop items ruling] at isKept ⊢
      rw [judgeAll_of_drop _ ruling, ih isKept]
      rfl
    | fail error =>
      rw [judgeAll_of_fail items ruling] at isKept
      cases isKept

theorem validate_eq_judgeAll {returned : Returned} (isSequence : returned.sequence? = some items) :
    validate rule inputs returned = judgeAll rule inputs items := by
  unfold Returned.sequence? at isSequence
  split at isSequence <;> cases isSequence <;> rfl

theorem validate_eq_single (rule : Rule) (inputs : Frames) {returned : Returned}
    (isNone : returned.sequence? = none) :
    ∃ rejection, rejection.what.kind = .enrichment ∧
      validate rule inputs returned = (.ok [], [rejection]) := by
  unfold Returned.sequence? at isNone
  split at isNone
  · cases isNone
  · cases isNone
  · cases isNone
  · next v notList =>
    refine ⟨_, ?_, by rw [validate]; exact notList⟩
    rfl
  · exact ⟨_, rfl, rfl⟩

/-- Whatever came back, what is kept of it refines the inputs. -/
theorem refine_of_validate {returned : Returned}
    (isKept : (validate rule inputs returned).1 = .ok kept) : kept.Refine inputs := by
  cases isSequence : returned.sequence? with
  | some items =>
    have checks := checks_judgeAll rule inputs items
    rw [validate_eq_judgeAll isSequence] at isKept
    rw [isKept] at checks
    cases checks with
    | through sorts => exact sorts.refine
  | none =>
    obtain ⟨_, _, isSingle⟩ := validate_eq_single rule inputs isSequence
    rw [isSingle] at isKept
    cases isKept
    exact nofun

theorem validate_isOfClause (rule : Rule) (inputs : Frames) (returned : Returned) :
    ∀ rejection ∈ (validate rule inputs returned).2, rejection.what.kind.IsOfClause := by
  cases isSequence : returned.sequence? with
  | some items =>
    rw [validate_eq_judgeAll isSequence]
    exact (checks_judgeAll rule inputs items).isOfClause
  | none =>
    obtain ⟨rejection, isKind, isSingle⟩ := validate_eq_single rule inputs isSequence
    rw [isSingle]
    exact List.forall_mem_singleton.mpr (.inl isKind)

/-! ### The stage -/

theorem step_refine (x : Enrichment) (now : Instant) (c : Cascade) (stage : Enriching) :
    (x.step now c stage).stage.frames.Refine stage.frames := by
  unfold step
  split
  · next kept =>
    rw [Enriching.frames, Enriching.frames, List.append_nil]
    exact .refl kept
  · next kept frame left =>
    split
    · exact nofun
    · exact .refl _
  · exact .refl _

/-- After a check there is what is left of the frames, or nothing. -/
theorem afterCheck_refine {next : Frames → Enriching} {checked : Except Error Frames}
    (refine : ∀ kept, checked = .ok kept → (next kept).frames.Refine inputs) :
    (afterCheck next checked).frames.Refine inputs := by
  cases checked with
  | ok kept => exact refine kept rfl
  | error => exact nofun

theorem asked?_afterCheck {next : Frames → Enriching} (unasked : ∀ kept, (next kept).asked? = none)
    (checked : Except Error Frames) : (afterCheck next checked).asked? = none := by
  cases checked with
  | ok kept => exact unasked kept
  | error => rfl

/-- A stage that failed reports why. -/
theorem Hears.reports_single {x : Enrichment} {c : Cascade} {held : Frames} {rejection : Rejection}
    {stage : Enriching} (unasked : stage.asked? = none) (refine : stage.frames.Refine held)
    (isKind : rejection.what.kind = .enrichment) :
    x.Hears held c
      { stage, cascade := (x.report c [rejection]).1, events := (x.report c [rejection]).2 } :=
  .reports unasked refine (List.forall_mem_singleton.mpr (.inl isKind))

theorem afterBatch_hears (x : Enrichment) (frames : Frames) (c : Cascade)
    (result : Except Error Returned) : x.Hears frames c (x.afterBatch frames c result) := by
  have finished : (Enriching.finished []).frames.Refine frames := nofun
  unfold afterBatch
  split
  · next returned =>
    refine .reports (asked?_afterCheck (fun _ => rfl) _) (afterCheck_refine fun _ isKept => ?_)
      (validate_isOfClause x.rule frames returned)
    exact refine_of_validate isKept
  · exact .stops _
  · exact .stops _
  · exact Hears.reports_single rfl finished rfl
  · split
    · exact Hears.reports_single rfl finished rfl
    · exact .isolates

theorem afterSingle_hears (x : Enrichment) (frame : Frame) (kept left : Frames) (c : Cascade)
    (result : Except Error Returned) :
    x.Hears (kept ++ frame :: left) c (x.afterSingle frame kept left c result) := by
  have before : kept.Refine (kept ++ frame :: left) :=
    (Frames.Refine.refl kept).mono (List.subset_append_left _ _)
  have after : left.Refine (kept ++ frame :: left) :=
    (Frames.Refine.refl left).mono fun f inside => List.mem_append_right _ (List.mem_cons_of_mem _ inside)
  have isolating : (Enriching.isolating kept left).frames.Refine (kept ++ frame :: left) :=
    before.append after
  unfold afterSingle
  split
  · next returned =>
    refine .reports (asked?_afterCheck (fun _ => rfl) _) (afterCheck_refine fun more isKept => ?_)
      (validate_isOfClause x.rule [frame] returned)
    have refined : more.Refine (kept ++ frame :: left) := (refine_of_validate isKept).mono (by simp)
    exact (before.append refined).append after
  · exact .stops _
  · exact .stops _
  · exact Hears.reports_single rfl isolating rfl

/-- An answer is heard after the wait for it has ended. -/
theorem resume_hears (x : Enrichment) (now : Instant) (c : Cascade) (outcome : Outcome Returned)
    {stage : Enriching} (asked : stage.asked? = some frames) :
    x.Hears stage.frames (c.endWait now outcome).2 (x.resume now c outcome stage) := by
  cases stage with
  | batch => exact x.afterBatch_hears ..
  | single => exact x.afterSingle_hears ..
  | isolating | finished | raised => cases asked

theorem resume_of_unasked (x : Enrichment) (now : Instant) (c : Cascade) (outcome : Outcome Returned)
    {stage : Enriching} (unasked : stage.asked? = none) :
    x.resume now c outcome stage = { stage, cascade := c } := by
  cases stage with
  | batch | single => cases unasked
  | isolating | finished | raised => rfl

namespace Hears

variable {x : Enrichment} {held : Frames} {c : Cascade} {turn : StageTurn Enriching}

theorem asked?_eq_none (hears : x.Hears held c turn) : turn.stage.asked? = none := by
  cases hears with
  | reports unasked => exact unasked
  | stops | isolates => rfl

theorem frames_refine (hears : x.Hears held c turn) : turn.stage.frames.Refine held := by
  cases hears with
  | reports _ refine => exact refine
  | stops => exact nofun
  | isolates => exact .refl held

end Hears

theorem resume_refine (x : Enrichment) (now : Instant) (c : Cascade) (outcome : Outcome Returned)
    (stage : Enriching) : (x.resume now c outcome stage).stage.frames.Refine stage.frames := by
  cases asked : stage.asked? with
  | some => exact (x.resume_hears now c outcome asked).frames_refine
  | none =>
    rw [x.resume_of_unasked now c outcome asked]
    exact .refl stage.frames

end Enrichment

end Choreography
