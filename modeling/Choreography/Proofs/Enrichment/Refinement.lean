import Choreography.Proofs.Enrichment.Course

/-! What a where-stage makes of its frames. Whatever its where-clause does, the frames that come out
refine frames that went in. If the where-clause returns a sequence for all frames together, each thing
in it is accepted or is the reason for exactly one fault; but a frame that rests on something that
cannot be looked up ends the stage with an error. -/

namespace Choreography

namespace Enrichment

/-- What a stage has come to after its where-clause has returned certain things for all frames
together. Their check decides whether it has finished or ended with an error, and whatever was
rejected is the reason for one fault, which is delivered and recorded. -/
structure Sifts (x : Enrichment) (frames : Frames) (c : Cascade) (items : List Item)
    (checked : Except Error Frames) (rejected : List Rejection) (turn : StageTurn Enriching) :
    Prop where
  checks : Checks frames items checked rejected
  finished : ∀ kept, checked = .ok kept → turn.stage = .finished kept
  raised : ∀ error, checked = .error error → turn.stage = .raised error
  delivered : turn.events = (rejected.map (x.fault c)).map .fault
  recorded : turn.cascade = (rejected.map (x.fault c)).foldl Cascade.recordFault c
  counted : ∀ kept, checked = .ok kept → kept.length + rejected.length = items.length
  goesThrough : (∃ kept, checked = .ok kept) ↔ ∀ item ∈ items, item.flaw? = none
  empty : items = [] → checked = .ok [] ∧ rejected = []

variable {x : Enrichment} {answers : Frames → Outcome Returned → Prop} {frames given : Frames}
  {c : Cascade} {now begun : Instant} {s t : StageTurn Enriching} {items : List Item}
  {returned : Returned}

theorem goesThrough_iff (rule : Rule) (inputs : Frames) (items : List Item) :
    (∃ kept, (judgeAll rule inputs items).1 = .ok kept) ↔ ∀ item ∈ items, item.flaw? = none := by
  rw [judgeAll_fst, ← List.findSome?_eq_none_iff]
  cases items.findSome? Item.flaw? with
  | none => simp
  | some error => simp

theorem Checks.length_add_length {kept : Frames} {rejected : List Rejection}
    (checks : Checks frames items (.ok kept) rejected) :
    kept.length + rejected.length = items.length := by
  cases checks with
  | through sorts => exact sorts.length_add_length

/-- Things that came back for all frames together are sifted. -/
theorem sifts_afterBatch (x : Enrichment) (frames : Frames) (c : Cascade)
    (isSequence : returned.sequence? = some items) :
    x.Sifts frames c items (judgeAll x.rule frames items).1 (judgeAll x.rule frames items).2
      (x.afterBatch frames c (.ok returned)) := by
  have checks := checks_judgeAll x.rule frames items
  have isStage : (x.afterBatch frames c (.ok returned)).stage =
      afterCheck .finished (judgeAll x.rule frames items).1 := by
    rw [afterBatch, validate_eq_judgeAll isSequence]
  constructor
  case checks => exact checks
  case finished =>
    intro kept isKept
    rw [isStage, isKept]
    rfl
  case raised =>
    intro error isError
    rw [isStage, isError]
    rfl
  case delivered => rw [afterBatch, validate_eq_judgeAll isSequence]; rfl
  case recorded => rw [afterBatch, validate_eq_judgeAll isSequence]; rfl
  case counted =>
    intro kept isKept
    rw [isKept] at checks
    exact checks.length_add_length
  case goesThrough => exact goesThrough_iff x.rule frames items
  case empty =>
    rintro rfl
    exact ⟨rfl, rfl⟩

/-! ### The course of the stage -/

/-- No frames are given to a where-clause together but those that a stage begins with. -/
theorem Turns.not_batch (turns : x.Turns answers now s t) (given : Frames) (ends : Option Instant) :
    t.stage ≠ .batch given ends := by
  cases turns with
  | @step kept left isolating =>
    rw [StageTurn.followedBy, isolating]
    intro isBatch
    cases left with
    | nil => cases isBatch
    | cons frame left =>
      rw [Enrichment.step] at isBatch
      split at isBatch <;> cases isBatch
  | @hear asking outcome asked =>
    have unasked := (x.resume_hears now s.cascade outcome asked).asked?_eq_none
    intro isBatch
    cases unasked.symm.trans (congrArg Enriching.asked? isBatch)

/-- As long as it waits for its where-clause with all frames, a stage has told nothing. -/
theorem of_batch (course : Relation.ReflTransGen (x.Happens answers) (x.start frames c begun) t)
    (waits : t.stage = .batch given ends) : given = frames ∧ t.events = [] := by
  induction course with
  | refl =>
    unfold start at waits ⊢
    split at waits
    · cases waits
    · next toDo =>
      rw [if_neg toDo]
      split at waits <;> cases waits
      exact ⟨rfl, rfl⟩
  | tail _ happens ih =>
    cases happens with
    | turn now turns => exact absurd waits (turns.not_batch given ends)
    | cancel => exact ih waits

/-- Whatever a where-clause does, all frames that a where-stage comes to refine frames that it was
given. If it returns a sequence for all of them together, the frames that are accepted come in the
order of the things in it, each thing is accepted or is the reason for one fault, and nothing comes
of an empty one; unless there is a thing that cannot be checked, which ends the stage with an error.
A stage that nothing stops comes to this. -/
theorem refines_inputs (x : Enrichment) (answers : Frames → Outcome Returned → Prop) (frames : Frames)
    (c : Cascade) (begun : Instant) :
    (∀ t kept, Relation.ReflTransGen (x.Happens answers) (x.start frames c begun) t →
      t.stage = .finished kept → kept.Refine frames) ∧
    (∀ t given ends now returned items,
      Relation.ReflTransGen (x.Happens answers) (x.start frames c begun) t →
      t.stage = .batch given ends → returned.sequence? = some items →
        ∃ checked rejected, x.Sifts frames t.cascade items checked rejected
          (t.followedBy (x.resume now t.cascade (.finished (.ok returned)) t.stage))) ∧
    (x.rule.enrich.isSome = true → frames ≠ [] → c.IsCalmAt begun →
      (∃ outcome, answers frames outcome) →
      (∀ outcome, answers frames outcome → ∃ returned items,
        outcome = .finished (.ok returned) ∧ returned.sequence? = some items) →
      Eventually (x.Proceeds answers)
        (fun reached => ∃ returned items checked rejected, answers frames (.finished (.ok returned)) ∧
          returned.sequence? = some items ∧ x.Sifts frames c items checked rejected reached.1)
        (x.start frames c begun, begun)) := by
  refine ⟨?_, ?_, ?_⟩
  · intro t kept course isFinished
    have refine := refine_of_course course
    rw [isFinished] at refine
    exact Frames.Refine.mono refine (x.start_subset frames c begun)
  · intro t given ends now returned items course waits isSequence
    obtain ⟨rfl, untold⟩ := of_batch course waits
    have sifts := x.sifts_afterBatch given t.cascade isSequence
    rw [StageTurn.followedBy, untold, List.nil_append, waits, resume_batch]
    exact ⟨_, _, sifts⟩
  · intro isClause notEmpty calm answered sequences
    rw [start_eq_batch isClause notEmpty calm]
    refine eventually_of_asked rfl calm answered fun outcome heard answer _ => .now ?_
    obtain ⟨returned, items, rfl, isSequence⟩ := sequences outcome answer
    have sifts := x.sifts_afterBatch frames c isSequence
    rw [StageTurn.followedBy, List.nil_append, resume_batch]
    exact ⟨returned, items, _, _, answer, isSequence, sifts⟩

end Enrichment

/-! ### Ships at a quay -/

namespace Quay

open Enrichment

def ships : Frames :=
  [{ bindings := [("name", .text "Anna")], support := [1], root := some 1 },
    { bindings := [("name", .text "Bertha")], support := [2], root := some 1 }]

def mooring : Enrichment where
  rule := { name := "moor", whens := [{ action := ⟨"Ship", "arrive"⟩ }], enrich := some [] }
  trigger :=
    { id := 2, action := ⟨"Ship", "arrive"⟩, input := [], output := [], causes := [], root := 1,
      depth := 1, ancestors := [1] }
  limit := none

def tide : Cascade := { root := 1 }

/-- A berth for one ship, a remark, another name for the other ship, and a ship that nobody has
seen. -/
def told : Returned :=
  .sequence false
    [.draft { bindings := [("berth", .int 4)], basis := .support [2] }, .value (.text "fog"),
      .draft { bindings := [("name", .text "Clara")], basis := .support [1] },
      .draft { basis := .support [9] }]

/-- The stage after the quay has been told so. -/
def moored : StageTurn Enriching :=
  (mooring.start ships tide 0).followedBy
    (mooring.resume 0 tide (.finished (.ok told)) (mooring.start ships tide 0).stage)

/-- A ship with its berth. -/
def berthed : Frame where
  bindings := [("name", .text "Bertha"), ("berth", .int 4)]
  support := [2]
  root := some 1

theorem refines_inputs_moored :
    moored.stage = .finished [berthed] ∧ Frames.Refine [berthed] ships ∧
    (delivered moored.events).map (·.kind?) = [some .enrichment, some .binding, some .enrichment] ∧
    (∃ items checked rejected, mooring.Sifts ships tide items checked rejected moored) ∧
    Eventually (mooring.Proceeds fun _ outcome => outcome = .finished (.ok told))
      (fun reached => ∃ returned items checked rejected,
        (Outcome.finished (.ok returned) : Outcome Returned) = .finished (.ok told) ∧
          returned.sequence? = some items ∧ mooring.Sifts ships tide items checked rejected reached.1)
      (mooring.start ships tide 0, 0) := by
  have isMoored : moored.stage = .finished [berthed] := rfl
  have course : Relation.ReflTransGen (mooring.Happens fun _ outcome => outcome = .finished (.ok told))
      (mooring.start ships tide 0) moored := .single (.turn 0 (.hear rfl rfl))
  obtain ⟨refine, sifts, eventually⟩ :=
    refines_inputs mooring (fun _ outcome => outcome = .finished (.ok told)) ships tide 0
  refine ⟨isMoored, refine moored _ course isMoored, by decide +kernel, ?_, ?_⟩
  · exact ⟨_, sifts (mooring.start ships tide 0) ships none 0 told _ .refl rfl rfl⟩
  · exact eventually rfl nofun rfl ⟨_, rfl⟩ fun outcome isTold => ⟨told, _, isTold, rfl⟩

/-- A ship that is known by a list. -/
def ghost : Draft where
  basis := .tuple [.list [.int 1]]

/-- Both ships would be accepted, but with the other one nothing is accepted, and nothing is told. -/
theorem moors_nothing :
    (judgeAll mooring.rule ships (ships.map .frame)).1 = .ok ships ∧
    (mooring.start ships tide 0).stage = .batch ships none ∧
    mooring.resume 0 tide (.finished (.ok (.drafts (ships.map Frame.draft ++ [ghost])))) (.batch ships none) =
      { stage := .raised (.plain .type "unhashable type: 'list'"), cascade := tide, events := [] } :=
  ⟨rfl, rfl, rfl⟩

end Quay

end Choreography
