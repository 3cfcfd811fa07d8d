import Choreography.Frame.Query
import Choreography.Proofs.Frame
import Mathlib.Data.List.Forall2
import Mathlib.Data.List.Pairwise

/-! Joining frames with the answers of a query. The query is asked once for each frame in which its
inputs are known, in the order of the frames, and each row of an answer that fits the frame gives
one frame, in the order of the rows. -/

namespace Choreography

namespace Frame

/-- What a frame passes for the inputs of a query: values as they are, variables as the frame binds
them, and nothing for a wildcard. -/
inductive Passes (f : Frame) : FieldPatterns → Fields → Prop where
  | nil : Passes f [] []
  | literal (later : Passes f inputs passed) :
      Passes f ((field, .literal value) :: inputs) ((field, value) :: passed)
  | variable (bound : f.get? name = some value) (later : Passes f inputs passed) :
      Passes f ((field, .variable name) :: inputs) ((field, value) :: passed)
  | wildcard (later : Passes f inputs passed) : Passes f ((field, .wildcard) :: inputs) passed

/-- A frame leaves a variable among the inputs of a query unbound. -/
def Lacks (f : Frame) (inputs : FieldPatterns) : Prop :=
  ∃ input ∈ inputs, ∃ name, input.2 = .variable name ∧ f.get? name = none

end Frame

/-- What a query is asked about frames, one after the other: nothing about a frame that lacks one of
its inputs. -/
inductive Frames.Ask (inputs : FieldPatterns) : Frames → List (Frame × Fields) → Prop where
  | nil : Frames.Ask inputs [] []
  | ask (passes : f.Passes inputs passed) (later : Frames.Ask inputs frames questions) :
      Frames.Ask inputs (f :: frames) ((f, passed) :: questions)
  | pass (lacks : f.Lacks inputs) (later : Frames.Ask inputs frames questions) :
      Frames.Ask inputs (f :: frames) questions

/-- The rows among several things: the maps that report no error. -/
inductive Rows : List Value → List Fields → Prop where
  | nil : Rows [] []
  | row (sound : isErrorOutput fields = false) (later : Rows values rows) :
      Rows (.map fields :: values) (fields :: rows)
  | skip (noRow : ∀ fields, value = .map fields → isErrorOutput fields = true)
      (later : Rows values rows) : Rows (value :: values) rows

/-- The things that a query answers with: those of a list, or else the answer alone. -/
def Value.parts : Value → List Value
  | .list items => items
  | answer => [answer]

/-- The value that a row has for a variable. Of the fields that are to give it one, the last
counts. -/
def rowValue? (outputs : List (String × String)) (row : Fields) (name : String) : Option Value :=
  (outputs.reverse.find? fun output => output.2 == name).bind fun output => Fields.get? row output.1

namespace Frame

/-- A row fits a frame: it has every field that is asked for, and no value for a variable that
stands against what the frame binds it to. -/
structure FitsRow (f : Frame) (outputs : List (String × String)) (row : Fields) : Prop where
  complete : ∀ output ∈ outputs, ∃ value, Fields.get? row output.1 = some value
  agreeing : ∀ name bound value, f.get? name = some bound → rowValue? outputs row name = some value →
    bound.agrees value = true

/-- A frame is another one with the values of a row: it rests on the same invocations, and binds
whatever that one binds and the variables of the row. -/
structure IsJoinOf (g f : Frame) (outputs : List (String × String)) (row : Fields) : Prop where
  support : g.support = f.support
  root : g.root = f.root
  bound : ∀ name, g.get? name = (rowValue? outputs row name).or (f.get? name)

/-- A frame joined with rows, one after the other. -/
inductive Joins (f : Frame) (outputs : List (String × String)) : List Fields → Frames → Prop where
  | nil : Joins f outputs [] []
  | join (fits : f.FitsRow outputs row) (isJoin : g.IsJoinOf f outputs row)
      (later : Joins f outputs rows joined) : Joins f outputs (row :: rows) (g :: joined)
  | skip (unfit : ¬f.FitsRow outputs row) (later : Joins f outputs rows joined) :
      Joins f outputs (row :: rows) joined

end Frame

/-- If two fields of a row are to give one variable its value, then they agree. -/
def FieldsAgree (row : Fields) (first second : String × String) : Prop :=
  first.2 = second.2 → ∀ value other, Fields.get? row first.1 = some value →
    Fields.get? row second.1 = some other → value.agrees other = true

instance (row : Fields) : Std.Symm (FieldsAgree row) where
  symm _ _ agree sameName value other isValue isOther :=
    Value.agrees_symm (agree sameName.symm other value isOther isValue)

variable {f g : Frame} {inputs : FieldPatterns} {outputs : List (String × String)}
  {passed row extra : Fields} {name : String}

/-! ### What is asked -/

namespace Frame

theorem queryInputs?_eq_none_iff : f.queryInputs? inputs = none ↔ f.Lacks inputs := by
  unfold queryInputs?
  split
  · next known =>
    refine iff_of_false nofun ?_
    rintro ⟨input, inside, name, isVariable, unbound⟩
    have isBound := List.all_eq_true.mp known input inside
    rw [isVariable] at isBound
    simp only [FieldPattern.name?, Option.all_some, unbound, Option.isSome_none, reduceCtorEq]
      at isBound
  · next unknown =>
    refine iff_of_true rfl ?_
    rw [List.all_eq_true, not_forall] at unknown
    obtain ⟨input, unbound⟩ := unknown
    obtain ⟨inside, unbound⟩ := Classical.not_imp.mp unbound
    refine ⟨input, inside, ?_⟩
    cases isPattern : input.2 with
    | «variable» name =>
      rw [isPattern] at unbound
      exact ⟨name, rfl, by simpa [FieldPattern.name?] using unbound⟩
    | literal | wildcard =>
      rw [isPattern] at unbound
      exact absurd rfl unbound

theorem passes_resolve (known : ¬f.Lacks inputs) : f.Passes inputs (f.resolve inputs) := by
  induction inputs with
  | nil => exact .nil
  | cons input inputs ih =>
    have later := ih fun ⟨input, inside, lacks⟩ => known ⟨input, List.mem_cons_of_mem _ inside, lacks⟩
    obtain ⟨field, pattern⟩ := input
    cases pattern with
    | literal => exact .literal later
    | wildcard => exact .wildcard later
    | «variable» name =>
      cases isBound : f.get? name with
      | none => exact absurd ⟨_, List.mem_cons_self, name, rfl, isBound⟩ known
      | some value =>
        have resolved : f.resolve ((field, .variable name) :: inputs) =
            (field, value) :: f.resolve inputs := by
          rw [resolve, List.filterMap_cons, resolve?, isBound]
          rfl
        rw [resolved]
        exact .variable isBound later

theorem passes_of_queryInputs? (asks : f.queryInputs? inputs = some passed) : f.Passes inputs passed := by
  have known : ¬f.Lacks inputs := by
    rw [← queryInputs?_eq_none_iff, asks]
    exact nofun
  unfold queryInputs? at asks
  split at asks <;> cases asks
  exact passes_resolve known

end Frame

theorem ask_filterMap (inputs : FieldPatterns) (frames : Frames) :
    frames.Ask inputs (frames.filterMap fun f => (f.queryInputs? inputs).map (f, ·)) := by
  induction frames with
  | nil => exact .nil
  | cons f frames ih =>
    rw [List.filterMap_cons]
    cases asks : f.queryInputs? inputs with
    | none => exact .pass (Frame.queryInputs?_eq_none_iff.mp asks) ih
    | some passed => exact .ask (Frame.passes_of_queryInputs? asks) ih

/-- The query is called for its questions in their order, and each answer is joined with the frame
that was asked about. -/
theorem query_eq_mapM {m : Type → Type u} [Monad m] [LawfulMonad m] (call : Fields → m Value)
    (inputs : FieldPatterns) (outputs : List (String × String)) (frames : Frames) :
    Frames.query call inputs outputs frames = do
      let questions := frames.filterMap fun f => (f.queryInputs? inputs).map (f, ·)
      let answers ← questions.mapM fun question => call question.2
      return (List.zipWith (fun question answer => question.1.joinRows outputs answer)
        questions answers).flatten := by
  induction frames with
  | nil => simp [Frames.query]
  | cons f frames ih =>
    rw [Frames.query, List.filterMap_cons]
    cases f.queryInputs? inputs with
    | none => simp [ih]
    | some passed => simp [ih]

/-! ### The rows of an answer -/

theorem rows_filterMap (values : List Value) : Rows values (values.filterMap resultRow?) := by
  induction values with
  | nil => exact .nil
  | cons value values ih =>
    rw [List.filterMap_cons]
    cases value with
    | map fields =>
      by_cases isError : isErrorOutput fields = true
      · rw [resultRow?, if_pos isError]
        refine .skip ?_ ih
        rintro _ ⟨⟩
        exact isError
      · rw [resultRow?, if_neg isError]
        exact .row (Bool.eq_false_iff.mpr isError) ih
    | _ => exact .skip nofun ih

theorem rows_singleton (value : Value) : Rows [value] (resultRow? value).toList := by
  have asList : [value].filterMap resultRow? = (resultRow? value).toList := by
    rw [List.filterMap_cons]
    cases resultRow? value <;> rfl
  exact asList ▸ rows_filterMap [value]

theorem rows_resultRows (answer : Value) : Rows answer.parts (resultRows answer) := by
  cases answer with
  | list items => exact rows_filterMap items
  | _ => exact rows_singleton _

/-! ### What a row binds -/

theorem rowBindings?_eq_some_iff : rowBindings? outputs row = some extra ↔
    List.Forall₂ (fun output entry => Fields.get? row output.1 = some entry.2 ∧ entry.1 = output.2)
      outputs extra := by
  induction outputs generalizing extra with
  | nil => simp [rowBindings?, eq_comm]
  | cons output outputs ih =>
    obtain ⟨field, name⟩ := output
    constructor
    · intro binds
      obtain ⟨value, isValue, more⟩ := Option.bind_eq_some_iff.mp binds
      obtain ⟨later, isLater, isExtra⟩ := Option.bind_eq_some_iff.mp more
      cases isExtra
      exact .cons ⟨isValue, rfl⟩ (ih.mp isLater)
    · rintro (_ | ⟨⟨isValue, isName⟩, later⟩)
      rw [rowBindings?, isValue, ih.mpr later]
      cases isName
      rfl

theorem exists_rowBindings?_iff : (∃ extra, rowBindings? outputs row = some extra) ↔
    ∀ output ∈ outputs, ∃ value, Fields.get? row output.1 = some value := by
  induction outputs with
  | nil => exact iff_of_true ⟨_, rfl⟩ nofun
  | cons output outputs ih =>
    rw [List.forall_mem_cons, ← ih]
    constructor
    · rintro ⟨extra, binds⟩
      obtain ⟨value, isValue, more⟩ := Option.bind_eq_some_iff.mp binds
      obtain ⟨later, isLater, _⟩ := Option.bind_eq_some_iff.mp more
      exact ⟨⟨value, isValue⟩, later, isLater⟩
    · rintro ⟨⟨value, isValue⟩, later, isLater⟩
      exact ⟨(output.2, value) :: later, by rw [rowBindings?, isValue, isLater]; rfl⟩

theorem get?_of_forall₂ {entries : Fields} (aligned : List.Forall₂
      (fun output entry => Fields.get? row output.1 = some entry.2 ∧ entry.1 = output.2) outputs entries) :
    Fields.get? entries name =
      (outputs.find? fun output => output.2 == name).bind fun output => Fields.get? row output.1 := by
  induction aligned with
  | nil => rfl
  | @cons output entry _ _ same _ ih =>
    obtain ⟨isValue, isName⟩ := same
    rw [Fields.get?_cons, List.find?_cons, isName, ih]
    by_cases called : output.2 = name
    · rw [if_pos called.symm, beq_iff_eq.mpr called]
      exact isValue.symm
    · rw [if_neg (Ne.symm called), beq_false_of_ne called]

theorem get?_ofList_rowBindings (binds : rowBindings? outputs row = some extra) :
    Fields.get? (Fields.ofList extra) name = rowValue? outputs row name := by
  rw [Fields.get?_ofList, rowValue?]
  exact get?_of_forall₂ (List.forall₂_reverse_iff.mpr (rowBindings?_eq_some_iff.mp binds))

namespace Frame

/-- A row joins a frame exactly if it fits, and then the frame takes on its values. -/
theorem joinRow?_spec (f : Frame) (outputs : List (String × String)) (row : Fields) :
    (∃ g, f.joinRow? outputs row = some g ∧ f.FitsRow outputs row ∧ g.IsJoinOf f outputs row) ∨
      f.joinRow? outputs row = none ∧ ¬f.FitsRow outputs row := by
  unfold joinRow?
  cases binds : rowBindings? outputs row with
  | none =>
    refine .inr ⟨rfl, fun fits => ?_⟩
    obtain ⟨extra, isExtra⟩ := exists_rowBindings?_iff.mpr fits.complete
    rw [isExtra] at binds
    cases binds
  | some extra =>
    have complete := exists_rowBindings?_iff.mp ⟨extra, binds⟩
    have admits_iff : f.Admits extra ↔ f.FitsRow outputs row := by
      constructor
      · intro admits
        refine ⟨complete, fun name bound value known given => admits name bound value known ?_⟩
        rwa [get?_ofList_rowBindings binds]
      · intro fits name bound value known given
        rw [get?_ofList_rowBindings binds] at given
        exact fits.agreeing name bound value known given
    cases extends? : f.extend extra with
    | ok g =>
      obtain ⟨admits, rfl⟩ := extend_eq_ok_iff.mp extends?
      refine .inl ⟨f.overlaid extra, by simp [extends?], admits_iff.mp admits, rfl, rfl, fun name => ?_⟩
      rw [get?_overlaid, get?_ofList_rowBindings binds]
    | error conflict =>
      refine .inr ⟨by simp [extends?], fun fits => ?_⟩
      rw [extend_eq_ok_iff.mpr ⟨admits_iff.mpr fits, rfl⟩] at extends?
      cases extends?

theorem joins_filterMap (f : Frame) (outputs : List (String × String)) (rows : List Fields) :
    f.Joins outputs rows (rows.filterMap (f.joinRow? outputs)) := by
  induction rows with
  | nil => exact .nil
  | cons row rows ih =>
    rw [List.filterMap_cons]
    rcases f.joinRow?_spec outputs row with ⟨g, joins, fits, isJoin⟩ | ⟨unjoined, unfit⟩
    · rw [joins]
      exact .join fits isJoin ih
    · rw [unjoined]
      exact .skip unfit ih

end Frame

/-! ### Fields that name one variable -/

theorem rowValue?_eq_some {value : Value} (isValue : rowValue? outputs row name = some value) :
    ∃ output ∈ outputs, output.2 = name ∧ Fields.get? row output.1 = some value := by
  obtain ⟨output, found, isField⟩ := Option.bind_eq_some_iff.mp isValue
  have inside := List.mem_reverse.mp (List.mem_of_find?_eq_some found)
  have called := List.find?_some found
  exact ⟨output, inside, beq_iff_eq.mp called, isField⟩

/-- If the fields that name one variable agree in a row, then it is enough to compare each field by
itself. -/
theorem fitsRow_iff (agree : outputs.Pairwise (FieldsAgree row)) : f.FitsRow outputs row ↔
    ∀ output ∈ outputs, ∃ value, Fields.get? row output.1 = some value ∧
      ∀ bound, f.get? output.2 = some bound → bound.agrees value = true := by
  constructor
  · intro fits output inside
    obtain ⟨value, isValue⟩ := fits.complete output inside
    refine ⟨value, isValue, fun bound known => ?_⟩
    cases found : outputs.reverse.find? fun other => other.2 == output.2 with
    | none =>
      exact absurd (beq_self_eq_true output.2)
        (List.find?_eq_none.mp found output (List.mem_reverse.mpr inside))
    | some last =>
      have isLast : last ∈ outputs := List.mem_reverse.mp (List.mem_of_find?_eq_some found)
      have called := List.find?_some found
      have sameName : last.2 = output.2 := beq_iff_eq.mp called
      obtain ⟨lastValue, isLastValue⟩ := fits.complete last isLast
      have counts : rowValue? outputs row output.2 = some lastValue := by
        rw [rowValue?, found]
        exact isLastValue
      have lastAgrees := fits.agreeing output.2 bound lastValue known counts
      by_cases same : last = output
      · rw [same, isValue] at isLastValue
        cases isLastValue
        exact lastAgrees
      · have compatible := agree.forall isLast inside same
        exact Value.agrees_trans lastAgrees (compatible sameName lastValue value isLastValue isValue)
  · intro each
    refine ⟨fun output inside => ?_, fun name bound value known given => ?_⟩
    · obtain ⟨value, isValue, _⟩ := each output inside
      exact ⟨value, isValue⟩
    · obtain ⟨output, inside, rfl, isValue⟩ := rowValue?_eq_some given
      obtain ⟨other, isOther, agreed⟩ := each output inside
      cases isValue.symm.trans isOther
      exact agreed bound known

/-- A query is called once for each frame that lacks none of its inputs, in the order of the frames,
and each row of what it answers joins that frame exactly if it fits it, in the order of the rows. A
row fits by the last of the fields that name a variable; the others are compared with nothing. Only
if all of them agree is it the same to compare each of them with the frame. -/
theorem query_joins {m : Type → Type u} [Monad m] [LawfulMonad m] (inputs : FieldPatterns)
    (outputs : List (String × String)) (frames : Frames) :
    ∃ questions, frames.Ask inputs questions ∧
      (∀ call : Fields → m Value, Frames.query call inputs outputs frames = do
        let answers ← questions.mapM fun question => call question.2
        return (List.zipWith (fun question answer => question.1.joinRows outputs answer)
          questions answers).flatten) ∧
      (∀ (f : Frame) (answer : Value), ∃ rows, Rows answer.parts rows ∧
        f.Joins outputs rows (f.joinRows outputs answer)) ∧
      ∀ (f : Frame) (row : Fields), outputs.Pairwise (FieldsAgree row) →
        (f.FitsRow outputs row ↔
          ∀ output ∈ outputs, ∃ value, Fields.get? row output.1 = some value ∧
            ∀ bound, f.get? output.2 = some bound → bound.agrees value = true) :=
  ⟨_, ask_filterMap inputs frames, fun call => query_eq_mapM call inputs outputs frames,
    fun f answer => ⟨_, rows_resultRows answer, f.joins_filterMap outputs _⟩,
    fun _ _ agree => fitsRow_iff agree⟩

/-! ### Two scales -/

namespace Scales

/-- Two scales, which are to give one weight. -/
def weights : List (String × String) := [("left", "weight"), ("right", "weight")]

/-- Notes what is to be weighed. The scales do not agree. -/
def weigh (parcel : Fields) : StateM (List Fields) Value := do
  modify (· ++ [parcel])
  return .map [("left", .int 1), ("right", .int 2)]

def parcels : Frames := [{ bindings := [("id", .int 7)], support := [1] }, { support := [2] }]

theorem query_joins_parcels :
    LawfulMonad (StateM (List Fields)) ∧
    ∃ questions, parcels.Ask [("parcel", .variable "id")] questions ∧
      (∀ call : Fields → StateM (List Fields) Value,
        Frames.query call [("parcel", .variable "id")] weights parcels = do
          let answers ← questions.mapM fun question => call question.2
          return (List.zipWith (fun question answer => question.1.joinRows weights answer)
            questions answers).flatten) ∧
      (∀ (f : Frame) (answer : Value), ∃ rows, Rows answer.parts rows ∧
        f.Joins weights rows (f.joinRows weights answer)) ∧
      ∀ (f : Frame) (row : Fields), weights.Pairwise (FieldsAgree row) →
        (f.FitsRow weights row ↔
          ∀ output ∈ weights, ∃ value, Fields.get? row output.1 = some value ∧
            ∀ bound, f.get? output.2 = some bound → bound.agrees value = true) :=
  ⟨inferInstance, query_joins [("parcel", .variable "id")] weights parcels⟩

/-- The parcel joins with a weight that one of the scales denies. -/
theorem joins_despite_scales :
    ¬weights.Pairwise (FieldsAgree [("left", .int 1), ("right", .int 2)]) ∧
    ((Frames.query weigh [("parcel", .variable "id")] weights parcels).run []).1.map
      (fun f => (f.support, f.get? "weight")) = [([1], some (.int 2))] ∧
    ((Frames.query weigh [("parcel", .variable "id")] weights parcels).run []).2 =
      [[("parcel", .int 7)]] := by
  refine ⟨fun agree => ?_, rfl, rfl⟩
  have agreed := (List.pairwise_pair.mp agree) rfl (.int 1) (.int 2) rfl rfl
  exact absurd agreed (by decide +kernel)

end Scales

end Choreography
