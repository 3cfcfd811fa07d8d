import Choreography.Proofs.Activity
import Choreography.Proofs.Enrichment.Framewise
import Choreography.Proofs.Frame.Join
import Choreography.Proofs.Matching.Stability

/-! Where-clauses made of helpers: frames are filtered, extended one by one and joined with the
answers of queries. What comes out of such helpers has grown out of what went in. So the check of the
where-stage accepts all of it as it is, but for one thing: a frame that binds a variable of the
when-clause to what is not a number disagrees with itself there, and is dropped. -/

namespace Choreography

/-- A frame has grown out of another one: it refines that one, and names first what that one
names. -/
structure Frame.GrewFrom (g f : Frame) : Prop where
  refines : g.Refines f
  begins : Fields.names f.bindings <+: Fields.names g.bindings
  unique : (Fields.names f.bindings).Nodup → (Fields.names g.bindings).Nodup

/-- What a where-clause does with its frames by means that are made for it. Predicates, values and
queries may do whatever activities do. -/
inductive Helper where
  | filter (keeps : Frame → Activity Bool)
  | extend (values : Frame → Activity Fields)
  | query (ask : Fields → Activity Value) (inputs : FieldPatterns) (outputs : List (String × String))

namespace Helper

/-- What a helper makes of frames. -/
def run : Helper → Frames → Activity Frames
  | .filter keeps, frames => frames.filterM keeps
  | .extend values, frames =>
    frames.mapM fun f => do Activity.ofExcept (f.extendOrRaise (← values f))
  | .query ask inputs outputs, frames => Frames.query ask inputs outputs frames

/-- One helper after the other. -/
def runAll : List Helper → Frames → Activity Frames
  | [], frames => pure frames
  | helper :: later, frames => do runAll later (← helper.run frames)

/-- A where-clause is made of helpers: all that it returns is what they return. -/
def MakeUp (helpers : List Helper) (clause : Frames → Activity Returned) : Prop :=
  ∀ frames returned, (clause frames).Returns returned →
    ∃ out, (runAll helpers frames).Returns out ∧ returned = .frames out

/-- A step of a where-clause that is a helper. -/
inductive IsStep : Helper → Where.Step → Prop where
  | filter : IsStep (.filter fun f => Activity.ofExcept (Where.Step.passes name equals strict f))
      (.filter name equals strict)
  | extend : IsStep (.extend fun _ => Fields.renew Activity.fresh values) (.extend values)
  | query : IsStep (.query (Activity.ask action) inputs outputs) (.query (.ok action) inputs outputs)

end Helper

/-- A where-clause returns in time. -/
def Activity.Answers (clause : Frames → Activity Returned) (frames : Frames)
    (outcome : Outcome Returned) : Prop :=
  ∃ returned, (clause frames).Returns returned ∧ outcome = .finished (.ok returned)

/-- Whatever an invocation takes and gives names everything once. -/
def Invocation.IsProper (i : Invocation) : Prop := ∀ field ∈ i.input ++ i.output, field.2.IsProper

/-- A frame binds a variable of the when-clause to what is not a number. -/
def Rule.bindsNan (rule : Rule) (f : Frame) : Bool :=
  rule.whens.any fun p => p.occurrences.any fun name => (f.get? name).any Value.isNan

variable {f g h : Frame} {frames out : Frames} {helper : Helper} {helpers : List Helper}
  {rule : Rule} {log : InvocationLog} {trigger : Invocation}

/-! ### Growing -/

namespace Frame.GrewFrom

theorem refl (f : Frame) : f.GrewFrom f := ⟨.refl f, List.prefix_rfl, id⟩

theorem trans (first : h.GrewFrom g) (second : g.GrewFrom f) : h.GrewFrom f where
  refines := first.refines.trans second.refines
  begins := second.begins.trans first.begins
  unique := first.unique ∘ second.unique

end Frame.GrewFrom

theorem Frame.grewFrom_of_extend {values : Fields} (extended : f.extend values = .ok g) : g.GrewFrom f := by
  obtain ⟨admits, rfl⟩ := extend_eq_ok_iff.mp extended
  exact ⟨admits.refines, Fields.prefix_names_merge, Fields.nodup_names_merge⟩

theorem Frame.grewFrom_of_extendOrRaise {values : Fields} (extended : f.extendOrRaise values = .ok g) :
    g.GrewFrom f := by
  unfold extendOrRaise at extended
  cases result : f.extend values with
  | ok =>
    rw [result] at extended
    cases extended
    exact grewFrom_of_extend result
  | error =>
    rw [result] at extended
    cases extended

theorem Frame.extend_of_joinRow? {outputs : List (String × String)} {row : Fields}
    (joined : f.joinRow? outputs row = some g) : ∃ values, f.extend values = .ok g := by
  obtain ⟨values, _, more⟩ := Option.bind_eq_some_iff.mp joined
  refine ⟨values, ?_⟩
  split at more
  · next extended =>
    cases more
    exact extended
  · cases more

/-- All frames have grown out of others. -/
def Frames.Grew (out frames : Frames) : Prop := ∀ g ∈ out, ∃ f ∈ frames, g.GrewFrom f

theorem Frames.Grew.trans {between : Frames} (later : Frames.Grew out between)
    (first : between.Grew frames) : Frames.Grew out frames := by
  intro h inside
  obtain ⟨g, isBetween, grewLater⟩ := later h inside
  obtain ⟨f, isFrame, grew⟩ := first g isBetween
  exact ⟨f, isFrame, grewLater.trans grew⟩

/-! ### Helpers -/

theorem grew_of_query {ask : Fields → Activity Value} {inputs : FieldPatterns}
    {outputs : List (String × String)} (returns : (Frames.query ask inputs outputs frames).Returns out) :
    Frames.Grew out frames := by
  rw [query_eq_mapM] at returns
  obtain ⟨answers, _, isOut⟩ := Activity.returns_bind_iff.mp returns
  cases isOut
  intro g inside
  obtain ⟨joined, isJoined, inJoined⟩ := List.mem_flatten.mp inside
  rw [← List.map_uncurry_zip_eq_zipWith] at isJoined
  obtain ⟨⟨question, answer⟩, isPair, rfl⟩ := List.mem_map.mp isJoined
  obtain ⟨f, isFrame, isQuestion⟩ := List.mem_filterMap.mp (List.of_mem_zip isPair).1
  obtain ⟨passed, _, rfl⟩ := Option.map_eq_some_iff.mp isQuestion
  obtain ⟨row, _, joins⟩ := List.mem_filterMap.mp inJoined
  obtain ⟨values, extended⟩ := Frame.extend_of_joinRow? joins
  exact ⟨f, isFrame, Frame.grewFrom_of_extend extended⟩

theorem grew_of_run (returns : (helper.run frames).Returns out) : Frames.Grew out frames := by
  cases helper with
  | filter keeps =>
    intro g inside
    exact ⟨g, Activity.subset_of_returns_filterM returns inside, .refl g⟩
  | extend values =>
    intro g inside
    obtain ⟨f, isFrame, made⟩ := Activity.exists_of_returns_mapM returns g inside
    obtain ⟨values, _, extended⟩ := Activity.returns_bind_iff.mp made
    exact ⟨f, isFrame, Frame.grewFrom_of_extendOrRaise (Activity.returns_ofExcept_iff.mp extended)⟩
  | query => exact grew_of_query returns

/-- Whatever comes out of helpers has grown out of what went in. -/
theorem grew_of_runAll (returns : (Helper.runAll helpers frames).Returns out) : Frames.Grew out frames := by
  induction helpers generalizing frames with
  | nil =>
    cases returns
    exact fun g inside => ⟨g, inside, .refl g⟩
  | cons helper helpers ih =>
    obtain ⟨between, first, rest⟩ := Activity.returns_bind_iff.mp returns
    exact (ih rest).trans (grew_of_run first)

/-! ### Steps -/

theorem exists_of_forall₂ {relates : α → β → Prop} {relatesToo : α → γ → Prop} {f : γ → β}
    {first : List α} {second : List β}
    (each : ∀ a b, relates a b → ∃ c, relatesToo a c ∧ b = f c) (pairs : List.Forall₂ relates first second) :
    ∃ third, List.Forall₂ relatesToo first third ∧ second = third.map f := by
  induction pairs with
  | nil => exact ⟨[], .nil, rfl⟩
  | cons here _ ih =>
    obtain ⟨c, isRelated, rfl⟩ := each _ _ here
    obtain ⟨third, rest, rfl⟩ := ih
    exact ⟨c :: third, .cons isRelated rest, rfl⟩

/-- What grew out of a frame is put in its place, where that went through a where-clause. -/
theorem Frame.GrewFrom.rebound_eq (grew : g.GrewFrom f) : f.draft.rebound g = g.draft := by
  unfold Draft.rebound Frame.draft
  rw [grew.refines.support, grew.refines.root]

/-- A query about frames is a query about each of them. -/
theorem returns_query_of_each {ask : Fields → Activity Value} {inputs : FieldPatterns}
    {outputs : List (String × String)} {parts : List Frames}
    (each : List.Forall₂ (fun f part => (Frames.query ask inputs outputs [f]).Returns part) frames parts) :
    (Frames.query ask inputs outputs frames).Returns parts.flatten := by
  induction each with
  | nil => exact .done
  | @cons f part frames parts first _ ih =>
    have apart : Frames.query ask inputs outputs (f :: frames) = do
        let here ← Frames.query ask inputs outputs [f]
        let later ← Frames.query ask inputs outputs frames
        return here ++ later := by
      rw [Frames.query, Frames.query]
      cases f.queryInputs? inputs <;> simp [Frames.query]
    rw [apart]
    exact Activity.returns_bind_iff.mpr ⟨part, first, Activity.returns_bind_iff.mpr ⟨_, ih, .done⟩⟩

theorem draft_of_extend {draw : Activity Fields} {d : Draft}
    (returns : (do
      let values ← draw
      return f.draft.rebound (← Activity.ofExcept (f.draft.frame.extendOrRaise values))).Returns d) :
    ∃ g, (do Activity.ofExcept (f.extendOrRaise (← draw)) : Activity Frame).Returns g ∧ d = g.draft := by
  obtain ⟨values, drawn, returns⟩ := Activity.returns_bind_iff.mp returns
  obtain ⟨g, extended, isDraft⟩ := Activity.returns_bind_iff.mp returns
  cases isDraft
  have grew : g.GrewFrom f := Frame.grewFrom_of_extendOrRaise (Activity.returns_ofExcept_iff.mp extended)
  exact ⟨g, Activity.returns_bind_iff.mpr ⟨values, drawn, extended⟩, grew.rebound_eq⟩

theorem drafts_of_query {ask : Fields → Activity Value} {inputs : FieldPatterns}
    {outputs : List (String × String)} {ds : List Draft}
    (returns : (do
      return (← Frames.query ask inputs outputs [f.draft.frame]).map f.draft.rebound).Returns ds) :
    ∃ out, (Frames.query ask inputs outputs [f]).Returns out ∧ ds = out.map Frame.draft := by
  obtain ⟨out, asked, areDrafts⟩ := Activity.returns_bind_iff.mp returns
  cases areDrafts
  refine ⟨out, asked, List.map_congr_left fun g inside => ?_⟩
  obtain ⟨_, isFrame, grew⟩ := grew_of_query asked g inside
  cases List.mem_singleton.mp isFrame
  exact grew.rebound_eq

theorem Helper.IsStep.returns {step : Where.Step} {next : Returned} (isStep : helper.IsStep step)
    (returns : (step.run (.frames frames)).Returns next) :
    ∃ out, (helper.run frames).Returns out ∧ next = .frames out := by
  cases isStep with
  | filter =>
    obtain ⟨_, areDrafts, returns⟩ := Activity.returns_bind_iff.mp returns
    cases areDrafts
    obtain ⟨kept, isKept, isNext⟩ := Activity.returns_bind_iff.mp returns
    cases isNext
    obtain ⟨out, isOut, rfl⟩ :=
      Activity.exists_of_filterM_map (Activity.returns_ofExcept_iff.mp isKept)
    exact ⟨out, Activity.returns_filterM_of_ok isOut, rfl⟩
  | extend =>
    obtain ⟨_, areDrafts, returns⟩ := Activity.returns_bind_iff.mp returns
    cases areDrafts
    obtain ⟨extended, isExtended, isNext⟩ := Activity.returns_bind_iff.mp returns
    cases isNext
    rw [List.mapM_map] at isExtended
    have pairs := Activity.returns_mapM_iff.mp isExtended
    obtain ⟨out, each, rfl⟩ := exists_of_forall₂ (fun f _ made => draft_of_extend (f := f) made) pairs
    exact ⟨out, Activity.returns_mapM_iff.mpr each, rfl⟩
  | query =>
    obtain ⟨_, isAction, returns⟩ := Activity.returns_bind_iff.mp returns
    cases isAction
    obtain ⟨_, _, returns⟩ := Activity.returns_bind_iff.mp returns
    obtain ⟨_, areDrafts, returns⟩ := Activity.returns_bind_iff.mp returns
    cases areDrafts
    obtain ⟨joined, isJoined, isNext⟩ := Activity.returns_bind_iff.mp returns
    cases isNext
    rw [List.mapM_map] at isJoined
    have pairs := Activity.returns_mapM_iff.mp isJoined
    obtain ⟨parts, each, rfl⟩ := exists_of_forall₂ (fun f _ made => drafts_of_query (f := f) made) pairs
    refine ⟨parts.flatten, returns_query_of_each each, ?_⟩
    rw [Returned.frames, List.map_flatten]

/-- The steps of a where-clause make it up, if they are helpers. -/
theorem makeUp_run {steps : Where} (areSteps : List.Forall₂ Helper.IsStep helpers steps) :
    Helper.MakeUp helpers fun frames => Where.run steps (.frames frames) := by
  intro frames returned returns
  induction areSteps generalizing frames with
  | nil =>
    cases returns
    exact ⟨frames, .done, rfl⟩
  | cons isStep _ ih =>
    obtain ⟨next, first, rest⟩ := Activity.returns_bind_iff.mp returns
    obtain ⟨between, isBetween, rfl⟩ := isStep.returns first
    obtain ⟨out, isOut, isReturned⟩ := ih between rest
    exact ⟨out, Activity.returns_bind_iff.mpr ⟨between, isBetween, isOut⟩, isReturned⟩

/-! ### What grew is accepted -/

theorem Value.isNan_eq_false_of_agrees {v w : Value} (agreed : v.agrees w = true) : w.isNan = false := by
  cases isNan : w.isNan with
  | false => rfl
  | true =>
    cases w with
    | float x => exact absurd (Value.agrees_symm agreed) (Value.not_agrees_nan_left isNan)
    | _ => cases isNan

namespace Frame.GrewFrom

variable (grew : g.GrewFrom f) (unique : (Fields.names f.bindings).Nodup)

include grew unique

theorem overlaid_eq : f.overlaid g.bindings = g := by
  have merged : Fields.merge f.bindings (Fields.ofList g.bindings) = g.bindings := by
    rw [Fields.ofList_eq_self (grew.unique unique)]
    exact Fields.merge_eq_incoming (grew.unique unique) grew.begins
  rw [overlaid, merged]
  obtain ⟨bindings, support, root⟩ := g
  rw [← grew.refines.support, ← grew.refines.root]

/-- A frame takes in what grew out of it, unless a variable that it binds has become, or has been
all along, what is not a number. -/
theorem admits_iff (proper : ∀ name bound, f.get? name = some bound → bound.IsProper) :
    f.Admits g.bindings ↔ ∀ name ∈ Fields.names f.bindings, ∀ value,
      g.get? name = some value → value.isNan = false := by
  have asGiven : Fields.ofList g.bindings = g.bindings := Fields.ofList_eq_self (grew.unique unique)
  unfold Admits
  rw [asGiven]
  constructor
  · intro admits name named value given
    obtain ⟨bound, known⟩ := Option.isSome_iff_exists.mp (Fields.has_iff_mem_names.mpr named)
    exact Value.isNan_eq_false_of_agrees (admits name bound value known given)
  · intro numbers name bound value known given
    have named : name ∈ Fields.names f.bindings :=
      Fields.has_iff_mem_names.mp (Option.isSome_iff_exists.mpr ⟨bound, known⟩)
    obtain ⟨kept, isKept, same⟩ := grew.refines.kept name bound known
    cases given.symm.trans isKept
    rcases same with rfl | agreed
    · exact (Value.agrees_self_iff (proper name _ known)).mpr (numbers name named _ given)
    · exact agreed

end Frame.GrewFrom

/-! ### Frames of a rule -/

theorem FieldPatterns.exists_of_mem_observations {fields : FieldPatterns} {given : Fields}
    {name : String} {value : Value} (observed : (name, value) ∈ fields.observations given) :
    ∃ field, (field, value) ∈ given := by
  obtain ⟨⟨field, pattern⟩, _, observes⟩ := List.mem_filterMap.mp observed
  refine ⟨field, Fields.mem_of_get? ?_⟩
  unfold FieldPattern.observation? at observes
  split at observes
  · next isActual =>
    cases observes
    exact isActual
  · cases observes

theorem Pattern.exists_of_mem_observe {p : Pattern} {i : Invocation} {name : String} {value : Value}
    (observed : (name, value) ∈ p.observe i) : ∃ field, (field, value) ∈ i.input ++ i.output := by
  rcases List.mem_append.mp observed with inInputs | inOutputs
  · exact (FieldPatterns.exists_of_mem_observations inInputs).imp fun _ => List.mem_append_left _
  · exact (FieldPatterns.exists_of_mem_observations inOutputs).imp fun _ => List.mem_append_right _

namespace Frame.RestsOn

variable {tuple : List Invocation} (restsOn : f.RestsOn rule trigger tuple)

include restsOn

theorem isProper (proper : ∀ i ∈ tuple, i.IsProper) {name : String} {bound : Value}
    (known : f.get? name = some bound) : bound.IsProper := by
  obtain ⟨observed, isObserved, inObserved⟩ := List.mem_flatten.mp (restsOn.met name bound known)
  rw [← List.map_uncurry_zip_eq_zipWith] at isObserved
  obtain ⟨⟨p, i⟩, isPair, rfl⟩ := List.mem_map.mp isObserved
  obtain ⟨field, isField⟩ := Pattern.exists_of_mem_observe inObserved
  exact proper i (List.of_mem_zip isPair).2 _ isField

theorem bindsNan_eq_false_iff : rule.bindsNan g = false ↔
    ∀ name ∈ Fields.names f.bindings, ∀ value, g.get? name = some value → value.isNan = false := by
  rw [Rule.bindsNan, List.any_eq_false]
  constructor
  · intro noNan name named value given
    obtain ⟨p, isPattern, occurs⟩ := (restsOn.names name).mp named
    have noneOccurs := noNan p isPattern
    rw [Bool.not_eq_true, List.any_eq_false] at noneOccurs
    have notNan := noneOccurs name occurs
    rwa [given, Option.any_some, Bool.not_eq_true] at notNan
  · intro numbers p isPattern
    rw [Bool.not_eq_true, List.any_eq_false]
    intro name occurs
    have named := (restsOn.names name).mpr ⟨p, isPattern, occurs⟩
    cases given : g.get? name with
    | none => exact Bool.false_ne_true
    | some value =>
      rw [Option.any_some, numbers name named value given]
      exact Bool.false_ne_true

end Frame.RestsOn

namespace Enrichment

variable {x : Enrichment} {inputs : Frames} {c : Cascade} {begun : Instant}

/-- What grew out of the frames of a rule is kept as it is, unless it binds what is not a number. -/
theorem yields_of_grew (distinct : (inputs.map (·.support)).Nodup)
    (rest : ∀ f ∈ inputs, ∃ tuple, f.RestsOn rule trigger tuple ∧ ∀ i ∈ tuple, i.IsProper)
    (grew : Frames.Grew out inputs) :
    Yields (judgeAll rule inputs (out.map .frame)) (out.filter fun g => !rule.bindsNan g)
      ((out.filter rule.bindsNan).map fun _ => .binding) := by
  induction out with
  | nil => exact ⟨rfl, rfl⟩
  | cons g out ih =>
    obtain ⟨⟨f, isInput, grewFrom⟩, later⟩ := List.forall_mem_cons.mp grew
    obtain ⟨tuple, restsOn, proper⟩ := rest f isInput
    have admits_iff : f.Admits g.bindings ↔ rule.bindsNan g = false :=
      (grewFrom.admits_iff restsOn.unique fun _ _ => restsOn.isProper proper).trans
        restsOn.bindsNan_eq_false_iff.symm
    have origin := origin?_eq_some distinct isInput grewFrom.refines.support
    have both := (yields_descendant origin).append (ih later)
    rw [grewFrom.overlaid_eq restsOn.unique, if_congr admits_iff rfl rfl, if_congr admits_iff rfl rfl]
      at both
    cases isNan : rule.bindsNan g <;> simpa [isNan] using both

/-- Of what helpers make of the frames of a rule, the where-stage leaves all as it is, in order, but
the frames that bind a variable of the when-clause to what is not a number; for each of these there
is one fault of binding, and no fault besides. So it is with no helper at all. -/
theorem eventually_composed {clause : Frames → Activity Returned} (made : Helper.MakeUp helpers clause)
    (possible : ∃ returned, (clause (x.rule.matchAt x.trigger log)).Returns returned)
    (reached : log.Reachable) (proper : ∀ i, i = x.trigger ∨ i ∈ log.entries → i.IsProper)
    (isClause : x.rule.enrich.isSome = true) (calm : c.IsCalmAt begun) :
    Eventually (x.Proceeds (Activity.Answers clause))
      (fun ended =>
        (∃ out, (clause (x.rule.matchAt x.trigger log)).Returns (.frames out) ∧
          IsOver ended.1 (out.filter fun g => !x.rule.bindsNan g)
            ((out.filter x.rule.bindsNan).map fun _ => .binding)) ∧
        c.Records ended.1.cascade ended.1.events)
      (x.start (x.rule.matchAt x.trigger log) c begun, begun) := by
  refine eventually_records ?_
  have rest : ∀ f ∈ x.rule.matchAt x.trigger log,
      ∃ tuple, f.RestsOn x.rule x.trigger tuple ∧ ∀ i ∈ tuple, i.IsProper := by
    intro f found
    obtain ⟨tuple, restsOn, known⟩ := exists_restsOn_of_mem_matchAt reached.coherent found
    exact ⟨tuple, restsOn, fun i inside => proper i (known i inside)⟩
  have distinct := nodup_matchAt x.rule x.trigger log
  generalize x.rule.matchAt x.trigger log = frames at rest distinct possible ⊢
  obtain ⟨returned, returns⟩ := possible
  by_cases empty : frames = []
  · subst empty
    obtain ⟨out, isOut, rfl⟩ := made [] returned returns
    have nothing : out = [] := List.eq_nil_iff_forall_not_mem.mpr fun g inside => by
      obtain ⟨f, isFrame, _⟩ := grew_of_runAll isOut g inside
      cases isFrame
    subst nothing
    refine .now ⟨[], returns, ?_⟩
    rw [start_nil]
    exact ⟨rfl, rfl⟩
  rw [start_eq_batch isClause empty calm]
  refine eventually_of_asked rfl calm ⟨_, returned, returns, rfl⟩ fun outcome heard answer isCalm => ?_
  obtain ⟨answered, isAnswered, rfl⟩ := answer
  obtain ⟨out, isOut, rfl⟩ := made frames answered isAnswered
  have yields : Yields (validate x.rule frames (.frames out)) _ _ :=
    validate_yields (Returned.sequence?_frames out) (yields_of_grew distinct rest (grew_of_runAll isOut))
  refine .now ⟨out, isAnswered, ?_, ?_⟩
  · dsimp only [StageTurn.followedBy, resume_batch, afterBatch]
    rw [yields.kept]
    rfl
  · rw [← yields.kinds]
    exact kinds_of_report _

end Enrichment

/-! ### A gauge -/

namespace Gauge

open Enrichment

def read (level : Value) : Invocation where
  id := 1
  action := ⟨"Gauge", "read"⟩
  input := []
  output := [("level", level)]
  causes := []
  root := 1
  depth := 0
  ancestors := []

def noted (level : Value) : InvocationLog := ({} : InvocationLog).enter (read level)

theorem noted_reachable (level : Value) : (noted level).Reachable := by
  have isRead : ({} : InvocationLog).append ⟨"Gauge", "read"⟩ [] [("level", level)] [] =
      .ok (noted level, read level) := rfl
  exact InvocationLog.Reachable.start.append isRead

theorem noted_proper {level : Value} (proper : level.IsProper) :
    ∀ i, i = read level ∨ i ∈ (noted level).entries → i.IsProper := by
  have isRead : ∀ i, i = read level ∨ i ∈ (noted level).entries → i = read level := by
    rintro i (rfl | inside)
    · rfl
    · exact List.mem_singleton.mp inside
  intro i known
  rw [isRead i known]
  exact List.forall_mem_singleton.mpr proper

/-- Keeps high water, and tells what is to be hoisted. -/
def hoist : Where := [.filter "level" (.text "high") false, .extend [("flag", .text "red")]]

def hoistHelpers : List Helper :=
  [.filter fun f => Activity.ofExcept (Where.Step.passes "level" (.text "high") false f),
    .extend fun _ => Fields.renew Activity.fresh [("flag", .text "red")]]

theorem hoist_made : Helper.MakeUp hoistHelpers fun frames => Where.run hoist (.frames frames) :=
  makeUp_run (.cons .filter (.cons .extend .nil))

def reading (level : Value) (clause : Where) : Enrichment where
  rule :=
    { name := "warn", whens := [{ action := ⟨"Gauge", "read"⟩, outputs := [("level", .variable "level")] }]
      enrich := some clause }
  trigger := read level
  limit := none

/-- The frames of a reading. -/
def readings (level : Value) (clause : Where) : Frames :=
  (reading level clause).rule.matchAt (read level) (noted level)

/-- A frame of a reading that is high, with its flag. -/
def flagged : Frame where
  bindings := [("level", .text "high"), ("flag", .text "red")]
  support := [1]
  root := some 1

theorem eventually_composed_high :
    (Where.run hoist (.frames (readings (.text "high") hoist))).Returns (.frames [flagged]) ∧
    Eventually ((reading (.text "high") hoist).Proceeds
        (Activity.Answers fun frames => Where.run hoist (.frames frames)))
      (fun ended =>
        (∃ out, (Where.run hoist (.frames (readings (.text "high") hoist))).Returns (.frames out) ∧
          IsOver ended.1 (out.filter fun g => !(reading (.text "high") hoist).rule.bindsNan g)
            ((out.filter (reading (.text "high") hoist).rule.bindsNan).map fun _ => .binding)) ∧
        ({ root := 1 } : Cascade).Records ended.1.cascade ended.1.events)
      ((reading (.text "high") hoist).start (readings (.text "high") hoist) { root := 1 } 0, 0) :=
  have returns : (Where.run hoist (.frames (readings (.text "high") hoist))).Returns
      (.frames [flagged]) := .done
  ⟨returns, eventually_composed hoist_made ⟨_, returns⟩ (noted_reachable _)
    (noted_proper (.leaf (fun _ => nofun) fun _ => nofun)) rfl rfl⟩

/-- What the gauge says when it is broken. -/
def unreadable : Value := .float (.nan 0)

/-- A reading that is not a number is dropped by the check although no helper touched it. -/
theorem drops_unreadable :
    (readings unreadable []).map (·.support) = [[1]] ∧
    (∀ now, (Where.run [] (.frames (readings unreadable []))).Returns (.frames (readings unreadable [])) ∧
      IsOver ((reading unreadable []).resume now { root := 1 }
        (.finished (.ok (.frames (readings unreadable [])))) (.batch (readings unreadable []) none))
        [] [.binding]) :=
  ⟨rfl, fun _ => ⟨.done, rfl, rfl⟩⟩

end Gauge

end Choreography
