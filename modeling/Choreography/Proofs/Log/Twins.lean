import Choreography.Proofs.Log.History
import Mathlib.Data.List.Forall2
import Mathlib.Data.List.Pairwise

/-! Cascades that take the same course in two logs. Their invocations are paired by their places
in the cascade. The identifiers of a pair need not be the same, since other cascades may have
taken some, but they come in the same order, and that is all that a log looks at. -/

namespace Choreography

/-- Invocations of two logs, in pairs. -/
abbrev Twins := List (Invocation × Invocation)

namespace Twins

/-- Two invocations are a pair. -/
def Pair (twins : Twins) (i j : Invocation) : Prop := (i, j) ∈ twins

/-- Two identifiers are those of a pair. -/
def Name (twins : Twins) (a b : InvocationId) : Prop :=
  ∃ pair ∈ twins, pair.1.id = a ∧ pair.2.id = b

/-- Two invocations say the same, each in terms of its own log. -/
structure Alike (twins : Twins) (i j : Invocation) : Prop where
  action : i.action = j.action
  input : i.input = j.input
  output : i.output = j.output
  causes : List.Forall₂ twins.Name i.causes j.causes
  depth : i.depth = j.depth
  ancestors : List.Forall₂ twins.Name i.ancestors j.ancestors

/-- A pair has smaller identifiers than another, on both sides. -/
def Before (first second : Invocation × Invocation) : Prop :=
  first.1.id < second.1.id ∧ first.2.id < second.2.id

def Ascending (twins : Twins) : Prop := twins.Pairwise Before

variable {twins more : Twins} {a b c d : InvocationId} {i j : Invocation}
  {ids others : List InvocationId}

theorem Pair.name (pair : twins.Pair i j) : twins.Name i.id j.id := ⟨(i, j), pair, rfl, rfl⟩

theorem Name.mono (included : twins ⊆ more) (name : twins.Name a b) : more.Name a b := by
  obtain ⟨pair, inside, isFirst, isSecond⟩ := name
  exact ⟨pair, included inside, isFirst, isSecond⟩

theorem Alike.mono (included : twins ⊆ more) (alike : twins.Alike i j) : more.Alike i j where
  action := alike.action
  input := alike.input
  output := alike.output
  causes := alike.causes.imp fun _ _ => Name.mono included
  depth := alike.depth
  ancestors := alike.ancestors.imp fun _ _ => Name.mono included

/-! ### The order of the identifiers -/

namespace Ascending

variable (ascending : twins.Ascending)

include ascending

/-- Of two pairs one comes first on both sides, or they are the same pair. -/
theorem compare (isFirst : first ∈ twins) (isSecond : second ∈ twins) :
    Before first second ∨ first = second ∨ Before second first := by
  have forth : twins.Pairwise fun p q => Before p q ∨ p = q ∨ Before q p := ascending.imp .inl
  have back : twins.Pairwise (flip fun p q => Before p q ∨ p = q ∨ Before q p) :=
    ascending.imp fun before => .inr (.inr before)
  exact forth.forall_of_forall_of_flip (fun _ _ => .inr (.inl rfl)) back isFirst isSecond

theorem lt_iff (first : twins.Name a b) (second : twins.Name c d) : a < c ↔ b < d := by
  obtain ⟨p, isFirst, rfl, rfl⟩ := first
  obtain ⟨q, isSecond, rfl, rfl⟩ := second
  rcases ascending.compare isFirst isSecond with ⟨less, alsoLess⟩ | rfl | ⟨less, alsoLess⟩
  · exact iff_of_true less alsoLess
  · exact iff_of_false (Int.lt_irrefl _) (Int.lt_irrefl _)
  · exact iff_of_false (Int.lt_asymm less) (Int.lt_asymm alsoLess)

theorem le_iff (first : twins.Name a b) (second : twins.Name c d) : a ≤ c ↔ b ≤ d := by
  rw [← Int.not_lt, ← Int.not_lt, ascending.lt_iff second first]

theorem eq_iff (first : twins.Name a b) (second : twins.Name c d) : a = c ↔ b = d := by
  rw [Int.le_antisymm_iff, Int.le_antisymm_iff, ascending.le_iff first second,
    ascending.le_iff second first]

theorem mem_iff (name : twins.Name a b) (names : List.Forall₂ twins.Name ids others) :
    a ∈ ids ↔ b ∈ others := by
  induction names with
  | nil => exact iff_of_false List.not_mem_nil List.not_mem_nil
  | cons head _ ih => rw [List.mem_cons, List.mem_cons, ascending.eq_iff name head, ih]

theorem list_eq_iff {ids' others' : List InvocationId} (names : List.Forall₂ twins.Name ids others)
    (alsoNames : List.Forall₂ twins.Name ids' others') : ids = ids' ↔ others = others' := by
  induction names generalizing ids' others' with
  | nil => cases alsoNames <;> simp
  | cons head _ ih =>
    cases alsoNames with
    | nil => simp
    | cons head' tail' =>
      rw [List.cons.injEq, List.cons.injEq, ascending.eq_iff head head', ih tail']

theorem insertSorted (name : twins.Name a b) (names : List.Forall₂ twins.Name ids others) :
    List.Forall₂ twins.Name (insertSorted a ids) (insertSorted b others) := by
  induction names with
  | nil => exact .cons name .nil
  | @cons m n ids others head tail ih =>
    rw [Choreography.insertSorted, Choreography.insertSorted]
    by_cases less : a < m
    · rw [if_pos less, if_pos ((ascending.lt_iff name head).mp less)]
      exact .cons name (.cons head tail)
    · rw [if_neg less, if_neg ((ascending.lt_iff name head).not.mp less)]
      by_cases same : a = m
      · rw [if_pos same, if_pos ((ascending.eq_iff name head).mp same)]
        exact .cons head tail
      · rw [if_neg same, if_neg ((ascending.eq_iff name head).not.mp same)]
        exact .cons head ih

theorem sortedSet (names : List.Forall₂ twins.Name ids others) :
    List.Forall₂ twins.Name (sortedSet ids) (sortedSet others) := by
  induction names with
  | nil => exact .nil
  | cons head _ ih => exact ascending.insertSorted head ih

end Ascending

end Twins

namespace InvocationLog

/-- The invocations of a cascade with those of another log's cascade, by their places. -/
def twins (log mirror : InvocationLog) (root image : InvocationId) : Twins :=
  (log.cascade root).zip (mirror.cascade image)

/-- A cascade takes the same course in two logs. -/
structure Mirrors (log mirror : InvocationLog) (root image : InvocationId) : Prop where
  coherent : log.Coherent
  mirrored : mirror.Coherent
  length : (log.cascade root).length = (mirror.cascade image).length
  alike : ∀ pair ∈ log.twins mirror root image, (log.twins mirror root image).Alike pair.1 pair.2

variable {log mirror grown reflected : InvocationLog} {root image : InvocationId}
  {a b c d : InvocationId} {i j : Invocation} {ids others : List InvocationId}

theorem Coherent.cascade_ascending (coherent : log.Coherent) (root : InvocationId) :
    (log.cascade root).Pairwise (·.id < ·.id) := by
  rw [coherent.cascade_eq]
  exact coherent.ascending.filter _

namespace Mirrors

variable (mirrors : log.Mirrors mirror root image)

include mirrors

theorem pairs : List.Forall₂ (log.twins mirror root image).Pair (log.cascade root)
    (mirror.cascade image) :=
  List.forall₂_iff_zip.mpr ⟨mirrors.length, fun inside => inside⟩

theorem ascending : (log.twins mirror root image).Ascending := by
  have firsts : (log.twins mirror root image).map (·.1) = log.cascade root :=
    List.map_fst_zip (Nat.le_of_eq mirrors.length)
  have seconds : (log.twins mirror root image).map (·.2) = mirror.cascade image :=
    List.map_snd_zip (Nat.le_of_eq mirrors.length.symm)
  have left := mirrors.coherent.cascade_ascending root
  have right := mirrors.mirrored.cascade_ascending image
  rw [← firsts, List.pairwise_map] at left
  rw [← seconds, List.pairwise_map] at right
  exact left.and right

theorem mem_cascades (pair : (log.twins mirror root image).Pair i j) :
    (i ∈ log.entries ∧ i.root = root) ∧ j ∈ mirror.entries ∧ j.root = image := by
  obtain ⟨isFirst, isSecond⟩ := List.of_mem_zip pair
  exact ⟨mirrors.coherent.mem_cascade.mp isFirst, mirrors.mirrored.mem_cascade.mp isSecond⟩

/-- What has the identifiers of a pair is that pair. -/
theorem pair_of_name (held : i ∈ log.entries) (alsoHeld : j ∈ mirror.entries)
    (name : (log.twins mirror root image).Name i.id j.id) : (log.twins mirror root image).Pair i j := by
  obtain ⟨⟨k, l⟩, inside, isFirst, isSecond⟩ := name
  obtain ⟨⟨isHeld, _⟩, isAlsoHeld, _⟩ := mirrors.mem_cascades inside
  have first : k = i := mirrors.coherent.eq_of_id_eq isHeld held isFirst
  have second : l = j := mirrors.mirrored.eq_of_id_eq isAlsoHeld alsoHeld isSecond
  exact first ▸ second ▸ inside

theorem exists_pair (name : (log.twins mirror root image).Name a b) :
    ∃ i j, (log.twins mirror root image).Pair i j ∧ log.get? a = some i ∧ mirror.get? b = some j := by
  obtain ⟨⟨i, j⟩, inside, rfl, rfl⟩ := name
  obtain ⟨⟨held, _⟩, alsoHeld, _⟩ := mirrors.mem_cascades inside
  exact ⟨i, j, inside, mirrors.coherent.get?_of_mem held, mirrors.mirrored.get?_of_mem alsoHeld⟩

theorem exists_pairs (names : List.Forall₂ (log.twins mirror root image).Name ids others) :
    ∃ found seen, ids.mapM log.get = .ok found ∧ others.mapM mirror.get = .ok seen ∧
      List.Forall₂ (log.twins mirror root image).Pair found seen := by
  induction names with
  | nil => exact ⟨[], [], rfl, rfl, .nil⟩
  | cons head _ ih =>
    obtain ⟨i, j, pair, isFirst, isSecond⟩ := mirrors.exists_pair head
    obtain ⟨found, seen, areFound, areSeen, pairs⟩ := ih
    refine ⟨i :: found, j :: seen, ?_, ?_, .cons pair pairs⟩
    · rw [List.mapM_cons, get_eq_ok_iff.mpr isFirst, areFound]
      rfl
    · rw [List.mapM_cons, get_eq_ok_iff.mpr isSecond, areSeen]
      rfl

/-! ### Questions about the cascade -/

theorem ancestorsOf (name : (log.twins mirror root image).Name a b) :
    List.Forall₂ (log.twins mirror root image).Name (log.ancestorsOf a) (mirror.ancestorsOf b) := by
  obtain ⟨i, j, pair, isFirst, isSecond⟩ := mirrors.exists_pair name
  rw [InvocationLog.ancestorsOf, InvocationLog.ancestorsOf, isFirst, isSecond]
  exact (mirrors.alike _ pair).ancestors

theorem related_eq (first : (log.twins mirror root image).Name a b)
    (second : (log.twins mirror root image).Name c d) : log.related a c = mirror.related b d := by
  have ascending := mirrors.ascending
  have same : (a == c) = (b == d) := by
    rw [Bool.eq_iff_iff, beq_iff_eq, beq_iff_eq, ascending.eq_iff first second]
  have forth := ascending.mem_iff first (mirrors.ancestorsOf second)
  have back := ascending.mem_iff second (mirrors.ancestorsOf first)
  rw [related, related, same, decide_eq_decide.mpr forth, decide_eq_decide.mpr back]

theorem candidates (pair : (log.twins mirror root image).Pair i j) (action : ActionRef) :
    List.Forall₂ (log.twins mirror root image).Pair (log.candidates action i.root i.id)
      (mirror.candidates action j.root j.id) := by
  obtain ⟨⟨_, isRoot⟩, _, isImage⟩ := mirrors.mem_cascades pair
  have inCascade {log : InvocationLog} (coherent : log.Coherent) (root last : InvocationId) :
      log.candidates action root last =
        (log.cascade root).filter fun k => k.action = action ∧ k.id ≤ last := by
    rw [coherent.candidates_eq, coherent.cascade_eq, List.filter_filter]
    refine List.filter_congr fun k _ => ?_
    rw [← Bool.decide_and, decide_eq_decide, and_comm]
  rw [isRoot, isImage, inCascade mirrors.coherent, inCascade mirrors.mirrored]
  refine List.rel_filter (fun k l isPair => ?_) mirrors.pairs
  have same : (k.action = action ∧ k.id ≤ i.id) ↔ (l.action = action ∧ l.id ≤ j.id) := by
    rw [(mirrors.alike _ isPair).action, mirrors.ascending.le_iff isPair.name pair.name]
  exact decide_eq_true_iff.trans (same.trans decide_eq_true_iff.symm)

/-! ### One more invocation -/

/-- The causes of a call, where they are in the log of their cascade. -/
theorem held_of_names (names : List.Forall₂ (log.twins mirror root image).Name ids others) :
    (∀ id ∈ ids, ∃ i ∈ log.entries, i.id = id ∧ i.root = root) ∧
      ∀ id ∈ others, ∃ j ∈ mirror.entries, j.id = id ∧ j.root = image := by
  induction names with
  | nil => exact ⟨nofun, nofun⟩
  | cons head _ ih =>
    obtain ⟨⟨i, j⟩, pair, rfl, rfl⟩ := head
    obtain ⟨⟨held, isRoot⟩, alsoHeld, isImage⟩ := mirrors.mem_cascades pair
    exact ⟨List.forall_mem_cons.mpr ⟨⟨i, held, rfl, isRoot⟩, ih.1⟩,
      List.forall_mem_cons.mpr ⟨⟨j, alsoHeld, rfl, isImage⟩, ih.2⟩⟩

/-- Causes that are pairs are found as pairs. -/
theorem pairs_of_names {causes effects : List Invocation} (held : ∀ p ∈ causes, p ∈ log.entries)
    (alsoHeld : ∀ q ∈ effects, q ∈ mirror.entries)
    (names : List.Forall₂ (log.twins mirror root image).Name (causes.map (·.id)) (effects.map (·.id))) :
    List.Forall₂ (log.twins mirror root image).Pair causes effects := by
  rw [List.forall₂_map_left_iff, List.forall₂_map_right_iff] at names
  induction names with
  | nil => exact .nil
  | cons head _ ih =>
    obtain ⟨isHeld, areHeld⟩ := List.forall_mem_cons.mp held
    obtain ⟨isAlsoHeld, areAlsoHeld⟩ := List.forall_mem_cons.mp alsoHeld
    exact .cons (mirrors.pair_of_name isHeld isAlsoHeld head) (ih areHeld areAlsoHeld)

omit mirrors in
theorem cascade_enter (coherent : log.Coherent) (isNext : i.id = log.next) :
    (log.enter i).cascade root = log.cascade root ++ if i.root = root then [i] else [] := by
  rw [(coherent.enter isNext).cascade_eq, coherent.cascade_eq, entries_enter, List.filter_append]
  by_cases isRoot : i.root = root <;> simp [isRoot]

/-- Two invocations with twin causes say the same. -/
theorem describe_alike (action : ActionRef) (input output : Fields) {parents forebears : List Invocation}
    (pairs : List.Forall₂ (log.twins mirror root image).Pair parents forebears) :
    (log.twins mirror root image).Alike (log.describe action input output parents)
      (mirror.describe action input output forebears) where
  action := rfl
  input := rfl
  output := rfl
  causes := by
    rw [describe, describe, List.forall₂_map_left_iff, List.forall₂_map_right_iff]
    exact pairs.imp fun _ _ => Twins.Pair.name
  depth := by
    rw [describe, describe]
    dsimp only
    induction pairs with
    | nil => rfl
    | cons head _ ih => rw [List.foldr_cons, List.foldr_cons, ih, (mirrors.alike _ head).depth]
  ancestors := by
    refine mirrors.ascending.sortedSet (List.rel_flatMap pairs fun p q isPair => ?_)
    exact .cons isPair.name (mirrors.alike _ isPair).ancestors

/-- Two invocations that say the same come next in both cascades. -/
theorem enter (isNext : i.id = log.next) (isNextThere : j.id = mirror.next) (isRoot : i.root = root)
    (isImage : j.root = image) (alike : (log.twins mirror root image).Alike i j) :
    (log.enter i).Mirrors (mirror.enter j) root image ∧
      (log.enter i).twins (mirror.enter j) root image = log.twins mirror root image ++ [(i, j)] := by
  have first : (log.enter i).cascade root = log.cascade root ++ [i] := by
    rw [cascade_enter mirrors.coherent isNext, if_pos isRoot]
  have second : (mirror.enter j).cascade image = mirror.cascade image ++ [j] := by
    rw [cascade_enter mirrors.mirrored isNextThere, if_pos isImage]
  have twins : (log.enter i).twins (mirror.enter j) root image =
      log.twins mirror root image ++ [(i, j)] := by
    rw [InvocationLog.twins, first, second, List.zip_append mirrors.length]
    rfl
  refine ⟨?_, twins⟩
  constructor
  case coherent => exact mirrors.coherent.enter isNext
  case mirrored => exact mirrors.mirrored.enter isNextThere
  case length => rw [first, second, List.length_append, List.length_append, mirrors.length]; rfl
  case alike =>
    intro pair inside
    rw [twins] at inside ⊢
    have included : log.twins mirror root image ⊆ log.twins mirror root image ++ [(i, j)] :=
      List.subset_append_left _ _
    rcases List.mem_append.mp inside with old | isNew
    · exact (mirrors.alike pair old).mono included
    · rw [List.mem_singleton.mp isNew]
      exact alike.mono included

/-- What is caused by twins belongs to their cascades. -/
theorem describe_root (action : ActionRef) (input output : Fields) {parents forebears : List Invocation}
    (pairs : List.Forall₂ (log.twins mirror root image).Pair parents forebears)
    (isCaused : parents ≠ []) : (log.describe action input output parents).root = root ∧
      (mirror.describe action input output forebears).root = image := by
  cases pairs with
  | nil => exact absurd rfl isCaused
  | cons head _ =>
    obtain ⟨⟨_, isRoot⟩, _, isImage⟩ := mirrors.mem_cascades head
    exact ⟨isRoot, isImage⟩

/-- Two calls with twin causes are logged as twins. -/
theorem append (names : List.Forall₂ (log.twins mirror root image).Name ids others)
    (isCaused : ids ≠ []) (action : ActionRef) (input output : Fields) :
    ∃ i j, log.append action input output ids = .ok (log.enter i, i) ∧
      mirror.append action input output others = .ok (mirror.enter j, j) ∧
      i.id = log.next ∧ j.id = mirror.next ∧ (log.enter i).Mirrors (mirror.enter j) root image ∧
      (log.enter i).twins (mirror.enter j) root image = log.twins mirror root image ++ [(i, j)] := by
  obtain ⟨held, alsoHeld⟩ := mirrors.held_of_names names
  obtain ⟨i, logged⟩ : ∃ i, log.append action input output ids = .ok (log.enter i, i) :=
    mirrors.coherent.append_ok held
  obtain ⟨j, mirrored⟩ : ∃ j, mirror.append action input output others = .ok (mirror.enter j, j) :=
    mirrors.mirrored.append_ok alsoHeld
  obtain ⟨parents, areCauses, areHeld, _, isFirst, _⟩ := mirrors.coherent.append_eq_ok logged
  obtain ⟨forebears, alsoCauses, areMirrored, _, isSecond, _⟩ := mirrors.mirrored.append_eq_ok mirrored
  -- The causes are sorted and looked up, which keeps them paired; so the calls say the same.
  have sorted := mirrors.ascending.sortedSet names
  rw [← areCauses, ← alsoCauses] at sorted
  have pairs := mirrors.pairs_of_names areHeld areMirrored sorted
  have nonempty : parents ≠ [] := by
    rintro rfl
    obtain ⟨id, inside⟩ := List.exists_mem_of_ne_nil ids isCaused
    have stillInside := mem_sortedSet.mpr inside
    rw [← areCauses] at stillInside
    cases stillInside
  have alike := mirrors.describe_alike action input output pairs
  obtain ⟨isRoot, isImage⟩ := mirrors.describe_root action input output pairs nonempty
  subst isFirst isSecond
  exact ⟨_, _, logged, mirrored, rfl, rfl, mirrors.enter rfl rfl isRoot isImage alike⟩

/-- What happens in other cascades does not matter. -/
theorem congr {later : InvocationLog} (coherent : later.Coherent)
    (same : later.cascade root = log.cascade root) :
    later.Mirrors mirror root image ∧ later.twins mirror root image = log.twins mirror root image := by
  have twins : later.twins mirror root image = log.twins mirror root image := by
    rw [InvocationLog.twins, same, InvocationLog.twins]
  exact ⟨⟨coherent, mirrors.mirrored, same ▸ mirrors.length, twins ▸ mirrors.alike⟩, twins⟩

end Mirrors

/-- Cascades with nothing in them mirror each other. -/
theorem Mirrors.empty (coherent : log.Coherent) (mirrored : mirror.Coherent)
    (isEmpty : log.cascade root = []) (alsoEmpty : mirror.cascade image = []) :
    log.Mirrors mirror root image := by
  refine ⟨coherent, mirrored, isEmpty ▸ alsoEmpty ▸ rfl, fun pair inside => ?_⟩
  rw [twins, isEmpty] at inside
  cases inside

/-! ### The course of a cascade -/

/-- The place of an identifier among those of a cascade. -/
def rank (log : InvocationLog) (root id : InvocationId) : Nat :=
  ((log.cascade root).filter (·.id ≤ id)).length

end InvocationLog

/-- What an invocation says, with ranks in the place of identifiers. -/
structure Ranked where
  action : ActionRef
  input : Fields
  output : Fields
  depth : Nat
  causes : List Nat
  ancestors : List Nat

namespace InvocationLog

/-- The invocations of a cascade in their order, with ranks in the place of identifiers. -/
def course (log : InvocationLog) (root : InvocationId) : List Ranked :=
  (log.cascade root).map fun i =>
    { action := i.action
      input := i.input
      output := i.output
      depth := i.depth
      causes := i.causes.map (log.rank root)
      ancestors := i.ancestors.map (log.rank root) }

namespace Mirrors

variable {log mirror : InvocationLog} {root image : InvocationId} {a b : InvocationId}
  {ids others : List InvocationId} (mirrors : log.Mirrors mirror root image)

include mirrors

theorem rank_eq (name : (log.twins mirror root image).Name a b) :
    log.rank root a = mirror.rank image b := by
  refine (List.rel_filter (fun k l isPair => ?_) mirrors.pairs).length_eq
  have same := mirrors.ascending.le_iff isPair.name name
  exact decide_eq_true_iff.trans (same.trans decide_eq_true_iff.symm)

theorem map_rank_eq (names : List.Forall₂ (log.twins mirror root image).Name ids others) :
    ids.map (log.rank root) = others.map (mirror.rank image) := by
  induction names with
  | nil => rfl
  | cons head _ ih => rw [List.map_cons, List.map_cons, ih, mirrors.rank_eq head]

/-- Cascades that mirror each other have the same course. -/
theorem course_eq : log.course root = mirror.course image := by
  rw [← List.forall₂_eq_eq_eq]
  refine List.rel_map (fun i j isPair => ?_) mirrors.pairs
  have alike := mirrors.alike _ isPair
  rw [alike.action, alike.input, alike.output, alike.depth, mirrors.map_rank_eq alike.causes,
    mirrors.map_rank_eq alike.ancestors]

end Mirrors

end InvocationLog

end Choreography
