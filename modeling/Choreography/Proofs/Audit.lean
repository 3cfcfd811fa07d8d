import Choreography.Audit
import Choreography.Proofs.Fields
import Choreography.Proofs.Log.History

/-! What the audit holds. A recorder is handed invocations of one log, by any number of saves that
may overlap; each opens a session of its own, which may fail. What the recorder remembers has been
written, and what a save was handed that has not failed is written when it ends. -/

namespace Choreography

open InvocationLog

/-- The rows that were written, if any were. -/
def Event.rows? : Event → Option (List AuditRow)
  | .recorded rows => some rows
  | _ => none

/-- How far a save has come. -/
inductive SaveStage where
  /-- Waits for its session. -/
  | writing (batch : Batch)
  | ended (result : Except Error Unit)

/-- A call of the recorder, and what it was handed. -/
structure Save where
  handed : List Invocation
  stage : SaveStage

/-- Rows that were written together. -/
structure Commit where
  root : InvocationId
  rows : List AuditRow

/-- A log with its recorder, and what the recorder has written. -/
structure Archive where
  log : InvocationLog := {}
  /-- Every invocation that was ever logged, also if it was forgotten. -/
  history : List Invocation := []
  recorder : Recorder := {}
  saves : List Save := []
  commits : List Commit := []

/-- A row says of an invocation what there is to say. -/
structure AuditRow.Describes (row : AuditRow) (i : Invocation) : Prop where
  id : Fields.get? row.toFields "invocation_id" = some (.int i.id)
  root : Fields.get? row.toFields "cascade_root" = some (.int i.root)
  depth : Fields.get? row.toFields "depth" = some (.ofNat i.depth)
  component : Fields.get? row.toFields "component" = some (.text i.action.component)
  operation : Fields.get? row.toFields "operation" = some (.text i.action.operation)
  causes : ∃ sorted : List InvocationId, sorted.Pairwise (· < ·) ∧
    (∀ id, id ∈ sorted ↔ id ∈ i.causes) ∧ Fields.get? row.toFields "caused_by" = some (.list (sorted.map .int))
  failed : Fields.get? row.toFields "is_error" = some (.bool i.failed)

namespace Archive

/-- The archive after a save was begun. It is over at once if nothing is left to be written. -/
def begun (a : Archive) (handed : List Invocation) : Archive :=
  let stage : SaveStage :=
    match a.recorder.prepare? handed with
    | none => .ended (.ok ())
    | some batch => .writing batch
  { a with saves := a.saves ++ [⟨handed, stage⟩] }

/-- The archive after the session of a save was closed, or has failed. -/
def settled (a : Archive) (n : Nat) (handed : List Invocation) (batch : Batch)
    (result : Except Error Unit) : Archive :=
  let (recorder, events, outcome) := a.recorder.settle batch result
  { a with
    recorder
    saves := a.saves.set n ⟨handed, .ended (result >>= fun _ => outcome)⟩
    commits := a.commits ++ (events.filterMap Event.rows?).map (⟨batch.root, ·⟩) }

/-- Everything that can happen in one go. A save may be handed any invocations that were ever
logged. -/
inductive Step : Archive → Archive → Prop where
  | log {a : Archive} (logged : a.log.append action input output causes = .ok (grown, i)) :
      Step a { a with log := grown, history := a.history ++ [i] }
  | forget {a : Archive} (root : InvocationId) : Step a { a with log := a.log.forget root }
  | begin {a : Archive} (known : ∀ i ∈ handed, i ∈ a.history) : Step a (a.begun handed)
  | settle {a : Archive} (underway : a.saves[n]? = some ⟨handed, .writing batch⟩)
      (result : Except Error Unit) : Step a (a.settled n handed batch result)

/-- Whatever happens, in any number of steps. -/
inductive Reaches (start : Archive) : Archive → Prop where
  | start : Reaches start start
  | step (reached : Reaches start a) (next : Step a b) : Reaches start b

/-- An archive in which nothing was saved yet. -/
structure Initial (a : Archive) : Prop where
  log : a.log.Remembers a.history
  saved : a.recorder.saved = []
  saves : a.saves = []
  commits : a.commits = []

/-- Everything that was written. -/
def rows (a : Archive) : List AuditRow := a.commits.flatMap (·.rows)

end Archive

variable {r : Recorder} {batch : Batch} {handed : List Invocation} {i : Invocation}
  {id : InvocationId} {log : InvocationLog} {history : List Invocation}

/-! ### Rows -/

/-- The causes of an invocation are told in order. -/
theorem InvocationLog.Remembers.sorted_causes (remembers : log.Remembers history)
    (inside : i ∈ history) : i.causes.Pairwise (· < ·) := by
  induction remembers with
  | start => cases inside
  | append remembers logged ih =>
    rcases List.mem_append.mp inside with old | new
    · exact ih old
    · obtain ⟨parents, areCauses, _, _, isNew, _⟩ := remembers.coherent.append_eq_ok logged
      rw [List.mem_singleton.mp new, isNew]
      change (parents.map (·.id)).Pairwise (· < ·)
      rw [areCauses]
      exact sortedSet_pairwise _
  | forget _ _ ih => exact ih inside

theorem AuditRow.describes (row : AuditRow) (sorted : row.invocation.causes.Pairwise (· < ·)) :
    row.Describes row.invocation where
  id := rfl
  root := rfl
  depth := rfl
  component := rfl
  operation := rfl
  causes := ⟨_, sorted, fun _ => .rfl, rfl⟩
  failed := rfl

/-! ### What the recorder does -/

namespace Recorder

/-- What is remembered of a cascade. -/
def memory (r : Recorder) (root : InvocationId) : List InvocationId :=
  (List.lookup root r.saved).getD []

theorem exists_entry_of_mem_memory {root : InvocationId} (inside : id ∈ r.memory root) :
    ∃ ids, (root, ids) ∈ r.saved ∧ id ∈ ids := by
  unfold memory at inside
  cases found : List.lookup root r.saved with
  | none =>
    rw [found] at inside
    cases inside
  | some ids =>
    rw [found] at inside
    obtain ⟨before, after, isEntry, _⟩ := List.lookup_eq_some_iff.mp found
    exact ⟨ids, isEntry ▸ List.mem_append_right _ List.mem_cons_self, inside⟩

/-- A save writes what is not remembered of the cascade of its first invocation. -/
theorem prepare?_eq_some (prepared : r.prepare? handed = some batch) :
    ∃ first ∈ handed.head?, batch.root = first.root ∧ batch.known = r.memory first.root ∧
      batch.fresh = handed.filter (·.id ∉ batch.known) ∧ batch.fresh ≠ [] := by
  unfold prepare? at prepared
  split at prepared
  · cases prepared
  · dsimp only at prepared
    split at prepared
    · cases prepared
    · next isFresh left =>
      cases prepared
      exact ⟨_, rfl, rfl, rfl, by simp, left⟩

/-- A save has nothing to write if all it is handed is remembered. -/
theorem prepare?_eq_none (prepared : r.prepare? handed = none) :
    ∀ i ∈ handed, ∃ first ∈ handed.head?, i.id ∈ r.memory first.root := by
  unfold prepare? at prepared
  split at prepared
  · exact List.forall_mem_nil _
  · next first rest =>
    dsimp only at prepared
    split at prepared
    · next known =>
      intro i inside
      have isKnown := List.filter_eq_nil_iff.mp known i inside
      exact ⟨first, rfl, by simpa [memory] using isKnown⟩
    · cases prepared

/-- What the recorder holds after a batch was written, before it forgets what is too much. -/
def grown (r : Recorder) (batch : Batch) : Recorder :=
  { r with
    saved := r.saved.filter (·.1 ≠ batch.root) ++
      [(batch.root, batch.known ++ batch.fresh.map (·.id))] }

theorem trim_of_nonneg (tracks : 0 ≤ r.tracked) : r.trim.2 = .ok () := if_neg (by omega)

/-- What the recorder remembers after a batch was written it remembered before, or is in the
batch. -/
theorem mem_saved_of_written {entry : InvocationId × List InvocationId}
    (inside : entry ∈ (r.grown batch).trim.1.saved) :
    entry ∈ r.saved ∧ entry.1 ≠ batch.root ∨
      entry = (batch.root, batch.known ++ batch.fresh.map (·.id)) := by
  rcases List.mem_append.mp (List.mem_of_mem_drop inside) with old | new
  · obtain ⟨old, isOther⟩ := List.mem_filter.mp old
    exact .inl ⟨old, of_decide_eq_true isOther⟩
  · exact .inr (List.mem_singleton.mp new)

end Recorder

namespace Archive

variable {start a b : Archive} {n : Nat} {save : Save} {result : Except Error Unit}

/-- Something that was written of an identifier. -/
def HasWritten (a : Archive) (id : InvocationId) : Prop := ∃ row ∈ a.rows, row.invocation.id = id

/-! ### What a step does -/

theorem settled_error (a : Archive) (n : Nat) (handed : List Invocation) (batch : Batch) (e : Error) :
    a.settled n handed batch (.error e) =
      { a with saves := a.saves.set n ⟨handed, .ended (.error e)⟩ } := by
  simp [settled, Recorder.settle, Event.rows?, Bind.bind, Except.bind]

/-- A save whose session has accepted its rows has written them. -/
theorem settled_ok (a : Archive) (n : Nat) (handed : List Invocation) (batch : Batch) :
    a.settled n handed batch (.ok ()) =
      { a with
        recorder := (a.recorder.grown batch).trim.1
        saves := a.saves.set n ⟨handed, .ended (a.recorder.grown batch).trim.2⟩
        commits := a.commits ++ [⟨batch.root, batch.fresh.map fun i => ⟨a.recorder.run, i⟩⟩] } := rfl

theorem rows_settled_ok (a : Archive) (n : Nat) (handed : List Invocation) (batch : Batch) :
    (a.settled n handed batch (.ok ())).rows =
      a.rows ++ batch.fresh.map fun i => ⟨a.recorder.run, i⟩ := by
  rw [settled_ok]
  simp [rows]

/-- What was written stays written. -/
theorem mem_rows_settled {row : AuditRow} (handed : List Invocation) (batch : Batch)
    (inside : row ∈ a.rows) : row ∈ (a.settled n handed batch result).rows := by
  cases result with
  | error e => rwa [settled_error]
  | ok =>
    rw [rows_settled_ok]
    exact List.mem_append_left _ inside

theorem HasWritten.settled (written : a.HasWritten id) (handed : List Invocation) (batch : Batch) :
    (a.settled n handed batch result).HasWritten id := by
  obtain ⟨row, inside, isId⟩ := written
  exact ⟨row, mem_rows_settled handed batch inside, isId⟩

/-! ### What every step preserves -/

/-- A save writes what it was handed, as far as it was not written before. -/
structure Save.IsSound (save : Save) (a : Archive) : Prop where
  known : ∀ i ∈ save.handed, i ∈ a.history
  waits : ∀ batch, save.stage = .writing batch →
    (∀ id ∈ batch.known, a.HasWritten id) ∧ (∀ i ∈ batch.fresh, i ∈ save.handed) ∧
      ∀ i ∈ save.handed, i.id ∈ batch.known ∨ i ∈ batch.fresh
  written : save.stage = .ended (.ok ()) → ∀ i ∈ save.handed, a.HasWritten i.id

/-- What is remembered was written, and what was written was logged. -/
structure Sound (a : Archive) : Prop where
  remembers : a.log.Remembers a.history
  logged : ∀ row ∈ a.rows, row.invocation ∈ a.history
  remembered : ∀ entry ∈ a.recorder.saved, ∀ id ∈ entry.2, a.HasWritten id
  saves : ∀ save ∈ a.saves, Save.IsSound save a

theorem Save.IsSound.later (isSound : Save.IsSound save a) (history : ∀ i ∈ a.history, i ∈ b.history)
    (written : ∀ id, a.HasWritten id → b.HasWritten id) : Save.IsSound save b where
  known i inside := history i (isSound.known i inside)
  waits batch isStage := by
    obtain ⟨known, fresh, covers⟩ := isSound.waits batch isStage
    exact ⟨fun id inside => written id (known id inside), fresh, covers⟩
  written ended i inside := written i.id (isSound.written ended i inside)

theorem Sound.hasWritten_of_memory (sound : a.Sound) {root : InvocationId}
    (inside : id ∈ a.recorder.memory root) : a.HasWritten id := by
  obtain ⟨ids, isEntry, inside⟩ := Recorder.exists_entry_of_mem_memory inside
  exact sound.remembered _ isEntry id inside

/-- A save that has just been begun. -/
theorem Sound.isSound_begun (sound : a.Sound) (known : ∀ i ∈ handed, i ∈ a.history)
    (isSave : save ∈ (a.begun handed).saves) : save ∈ a.saves ∨ Save.IsSound save a := by
  rcases List.mem_append.mp isSave with old | new
  · exact .inl old
  cases List.mem_singleton.mp new
  refine .inr ?_
  cases prepared : a.recorder.prepare? handed with
  | none =>
    refine ⟨known, nofun, fun _ i inside => ?_⟩
    obtain ⟨_, _, isKnown⟩ := Recorder.prepare?_eq_none prepared i inside
    exact sound.hasWritten_of_memory isKnown
  | some batch =>
    obtain ⟨_, _, _, isKnown, isFresh, _⟩ := Recorder.prepare?_eq_some prepared
    refine ⟨known, fun other isStage => ?_, nofun⟩
    cases isStage
    refine ⟨fun id inside => sound.hasWritten_of_memory (isKnown ▸ inside), fun i inside => ?_,
      fun i inside => ?_⟩
    · rw [isFresh] at inside
      exact List.mem_of_mem_filter inside
    · rw [isFresh, List.mem_filter, decide_eq_true_iff]
      exact (Decidable.em (i.id ∈ batch.known)).imp_right fun isNew => ⟨inside, isNew⟩

theorem Sound.begun (sound : a.Sound) (known : ∀ i ∈ handed, i ∈ a.history) :
    (a.begun handed).Sound := by
  refine ⟨sound.remembers, sound.logged, sound.remembered, fun save isSave => ?_⟩
  rcases sound.isSound_begun known isSave with old | isSound
  · exact (sound.saves save old).later (fun _ => id) fun _ => id
  · exact isSound.later (fun _ => id) fun _ => id

theorem Sound.settled (sound : a.Sound) (underway : a.saves[n]? = some ⟨handed, .writing batch⟩)
    (result : Except Error Unit) : (a.settled n handed batch result).Sound := by
  have isSave := List.mem_of_getElem? underway
  obtain ⟨known, waits, _⟩ := sound.saves _ isSave
  obtain ⟨areKnown, areHanded, covers⟩ := waits batch rfl
  have others {save : Save} (old : save ∈ a.saves) :
      Save.IsSound save (a.settled n handed batch result) :=
    (sound.saves save old).later (fun _ => id) fun _ written => written.settled handed batch
  cases result with
  | error e =>
    rw [settled_error] at others ⊢
    refine ⟨sound.remembers, sound.logged, sound.remembered, fun save inside => ?_⟩
    rcases List.mem_or_eq_of_mem_set inside with old | rfl
    · exact others old
    · exact ⟨known, nofun, nofun⟩
  | ok =>
    have isNew {i : Invocation} (isFresh : i ∈ batch.fresh) :
        (a.settled n handed batch (.ok ())).HasWritten i.id := by
      refine ⟨⟨a.recorder.run, i⟩, ?_, rfl⟩
      rw [rows_settled_ok]
      exact List.mem_append_right _ (List.mem_map_of_mem isFresh)
    have isOld {id : InvocationId} (written : a.HasWritten id) :
        (a.settled n handed batch (.ok ())).HasWritten id := written.settled handed batch
    constructor
    case remembers => exact sound.remembers
    case logged =>
      intro row inside
      rw [rows_settled_ok] at inside
      rcases List.mem_append.mp inside with old | new
      · exact sound.logged row old
      · obtain ⟨i, isFresh, rfl⟩ := List.mem_map.mp new
        exact known i (areHanded i isFresh)
    case remembered =>
      intro entry inside id isRemembered
      rcases Recorder.mem_saved_of_written inside with ⟨old, _⟩ | rfl
      · exact isOld (sound.remembered entry old id isRemembered)
      · rcases List.mem_append.mp isRemembered with isKnown | isAdded
        · exact isOld (areKnown id isKnown)
        · obtain ⟨i, isFresh, rfl⟩ := List.mem_map.mp isAdded
          exact isNew isFresh
    case saves =>
      intro save inside
      rw [settled_ok] at inside
      rcases List.mem_or_eq_of_mem_set inside with old | rfl
      · exact others old
      · refine ⟨known, nofun, fun _ i isHanded => ?_⟩
        exact (covers i isHanded).elim (fun isKnown => isOld (areKnown _ isKnown)) isNew

theorem Sound.step (sound : a.Sound) (next : a.Step b) : b.Sound := by
  cases next with
  | log logged =>
    refine ⟨sound.remembers.append logged, ?_, sound.remembered, fun save inside => ?_⟩
    · exact fun row inside => List.mem_append_left _ (sound.logged row inside)
    · exact (sound.saves save inside).later (fun _ => List.mem_append_left _) fun _ => id
  | forget root =>
    refine ⟨sound.remembers.forget root, sound.logged, sound.remembered, fun save inside => ?_⟩
    exact (sound.saves save inside).later (fun _ => id) fun _ => id
  | begin known => exact sound.begun known
  | settle underway result => exact sound.settled underway result

theorem Initial.sound (initial : start.Initial) : start.Sound where
  remembers := initial.log
  logged := by simp [rows, initial.commits]
  remembered := by simp [initial.saved]
  saves := by simp [initial.saves]

theorem Reaches.sound (initial : start.Initial) (reached : start.Reaches a) : a.Sound := by
  induction reached with
  | start => exact initial.sound
  | step _ next ih => exact ih.step next

theorem Step.tracked (next : a.Step b) : b.recorder.tracked = a.recorder.tracked := by
  cases next with
  | settle _ result => cases result <;> rfl
  | _ => rfl

theorem Reaches.tracked (reached : start.Reaches a) :
    a.recorder.tracked = start.recorder.tracked := by
  induction reached with
  | start => rfl
  | step _ next ih => exact next.tracked.trans ih

/-! ### What the audit holds -/

/-- What was written under an identifier is the invocation of this identifier. -/
theorem Sound.exists_row (sound : a.Sound) (known : i ∈ a.history) (written : a.HasWritten i.id) :
    ∃ commit ∈ a.commits, ∃ row ∈ commit.rows, row.Describes i := by
  obtain ⟨row, inside, sameId⟩ := written
  obtain ⟨commit, isCommit, inCommit⟩ := List.mem_flatMap.mp inside
  have isRow := sound.remembers.eq_of_id_eq (sound.logged row inside) known sameId
  subst isRow
  exact ⟨commit, isCommit, row, inCommit, row.describes (sound.remembers.sorted_causes known)⟩

/-- Where a number of cascades is tracked, a save ends as its session does. -/
theorem settled_ended (tracks : 0 ≤ a.recorder.tracked)
    (underway : a.saves[n]? = some ⟨handed, .writing batch⟩) (result : Except Error Unit) :
    (a.settled n handed batch result).saves[n]? = some ⟨handed, .ended result⟩ := by
  have inside := (List.getElem?_eq_some_iff.mp underway).1
  cases result with
  | error e =>
    rw [settled_error]
    exact List.getElem?_set_self inside
  | ok =>
    have isEnough : 0 ≤ (a.recorder.grown batch).tracked := tracks
    rw [settled_ok, Recorder.trim_of_nonneg isEnough]
    exact List.getElem?_set_self inside

/-- Whatever the recorder remembers was written. A save changes nothing when it is begun; it ends as
its session does, and one that fails leaves what is remembered and what was written as it was.
Whatever a save was handed that has ended without a failure was written, each invocation as it
is. -/
theorem loses_nothing (initial : start.Initial) (tracks : 0 ≤ start.recorder.tracked)
    (reached : start.Reaches a) :
    (∀ entry ∈ a.recorder.saved, ∀ id ∈ entry.2,
        ∃ commit ∈ a.commits, ∃ row ∈ commit.rows, row.invocation.id = id) ∧
      (∀ handed, (a.begun handed).recorder = a.recorder ∧ (a.begun handed).commits = a.commits) ∧
      (∀ n handed batch result, a.saves[n]? = some ⟨handed, .writing batch⟩ →
        (a.settled n handed batch result).saves[n]? = some ⟨handed, .ended result⟩ ∧
          ∀ error, result = .error error →
            (a.settled n handed batch result).recorder = a.recorder ∧
              (a.settled n handed batch result).commits = a.commits) ∧
      ∀ save ∈ a.saves, save.stage = .ended (.ok ()) → ∀ i ∈ save.handed,
        ∃ commit ∈ a.commits, ∃ row ∈ commit.rows, row.Describes i := by
  have sound := reached.sound initial
  refine ⟨?remembered, fun _ => ⟨rfl, rfl⟩, ?ends, ?written⟩
  case remembered =>
    intro entry isEntry id inside
    obtain ⟨row, inRows, isId⟩ := sound.remembered entry isEntry id inside
    obtain ⟨commit, isCommit, inCommit⟩ := List.mem_flatMap.mp inRows
    exact ⟨commit, isCommit, row, inCommit, isId⟩
  case ends =>
    intro n handed batch result underway
    refine ⟨settled_ended (reached.tracked ▸ tracks) underway result, ?_⟩
    rintro error rfl
    rw [settled_error]
    exact ⟨rfl, rfl⟩
  case written =>
    intro save isSave ended i isHanded
    have isSound := sound.saves save isSave
    exact sound.exists_row (isSound.known i isHanded) (isSound.written ended i isHanded)

end Archive

/-! ### A session that fails -/

namespace Guestbook

def arriving : Invocation where
  id := 1
  action := ⟨"Guest", "arrive"⟩
  input := []
  output := []
  causes := []
  root := 1
  depth := 0
  ancestors := []

def page : Batch := { root := 1, known := [], fresh := [arriving] }

/-- A guest has arrived. -/
def arrived : Archive where
  log := InvocationLog.enter {} arriving
  history := [arriving]

/-- The recorder was handed the arrival, and its session was refused. -/
def refused : Archive :=
  (arrived.begun [arriving]).settled 0 [arriving] page (.error (.plain .runtime "commit refused"))

/-- It was handed the arrival once more. -/
def written : Archive := (refused.begun [arriving]).settled 1 [arriving] page (.ok ())

theorem empty_initial : Archive.Initial {} := ⟨.start, rfl, rfl, rfl⟩

theorem logs_arriving :
    ({} : InvocationLog).append ⟨"Guest", "arrive"⟩ [] [] [] = .ok (arrived.log, arriving) := rfl

theorem reaches_arrived : Archive.Reaches {} arrived := .step .start (.log logs_arriving)

theorem reaches_refused : Archive.Reaches {} refused :=
  (reaches_arrived.step (.begin (List.forall_mem_singleton.mpr List.mem_cons_self))).step
    (.settle (n := 0) rfl _)

theorem reaches_written : Archive.Reaches {} written :=
  (reaches_refused.step (.begin (List.forall_mem_singleton.mpr List.mem_cons_self))).step
    (.settle (n := 1) rfl _)

/-- The first time nothing was written and nothing is remembered, so that the arrival is written the
second time. -/
theorem loses_nothing_refused : refused.commits = [] ∧ refused.recorder.saved = [] ∧
    ∃ commit ∈ written.commits, ∃ row ∈ commit.rows, row.Describes arriving := by
  have tracks : 0 ≤ ({} : Archive).recorder.tracked := by decide
  obtain ⟨_, _, ends, _⟩ := Archive.loses_nothing empty_initial tracks
    (reaches_arrived.step (.begin (List.forall_mem_singleton.mpr List.mem_cons_self)))
  obtain ⟨_, unchanged⟩ := ends 0 [arriving] page (.error (.plain .runtime "commit refused")) rfl
  obtain ⟨sameMemory, sameCommits⟩ := unchanged _ rfl
  obtain ⟨_, _, _, complete⟩ := Archive.loses_nothing empty_initial tracks reaches_written
  have isSave : ⟨[arriving], .ended (.ok ())⟩ ∈ written.saves :=
    List.mem_cons_of_mem _ List.mem_cons_self
  exact ⟨sameCommits, congrArg Recorder.saved sameMemory,
    complete _ isSave rfl arriving List.mem_cons_self⟩

end Guestbook

end Choreography
