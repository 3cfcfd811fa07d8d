import Choreography.Gateway
import Choreography.Proofs.Desk

/-! A book of all that happens at the desk, in order. What it tells of a request decides the
standing of the request, and so what becomes of the next response: it is accepted if it is
the first since the request was taken in and the request was not discarded, else refused. -/

namespace Choreography

/-- The text that a value is. -/
def Value.text? : Value → Option String
  | .text s => some s
  | _ => none

namespace Desk

/-- Something that a book tells of. -/
inductive Act where
  | called (operation : String) (input : Fields) (result : Except Error Value)
  /-- The run for a request has come back with its report. -/
  | reported (id : String)
  | discarded (id : String)

/-- An entry says what happened and when, and what became of the desk. -/
structure Entry where
  moment : Instant
  act : Act
  before : Desk
  after : Desk

namespace Act

/-- The request that was taken in. -/
def taken? : Act → Option String
  | .called operation _ (.ok output) =>
    if operation = "request" then
      (output.fields?.bind (Fields.get? · "request")).bind Value.text?
    else none
  | _ => none

/-- The request that somebody responded to, whatever came of it. A call that the desk does not take for
its arguments is no response. -/
def named? : Act → Option String
  | .called operation input _ =>
    if operation = "respond" then (subject operation input).toOption.bind Value.text? else none
  | _ => none

/-- What a request is responded with: all arguments but the one that names it. -/
def payload : Act → Fields
  | .called _ input _ => Fields.erase input "request"
  | _ => []

def result? : Act → Option (Except Error Value)
  | .called _ _ result => some result
  | _ => none

def reported? : Act → Option String
  | .reported id => some id
  | _ => none

def discarded? : Act → Option String
  | .discarded id => some id
  | _ => none

end Act

/-- A response that took effect. -/
structure Entry.IsAccepted (e : Entry) (id : String) : Prop where
  output : e.act.result? = some (.ok (.map [("request", .text id)]))
  effect : e.after = e.before.respond id e.act.payload

/-- A response that was answered with an error and changed nothing. -/
structure Entry.IsRefused (e : Entry) : Prop where
  output : ∃ text, e.act.result? = some (.ok (errorOutput text))
  effect : e.after = e.before

abbrev Book := List Entry

namespace Book

def HasTaken (book : Book) (id : String) : Prop := ∃ e ∈ book, e.act.taken? = some id

def HasReported (book : Book) (id : String) : Prop := ∃ e ∈ book, e.act.reported? = some id

def HasDiscarded (book : Book) (id : String) : Prop := ∃ e ∈ book, e.act.discarded? = some id

/-- The first response to a request since it was taken in. -/
def response? (id : String) : Book → Option Entry
  | [] => none
  | e :: later =>
    if e.act.taken? = some id then later.find? (·.act.named? = some id) else response? id later

/-- What happened before the run for a request came back. -/
def beforeReport (id : String) (book : Book) : Book :=
  book.takeWhile (·.act.reported? ≠ some id)

/-- A request is pending if it was taken in and has not been discarded. -/
structure IsPending (book : Book) (id : String) : Prop where
  taken : book.HasTaken id
  kept : ¬book.HasDiscarded id

variable {book : Book} {e f : Entry} {id : String}

/-! ### One more entry -/

theorem hasTaken_append : HasTaken (book ++ [e]) id ↔ HasTaken book id ∨ e.act.taken? = some id := by
  simp [HasTaken, or_and_right, exists_or]

theorem hasReported_append :
    HasReported (book ++ [e]) id ↔ HasReported book id ∨ e.act.reported? = some id := by
  simp [HasReported, or_and_right, exists_or]

theorem hasDiscarded_append :
    HasDiscarded (book ++ [e]) id ↔ HasDiscarded book id ∨ e.act.discarded? = some id := by
  simp [HasDiscarded, or_and_right, exists_or]

theorem response?_unknown (unknown : ¬HasTaken book id) : response? id book = none := by
  induction book with
  | nil => rfl
  | cons first rest ih =>
    have notHere : ¬first.act.taken? = some id := fun here => unknown ⟨first, by simp, here⟩
    rw [response?, if_neg notHere]
    exact ih fun ⟨e, inside, takes⟩ => unknown ⟨e, List.mem_cons_of_mem _ inside, takes⟩

theorem response?_append_new (unknown : ¬HasTaken book id) : response? id (book ++ [e]) = none := by
  induction book with
  | nil =>
    change (if _ then List.find? _ [] else response? id []) = none
    split <;> rfl
  | cons first rest ih =>
    have notHere : ¬first.act.taken? = some id := fun here => unknown ⟨first, by simp, here⟩
    rw [List.cons_append, response?, if_neg notHere]
    exact ih fun ⟨e, inside, takes⟩ => unknown ⟨e, List.mem_cons_of_mem _ inside, takes⟩

theorem response?_append (taken : HasTaken book id) : response? id (book ++ [e]) =
    (response? id book).or (if e.act.named? = some id then some e else none) := by
  induction book with
  | nil =>
    obtain ⟨e, inside, _⟩ := taken
    cases inside
  | cons first rest ih =>
    rw [List.cons_append, response?, response?]
    split
    · rw [List.find?_append, List.find?_singleton]
      simp only [decide_eq_true_eq]
    · next notHere =>
      refine ih ?_
      obtain ⟨e, inside, takes⟩ := taken
      rcases List.mem_cons.mp inside with rfl | inside
      · exact absurd takes notHere
      · exact ⟨e, inside, takes⟩

theorem response?_append_some (responded : response? id book = some e) (more : Book) :
    response? id (book ++ more) = some e := by
  induction book with
  | nil => cases responded
  | cons first rest ih =>
    rw [List.cons_append, response?]
    rw [response?] at responded
    split
    · next here =>
      rw [if_pos here] at responded
      rw [List.find?_append, responded, Option.some_or]
    · next notHere =>
      rw [if_neg notHere] at responded
      exact ih responded

/-- A response before the report of the run is the response. -/
theorem response?_of_beforeReport (responded : response? id (beforeReport id book) = some e) :
    response? id book = some e := by
  have split : beforeReport id book ++ book.dropWhile (·.act.reported? ≠ some id) = book :=
    List.takeWhile_append_dropWhile
  rw [← split]
  exact response?_append_some responded _

/-- An entry that responds to another request, or to none, leaves the response as it is. -/
theorem response?_append_other (other : e.act.named? ≠ some id) :
    response? id (book ++ [e]) = response? id book := by
  by_cases taken : HasTaken book id
  · rw [response?_append taken, if_neg other, Option.or_none]
  · rw [response?_append_new taken, response?_unknown taken]

theorem beforeReport_append (reported : HasReported book id) :
    beforeReport id (book ++ [e]) = beforeReport id book := by
  induction book with
  | nil =>
    obtain ⟨e, inside, _⟩ := reported
    cases inside
  | cons first rest ih =>
    rw [beforeReport, beforeReport, List.cons_append, List.takeWhile_cons, List.takeWhile_cons]
    split
    · next notHere =>
      refine congrArg (first :: ·) (ih ?_)
      obtain ⟨e, inside, reports⟩ := reported
      rcases List.mem_cons.mp inside with rfl | inside
      · simp [reports] at notHere
      · exact ⟨e, inside, reports⟩
    · rfl

/-- As long as no run came back for a request, everything happened before. -/
theorem beforeReport_append_report (unreported : ¬HasReported book id)
    (reports : e.act.reported? = some id) : beforeReport id (book ++ [e]) = book := by
  have allBefore : ∀ f ∈ book, decide (f.act.reported? ≠ some id) = true := by
    intro f inside
    simp only [decide_eq_true_eq]
    exact fun reports => unreported ⟨f, inside, reports⟩
  rw [beforeReport, List.takeWhile_append_of_pos allBefore, List.takeWhile_cons_of_neg (by simp [reports]),
    List.append_nil]

theorem isPending_append : IsPending (book ++ [e]) id ↔
    (HasTaken book id ∨ e.act.taken? = some id) ∧ ¬HasDiscarded book id ∧ e.act.discarded? ≠ some id := by
  refine ⟨fun pending => ⟨hasTaken_append.mp pending.taken, ?_⟩, fun ⟨taken, kept⟩ => ?_⟩
  · simpa [hasDiscarded_append] using pending.kept
  · exact ⟨hasTaken_append.mpr taken, by simpa [hasDiscarded_append] using kept⟩

theorem isPending_append_still (notTaken : e.act.taken? = none) (kept : e.act.discarded? = none) :
    IsPending (book ++ [e]) id ↔ IsPending book id := by
  rw [isPending_append, notTaken, kept]
  exact ⟨fun ⟨taken, kept, _⟩ => ⟨by simpa using taken, kept⟩,
    fun pending => ⟨.inl pending.taken, pending.kept, by simp⟩⟩

/-- What holds of all entries, each with those before it, holds after one more entry. -/
theorem forall_split_append (holds : Book → Entry → Prop)
    (all : ∀ earlier f later, book = earlier ++ f :: later → holds earlier f) (last : holds book e) :
    ∀ earlier f later, book ++ [e] = earlier ++ f :: later → holds earlier f := by
  intro earlier f later split
  rcases List.eq_nil_or_concat later with rfl | ⟨later, g, rfl⟩
  · obtain ⟨rfl, isLast⟩ := List.append_inj' split rfl
    cases isLast
    exact last
  · have sameEnd : book ++ [e] = (earlier ++ f :: later) ++ [g] := by simpa using split
    exact all earlier f later (List.append_inj' sameEnd rfl).1

end Book

open Book

variable {book : Book} {desk : Desk} {e : Entry} {id : String}

/-- What became of a response fits what had happened before. A response that names no request, or
whose arguments the desk does not take, is none, and changes nothing. -/
structure Entry.Fits (e : Entry) (earlier : Book) : Prop where
  accepted : ∀ id, e.act.named? = some id → IsPending earlier id → response? id earlier = none →
    e.IsAccepted id
  refused : ∀ id, e.act.named? = some id →
    ¬IsPending earlier id ∨ (response? id earlier).isSome → e.IsRefused
  still : e.act.taken? = none → e.act.named? = none → e.act.discarded? = none → e.after = e.before

theorem Entry.Fits.of_unnamed (unnamed : e.act.named? = none)
    (still : e.act.taken? = none → e.act.discarded? = none → e.after = e.before) (earlier : Book) :
    e.Fits earlier where
  accepted id named := by cases unnamed.symm.trans named
  refused id named := by cases unnamed.symm.trans named
  still notTaken _ := still notTaken

/-- The desk is as the book says that it should be. -/
structure Book.Describes (book : Book) (desk : Desk) : Prop where
  numbered : desk.IsNumbered
  known : ∀ id, HasTaken book id → ∃ n ≤ desk.taken, id = requestId n
  mentioned : ∀ id, HasReported book id ∨ HasDiscarded book id → HasTaken book id
  pending : ∀ id, IsPending book id →
    desk.standing id = some ((response? id book).map (·.act.payload))
  absent : ∀ id, ¬IsPending book id → desk.standing id = none
  fits : ∀ earlier e later, book = earlier ++ e :: later → e.Fits earlier

namespace Book.Describes

theorem empty : Describes [] {} where
  numbered _ inside := by cases inside
  known id taken := by simp [HasTaken] at taken
  mentioned id mentioned := by simp [HasReported, HasDiscarded] at mentioned
  pending id pending := by simpa [HasTaken] using pending.taken
  absent _ _ := rfl
  fits earlier e later split := by simp at split

/-- A request whose number is still to be given out has not been taken in. -/
theorem unknown (describes : Describes book desk) : ¬HasTaken book (requestId (desk.taken + 1)) := by
  intro taken
  obtain ⟨n, given, same⟩ := describes.known _ taken
  have isNumber := requestId_injective same
  omega

theorem responseOf_eq (describes : Describes book desk) (pending : IsPending book id) :
    desk.responseOf id = (response? id book).map (·.act.payload) := by
  rw [Desk.responseOf_eq, describes.pending id pending]
  rfl

theorem fits_append (describes : Describes book desk) (fits : e.Fits book) :
    ∀ earlier f later, book ++ [e] = earlier ++ f :: later → f.Fits earlier :=
  forall_split_append (fun earlier f => f.Fits earlier) describes.fits fits

theorem known_append (describes : Describes book desk) (notTaken : e.act.taken? = none) :
    ∀ id, HasTaken (book ++ [e]) id → ∃ n ≤ desk.taken, id = requestId n := by
  intro id taken
  exact describes.known id (by simpa [hasTaken_append, notTaken] using taken)

theorem mentioned_append (describes : Describes book desk)
    (mentions : ∀ id, e.act.reported? = some id ∨ e.act.discarded? = some id → HasTaken book id) :
    ∀ id, HasReported (book ++ [e]) id ∨ HasDiscarded (book ++ [e]) id → HasTaken (book ++ [e]) id := by
  intro id mentioned
  refine hasTaken_append.mpr (.inl ?_)
  rw [hasReported_append, hasDiscarded_append] at mentioned
  rcases mentioned with (earlier | now) | (earlier | now)
  · exact describes.mentioned id (.inl earlier)
  · exact mentions id (.inl now)
  · exact describes.mentioned id (.inr earlier)
  · exact mentions id (.inr now)

/-- An entry that changes the standing of no request. -/
theorem quiet (describes : Describes book desk) (notTaken : e.act.taken? = none)
    (kept : e.act.discarded? = none)
    (same : ∀ id, IsPending book id → response? id (book ++ [e]) = response? id book)
    (reported : ∀ id, e.act.reported? = some id → HasTaken book id) (fits : e.Fits book) :
    Describes (book ++ [e]) desk := by
  constructor
  case numbered => exact describes.numbered
  case known => exact describes.known_append notTaken
  case mentioned =>
    refine describes.mentioned_append fun id mentioned => ?_
    rw [kept] at mentioned
    exact reported id (by simpa using mentioned)
  case pending =>
    intro id pending
    rw [isPending_append_still notTaken kept] at pending
    rw [same id pending]
    exact describes.pending id pending
  case absent =>
    intro id absent
    exact describes.absent id ((isPending_append_still notTaken kept).not.mp absent)
  case fits => exact describes.fits_append fits

/-- A request that is taken in. -/
theorem request (describes : Describes book desk) (path : Value) (params : Fields)
    (takes : e.act.taken? = some (requestId (desk.taken + 1))) (unnamed : e.act.named? = none)
    (unreported : e.act.reported? = none) (kept : e.act.discarded? = none) :
    Describes (book ++ [e]) (desk.request path params).1 := by
  have isOld {id : String} (notIt : id ≠ requestId (desk.taken + 1)) :
      IsPending (book ++ [e]) id ↔ IsPending book id := by
    rw [isPending_append, takes, kept]
    exact ⟨fun ⟨taken, kept, _⟩ =>
      ⟨taken.resolve_right fun now => notIt (Option.some.inj now).symm, kept⟩,
      fun pending => ⟨.inl pending.taken, pending.kept, by simp⟩⟩
  constructor
  case numbered => exact describes.numbered.request path params
  case known =>
    intro id taken
    rcases hasTaken_append.mp taken with earlier | now
    · obtain ⟨n, given, isNumber⟩ := describes.known id earlier
      exact ⟨n, Nat.le_succ_of_le given, isNumber⟩
    · exact ⟨desk.taken + 1, Nat.le_refl _, Option.some.inj (now.symm.trans takes)⟩
  case mentioned => exact describes.mentioned_append fun id mentioned => by simp [unreported, kept] at mentioned
  case pending =>
    intro id pending
    rw [standing_request describes.numbered]
    split
    · next isIt => rw [isIt, response?_append_new describes.unknown, Option.map_none]
    · next notIt =>
      rw [response?_append_other (by simp [unnamed])]
      exact describes.pending id ((isOld notIt).mp pending)
  case absent =>
    intro id absent
    rw [standing_request describes.numbered]
    split
    · next isIt =>
      subst isIt
      refine absurd ⟨hasTaken_append.mpr (.inr takes), ?_⟩ absent
      rw [hasDiscarded_append, kept]
      simpa using fun discarded => describes.unknown (describes.mentioned _ (.inr discarded))
    · next notIt => exact describes.absent id ((isOld notIt).not.mp absent)
  case fits =>
    refine describes.fits_append (.of_unnamed unnamed (fun notTaken => ?_) book)
    cases takes.symm.trans notTaken

/-- The first response to a pending request. -/
theorem accept (describes : Describes book desk) (named : e.act.named? = some id)
    (notTaken : e.act.taken? = none) (unreported : e.act.reported? = none)
    (kept : e.act.discarded? = none) (unanswered : desk.standing id = some none)
    (accepted : e.IsAccepted id) : Describes (book ++ [e]) (desk.respond id e.act.payload) := by
  have isPending : IsPending book id := by
    by_contra absent
    cases (describes.absent id absent).symm.trans unanswered
  have first : response? id book = none :=
    Option.map_eq_none_iff.mp (Option.some.inj ((describes.pending id isPending).symm.trans unanswered))
  constructor
  case numbered => exact describes.numbered.respond id _
  case known => exact describes.known_append notTaken
  case mentioned => exact describes.mentioned_append fun id mentioned => by simp [unreported, kept] at mentioned
  case pending =>
    intro other pending
    have wasPending := (isPending_append_still notTaken kept).mp pending
    rw [standing_respond]
    split
    · next isIt =>
      subst isIt
      rw [unanswered, response?_append wasPending.taken, first, if_pos named]
      rfl
    · next notIt =>
      rw [response?_append_other (by rw [named]; simpa using Ne.symm notIt)]
      exact describes.pending other wasPending
  case absent =>
    intro other absent
    have wasAbsent := (isPending_append_still notTaken kept).not.mp absent
    rw [standing_respond]
    split
    · next isIt => exact absurd (isIt ▸ isPending) wasAbsent
    · exact describes.absent other wasAbsent
  case fits =>
    refine describes.fits_append ⟨fun other isNamed _ _ => ?_, fun other isNamed closed => ?_,
      fun _ unnamed => ?_⟩
    · cases named.symm.trans isNamed
      exact accepted
    · cases named.symm.trans isNamed
      rcases closed with absent | responded
      · exact absurd isPending absent
      · simp [first] at responded
    · cases named.symm.trans unnamed

/-- A response that is refused. -/
theorem refuse (describes : Describes book desk) (named : e.act.named? = some id)
    (notTaken : e.act.taken? = none) (unreported : e.act.reported? = none)
    (kept : e.act.discarded? = none) (notFirst : desk.standing id ≠ some none)
    (refused : e.IsRefused) : Describes (book ++ [e]) desk := by
  have responded (isPending : IsPending book id) : response? id book ≠ none := by
    intro first
    rw [describes.pending id isPending, first] at notFirst
    exact notFirst rfl
  refine describes.quiet notTaken kept ?same (by simp [unreported]) ?fits
  case same =>
    intro other isPending
    by_cases isIt : other = id
    · subst isIt
      obtain ⟨f, isFirst⟩ := Option.ne_none_iff_exists'.mp (responded isPending)
      rw [response?_append_some isFirst _, isFirst]
    · exact response?_append_other (by rw [named]; simpa using Ne.symm isIt)
  case fits =>
    constructor
    · intro other isNamed isPending first
      cases named.symm.trans isNamed
      exact absurd first (responded isPending)
    · intro _ _ _
      exact refused
    · intro _ unnamed
      cases named.symm.trans unnamed

theorem discard (describes : Describes book desk) (taken : HasTaken book id) (moment : Instant)
    (after : Desk) :
    Describes (book ++ [⟨moment, .discarded id, desk, after⟩]) (desk.discard id).1 := by
  have isKept (other : String) :
      IsPending (book ++ [⟨moment, .discarded id, desk, after⟩]) other ↔
        IsPending book other ∧ other ≠ id := by
    rw [isPending_append]
    exact ⟨fun ⟨taken, kept, notIt⟩ => ⟨⟨by simpa [Act.taken?] using taken, kept⟩,
      fun isIt => notIt (congrArg some isIt.symm)⟩,
      fun ⟨pending, notIt⟩ => ⟨.inl pending.taken, pending.kept,
        fun isIt => notIt (Option.some.inj isIt).symm⟩⟩
  constructor
  case numbered => exact describes.numbered.discard id
  case known => exact describes.known_append rfl
  case mentioned =>
    refine describes.mentioned_append fun other mentioned => ?_
    rcases mentioned with reported | discarded
    · cases reported
    · cases discarded
      exact taken
  case pending =>
    intro other pending
    obtain ⟨wasPending, notIt⟩ := (isKept other).mp pending
    rw [standing_discard, if_neg notIt, response?_append_other (by simp [Act.named?])]
    exact describes.pending other wasPending
  case absent =>
    intro other absent
    rw [standing_discard]
    split
    · rfl
    · next notIt =>
      exact describes.absent other fun pending => absent ((isKept other).mpr ⟨pending, notIt⟩)
  case fits =>
    refine describes.fits_append (.of_unnamed rfl (fun _ kept => ?_) book)
    cases kept

/-- A report that comes back changes nothing at the desk. -/
theorem report (describes : Describes book desk) (taken : HasTaken book id) (moment : Instant) :
    Describes (book ++ [⟨moment, .reported id, desk, desk⟩]) desk := by
  refine describes.quiet rfl rfl (fun _ _ => response?_append_other (by simp [Act.named?])) ?_
    (.of_unnamed rfl (fun _ _ => rfl) book)
  intro other isIt
  cases isIt
  exact taken

/-- Whatever operation of the desk is called, the book goes on to describe it. -/
theorem call (describes : Describes book desk) (offered : operation ∈ methods) (input : Fields)
    (moment : Instant) :
    Describes (book ++ [⟨moment, .called operation input (desk.call operation input).2, desk,
      (desk.call operation input).1⟩]) (desk.call operation input).1 := by
  have isQuiet {e : Entry} (notTaken : e.act.taken? = none) (unnamed : e.act.named? = none)
      (unreported : e.act.reported? = none) (notDiscarded : e.act.discarded? = none)
      (still : e.after = e.before) : Describes (book ++ [e]) desk :=
    describes.quiet notTaken notDiscarded (fun _ _ => response?_append_other (by simp [unnamed]))
      (by simp [unreported]) (.of_unnamed unnamed (fun _ _ => still) book)
  simp only [methods, List.mem_cons, List.not_mem_nil, or_false] at offered
  rcases offered with rfl | rfl | rfl
  · rw [call_get_pending]
    exact isQuiet (by cases (desk.call "get_pending" input).2 <;> rfl) rfl rfl rfl rfl
  · rcases desk.call_request input with ⟨error, called⟩ | ⟨path, params, called⟩
    · rw [called]
      exact isQuiet rfl rfl rfl rfl rfl
    · rw [called]
      exact describes.request path params rfl rfl rfl rfl
  · by_cases isNamed : ∃ id, subject "respond" input = .ok (.text id)
    · obtain ⟨id, about⟩ := isNamed
      have named (result : Except Error Value) :
          (Act.called "respond" input result).named? = some id := by
        simp [Act.named?, about, Except.toOption, Value.text?]
      have notTaken (result : Except Error Value) :
          (Act.called "respond" input result).taken? = none := by
        cases result <;> rfl
      by_cases unanswered : desk.standing id = some none
      · rw [call_respond_first about unanswered]
        exact describes.accept (named _) (notTaken _) rfl rfl unanswered ⟨rfl, rfl⟩
      · obtain ⟨text, called⟩ := call_respond_other about unanswered
        rw [called]
        exact describes.refuse (named _) (notTaken _) rfl rfl unanswered ⟨⟨text, rfl⟩, rfl⟩
    · have unnamed : ∀ id, subject "respond" input ≠ .ok (.text id) := not_exists.mp isNamed
      rw [call_respond_unnamed unnamed]
      refine isQuiet (by cases (desk.call "respond" input).2 <;> rfl) ?_ rfl rfl rfl
      cases about : subject "respond" input with
      | error => simp [Act.named?, about, Except.toOption]
      | ok value =>
        cases value with
        | text id => exact absurd about (unnamed id)
        | _ => simp [Act.named?, about, Except.toOption, Value.text?]

end Book.Describes

end Desk

end Choreography
