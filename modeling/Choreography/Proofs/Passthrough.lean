import Choreography.Gateway
import Mathlib.Data.List.Basic

/-! Which paths lead straight to an operation. The target of a path is what stands between its
slashes, however many there are, but a policy knows routes by their letters. So an operation can
be written in more ways than one, and an exclusion of its route says nothing of the others. -/

namespace Choreography

def slashes (n : Nat) : List Char := List.replicate n '/'

/-- What may stand between slashes. -/
structure IsSegment (word : List Char) : Prop where
  nonempty : word ≠ []
  unslashed : '/' ∉ word

/-- An operation that some path leads to. -/
structure ActionRef.IsRoutable (ref : ActionRef) : Prop where
  component : IsSegment ref.component.toList
  operation : IsSegment ref.operation.toList

/-- Two names with slashes between them, one and some more. -/
def ActionRef.letters (ref : ActionRef) (more : Nat) : List Char :=
  ref.component.toList ++ slashes (more + 1) ++ ref.operation.toList

/-- The route of an operation, with some slashes more than there need be. -/
def ActionRef.spelling (ref : ActionRef) (more : Nat) : String := "/" ++ .ofList (ref.letters more)

/-- A policy lets a route pass: it does not exclude it, and includes it, or everything. -/
structure Policy.Passes (policy : Policy) (route : String) : Prop where
  kept : route ∉ policy.exclusions
  included : (∃ reason, (route, reason) ∈ policy.inclusions) ∨ policy.default = true

variable {word rest path : List Char} {words : List (List Char)} {ref : ActionRef} {n more : Nat}

/-! ### Segments -/

theorem segments_slash (path : List Char) : segments ('/' :: path) = segments path := by
  have split := List.splitOn_append_cons_self_of_not_mem (List.not_mem_nil (a := '/')) path
  rw [List.nil_append] at split
  rw [segments, split]
  rfl

theorem segments_slashes_append (n : Nat) (path : List Char) :
    segments (slashes n ++ path) = segments path := by
  induction n with
  | zero => rfl
  | succ n ih => exact (segments_slash _).trans ih

theorem segments_slashes (n : Nat) : segments (slashes n) = [] := by
  have all := segments_slashes_append n []
  rwa [List.append_nil] at all

/-- After a segment there is nothing, or a slash. -/
theorem IsSegment.segments_append (isSegment : IsSegment word)
    (ends : rest = [] ∨ ∃ more, rest = '/' :: more) :
    segments (word ++ rest) = word :: segments rest := by
  have isKept : (word != []) = true := bne_iff_ne.mpr isSegment.nonempty
  rcases ends with rfl | ⟨more, rfl⟩
  · rw [List.append_nil, segments, List.splitOn_eq_singleton isSegment.unslashed,
      List.filter_cons_of_pos (p := (· != [])) isKept]
    rfl
  · rw [segments_slash, segments, List.splitOn_append_cons_self_of_not_mem isSegment.unslashed,
      List.filter_cons_of_pos (p := (· != [])) isKept]
    rfl

theorem isSegment_singleton {c : Char} (notSlash : c ≠ '/') : IsSegment [c] where
  nonempty := List.cons_ne_nil _ _
  unslashed inside := notSlash (List.mem_singleton.mp inside).symm

theorem IsSegment.cons {c : Char} (isSegment : IsSegment word) (notSlash : c ≠ '/') :
    IsSegment (c :: word) where
  nonempty := List.cons_ne_nil _ _
  unslashed inside := (List.mem_cons.mp inside).elim (fun same => notSlash same.symm) isSegment.unslashed

/-- A path is nothing but slashes, or begins with a segment after some slashes. -/
theorem slashes_or_segment (path : List Char) : (∃ n, path = slashes n) ∨
    ∃ n word rest, path = slashes n ++ (word ++ rest) ∧ IsSegment word ∧
      (rest = [] ∨ ∃ more, rest = '/' :: more) := by
  induction path with
  | nil => exact .inl ⟨0, rfl⟩
  | cons c path ih =>
    by_cases isSlash : c = '/'
    · subst isSlash
      rcases ih with ⟨n, rfl⟩ | ⟨n, word, rest, rfl, segment⟩
      · exact .inl ⟨n + 1, rfl⟩
      · exact .inr ⟨n + 1, word, rest, rfl, segment⟩
    · refine .inr ?_
      rcases ih with ⟨n, rfl⟩ | ⟨n, word, rest, rfl, segment, ends⟩
      · refine ⟨0, [c], slashes n, rfl, isSegment_singleton isSlash, ?_⟩
        cases n with
        | zero => exact .inl rfl
        | succ n => exact .inr ⟨_, rfl⟩
      · cases n with
        | zero => exact ⟨0, c :: word, rest, rfl, segment.cons isSlash, ends⟩
        | succ n => exact ⟨0, [c], _, rfl, isSegment_singleton isSlash, .inr ⟨_, rfl⟩⟩

theorem segments_eq_nil : segments path = [] ↔ ∃ n, path = slashes n := by
  constructor
  · intro none
    rcases slashes_or_segment path with all | ⟨n, word, rest, rfl, isSegment, ends⟩
    · exact all
    · rw [segments_slashes_append, isSegment.segments_append ends] at none
      cases none
  · rintro ⟨n, rfl⟩
    exact segments_slashes n

/-- The first segment of a path comes after some slashes, and the others come after it. -/
theorem segments_eq_cons : segments path = word :: words ↔ IsSegment word ∧
    ∃ n rest, path = slashes n ++ (word ++ rest) ∧ (rest = [] ∨ ∃ more, rest = '/' :: more) ∧
      segments rest = words := by
  constructor
  · intro some
    rcases slashes_or_segment path with ⟨n, rfl⟩ | ⟨n, first, rest, rfl, isSegment, ends⟩
    · rw [segments_slashes] at some
      cases some
    · rw [segments_slashes_append, isSegment.segments_append ends] at some
      cases some
      exact ⟨isSegment, n, rest, rfl, ends, rfl⟩
  · rintro ⟨isSegment, n, rest, rfl, ends, rfl⟩
    rw [segments_slashes_append, isSegment.segments_append ends]

/-! ### Targets -/

theorem IsSegment.append_slashes (isSegment : IsSegment word) (n : Nat) :
    segments (word ++ slashes n) = [word] := by
  rw [isSegment.segments_append, segments_slashes]
  cases n with
  | zero => exact .inl rfl
  | succ n => exact .inr ⟨_, rfl⟩

/-- What begins with a segment begins with no slash. -/
theorem IsSegment.append_ne_slash (isSegment : IsSegment word) (rest : List Char) {more : List Char} :
    word ++ rest ≠ '/' :: more := by
  obtain ⟨nonempty, unslashed⟩ := isSegment
  cases word with
  | nil => exact absurd rfl nonempty
  | cons c word =>
    intro same
    cases same
    exact unslashed List.mem_cons_self

theorem targetOf?_iff_segments {path : String} : targetOf? path = some ref ↔
    segments path.toList = [ref.component.toList, ref.operation.toList] := by
  obtain ⟨component, operation⟩ := ref
  unfold targetOf?
  split
  · next first second isPath =>
    rw [isPath]
    simp [← String.toList_inj]
  · next noTarget =>
    constructor
    · exact fun isTarget => nomatch isTarget
    · exact fun isPath => absurd isPath (noTarget _ _)

/-- Two names with slashes between them, and perhaps around them, are a target; nothing else is. -/
theorem targetOf?_eq_some {path : String} : targetOf? path = some ref ↔ ref.IsRoutable ∧
    ∃ before more after, path.toList = slashes before ++ (ref.letters more ++ slashes after) := by
  rw [targetOf?_iff_segments, segments_eq_cons]
  constructor
  · rintro ⟨component, before, rest, isPath, ends, others⟩
    obtain ⟨operation, between, last, rfl, lastEnds, none⟩ := segments_eq_cons.mp others
    obtain ⟨after, rfl⟩ := segments_eq_nil.mp none
    refine ⟨⟨component, operation⟩, before, ?_⟩
    cases between with
    | zero =>
      -- two names without a slash between them would be one
      change ref.operation.toList ++ slashes after = [] ∨ _ at ends
      rcases ends with isNone | ⟨more, begins⟩
      · exact absurd (List.append_eq_nil_iff.mp isNone).1 operation.nonempty
      · exact absurd begins (operation.append_ne_slash _)
    | succ more =>
      refine ⟨more, after, ?_⟩
      rw [isPath, ActionRef.letters]
      simp only [List.append_assoc]
  · rintro ⟨routable, before, more, after, isPath⟩
    refine ⟨routable.component, before, slashes (more + 1) ++ (ref.operation.toList ++ slashes after),
      ?_, .inr ⟨_, rfl⟩, ?_⟩
    · rw [isPath, ActionRef.letters]
      simp only [List.append_assoc]
    · rw [segments_slashes_append, routable.operation.append_slashes]

/-! ### Routes -/

/-- Letters without slashes at their ends. -/
def trimmed (letters : List Char) : List Char :=
  ((letters.dropWhile (· == '/')).reverse.dropWhile (· == '/')).reverse

theorem toList_normalRoute (path : String) :
    (normalRoute path).toList = '/' :: trimmed path.toList := by
  simp only [normalRoute, stripSlashes, String.toList_append, String.toList_ofList]
  rfl

theorem ActionRef.toList_spelling (ref : ActionRef) (more : Nat) :
    (ref.spelling more).toList = '/' :: ref.letters more := by
  simp only [spelling, String.toList_append, String.toList_ofList]
  rfl

theorem ActionRef.spelling_zero (ref : ActionRef) : ref.spelling 0 = routeOf ref := by
  rw [← String.toList_inj, toList_spelling, routeOf]
  simp [letters, slashes]

theorem slashes_add (m n : Nat) : slashes (m + n) = slashes m ++ slashes n :=
  List.replicate_add ..

theorem exists_slashes_dropWhile (path : List Char) :
    ∃ n, path = slashes n ++ path.dropWhile (· == '/') := by
  induction path with
  | nil => exact ⟨0, rfl⟩
  | cons c path ih =>
    obtain ⟨n, isPath⟩ := ih
    by_cases isSlash : c = '/'
    · subst isSlash
      exact ⟨n + 1, congrArg ('/' :: ·) isPath⟩
    · have whole : (c :: path).dropWhile (· == '/') = c :: path :=
        List.dropWhile_cons_of_neg fun same => isSlash (beq_iff_eq.mp same)
      exact ⟨0, whole.symm⟩

/-- A path is what it is normalized to, between slashes. -/
theorem exists_slashes_trimmed (path : List Char) :
    ∃ before after, path = slashes before ++ (trimmed path ++ slashes after) := by
  obtain ⟨before, front⟩ := exists_slashes_dropWhile path
  obtain ⟨after, back⟩ := exists_slashes_dropWhile (path.dropWhile (· == '/')).reverse
  refine ⟨before, after, ?_⟩
  have mirrored : (slashes after).reverse = slashes after := List.reverse_replicate
  have body : path.dropWhile (· == '/') = trimmed path ++ slashes after := by
    rw [← List.reverse_inj, List.reverse_append, mirrored, trimmed, List.reverse_reverse]
    exact back
  rw [← body]
  exact front

theorem dropWhile_slashes_append (n : Nat) (path : List Char) :
    (slashes n ++ path).dropWhile (· == '/') = path.dropWhile (· == '/') :=
  List.dropWhile_append_of_pos fun _ inside => beq_iff_eq.mpr (List.eq_of_mem_replicate inside)

theorem IsSegment.dropWhile_append (isSegment : IsSegment word) (rest : List Char) :
    (word ++ rest).dropWhile (· == '/') = word ++ rest := by
  cases word with
  | nil => exact absurd rfl isSegment.nonempty
  | cons c word =>
    refine List.dropWhile_cons_of_neg fun isSlash => isSegment.unslashed ?_
    rw [beq_iff_eq.mp isSlash]
    exact List.mem_cons_self

theorem IsSegment.reverse (isSegment : IsSegment word) : IsSegment word.reverse where
  nonempty none := isSegment.nonempty (List.reverse_eq_nil_iff.mp none)
  unslashed inside := isSegment.unslashed (List.mem_reverse.mp inside)

namespace ActionRef.IsRoutable

/-- The slashes around two names are stripped off, those between them are not. -/
theorem trimmed_letters (routable : ref.IsRoutable) (before more after : Nat) :
    trimmed (slashes before ++ (ref.letters more ++ slashes after)) = ref.letters more := by
  have front : (slashes before ++ (ref.letters more ++ slashes after)).dropWhile (· == '/') =
      ref.letters more ++ slashes after := by
    rw [dropWhile_slashes_append, letters, List.append_assoc, List.append_assoc]
    exact routable.component.dropWhile_append _
  have back : (ref.letters more ++ slashes after).reverse.dropWhile (· == '/') =
      (ref.letters more).reverse := by
    have mirrored : (slashes after).reverse = slashes after := List.reverse_replicate
    rw [List.reverse_append, mirrored, dropWhile_slashes_append, letters, List.reverse_append]
    exact routable.operation.reverse.dropWhile_append _
  rw [trimmed, front, back, List.reverse_reverse]

/-- A path is normalized to a spelling if it is that, apart from slashes around it. -/
theorem normalRoute_eq_spelling (routable : ref.IsRoutable) {path : String} :
    normalRoute path = ref.spelling more ↔
      ∃ before after, path.toList = slashes before ++ (ref.letters more ++ slashes after) := by
  rw [← String.toList_inj, toList_normalRoute, toList_spelling, List.cons.injEq, and_iff_right rfl]
  constructor
  · intro isTrimmed
    exact isTrimmed ▸ exists_slashes_trimmed path.toList
  · rintro ⟨before, after, isPath⟩
    rw [isPath, routable.trimmed_letters]

theorem normalRoute_spelling (routable : ref.IsRoutable) (more : Nat) :
    normalRoute (ref.spelling more) = ref.spelling more := by
  refine routable.normalRoute_eq_spelling.mpr ⟨1, 0, ?_⟩
  rw [toList_spelling, slashes, slashes, List.replicate_zero, List.append_nil]
  rfl

/-- A path leads to an operation if it is normalized to one of its spellings. -/
theorem targetOf?_normalRoute (routable : ref.IsRoutable) {path : String} :
    targetOf? (normalRoute path) = some ref ↔ ∃ more, normalRoute path = ref.spelling more := by
  constructor
  · intro isTarget
    obtain ⟨_, front, more, back, isRoute⟩ := targetOf?_eq_some.mp isTarget
    rw [toList_normalRoute] at isRoute
    refine ⟨more, routable.normalRoute_eq_spelling.mpr ?_⟩
    obtain ⟨before, after, isPath⟩ := exists_slashes_trimmed path.toList
    cases front with
    | zero =>
      change _ = ref.letters more ++ slashes back at isRoute
      rw [letters, List.append_assoc, List.append_assoc] at isRoute
      exact absurd isRoute.symm (routable.component.append_ne_slash _)
    | succ front =>
      have isTrimmed : trimmed path.toList = slashes front ++ (ref.letters more ++ slashes back) :=
        (List.cons.inj isRoute).2
      refine ⟨before + front, back + after, ?_⟩
      rw [isPath, isTrimmed, slashes_add, slashes_add]
      simp only [List.append_assoc]
  · rintro ⟨more, isSpelling⟩
    rw [isSpelling]
    refine targetOf?_eq_some.mpr ⟨routable, 1, more, 0, ?_⟩
    rw [toList_spelling, slashes, slashes, List.replicate_zero, List.append_nil]
    rfl

end ActionRef.IsRoutable

/-! ### The way of a request -/

theorem Policy.isPassthrough_iff {policy : Policy} {path : String} :
    policy.isPassthrough path = true ↔ policy.Passes (normalRoute path) := by
  have isIncluded : policy.inclusions.any (·.1 == normalRoute path) = true ↔
      ∃ reason, (normalRoute path, reason) ∈ policy.inclusions := by
    simp
  unfold isPassthrough
  dsimp only
  split
  · next isExcluded =>
    refine iff_of_false Bool.false_ne_true fun passes => passes.kept ?_
    exact List.contains_iff_mem.mp isExcluded
  · next notExcluded =>
    have kept : normalRoute path ∉ policy.exclusions :=
      fun inside => notExcluded (List.contains_iff_mem.mpr inside)
    split
    · next included => exact iff_of_true rfl ⟨kept, .inl (isIncluded.mp included)⟩
    · next notIncluded =>
      refine ⟨fun byDefault => ⟨kept, .inr byDefault⟩, fun passes => ?_⟩
      exact passes.included.resolve_left fun included => notIncluded (isIncluded.mpr included)

private theorem goes_on {x : Except Error α} {f : α → Except Error β} {result : β}
    (succeeds : x >>= f = .ok result) : ∃ a, f a = .ok result := by
  cases x with
  | error => cases succeeds
  | ok a => exact ⟨a, succeeds⟩

/-- A policy keeps to the default that it is read with. -/
theorem Policy.default_of_read {source : PolicySource} {default : Bool} {policy : Policy}
    (isRead : Policy.read source default = .ok policy) : policy.default = default := by
  unfold read at isRead
  cases isContent : content? source with
  | none =>
    rw [isContent] at isRead
    cases isRead
  | some content =>
    rw [isContent] at isRead
    dsimp only at isRead
    rw [pure_bind] at isRead
    split at isRead
    · split at isRead <;> cases isRead
    · split at isRead
      · obtain ⟨items, rest⟩ := goes_on isRead
        obtain ⟨exclusions, isPolicy⟩ := goes_on rest
        cases isPolicy
        rfl
      · cases isRead
    · cases isRead

/-- A request goes straight to an operation if its path is a spelling of the route that the policy
lets pass. -/
theorem Gateway.way_eq_direct (g : Gateway) (routable : ref.IsRoutable) {path : String} :
    g.way (normalRoute path) = .direct ref ↔
      ∃ more, normalRoute path = ref.spelling more ∧ g.policy.Passes (ref.spelling more) := by
  have isDirect : g.way (normalRoute path) = .direct ref ↔
      g.policy.isPassthrough (normalRoute path) = true ∧ targetOf? (normalRoute path) = some ref := by
    unfold way
    cases g.policy.isPassthrough (normalRoute path) with
    | false => simp
    | true =>
      rw [if_pos rfl, and_iff_right rfl]
      cases targetOf? (normalRoute path) <;> simp
  rw [isDirect, routable.targetOf?_normalRoute, Policy.isPassthrough_iff]
  constructor
  · rintro ⟨passes, more, isSpelling⟩
    rw [isSpelling, routable.normalRoute_spelling] at passes
    exact ⟨more, isSpelling, passes⟩
  · rintro ⟨more, isSpelling, passes⟩
    refine ⟨?_, more, isSpelling⟩
    rwa [isSpelling, routable.normalRoute_spelling]

/-- A policy that excludes the route of an operation stops the requests that write it with one slash
between the names. A request that writes more slashes goes straight to the operation, unless just
that spelling is excluded as well, if it is included, or if the policy lets pass whatever it says
nothing of. -/
theorem Policy.direct_of_excluded {source : PolicySource} {default : Bool} {policy : Policy}
    (isRead : Policy.read source default = .ok policy) (routable : ref.IsRoutable)
    (excluded : routeOf ref ∈ policy.exclusions) (limit : Seconds) (path : String) :
    ({ policy, limit } : Gateway).way (normalRoute path) = .direct ref ↔
      ∃ more ≠ 0, normalRoute path = ref.spelling more ∧ ref.spelling more ∉ policy.exclusions ∧
        ((∃ reason, (ref.spelling more, reason) ∈ policy.inclusions) ∨ default = true) := by
  rw [Gateway.way_eq_direct _ routable, ← default_of_read isRead]
  constructor
  · rintro ⟨more, isSpelling, kept, included⟩
    refine ⟨more, ?_, isSpelling, kept, included⟩
    rintro rfl
    exact kept (ref.spelling_zero ▸ excluded)
  · rintro ⟨more, _, isSpelling, kept, included⟩
    exact ⟨more, isSpelling, kept, included⟩

/-! ### A vault that can be opened -/

namespace Vault

def source : PolicySource := .text "\x7b\"exclusions\": [\"/Vault/open\"]\x7d"

def policy : Policy where
  exclusions := ["/Vault/open"]
  default := true

theorem read_source : Policy.read source true = .ok policy := by
  have same : (Policy.read source true).toOption.map
      (fun p => (p.inclusions.isEmpty, p.exclusions, p.default)) = some (true, ["/Vault/open"], true) := by
    decide +kernel
  cases isRead : Policy.read source true with
  | error =>
    rw [isRead] at same
    cases same
  | ok p =>
    obtain ⟨inclusions, exclusions, default⟩ := p
    rw [isRead] at same
    cases inclusions with
    | nil =>
      cases same
      rfl
    | cons => cases same

def opening : ActionRef := ⟨"Vault", "open"⟩

theorem opening_isRoutable : opening.IsRoutable := ⟨⟨by decide, by decide⟩, ⟨by decide, by decide⟩⟩

/-- Whoever writes more than one slash between the names opens the vault. -/
theorem direct_of_excluded_opening : routeOf opening ∈ policy.exclusions ∧
    ∀ path, ({ policy } : Gateway).way (normalRoute path) = .direct opening ↔
      ∃ more ≠ 0, normalRoute path = opening.spelling more ∧
        opening.spelling more ∉ policy.exclusions ∧
          ((∃ reason, (opening.spelling more, reason) ∈ policy.inclusions) ∨ true = true) :=
  have excluded : routeOf opening ∈ policy.exclusions := by decide
  ⟨excluded, Policy.direct_of_excluded read_source opening_isRoutable excluded _⟩

/-- The vault is excluded, and two slashes open it. -/
theorem opens_despite_exclusion : Policy.read source true = .ok policy ∧ opening.IsRoutable ∧
    routeOf opening ∈ policy.exclusions ∧
      ({ policy } : Gateway).way (normalRoute "/Vault//open") = .direct opening :=
  ⟨read_source, opening_isRoutable, by decide, by decide⟩

end Vault

end Choreography
