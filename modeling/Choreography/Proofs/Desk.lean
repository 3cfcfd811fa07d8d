import Choreography.Desk
import Choreography.Text.Numeral
import Mathlib.Data.Nat.Digits.Defs
import Mathlib.Tactic.IntervalCases

/-! The desk by what is pending there. Every request is taken in under an identifier of its
own. A call changes the standing of one request at most: it takes a new one in, or it gives
a pending one its first response. -/

namespace Choreography

/-! ### Identifiers -/

namespace Numeral

/-- The number that hexadecimal digits spell. -/
def spelled (digits : List Char) : Nat :=
  digits.foldl (fun n c => 16 * n + (hexDigit? c).getD 0) 0

theorem hexDigit?_digitChar {n : Nat} (isDigit : n < 16) : hexDigit? n.digitChar = some n := by
  interval_cases n <;> rfl

theorem spelled_concat (digits : List Char) (c : Char) :
    spelled (digits ++ [c]) = 16 * spelled digits + (hexDigit? c).getD 0 :=
  List.foldl_append

theorem spelled_toDigits (n : Nat) : spelled (Nat.toDigits 16 n) = n := by
  induction n using Nat.strongRecOn with
  | ind n ih =>
    rw [Nat.toDigits_eq_if (by decide)]
    split
    · next isDigit => simp [spelled, hexDigit?_digitChar isDigit]
    · next isLarge =>
      have smaller : n / 16 < n := Nat.div_lt_self (by omega) (by decide)
      rw [spelled_concat, ih _ smaller, hexDigit?_digitChar (Nat.mod_lt n (by decide)),
        Option.getD_some, Nat.div_add_mod]

theorem spelled_zeros (count : Nat) (digits : List Char) :
    spelled (List.replicate count '0' ++ digits) = spelled digits := by
  induction count with
  | zero => rfl
  | succ count ih => exact ih

end Numeral

theorem requestId_injective : Function.Injective requestId := by
  have spells (n : Nat) : Numeral.spelled (requestId n).toList = n := by
    simp only [requestId, Text.hex, String.toList_append, String.toList_ofList,
      Numeral.spelled_zeros, Numeral.spelled_toDigits]
  intro n m same
  rw [← spells n, same, spells m]

namespace Desk

variable {d : Desk} {id other operation : String} {body input : Fields}

/-! ### Standing -/

/-- The response so far of a pending request. -/
def standing (d : Desk) (id : String) : Option (Option Fields) := (d.find? id).map (·.response)

/-- No number is pending that is still to be given out. -/
def IsNumbered (d : Desk) : Prop := ∀ r ∈ d.pending, r.number ≤ d.taken

theorem id_of_find? {r : PendingRequest} (found : d.find? id = some r) : r.id = id := by
  rw [find?] at found
  simpa using List.find?_some found

theorem responseOf_eq (d : Desk) (id : String) : d.responseOf id = (d.standing id).join := by
  rw [responseOf, standing]
  cases d.find? id <;> rfl

theorem IsNumbered.request (numbered : d.IsNumbered) (path : Value) (params : Fields) :
    (d.request path params).1.IsNumbered := by
  intro r pending
  rcases List.mem_append.mp pending with old | new
  · exact Nat.le_succ_of_le (numbered r old)
  · cases List.mem_singleton.mp new
    exact Nat.le_refl _

theorem IsNumbered.respond (numbered : d.IsNumbered) (id : String) (body : Fields) :
    (d.respond id body).IsNumbered := by
  intro r pending
  obtain ⟨old, inside, rfl⟩ := List.mem_map.mp pending
  split <;> exact numbered old inside

theorem IsNumbered.discard (numbered : d.IsNumbered) (id : String) :
    (d.discard id).1.IsNumbered :=
  fun r pending => numbered r (List.mem_filter.mp pending).1

theorem standing_new (numbered : d.IsNumbered) : d.standing (requestId (d.taken + 1)) = none := by
  refine Option.map_eq_none_iff.mpr (List.find?_eq_none.mpr ?_)
  intro r pending called
  have same := requestId_injective (eq_of_beq called)
  have known := numbered r pending
  omega

theorem standing_request (numbered : d.IsNumbered) (path : Value) (params : Fields) :
    (d.request path params).1.standing id =
      if id = requestId (d.taken + 1) then some none else d.standing id := by
  have appended : (d.request path params).1.find? id = (d.find? id).or
      (List.find? (·.id == id) [{ number := d.taken + 1, path, params }]) :=
    List.find?_append
  split
  · next isNew =>
    subst isNew
    have isFree := Option.map_eq_none_iff.mp (standing_new numbered)
    rw [standing, appended, isFree, Option.none_or, List.find?_cons_of_pos (by exact beq_self_eq_true _)]
    rfl
  · next notNew =>
    have isOther : ({ number := d.taken + 1, path, params } : PendingRequest).id ≠ id := Ne.symm notNew
    rw [standing, appended, List.find?_cons_of_neg (by simpa using isOther), List.find?_nil,
      Option.or_none, standing]

theorem standing_respond (d : Desk) (id other : String) (body : Fields) :
    (d.respond id body).standing other =
      if other = id then (d.standing id).map (·.or (some body)) else d.standing other := by
  let answered (r : PendingRequest) : PendingRequest :=
    if r.id == id && r.response.isNone then { r with response := some body } else r
  have sameId (r : PendingRequest) : (answered r).id = r.id := by
    simp only [answered]
    split <;> rfl
  have found : (d.respond id body).find? other = (d.find? other).map answered := by
    refine List.find?_map.trans (congrArg (Option.map answered) (congrArg (List.find? · d.pending) ?_))
    exact funext fun r => congrArg (· == other) (sameId r)
  rw [standing, found, standing, standing]
  cases isThere : d.find? other with
  | none =>
    split
    · next isIt => rw [← isIt, isThere]; rfl
    · rfl
  | some r =>
    have called := id_of_find? isThere
    split
    · next isIt =>
      subst isIt
      cases responded : r.response <;> simp [isThere, answered, called, responded]
    · next notIt =>
      have notCalled : ¬r.id = id := fun same => notIt (called.symm.trans same)
      simp [answered, notCalled]

theorem standing_discard (d : Desk) (id other : String) :
    (d.discard id).1.standing other = if other = id then none else d.standing other := by
  have found : (d.discard id).1.find? other = if other = id then none else d.find? other := by
    refine List.find?_filter.trans ?_
    split
    · next isIt =>
      subst isIt
      refine List.find?_eq_none.mpr fun r _ both => ?_
      simp at both
    · next notIt =>
      refine congrArg (List.find? · d.pending) (funext fun r => ?_)
      by_cases called : r.id = other
      · simp [called, notIt]
      · simp [called]
  rw [standing, found]
  split <;> rfl

/-! ### Calls -/

/-- A request is refused for its arguments, or taken in under the next number. -/
theorem call_request (d : Desk) (input : Fields) :
    (∃ error, d.call "request" input = (d, .error error)) ∨
      ∃ path params, d.call "request" input = ((d.request path params).1,
        .ok (.map [("request", .text (requestId (d.taken + 1)))])) := by
  unfold call
  cases subject "request" input with
  | error error => exact .inl ⟨error, rfl⟩
  | ok path => exact .inr ⟨path, _, rfl⟩

theorem call_get_pending (d : Desk) (input : Fields) : (d.call "get_pending" input).1 = d := by
  unfold call
  cases subject "get_pending" input with
  | error => rfl
  | ok wanted =>
    simp only [carryOut]
    cases d.lookUp wanted with
    | error => rfl
    | ok found => cases found <;> rfl

/-- The first response to a pending request is accepted. -/
theorem call_respond_first (named : subject "respond" input = .ok (.text id))
    (unanswered : d.standing id = some none) :
    d.call "respond" input =
      (d.respond id (Fields.erase input "request"), .ok (.map [("request", .text id)])) := by
  obtain ⟨r, found, response⟩ := Option.map_eq_some_iff.mp unanswered
  have called := id_of_find? found
  unfold call
  rw [named]
  simp [carryOut, lookUp, found, response, called, needed]

/-- Every other response to a request is refused with an error, and changes nothing. -/
theorem call_respond_other (named : subject "respond" input = .ok (.text id))
    (notFirst : d.standing id ≠ some none) :
    ∃ text, d.call "respond" input = (d, .ok (errorOutput text)) := by
  unfold call
  rw [named]
  unfold standing at notFirst
  cases found : d.find? id with
  | none => exact ⟨_, by simp [carryOut, lookUp, found]; rfl⟩
  | some r =>
    cases response : r.response with
    | none => simp [found, response] at notFirst
    | some body => exact ⟨_, by simp [carryOut, lookUp, found, response]; rfl⟩

/-- A response that names no request changes nothing. -/
theorem call_respond_unnamed (unnamed : ∀ id, subject "respond" input ≠ .ok (.text id)) :
    (d.call "respond" input).1 = d := by
  unfold call
  cases about : subject "respond" input with
  | error => rfl
  | ok value =>
    cases value with
    | text id => exact absurd about (unnamed id)
    | _ => rfl

end Desk

end Choreography
