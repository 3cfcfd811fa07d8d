import Choreography.Match
import Choreography.Proofs.Log.Twins

/-! Matching in a cascade that takes the same course in two logs. A rule matches in the one
exactly as it does in the other: the frames come in the same order, bind the same values, and
rest on twins. -/

namespace Choreography

open InvocationLog

/-- Two frames bind the same and rest on twins. -/
structure Frame.Mirrors (twins : Twins) (f g : Frame) : Prop where
  bindings : f.bindings = g.bindings
  support : List.Forall₂ twins.Name f.support g.support

/-- The same place is filled with twins. -/
def Twins.Seat (twins : Twins) (x y : Nat × Invocation) : Prop := x.1 = y.1 ∧ twins.Pair x.2 y.2

/-- The same places are filled with twins. -/
structure Partial.Mirrors (twins : Twins) (p q : Partial) : Prop where
  placed : List.Forall₂ twins.Seat p.placed q.placed
  bindings : p.bindings = q.bindings

variable {log mirror : InvocationLog} {root image : InvocationId} {i j : Invocation}
  {p q : Partial} {rule : Rule}

theorem Frame.Mirrors.mono {twins more : Twins} {f g : Frame} (included : twins ⊆ more)
    (alike : f.Mirrors twins g) : f.Mirrors more g where
  bindings := alike.bindings
  support := alike.support.imp fun _ _ => Twins.Name.mono included

namespace InvocationLog.Mirrors

variable (mirrors : log.Mirrors mirror root image)

include mirrors

theorem unify_eq (pair : (log.twins mirror root image).Pair i j) (pattern : Pattern)
    (bindings : Fields) : pattern.unifyInvocation i bindings = pattern.unifyInvocation j bindings := by
  have alike := mirrors.alike _ pair
  rw [Pattern.unifyInvocation, alike.action, alike.input, alike.output]
  rfl

theorem all_ne_eq {placed mirrored : List (Nat × Invocation)}
    (seats : List.Forall₂ (log.twins mirror root image).Seat placed mirrored)
    (pair : (log.twins mirror root image).Pair i j) :
    placed.all (·.2.id != i.id) = mirrored.all (·.2.id != j.id) := by
  induction seats with
  | nil => rfl
  | cons head _ ih =>
    have same := mirrors.ascending.eq_iff head.2.name pair.name
    rw [List.all_cons, List.all_cons, ih]
    exact congrArg (· && _) (Bool.eq_iff_iff.mpr (by simpa using same.not))

theorem any_related_eq {placed mirrored : List (Nat × Invocation)}
    (seats : List.Forall₂ (log.twins mirror root image).Seat placed mirrored)
    (pair : (log.twins mirror root image).Pair i j) :
    placed.any (fun entry => log.related i.id entry.2.id) =
      mirrored.any fun entry => mirror.related j.id entry.2.id := by
  induction seats with
  | nil => rfl
  | cons head _ ih =>
    rw [List.any_cons, List.any_cons, ih, mirrors.related_eq pair.name head.2.name]

theorem admits_eq (alike : p.Mirrors (log.twins mirror root image) q)
    (pair : (log.twins mirror root image).Pair i j) : p.admits log i = q.admits mirror j := by
  rw [Partial.admits, Partial.admits, mirrors.all_ne_eq alike.placed pair,
    mirrors.any_related_eq alike.placed pair]

omit mirrors in
theorem lookup_seats {twins : Twins} {placed mirrored : List (Nat × Invocation)}
    (seats : List.Forall₂ twins.Seat placed mirrored) (place : Nat) :
    Option.Rel twins.Pair (List.lookup place placed) (List.lookup place mirrored) := by
  induction seats with
  | nil => exact .none
  | cons head _ ih =>
    rw [List.lookup_cons, List.lookup_cons, head.1]
    split
    · exact .some head.2
    · exact ih

omit mirrors in
theorem support_mirrors {twins : Twins} (alike : p.Mirrors twins q) (places : Nat) :
    List.Forall₂ twins.Name (p.support places) (q.support places) := by
  refine List.rel_filterMap (R := Eq) ?_ (List.forall₂_eq_eq_eq ▸ rfl)
  rintro place _ rfl
  have found := lookup_seats alike.placed place
  dsimp only
  generalize List.lookup place p.placed = first, List.lookup place q.placed = second at found
  cases found with
  | none => exact .none
  | some isPair => exact .some (Twins.Pair.name isPair)

theorem fillPlace_mirrors {candidates others : List Invocation}
    (pairs : List.Forall₂ (log.twins mirror root image).Pair candidates others) (place : Nat)
    (pattern : Pattern) (alike : p.Mirrors (log.twins mirror root image) q) :
    List.Forall₂ (Partial.Mirrors (log.twins mirror root image))
      (fillPlace log candidates place pattern p) (fillPlace mirror others place pattern q) := by
  refine List.rel_filterMap (fun k l isPair => ?_) pairs
  rw [mirrors.admits_eq alike isPair, mirrors.unify_eq isPair, alike.bindings]
  split
  · cases pattern.unifyInvocation l q.bindings with
    | none => exact .none
    | some bindings =>
      refine .some ⟨?_, rfl⟩
      exact List.rel_append alike.placed (.cons ⟨rfl, isPair⟩ .nil)
  · exact .none

theorem fillPlaces_mirrors (pair : (log.twins mirror root image).Pair i j) (seeded place : Nat)
    (patterns : List Pattern) {partials others : List Partial}
    (alike : List.Forall₂ (Partial.Mirrors (log.twins mirror root image)) partials others) :
    List.Forall₂ (Partial.Mirrors (log.twins mirror root image))
      (fillPlaces log i seeded place patterns partials)
      (fillPlaces mirror j seeded place patterns others) := by
  induction patterns generalizing place partials others with
  | nil => exact alike
  | cons pattern rest ih =>
    rw [fillPlaces, fillPlaces]
    split
    · exact ih (place + 1) alike
    · refine ih (place + 1) (List.rel_flatMap alike fun p q isAlike => ?_)
      exact mirrors.fillPlace_mirrors (mirrors.candidates pair pattern.action) place pattern isAlike

theorem seededAt_mirrors (pair : (log.twins mirror root image).Pair i j) (rule : Rule) (seeded : Nat)
    (pattern : Pattern) : List.Forall₂ (Frame.Mirrors (log.twins mirror root image))
      (seededAt rule i log seeded pattern) (seededAt rule j mirror seeded pattern) := by
  rw [seededAt, seededAt, mirrors.unify_eq pair]
  split
  · exact .nil
  · next bindings _ =>
    have start : Partial.Mirrors (log.twins mirror root image)
        { placed := [(seeded, i)], bindings } { placed := [(seeded, j)], bindings } :=
      ⟨.cons ⟨rfl, pair⟩ .nil, rfl⟩
    refine List.rel_map (fun p q alike => ?_)
      (mirrors.fillPlaces_mirrors pair seeded 0 rule.whens (.cons start .nil))
    exact ⟨alike.bindings, support_mirrors alike rule.whens.length⟩

theorem distinctSupports_mirrors {frames others : Frames}
    (alike : List.Forall₂ (Frame.Mirrors (log.twins mirror root image)) frames others) :
    List.Forall₂ (Frame.Mirrors (log.twins mirror root image)) (distinctSupports frames)
      (distinctSupports others) := by
  refine List.rel_foldl ?_ .nil alike
  intro seen alsoSeen areAlike f g isAlike
  have same : (seen.any (·.support == f.support)) = alsoSeen.any (·.support == g.support) := by
    induction areAlike with
    | nil => rfl
    | cons head _ ih =>
      have isSame := mirrors.ascending.list_eq_iff head.support isAlike.support
      rw [List.any_cons, List.any_cons, ih]
      exact congrArg (· || _) (Bool.eq_iff_iff.mpr (by simpa using isSame))
  dsimp only
  rw [same]
  split
  · exact areAlike
  · exact List.rel_append areAlike (.cons isAlike .nil)

/-- A rule matches alike around twins. -/
theorem matchAt_mirrors (pair : (log.twins mirror root image).Pair i j) (rule : Rule) :
    List.Forall₂ (Frame.Mirrors (log.twins mirror root image)) (rule.matchAt i log)
      (rule.matchAt j mirror) := by
  refine mirrors.distinctSupports_mirrors (List.rel_flatMap (R := Eq) (List.forall₂_eq_eq_eq ▸ rfl) ?_)
  rintro ⟨pattern, seeded⟩ _ rfl
  exact mirrors.seededAt_mirrors pair rule seeded pattern

end InvocationLog.Mirrors

end Choreography
