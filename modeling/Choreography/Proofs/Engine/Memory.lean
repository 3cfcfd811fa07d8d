import Choreography.Engine
import Choreography.Proofs.Log.History

/-! What an engine remembers of its firings. A firing is forgotten only together with the
cascade that it belongs to, and from then on some of its support is gone for good. So a
firing that was claimed once is spent for ever, remembered or not. -/

namespace Choreography

open InvocationLog

/-- Some of a support was given to a cascade, and to no other. -/
def Firing.BelongsTo (firing : Firing) (log : InvocationLog) (root : InvocationId) : Prop :=
  ∃ id ∈ firing.support, log.Assigned root id

/-- Some of a support is gone. -/
def Firing.IsLost (firing : Firing) (log : InvocationLog) : Prop := ∃ id ∈ firing.support, log.Gone id

/-- What belongs to a cascade now belongs to it later. -/
theorem Firing.BelongsTo.later {firing : Firing} {log later : InvocationLog}
    (belongs : firing.BelongsTo log root) (becomes : log.Becomes later) (reached : log.Reachable) :
    firing.BelongsTo later root := by
  obtain ⟨id, inside, assigned⟩ := belongs
  exact ⟨id, inside, becomes.assigned reached assigned⟩

namespace Engine

/-- What the log has seen is known, and what was noted for a cascade belongs to it. -/
structure Sound (e : Engine) (history : List Invocation) : Prop where
  log : e.log.Remembers history
  noted : ∀ entry ∈ e.firedByRoot, ∀ firing ∈ entry.2, firing.BelongsTo e.log entry.1

/-- A firing that cannot come about again. -/
def Spent (e : Engine) (firing : Firing) : Prop := firing ∈ e.fired ∨ firing.IsLost e.log

/-- What an engine may become: its rules and components are the same, its log goes on, and
what has fired is spent. -/
structure Evolves (e f : Engine) : Prop where
  catalogue : f.catalogue = e.catalogue
  rules : f.rules = e.rules
  limits : f.limits = e.limits
  log : e.log.Becomes f.log
  fired : ∀ firing ∈ e.fired, f.Spent firing

variable {e f g : Engine} {history : List Invocation} {root : InvocationId} {firing : Firing}

theorem Sound.reached (sound : e.Sound history) : e.log.Reachable := sound.log.reached

theorem Sound.coherent (sound : e.Sound history) : e.log.Coherent := sound.log.coherent

theorem Sound.belongs (sound : e.Sound history)
    (isNoted : firing ∈ (List.lookup root e.firedByRoot).getD []) : firing.BelongsTo e.log root := by
  cases found : List.lookup root e.firedByRoot with
  | none =>
    rw [found] at isNoted
    cases isNoted
  | some firings =>
    rw [found] at isNoted
    obtain ⟨before, after, isEntry, _⟩ := List.lookup_eq_some_iff.mp found
    exact sound.noted (root, firings) (isEntry ▸ List.mem_append_right _ List.mem_cons_self) firing
      isNoted

theorem Evolves.refl (e : Engine) : e.Evolves e :=
  ⟨rfl, rfl, rfl, .refl e.log, fun _ => .inl⟩

theorem Evolves.spent (evolves : e.Evolves f) (reached : e.log.Reachable) (spent : e.Spent firing) :
    f.Spent firing := by
  rcases spent with fired | ⟨id, inside, gone⟩
  · exact evolves.fired firing fired
  · exact .inr ⟨id, inside, evolves.log.gone reached gone⟩

theorem Evolves.trans (first : e.Evolves f) (second : f.Evolves g) (reached : e.log.Reachable) :
    e.Evolves g :=
  ⟨second.catalogue.trans first.catalogue, second.rules.trans first.rules,
    second.limits.trans first.limits, first.log.trans second.log,
    fun firing fired => second.spent (first.log.reached reached) (first.fired firing fired)⟩

/-- The frames that are left of what matches are those that have not fired. -/
theorem mem_unfired_iff {rule : Rule} {trigger : Invocation} {frame : Frame} :
    frame ∈ e.unfired rule trigger ↔
      frame ∈ rule.matchAt trigger e.log ∧ ⟨rule.name, frame.support⟩ ∉ e.fired := by
  simp [unfired, hasFired]

/-! ### The operations of an engine -/

theorem Sound.deactivate (sound : e.Sound history) (root : InvocationId) :
    (e.deactivate root).Sound history :=
  ⟨sound.log, sound.noted⟩

theorem evolves_deactivate (e : Engine) (root : InvocationId) : e.Evolves (e.deactivate root) :=
  ⟨rfl, rfl, rfl, .refl e.log, fun _ => .inl⟩

theorem Sound.activate (sound : e.Sound history) (root : InvocationId) (run : Nat) :
    (e.activate root run).Sound history :=
  ⟨sound.log, sound.noted⟩

theorem evolves_activate (e : Engine) (root : InvocationId) (run : Nat) :
    e.Evolves (e.activate root run) :=
  ⟨rfl, rfl, rfl, .refl e.log, fun _ => .inl⟩

/-- Whatever is logged, what was noted still belongs where it did. -/
theorem Sound.append (sound : e.Sound history)
    (logged : e.log.append action input output causes = .ok (grown, i)) :
    Sound { e with log := grown } (history ++ [i]) := by
  refine ⟨sound.log.append logged, ?_⟩
  intro entry inside firing isNoted
  exact (sound.noted entry inside firing isNoted).later ((Becomes.refl e.log).append logged) sound.reached

theorem evolves_append (logged : e.log.append action input output causes = .ok (grown, i)) :
    e.Evolves { e with log := grown } :=
  ⟨rfl, rfl, rfl, (Becomes.refl e.log).append logged, fun _ => .inl⟩

/-- What is recorded is logged without a cause, and changes the log only. -/
theorem record_eq_ok (recorded : e.record action input output = .ok (f, i)) :
    ∃ grown, e.log.append action input output [] = .ok (grown, i) ∧ f = { e with log := grown } := by
  unfold record at recorded
  split at recorded
  · next grown i logged =>
    cases recorded
    exact ⟨grown, logged, rfl⟩
  · cases recorded

theorem Sound.claim (sound : e.Sound history) (belongs : firing.BelongsTo e.log root) :
    (e.claim root firing).Sound history := by
  refine ⟨sound.log, ?_⟩
  intro entry inside other isNoted
  rcases List.mem_append.mp inside with old | new
  · exact sound.noted entry (List.mem_filter.mp old).1 other isNoted
  · rw [List.mem_singleton.mp new] at isNoted ⊢
    rcases List.mem_append.mp isNoted with known | isNew
    · exact sound.belongs known
    · rw [List.mem_singleton.mp isNew]
      exact belongs

theorem evolves_claim (e : Engine) (root : InvocationId) (firing : Firing) :
    e.Evolves (e.claim root firing) :=
  ⟨rfl, rfl, rfl, .refl e.log, fun _ fired => .inl (List.mem_append_left _ fired)⟩

theorem spent_claim (e : Engine) (root : InvocationId) (firing : Firing) :
    (e.claim root firing).Spent firing :=
  .inl (List.mem_append_right _ (List.mem_singleton_self firing))

theorem Sound.forget (sound : e.Sound history) (root : InvocationId) :
    (e.forget root).Sound history := by
  refine ⟨sound.log.forget root, ?_⟩
  intro entry inside firing isNoted
  exact (sound.noted entry (List.mem_filter.mp inside).1 firing isNoted).later
    ((Becomes.refl e.log).forget root) sound.reached

/-- What is forgotten with a cascade belonged to it, so that it is spent all the same. -/
theorem Sound.evolves_forget (sound : e.Sound history) (root : InvocationId) :
    e.Evolves (e.forget root) := by
  refine ⟨rfl, rfl, rfl, (Becomes.refl e.log).forget root, ?_⟩
  intro firing fired
  by_cases isNoted : firing ∈ (List.lookup root e.firedByRoot).getD []
  · obtain ⟨id, inside, assigned⟩ := sound.belongs isNoted
    exact .inr ⟨id, inside, assigned.gone_forget sound.coherent⟩
  · refine .inl (List.mem_filter.mpr ⟨fired, ?_⟩)
    simpa using isNoted

theorem Sound.foldl_forget (sound : e.Sound history) (roots : List InvocationId) :
    (roots.foldl Engine.forget e).Sound history ∧ e.Evolves (roots.foldl Engine.forget e) := by
  induction roots generalizing e with
  | nil => exact ⟨sound, .refl e⟩
  | cons root roots ih =>
    obtain ⟨later, evolves⟩ := ih (sound.forget root)
    exact ⟨later, (sound.evolves_forget root).trans evolves sound.reached⟩

theorem mem_fired_of_mem_foldl_forget {roots : List InvocationId}
    (fired : firing ∈ (roots.foldl Engine.forget e).fired) : firing ∈ e.fired := by
  induction roots generalizing e with
  | nil => exact fired
  | cons root roots ih => exact (List.mem_filter.mp (ih fired)).1

/-- Retention lets nothing fire. -/
theorem mem_fired_of_mem_retain (fired : firing ∈ (e.retain root).1.fired) : firing ∈ e.fired := by
  rw [Engine.retain] at fired
  split at fired
  · exact fired
  · dsimp only at fired
    split at fired
    · exact mem_fired_of_mem_foldl_forget fired
    · exact mem_fired_of_mem_foldl_forget (e := { e with drained := e.drained ++ [root] }) fired

theorem Sound.retain (sound : e.Sound history) (root : InvocationId) :
    (e.retain root).1.Sound history ∧ e.Evolves (e.retain root).1 := by
  rw [Engine.retain]
  split
  · exact ⟨sound, .refl e⟩
  · next retention _ =>
    dsimp only
    split
    · exact sound.foldl_forget _
    · have noted : Sound { e with drained := e.drained ++ [root] } history := ⟨sound.log, sound.noted⟩
      obtain ⟨later, evolves⟩ := noted.foldl_forget _
      exact ⟨later, ⟨evolves.catalogue, evolves.rules, evolves.limits, evolves.log, evolves.fired⟩⟩

end Engine

end Choreography
