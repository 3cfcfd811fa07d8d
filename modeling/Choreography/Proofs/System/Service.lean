import Choreography.Proofs.Catalogue
import Choreography.Proofs.Rule.Definition
import Choreography.Proofs.Run.Blame
import Choreography.Proofs.System.Eviction
import Choreography.Proofs.System.Repertoire

/-! An engine in service. Besides all that can happen to its runs, somebody may offer it more rules
and components at any time. Once it has been validated it takes none of them, and whatever its
rules call, and whatever is invoked from outside, is an action that was registered. -/

namespace Choreography

/-- A system with what it has told: the roots that were invoked from outside, and the faults that
were delivered. -/
structure Service where
  system : System
  invoked : List Invocation := []
  told : List Failure := []

namespace Service

/-- Rules are offered, one after the other. -/
def offerRules (s : Service) (rules : List (Except Error Rule)) : Service :=
  let engine := { s.system.engine with rules := (s.system.engine.rules.registerAll rules).1 }
  { s with system := { s.system with engine } }

/-- A component is offered. -/
def offerComponent (s : Service) (component : String) (methods : List String) : Service :=
  match s.system.engine.catalogue.register component methods with
  | .ok catalogue =>
    { s with system := { s.system with engine := { s.system.engine with catalogue } } }
  | .error _ => s

/-- Everything that can happen in one go. -/
inductive Step : Service → Service → Prop where
  | record {s : Service} (logged : s.system.engine.record action input output = .ok (e, i)) :
      Step s { s with system := s.system.recorded e i }
  | invoke {s : Service} (admitted : s.system.engine.catalogue.invocable action = .ok operation)
      (result : Except Error Value)
      (called : CallEnd.ofResult action result = .ok call)
      (logged : s.system.engine.record action input call.output = .ok (e, i))
      (limit : Option Seconds) (now : Instant) :
      Step s
        { system := (s.system.recorded e i).begun i limit now
          invoked := s.invoked ++ [i]
          told := s.told ++ (call.fault? CallEnd.boundary).toList }
  | process {s : Service} (known : i ∈ s.system.history) (limit : Option Seconds) (now : Instant) :
      Step s { s with system := s.system.begun i limit now }
  | cancel {s : Service} (root : InvocationId) : Step s { s with system := s.system.cancelled root }
  | turn {s : Service} (working : s.system.workers[n]? = some w)
      (turns : w.run.Turns s.system.engine turn) :
      Step s
        { s with system := s.system.turned n w turn, told := s.told ++ delivered turn.events }
  | offerRules {s : Service} (rules : List (Except Error Rule)) : Step s (s.offerRules rules)
  | offerComponent {s : Service} (component : String) (methods : List String) :
      Step s (s.offerComponent component methods)

/-- Whatever happens, in any number of steps. -/
inductive Reaches (start : Service) : Service → Prop where
  | start : Reaches start start
  | step (reached : Reaches start s) (next : Step s t) : Reaches start t

end Service

variable {e f : Engine} {c d : Cascade} {p q : Point} {events : List Event} {action : ActionRef}
  {input : Fields} {i : Invocation}

/-! ### Validated engines -/

namespace Engine

/-- Nobody can register anything any more, and whatever the rules call is an action. -/
structure IsSealed (e : Engine) : Prop where
  rules : e.rules.frozen = true
  catalogue : e.catalogue.frozen = true
  registered : e.rules.Reachable
  callable : ∀ rule ∈ e.rules.rules, ∀ p ∈ rule.thens, e.catalogue.OffersAction p.action

theorem validate_eq_ok {notes : List LogRecord} (valid : e.validate = (f, notes, .ok ())) :
    f = { e with rules := e.rules.freeze, catalogue := e.catalogue.freeze } := by
  unfold validate at valid
  split at valid <;> cases valid
  rfl

/-- A validation that succeeds seals the engine. -/
theorem isSealed_of_validate {notes : List LogRecord} (components : e.catalogue.Reachable)
    (registered : e.rules.Reachable) (defined : ∀ rule ∈ e.rules.rules, rule.IsDefined)
    (valid : e.validate = (f, notes, .ok ())) : f.IsSealed := by
  have validated := isValidated_of_validate valid
  cases validate_eq_ok valid
  refine ⟨rfl, rfl, registered.freeze, ?_⟩
  intro rule isRule p isPattern
  have isAction := (defined rule isRule).wellFormed.actions p (List.mem_append_right _ isPattern)
  exact components.freeze.offersAction (validated rule isRule p isPattern) isAction

end Engine

/-! ### Moves that call or log something -/

/-- What a run calls is what stands next in its dispatch. -/
theorem Moves.next_of_call (moves : Moves e c p f d q events) (evaluation : Evaluation)
    (isCall : Deed.call? ⟨evaluation, p, q, events⟩ = some (action, input)) :
    ∃ site left claimed work pattern patterns made,
      p = .dispatching site left claimed work (.next (pattern :: patterns) made) ∧
        pattern.action = action := by
  cases moves with
  | call =>
    cases isCall
    exact ⟨_, _, _, _, _, _, _, rfl, rfl⟩
  | dispatch =>
    rw [Deed.call?, Dispatch.beginning] at isCall
    split at isCall
    · next isPoint => split at isPoint <;> cases isPoint
    · cases isCall
  | _ => cases isCall

/-- What a run logs is what it has called, or what nobody offers. -/
theorem Moves.origin_of_posted (moves : Moves e c p f d q events) (coherent : e.log.Coherent)
    (isPosted : i ∈ posted events) :
    (∃ site left claimed work pattern patterns made,
      p = .dispatching site left claimed work (.next (pattern :: patterns) made) ∧
        e.catalogue.has pattern.action = false) ∨
      ∃ site left claimed work input patterns made ends,
        p = .dispatching site left claimed work (.calling i.action input patterns made ends) := by
  cases moves with
  | log _ called logged posts =>
    rw [posts] at isPosted
    obtain ⟨_, _, _, _, rfl, _⟩ := coherent.append_eq_ok logged
    cases List.mem_singleton.mp isPosted
    cases called with
    | unregistered missing => exact .inl ⟨_, _, _, _, _, _, _, rfl, missing⟩
    | awaited => exact .inr ⟨_, _, _, _, _, _, _, _, rfl⟩
  | drain _ notes | leave _ _ _ notes =>
    rw [posted_eq_nil notes] at isPosted
    cases isPosted
  | enrich _ _ _ silent | answer _ _ _ silent | lose _ _ _ _ silent | dispatch _ _ _ silent
  | breakOff _ _ silent | reject _ _ silent =>
    rw [silent] at isPosted
    cases isPosted
  | save =>
    rw [posted_eq_nil (e.retain_isQuiet _)] at isPosted
    cases isPosted
  | _ => cases isPosted

namespace Service

variable {start s t : Service} {n : Nat} {w : Worker} {turn : Turn}

/-! ### What is offered to a sealed engine -/

theorem offerRules_of_sealed (isSealed : s.system.engine.IsSealed)
    (rules : List (Except Error Rule)) : s.offerRules rules = s := by
  have refused : (s.system.engine.rules.registerAll rules).1 = s.system.engine.rules := by
    cases rules with
    | nil => rfl
    | cons rule rules =>
      cases rule with
      | error => rfl
      | ok rule =>
        have frozen : (Except.ok rule >>= s.system.engine.rules.register) =
            .error (.of (.frozen RuleRegistry.name)) := if_pos isSealed.rules
        rw [RuleRegistry.registerAll, frozen]
  rw [offerRules, refused]

theorem offerComponent_of_sealed (isSealed : s.system.engine.IsSealed) (component : String)
    (methods : List String) : s.offerComponent component methods = s := by
  rw [offerComponent, Catalogue.register_of_frozen isSealed.catalogue]

/-! ### What every step preserves -/

/-- Everything that was called, logged or invoked is an action that was registered with the engine,
and no fault says otherwise. -/
structure Serves (s : Service) (e : Engine) : Prop where
  performs : s.system.Performs e
  called : ∀ deed ∈ s.system.chronicle, ∀ call ∈ deed.call?, e.catalogue.OffersAction call.1
  logged : ∀ deed ∈ s.system.chronicle, ∀ i ∈ posted deed.events, e.catalogue.OffersAction i.action
  invoked : ∀ i ∈ s.invoked, e.catalogue.OffersAction i.action
  told : ∀ fault ∈ s.told, fault.kind? ≠ some .resolution

theorem Serves.isSealed (serves : s.Serves e) (isSealed : e.IsSealed) :
    s.system.engine.IsSealed := by
  obtain ⟨rules, catalogue, registered, callable⟩ := isSealed
  rw [← serves.performs.rules] at rules registered callable
  rw [← serves.performs.catalogue] at catalogue callable
  exact ⟨rules, catalogue, registered, callable⟩

theorem Serves.rests {system : System} (serves : s.Serves e) (rests : s.system.Rests system) :
    Serves { s with system } e where
  performs := serves.performs.rests rests
  called deed made := serves.called deed (rests.chronicle ▸ made)
  logged deed made := serves.logged deed (rests.chronicle ▸ made)
  invoked := serves.invoked
  told := serves.told

/-- Whatever stands next in a dispatch is a registered action. -/
theorem Serves.offersAction_next (serves : s.Serves e) (isSealed : e.IsSealed)
    (working : s.system.workers[n]? = some w) {site : Site} {left : Frames} {claimed : List Firing}
    {work : Dispatch} {patterns : List Pattern} {made : List Invocation}
    (isPoint : w.run.point = .dispatching site left claimed work (.next patterns made)) :
    ∀ p ∈ patterns, e.catalogue.OffersAction p.action := by
  obtain ⟨isRule, areThens⟩ := serves.performs.mem_thens_of_next working isPoint
  exact fun p isLeft => isSealed.callable _ isRule p (areThens p isLeft)

theorem Serves.turned (serves : s.Serves e) (isSealed : e.IsSealed)
    (working : s.system.workers[n]? = some w) (turns : w.run.Turns s.system.engine turn) :
    Serves { s with system := s.system.turned n w turn, told := s.told ++ delivered turn.events }
      e := by
  have moves := turns.isMove
  have coherent := serves.performs.accountable.orderly.sound.coherent
  have offered {site : Site} {left : Frames} {claimed : List Firing} {work : Dispatch}
      {pattern : Pattern} {patterns : List Pattern} {made : List Invocation}
      (isPoint :
        w.run.point = .dispatching site left claimed work (.next (pattern :: patterns) made)) :
      e.catalogue.OffersAction pattern.action :=
    serves.offersAction_next isSealed working isPoint pattern List.mem_cons_self
  constructor
  case performs => exact serves.performs.turned working moves
  case called =>
    intro deed made call isCall
    rcases System.mem_turned_chronicle.mp made with old | rfl
    · exact serves.called deed old call isCall
    · obtain ⟨_, _, _, _, _, _, _, isPoint, isAction⟩ := Moves.next_of_call moves _ isCall
      exact isAction ▸ offered isPoint
  case logged =>
    intro deed made i isPosted
    rcases System.mem_turned_chronicle.mp made with old | rfl
    · exact serves.logged deed old i isPosted
    -- What nobody offers is logged without a call, but nothing of this kind stands in a dispatch.
    · rcases Moves.origin_of_posted moves coherent isPosted with
        ⟨_, _, _, _, _, _, _, isPoint, missing⟩ | ⟨_, _, _, _, given, _, _, ends, isPoint⟩
      · rw [serves.performs.catalogue] at missing
        exact absurd (offered isPoint).has (Bool.eq_false_iff.mp missing)
      · have waits : w.run.wait? s.system.engine = some (.component i.action given ends) := by
          rw [Run.wait?, isPoint]
        obtain ⟨rule, isRule, p, isPattern, isAction⟩ :=
          serves.performs.exists_then_of_wait working waits
        exact isAction ▸ isSealed.callable rule isRule p isPattern
  case invoked => exact serves.invoked
  case told =>
    intro fault isTold isKind
    rcases List.mem_append.mp isTold with old | isDelivered
    · exact serves.told fault old isKind
    · have blames := turns.blames isDelivered
      generalize isPoint : w.run.point = p at blames
      cases blames with
      | clause ofKind ofClause =>
        cases Option.some.inj (ofKind.symm.trans isKind)
        rcases ofClause with impossible | impossible <;> cases impossible
      | depth isCause =>
        rw [Failure.kind?, isCause] at isKind
        cases isKind
      | missing missing =>
        rw [serves.performs.catalogue] at missing
        exact absurd (offered isPoint).has (Bool.eq_false_iff.mp missing)
      | component ofKind => cases ofKind.symm.trans isKind

theorem Serves.invoked_step {f : Engine} {result : Except Error Value} {call : CallEnd}
    {operation : Operation} (serves : s.Serves e)
    (admitted : s.system.engine.catalogue.invocable action = .ok operation)
    (called : CallEnd.ofResult action result = .ok call)
    (logged : s.system.engine.record action input call.output = .ok (f, i)) (limit : Option Seconds)
    (now : Instant) :
    Serves
      { system := (s.system.recorded f i).begun i limit now
        invoked := s.invoked ++ [i]
        told := s.told ++ (call.fault? CallEnd.boundary).toList } e := by
  have coherent := serves.performs.accountable.orderly.sound.coherent
  have recorded := System.recorded_rests coherent logged
  have begun : (s.system.recorded f i).Rests ((s.system.recorded f i).begun i limit now) :=
    System.begun_rests (List.mem_append_right _ (List.mem_singleton_self _)) limit now
  obtain ⟨performs, wasCalled, wasLogged, _, _⟩ := (serves.rests recorded).rests begun
  refine ⟨performs, wasCalled, wasLogged, ?_, ?_⟩
  · refine List.forall_mem_append.mpr ⟨serves.invoked, List.forall_mem_singleton.mpr ?_⟩
    obtain ⟨_, appended, _⟩ := Engine.record_eq_ok logged
    obtain ⟨_, _, _, _, rfl, _⟩ := coherent.append_eq_ok appended
    rw [serves.performs.catalogue] at admitted
    obtain ⟨offered, isAction⟩ := Catalogue.invocable_eq_ok_iff.mp admitted
    exact ⟨operation, offered, (Catalogue.operation_eq_ok offered).2, isAction⟩
  · intro fault isTold isKind
    rcases List.mem_append.mp isTold with old | atBoundary
    · exact serves.told fault old isKind
    · rw [CallEnd.fault?] at atBoundary
      cases isRejection : call.rejection with
      | none =>
        rw [isRejection] at atBoundary
        cases atBoundary
      | some rejection =>
        rw [isRejection] at atBoundary
        cases List.mem_singleton.mp atBoundary
        have ofDispatch := CallEnd.kind_of_ofResult called isRejection
        cases ofDispatch.symm.trans (Option.some.inj isKind)

theorem Serves.step (serves : s.Serves e) (isSealed : e.IsSealed) (next : s.Step t) :
    t.Serves e := by
  have coherent := serves.performs.accountable.orderly.sound.coherent
  cases next with
  | record logged => exact serves.rests (System.recorded_rests coherent logged)
  | invoke admitted result called logged limit now =>
    exact serves.invoked_step admitted called logged limit now
  | process known limit now => exact serves.rests (System.begun_rests known limit now)
  | cancel root => exact serves.rests (s.system.cancelled_rests root)
  | turn working turns => exact serves.turned isSealed working turns
  | offerRules rules => exact (offerRules_of_sealed (serves.isSealed isSealed) rules).symm ▸ serves
  | offerComponent component methods =>
    exact (offerComponent_of_sealed (serves.isSealed isSealed) component methods).symm ▸ serves

/-! ### A service and its system -/

/-- Whatever happens to a sealed service could have happened to its system alone. -/
theorem Step.system (isSealed : s.system.engine.IsSealed) (next : s.Step t) :
    s.system.Reaches t.system := by
  cases next with
  | record logged => exact .step .start (.record logged)
  | invoke admitted result called logged limit now =>
    obtain ⟨offered, isAction⟩ := Catalogue.invocable_eq_ok_iff.mp admitted
    exact .step .start (.invoke offered isAction result called logged limit now)
  | process known limit now => exact .step .start (.process known limit now)
  | cancel root => exact .step .start (.cancel root)
  | turn working turns =>
    cases turns with
    | step now ready going => exact .step .start (.go working ready going now)
    | resume now waits answered => exact .step .start (.hear working waits answered now)
  | offerRules rules => exact (offerRules_of_sealed isSealed rules).symm ▸ .start
  | offerComponent component methods =>
    exact (offerComponent_of_sealed isSealed component methods).symm ▸ .start

theorem Reaches.serves {begun : System} (isSealed : begun.engine.IsSealed) (initial : begun.Initial)
    (reached : Reaches { system := begun } s) :
    s.Serves begun.engine ∧ begun.Reaches s.system := by
  induction reached with
  | start =>
    refine ⟨⟨System.Reaches.start.performs initial isSealed.registered, ?_, ?_, ?_, ?_⟩, .start⟩
    · simp [initial.chronicle]
    · simp [initial.chronicle]
    · exact List.forall_mem_nil _
    · exact List.forall_mem_nil _
  | step _ next ih =>
    obtain ⟨serves, alone⟩ := ih
    exact ⟨serves.step isSealed next, alone.trans (next.system (serves.isSealed isSealed))⟩

/-- Whatever happens to a system can happen to it in service. -/
theorem exists_of_step {u : System} (next : s.system.Step u) :
    ∃ t, s.Step t ∧ t.system = u ∧ s.invoked ⊆ t.invoked := by
  cases next with
  | record logged => exact ⟨_, .record logged, rfl, List.Subset.refl _⟩
  | invoke offered isAction result called logged limit now =>
    have admitted := Catalogue.invocable_eq_ok_iff.mpr ⟨offered, isAction⟩
    exact ⟨_, .invoke admitted result called logged limit now, rfl, List.subset_append_left ..⟩
  | process known limit now => exact ⟨_, .process known limit now, rfl, List.Subset.refl _⟩
  | cancel root => exact ⟨_, .cancel root, rfl, List.Subset.refl _⟩
  | go working ready going now =>
    exact ⟨_, .turn working (.step now ready going), rfl, List.Subset.refl _⟩
  | hear working waits answered now =>
    exact ⟨_, .turn working (.resume now waits answered), rfl, List.Subset.refl _⟩

theorem exists_of_reaches {u : System} (reached : start.Reaches s) (later : s.system.Reaches u) :
    ∃ t, start.Reaches t ∧ t.system = u ∧ s.invoked ⊆ t.invoked := by
  induction later with
  | start => exact ⟨s, reached, rfl, List.Subset.refl _⟩
  | step _ next ih =>
    obtain ⟨t, before, rfl, invoked⟩ := ih
    obtain ⟨t', last, rfl, more⟩ := exists_of_step next
    exact ⟨t', before.step last, rfl, fun _ inside => more (invoked inside)⟩

/-- An engine of registered components and of rules that were defined is validated, and is in
service from then on. Whatever it calls for its rules, and has still to call, is a registered
action, and so is whatever it logs in doing so, and every root that is invoked. No fault says that
anything is not registered. Whatever is offered to be registered changes nothing: all that happens
could have happened without it. -/
theorem validated_calls_registered_actions {begun : System} {notes : List LogRecord}
    (components : e.catalogue.Reachable) (registered : e.rules.Reachable)
    (defined : ∀ rule ∈ e.rules.rules, rule.IsDefined)
    (valid : e.validate = (begun.engine, notes, .ok ())) (initial : begun.Initial)
    (reached : Reaches { system := begun } s) :
    (∀ deed ∈ s.system.chronicle, (∀ call ∈ deed.call?, e.catalogue.OffersAction call.1) ∧
        ∀ i ∈ posted deed.events, e.catalogue.OffersAction i.action) ∧
      (∀ w ∈ s.system.workers, ∀ site left claimed work patterns made,
        w.run.point = .dispatching site left claimed work (.next patterns made) →
          ∀ p ∈ patterns, e.catalogue.OffersAction p.action) ∧
      (∀ i ∈ s.invoked, e.catalogue.OffersAction i.action) ∧
      (∀ fault ∈ s.told, fault.kind? ≠ some .resolution) ∧
      (∀ rules, s.offerRules rules = s) ∧
      (∀ component methods, s.offerComponent component methods = s) ∧
      begun.Reaches s.system := by
  have isSealed := Engine.isSealed_of_validate components registered defined valid
  have sameComponents (action : ActionRef) :
      begun.engine.catalogue.OffersAction action ↔ e.catalogue.OffersAction action := by
    rw [Engine.validate_eq_ok valid]
    rfl
  obtain ⟨serves, alone⟩ := reached.serves isSealed initial
  refine ⟨?called, ?pending, ?invoked, serves.told, ?rules, ?components, alone⟩
  case called =>
    intro deed made
    exact ⟨fun call isCall => (sameComponents _).mp (serves.called deed made call isCall),
      fun i isPosted => (sameComponents _).mp (serves.logged deed made i isPosted)⟩
  case pending =>
    intro w inside _ _ _ _ _ _ isPoint p isLeft
    obtain ⟨n, working⟩ := List.getElem?_of_mem inside
    exact (sameComponents _).mp (serves.offersAction_next isSealed working isPoint p isLeft)
  case invoked => exact fun i isRoot => (sameComponents _).mp (serves.invoked i isRoot)
  case rules => exact offerRules_of_sealed (serves.isSealed isSealed)
  case components => exact offerComponent_of_sealed (serves.isSealed isSealed)

end Service

/-! ### A door in service -/

namespace Door

/-- The door and the lamp have been registered, and the rule that lights the lamp. -/
def equipped : Engine where
  catalogue :=
    { components := ["Door", "Lamp"]
      operations := [⟨⟨"Door", "open"⟩, .action⟩, ⟨⟨"Lamp", "warm"⟩, .action⟩] }
  rules := { rules := [light], index := [(⟨"Door", "open"⟩, [light])] }

def serving : System where
  engine :=
    { equipped with rules := equipped.rules.freeze, catalogue := equipped.catalogue.freeze }

/-- The door has been opened by somebody outside. -/
def answered : System := serving.after [.record ⟨"Door", "open"⟩ [] []]

theorem equipped_components : equipped.catalogue.Reachable := by
  have door : Catalogue.register {} "Door" ["open"] =
      .ok { components := ["Door"], operations := [⟨⟨"Door", "open"⟩, .action⟩] } := by
    rw [Catalogue.register, Catalogue.offered_singleton (by decide)]
    rfl
  have lamp : Catalogue.register
      { components := ["Door"], operations := [⟨⟨"Door", "open"⟩, .action⟩] } "Lamp" ["warm"] =
        .ok equipped.catalogue := by
    rw [Catalogue.register, Catalogue.offered_singleton (by decide)]
    rfl
  exact .register (.register .empty door) lamp

theorem equipped_rules : equipped.rules.Reachable := by
  have registered : RuleRegistry.register {} light = .ok equipped.rules := rfl
  exact .register .empty registered

theorem light_isDefined : light.IsDefined :=
  ⟨"light", light.whens.map .pattern, light.thens.map .pattern, .absent, rfl⟩

theorem serving_initial : serving.Initial where
  log := .start
  fired := rfl
  firedByRoot := rfl
  active := rfl
  workers := rfl
  chronicle := rfl

/-- The lamp has been asked for, and has answered. -/
def lit : System :=
  (answered.begun opening none 0).after
    (List.replicate 5 (.go 0) ++ [.hear 0 (.component (.finished (.ok .null)))])

theorem serving_invokes : Service.Step { system := serving }
    { system := answered.begun opening none 0, invoked := [opening] } := by
  have admitted :
      serving.engine.catalogue.invocable opening.action = .ok ⟨opening.action, .action⟩ := rfl
  exact .invoke admitted (.ok .null) rfl rfl none 0

theorem answered_reaches_lit : (answered.begun opening none 0).Reaches lit := System.reaches_after ..

theorem lit_calls_lamp :
    ∃ deed ∈ lit.chronicle, deed.call?.map (·.1) = some ⟨"Lamp", "warm"⟩ := by
  decide +kernel

/-- The door is opened by somebody outside, and the lamp is lit. Nobody can offer the rule once
more, or another lamp. -/
theorem calls_registered_lamp : ∃ s, Service.Reaches { system := serving } s ∧ opening ∈ s.invoked ∧
    (∃ deed ∈ s.system.chronicle, deed.call?.map (·.1) = some ⟨"Lamp", "warm"⟩) ∧
    equipped.catalogue.OffersAction ⟨"Lamp", "warm"⟩ ∧
    equipped.catalogue.OffersAction opening.action ∧
    (∀ fault ∈ s.told, fault.kind? ≠ some .resolution) ∧
    s.offerRules [.ok light] = s ∧ s.offerComponent "Lantern" ["warm"] = s := by
  have valid : equipped.validate = (serving.engine, [], .ok ()) := rfl
  have defined : ∀ rule ∈ equipped.rules.rules, rule.IsDefined :=
    List.forall_mem_singleton.mpr light_isDefined
  obtain ⟨s, reached, isLit, invoked⟩ :=
    Service.exists_of_reaches (.step .start serving_invokes) answered_reaches_lit
  obtain ⟨called, _, areActions, told, rules, components, _⟩ :=
    Service.validated_calls_registered_actions equipped_components equipped_rules defined valid
      serving_initial reached
  obtain ⟨deed, made, ofLamp⟩ := lit_calls_lamp
  obtain ⟨⟨_, _⟩, isCall, rfl⟩ := Option.map_eq_some_iff.mp ofLamp
  rw [← isLit] at made
  have isInvoked : opening ∈ s.invoked := invoked List.mem_cons_self
  exact ⟨s, reached, isInvoked, ⟨deed, made, ofLamp⟩, (called deed made).1 _ isCall,
    areActions _ isInvoked, told, rules _, components _ _⟩

end Door

end Choreography
