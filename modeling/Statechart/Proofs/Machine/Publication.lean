import Statechart.Proofs.Host.Audience
import Statechart.Proofs.Machine.Phase
import Statechart.Proofs.Machine.Stage
import Statechart.Proofs.Machine.Travel

namespace Statechart

variable {S E F X L W : Type}

def Fault.isGuard : Fault S E → Bool
  | .guard _ => true
  | _ => false

def Fault.isEntry : Fault S E → Bool
  | .entry _ => true
  | _ => false

def Fault.raises : Fault S E → Exception → Raised
  | .guard _, exception => .byGuard exception
  | _, exception => .byAction exception

/-- A failure of user code: where it comes from, what the operation had done until then, and what was raised. -/
structure Incident (S E : Type) where
  fault : Fault S E
  context : Context S E
  raised : Exception

namespace Incident

def mark (incident : Incident S E) : Raised := incident.fault.raises incident.raised

def final (b : Behaviour S E F X W) (m : Machine S E F X L) (incident : Incident S E) : Exception :=
  m.reported b incident.fault incident.context incident.raised

end Incident

namespace Progress

/-- A stretch of an operation publishes nothing but the incidents on its way, one notice for each. -/
structure Suffers (b : Behaviour S E F X W) (m : Machine S E F X L) (kind : Fault S E → Prop)
    (start p : Progress S E F X L W) (incidents : List (Incident S E)) : Prop where
  origin : p.context.origin? = start.context.origin?
  arguments : p.context.arguments = start.context.arguments
  exceptions : p.context.exceptions = start.context.exceptions ++ incidents.map (Incident.final b m)
  kinds : ∀ incident ∈ incidents, kind incident.fault
  host : start.host.Publishes m.subscribers p.host
    (incidents.map fun incident => Notice.ofException start.context (incident.final b m)) (incidents.map Incident.mark)

def Endures (b : Behaviour S E F X W) (m : Machine S E F X L) (kind : Fault S E → Prop)
    (start p : Progress S E F X L W) : Prop := ∃ incidents, start.Suffers b m kind p incidents

variable {b : Behaviour S E F X W} {m : Machine S E F X L} {kind : Fault S E → Prop} {start p : Progress S E F X L W}
  {incidents : List (Incident S E)} {fault : Fault S E}

theorem Suffers.refl (p : Progress S E F X L W) : p.Suffers b m kind p [] :=
  ⟨rfl, rfl, (List.append_nil _).symm, by simp, .refl _⟩

theorem Suffers.handle (suffers : start.Suffers b m kind p incidents) (expected : kind fault) {exception : Exception}
    {host : Host S E F X L W} (failed : start.host.Publishes m.subscribers host
      (incidents.map fun incident => Notice.ofException start.context (incident.final b m))
      (incidents.map Incident.mark ++ [fault.raises exception])) :
    start.Suffers b m kind (m.handleException b fault exception { p with host := host })
      (incidents ++ [⟨fault, p.context, exception⟩]) := by
  rw [Machine.handleException_eq]
  -- a notice tells the event by what the operation started with, and no stretch of it changes that
  have same (final : Exception) : Notice.ofException (p.context.addException final) final =
      Notice.ofException start.context final := Notice.ofException_congr suffers.origin suffers.arguments final
  refine ⟨suffers.origin, suffers.arguments, ?_, ?_, ?_⟩
  · rw [List.map_append, ← List.append_assoc, ← suffers.exceptions]
    rfl
  · intro incident member
    rcases List.mem_append.mp member with old | new
    · exact suffers.kinds incident old
    · rw [List.mem_singleton.mp new]
      exact expected
  · rw [List.map_append, List.map_append]
    apply Host.Publishes.announce
    rw [same]
    apply Host.Publishes.publish
    exact (failed.inquire _ _ _ _ _).log _

theorem Suffers.progress (suffers : start.Suffers b m kind p incidents) {host : Host S E F X L W}
    (publishes : start.host.Publishes m.subscribers host
      (incidents.map fun incident => Notice.ofException start.context (incident.final b m))
      (incidents.map Incident.mark ++ [])) : start.Suffers b m kind { p with host := host } incidents := by
  rw [List.append_nil] at publishes
  exact ⟨suffers.origin, suffers.arguments, suffers.exceptions, suffers.kinds, publishes⟩

theorem Endures.perform (endures : start.Endures b m kind p) (expected : kind fault) (action : fault.isGuard = false)
    (arguments : Arguments) (callable : Callable F) :
    start.Endures b m kind (m.perform b fault arguments p callable) := by
  obtain ⟨incidents, suffers⟩ := endures
  have called := suffers.host.call b.action .action .byAction (fun _ _ _ _ => rfl)
    (fun _ _ _ _ => rfl) callable arguments
  rcases ran : Host.call b.action .action callable arguments p.host with ⟨outcome, host⟩
  rw [ran] at called
  unfold Machine.perform
  rw [ran]
  cases outcome with
  | done answer => exact ⟨incidents, suffers.progress called⟩
  | crashed => exact ⟨incidents, suffers.progress called⟩
  | failed exception =>
    have mark : fault.raises exception = .byAction exception := by
      cases fault with
      | guard edge => cases action
      | _ => rfl
    exact ⟨_, suffers.handle expected (mark ▸ called)⟩

theorem Endures.guardPasses (endures : start.Endures b m kind p) (edge : Edge S E) (expected : kind (.guard edge))
    (guard? : Option (Callable F)) : start.Endures b m kind (m.guardPasses b edge guard? p).2 := by
  cases guard? with
  | none => exact endures
  | some guard =>
    obtain ⟨incidents, suffers⟩ := endures
    have called := suffers.host.call b.guard .guard .byGuard (fun _ _ _ _ => rfl)
      (fun _ _ _ _ => rfl) guard p.context.arguments
    rcases ran : Host.call b.guard .guard guard p.context.arguments p.host with ⟨outcome, host⟩
    rw [ran] at called
    unfold Machine.guardPasses
    simp only [ran]
    cases outcome with
    | done passes => exact ⟨incidents, suffers.progress called⟩
    | crashed => exact ⟨incidents, suffers.progress called⟩
    | failed exception => exact ⟨_, suffers.handle expected called⟩

theorem Endures.performAll (endures : start.Endures b m kind p) (expected : kind fault) (action : fault.isGuard = false)
    (arguments : Arguments) (actions : List (Callable F)) :
    start.Endures b m kind (m.performAll b fault arguments actions p) := by
  unfold Machine.performAll
  induction actions generalizing p with
  | nil => exact endures
  | cons callable rest ih => exact ih (endures.perform expected action arguments callable)

theorem Endures.select (endures : start.Endures b m kind p) (event : E)
    (expected : ∀ edge, kind (.guard edge)) (candidates : List (Transition S F)) :
    start.Endures b m kind (m.select b event candidates p).2 := by
  induction candidates generalizing p with
  | nil => exact endures
  | cons candidate rest ih =>
    have tried := endures.guardPasses ⟨candidate.source, event, candidate.target?⟩ (expected _) candidate.guard?
    unfold Machine.select
    simp only
    split
    · exact tried
    · exact ih tried

theorem Endures.record (endures : start.Endures b m kind p) (step : RecordKind) (s : S) :
    start.Endures b m kind { p with context := p.context.addRecord step s } := by
  obtain ⟨incidents, suffers⟩ := endures
  exact ⟨incidents, suffers.origin, suffers.arguments, suffers.exceptions, suffers.kinds, suffers.host⟩

variable [DecidableEq S]

theorem Endures.enter (endures : start.Endures b m kind p) (expected : ∀ s, kind (.entry s)) (s : S) :
    start.Endures b m kind (m.enter b p s) :=
  (endures.record .enter s).performAll (expected s) rfl [] _

theorem Endures.exit (endures : start.Endures b m kind p) (expected : ∀ s, kind (.exit s)) (s : S) :
    start.Endures b m kind (m.exit b p s) := by
  obtain ⟨incidents, suffers⟩ := (endures.record .exit s).performAll (expected s) rfl [] (m.forest.node s).exit
  exact ⟨incidents, suffers.origin, suffers.arguments, suffers.exceptions, suffers.kinds, suffers.host⟩

theorem Endures.enterAll (endures : start.Endures b m kind p) (expected : ∀ s, kind (.entry s)) (states : List S) :
    start.Endures b m kind (m.enterAll b states p) := by
  unfold Machine.enterAll
  induction states generalizing p with
  | nil => exact endures
  | cons s rest ih => exact ih (endures.enter expected s)

theorem Endures.exitAll (endures : start.Endures b m kind p) (expected : ∀ s, kind (.exit s)) (states : List S) :
    start.Endures b m kind (m.exitAll b states p) := by
  unfold Machine.exitAll
  induction states generalizing p with
  | nil => exact endures
  | cons s rest ih => exact ih (endures.exit expected s)

end Progress

namespace Machine

variable [DecidableEq S] {b : Behaviour S E F X W} {m : Machine S E F X L} {current : S} {signal : Signal E}
  {host : Host S E F X L W} {done : Completed S E F X L W} {p : Progress S E F X L W}

theorem choose_endures [DecidableEq E] (b : Behaviour S E F X W) (m : Machine S E F X L) (current : S)
    (signal : Signal E) (host : Host S E F X L W) :
    Progress.Endures b m (·.isGuard) ⟨host, .ofSignal current (m.asked b signal), m.memory⟩
      (m.choose b current signal host).2 := by
  unfold choose
  rw [resolve_eq]
  apply Progress.Endures.select
  · refine ⟨[], rfl, rfl, rfl, by simp, ?_⟩
    exact (Host.Publishes.refl host).inquire _ _ _ _ _
  · exact fun _ => rfl

theorem execute_endures (b : Behaviour S E F X W) (m : Machine S E F X L) (current : S) (event : E)
    (transition : Transition S F) (p : Progress S E F X L W) :
    (m.begin current event p).Endures b m (·.isGuard = false) (m.execute b current event transition p).2 := by
  have begun : (m.begin current event p).Endures b m (·.isGuard = false) (m.begin current event p) := ⟨[], .refl _⟩
  unfold execute
  cases transition.target? with
  | none => exact begun.performAll rfl rfl _ _
  | some target =>
    simp only
    cases m.forest.route? current transition.source target with
    | none => exact begun
    | some route =>
      have left := begun.exitAll (fun _ => rfl) route.exits
      have acted : (m.begin current event p).Endures b m (·.isGuard = false)
          (m.performAll b (.action ⟨transition.source, event, some target⟩)
            (m.exitAll b route.exits (m.begin current event p)).context.arguments transition.actions
            (m.exitAll b route.exits (m.begin current event p))) := left.performAll rfl rfl _ _
      exact (acted.enterAll (fun _ => rfl) route.entries).enterAll (fun _ => rfl) _

theorem fire_of_choice [DecidableEq E] (ready : m.isInitialized) (standing : m.current? = some current)
    {chosen : Option (Transition S F) × Progress S E F X L W} (choice : m.choose b current signal host = chosen) :
    let event := (m.asked b signal).event
    m.fire b signal host = .ok (m.conclude current event (chosen.1.elim (none, chosen.2) fun transition =>
      let executed := m.execute b current event transition chosen.2
      (some executed.1, executed.2))) := by
  subst choice
  rw [fire_eq ready standing]
  unfold react choose
  rw [resolve_eq]
  simp only
  rcases m.select b _ _ _ with ⟨transition?, p⟩
  cases transition? <;> rfl

theorem switchTo_publishes {subscribers : List (Subscriber L)} {start : Host S E F X L W} {notices : List (Notice S E)}
    {raised : List Raised} (publishes : start.Publishes subscribers host notices raised) (m : Machine S E F X L)
    (state : S) : start.Publishes subscribers (m.switchTo state host).2 notices raised :=
  switchTo_keeps (P := fun after => start.Publishes subscribers after notices raised) publishes state fun _ _ _ =>
    publishes.announce _ _ _

theorem conclude_declined {start : Host S E F X L W} {notices : List (Notice S E)} {raised : List Raised}
    (publishes : start.Publishes m.subscribers p.host notices raised) (current : S) (event : E) :
    start.Publishes m.subscribers (m.conclude current event (none, p)).host
      (notices ++ [.transitionDeclined current event p.context.arguments]) raised :=
  (publishes.log _).publish _

theorem conclude_completed {start : Host S E F X L W} {notices : List (Notice S E)} {raised : List Raised}
    (publishes : start.Publishes m.subscribers p.host notices raised) (current : S) (event : E) (reached : S) :
    start.Publishes m.subscribers (m.conclude current event (some reached, p)).host
      (notices ++ [.transitionCompleted current event p.context.arguments reached p.context.records]) raised :=
  (((switchTo_publishes publishes { m with memory := p.memory } reached).log _).announce _ _ _).publish _

theorem fire_publishes [DecidableEq E] (standing : m.current? = some current) (fired : m.fire b signal host = .ok done) :
    let asked := m.asked b signal
    let thrown : Incident S E → Notice S E := fun incident =>
      .transitionExceptionThrown current asked.event asked.arguments (incident.final b m)
    ∃ guards actions : List (Incident S E),
      (∀ incident ∈ guards, incident.fault.isGuard) ∧ (∀ incident ∈ actions, incident.fault.isGuard = false) ∧
      done.context.exceptions = (guards ++ actions).map (Incident.final b m) ∧
      ((m.choose b current signal host).1 = none ∧ actions = [] ∧ done.machine = m ∧ done.context.records = [] ∧
          host.Publishes m.subscribers done.host
            (guards.map thrown ++ [.transitionDeclined current asked.event asked.arguments]) (guards.map Incident.mark) ∨
        ∃ transition reached, (m.choose b current signal host).1 = some transition ∧
          done.machine.current? = some reached ∧
          host.Publishes m.subscribers done.host
            (guards.map thrown ++ .transitionBegin current asked.event asked.arguments ::
              (actions.map thrown ++
                [.transitionCompleted current asked.event asked.arguments reached done.context.records]))
            ((guards ++ actions).map Incident.mark)) := by
  intro asked thrown
  obtain ⟨ready, _⟩ := fire_resembles fired
  have looked := choose_extends b m current signal host
  -- guards are asked before a transition begins, and all other code runs after that
  obtain ⟨guards, tried⟩ := choose_endures b m current signal host
  rcases chosen : m.choose b current signal host with ⟨transition?, p⟩
  rw [chosen] at tried looked
  have told := fire_of_choice ready standing chosen
  rw [fired] at told
  have arguments : p.context.arguments = asked.arguments := tried.arguments
  cases transition? with
  | none =>
    obtain rfl : done = m.conclude current asked.event (none, p) := Except.ok.inj told
    refine ⟨guards, [], tried.kinds, by simp, ?_, .inl ⟨rfl, rfl, rfl, looked.records, ?_⟩⟩
    · rw [List.append_nil]
      exact tried.exceptions
    · rw [← arguments]
      exact conclude_declined tried.host current asked.event
  | some transition =>
    rcases ran : m.execute b current asked.event transition p with ⟨reached, q⟩
    obtain ⟨actions, executed⟩ := execute_endures b m current asked.event transition p
    rw [ran] at executed
    obtain rfl : done = m.conclude current asked.event (some reached, q) := by
      have ended := Except.ok.inj told
      change done = m.conclude current asked.event (some (m.execute b current asked.event transition p).1,
        (m.execute b current asked.event transition p).2) at ended
      rw [ran] at ended
      exact ended
    refine ⟨guards, actions, tried.kinds, executed.kinds, ?_, .inr ⟨transition, reached, rfl, rfl, ?_⟩⟩
    · rw [List.map_append]
      have exceptions := executed.exceptions
      rw [show (m.begin current asked.event p).context.exceptions = _ from tried.exceptions] at exceptions
      exact exceptions
    · have origin : p.context.origin? = some (current, asked.event) := tried.origin
      have same (final : Exception) : Notice.ofException (m.begin current asked.event p).context final =
          .transitionExceptionThrown current asked.event asked.arguments final := by
        unfold Notice.ofException begin
        simp only [origin, arguments]
      have completed := conclude_completed ((tried.host.publish _).trans executed.host) current asked.event reached
      rw [show q.context.arguments = asked.arguments from executed.arguments.trans arguments] at completed
      simp only [same, arguments, List.append_assoc, ← List.map_append] at completed
      exact completed

omit [DecidableEq S] in
theorem starting_endures (b : Behaviour S E F X W) (m : Machine S E F X L) (initial : S)
    (host : Host S E F X L W) :
    Progress.Endures b m (·.isEntry) ⟨host, .ofInitialEntry, m.memory⟩ (m.starting initial host) :=
  ⟨[], rfl, rfl, rfl, by simp, (Host.Publishes.refl host).announce _ _ _⟩

theorem enterInitialState_publishes (entered : m.enterInitialState b host = .ok done) :
    ∃ incidents : List (Incident S E), (∀ incident ∈ incidents, incident.fault.isEntry) ∧
      done.context.exceptions = incidents.map (Incident.final b m) ∧
      host.Publishes m.subscribers done.host (incidents.map fun incident => .exceptionThrown none (incident.final b m))
        (incidents.map Incident.mark) := by
  obtain ⟨ready, unentered⟩ := enterInitialState_accepted entered
  obtain ⟨initial, found⟩ := Option.isSome_iff_exists.mp ready
  rw [enterInitialState_eq found unentered] at entered
  obtain rfl := Except.ok.inj entered
  have above := (starting_endures b m initial host).enterAll (fun _ => rfl) (m.forest.lineage initial).reverse
  obtain ⟨incidents, suffered⟩ := above.enterAll (fun _ => rfl)
    (m.forest.descent (m.enterAll b (m.forest.lineage initial).reverse (m.starting initial host)).memory initial)
  refine ⟨incidents, suffered.kinds, suffered.exceptions, ?_⟩
  exact ((switchTo_publishes suffered.host _ _).log _).announce _ _ _

end Machine

namespace Run

variable [DecidableEq S] [DecidableEq E] [DecidableEq X]

theorem call_silent (b : Behaviour S E F X W) (r : Run S E F X L W) (call : Call S E F X L)
    (other : call.isOperation = false) : r.host.Publishes r.machine.subscribers (r.call b call).host [] [] := by
  have still : r.host.Publishes r.machine.subscribers r.host [] [] := .refl r.host
  cases call with
  | define superState initial history subs =>
    rw [Run.call.eq_def]
    simp only
    split <;> exact still
  | addTransition source event draft => exact still
  | addEntryAction s action => exact still
  | addExitAction s action => exact still
  | configure change => exact still
  | initializeAt s =>
    rw [Run.call.eq_def]
    simp only [Machine.initializeAt]
    cases r.machine.isInitialized with
    | true => exact still
    | false =>
      rw [Host.consult_eq]
      exact ((still.inquire _ _ _ _ _).log _).announce _ _ _
  | enterInitialState => cases other
  | fire signal => cases other
  | load checkpoint =>
    rw [Run.call.eq_def]
    simp only
    split
    · rename_i loaded
      rcases Machine.load_host loaded with rfl | rfl
      · exact still
      · exact still.log _
    · exact still

/-- What a machine publishes. Firing an event publishes one notice for every guard that fails, and then either that the
    event is declined, which leaves the machine as it was, or that a transition begins, one notice for every action
    that fails, and that the transition is completed. The initial entry publishes one notice for every entry action
    that fails. Nothing else publishes anything, and neither does a call that is refused. -/
theorem call_publishes (b : Behaviour S E F X W) (r : Run S E F X L W) :
    (∀ signal done, r.machine.fire b signal r.host = .ok done →
      ∃ current, r.machine.current? = some current ∧
      let asked := r.machine.asked b signal
      let thrown : Incident S E → Notice S E := fun incident =>
        .transitionExceptionThrown current asked.event asked.arguments (incident.final b r.machine)
      ∃ guards actions : List (Incident S E),
        (∀ incident ∈ guards, incident.fault.isGuard) ∧ (∀ incident ∈ actions, incident.fault.isGuard = false) ∧
        done.context.exceptions = (guards ++ actions).map (Incident.final b r.machine) ∧
        ((r.machine.choose b current signal r.host).1 = none ∧ actions = [] ∧ done.machine = r.machine ∧
            done.context.records = [] ∧ r.host.Publishes r.machine.subscribers done.host
              (guards.map thrown ++ [.transitionDeclined current asked.event asked.arguments])
              (guards.map Incident.mark) ∨
          ∃ transition reached, (r.machine.choose b current signal r.host).1 = some transition ∧
            done.machine.current? = some reached ∧ r.host.Publishes r.machine.subscribers done.host
              (guards.map thrown ++ .transitionBegin current asked.event asked.arguments ::
                (actions.map thrown ++
                  [.transitionCompleted current asked.event asked.arguments reached done.context.records]))
              ((guards ++ actions).map Incident.mark))) ∧
    (∀ done, r.machine.enterInitialState b r.host = .ok done →
      ∃ incidents : List (Incident S E), (∀ incident ∈ incidents, incident.fault.isEntry) ∧
        done.context.exceptions = incidents.map (Incident.final b r.machine) ∧
        r.host.Publishes r.machine.subscribers done.host
          (incidents.map fun incident => .exceptionThrown none (incident.final b r.machine))
          (incidents.map Incident.mark)) ∧
    (∀ signal error, r.machine.fire b signal r.host = .error error → r.call b (.fire signal) = r) ∧
    (∀ error, r.machine.enterInitialState b r.host = .error error → r.call b .enterInitialState = r) ∧
    (∀ call : Call S E F X L, call.isOperation = false →
      r.host.Publishes r.machine.subscribers (r.call b call).host [] []) := by
  refine ⟨fun signal done fired => ?_, fun done entered => Machine.enterInitialState_publishes entered, ?_, ?_,
    call_silent b r⟩
  · obtain ⟨_, entered, _⟩ := Machine.fire_resembles fired
    obtain ⟨current, standing⟩ := Option.isSome_iff_exists.mp entered
    exact ⟨current, standing, Machine.fire_publishes standing fired⟩
  · intro signal error refused
    rw [call.eq_def]
    simp only [refused, after]
  · intro error refused
    rw [call.eq_def]
    simp only [refused, after]

def watchedLamp : Run Lamp Switch Unit Empty Unit Unit :=
  (start .standard (.ofWorld ())).callAll Lamp.stuck [.configure (.subscribe (.custom ())),
    .addTransition .off .toggle ((Draft.goto .on).acting ⟨"light", .noArgument, ()⟩), .initializeAt .off,
    .enterInitialState]

theorem call_publishes_lamp :
    let thrown : Incident Lamp Switch → Notice Lamp Switch := fun incident =>
      .transitionExceptionThrown .off .toggle [] (incident.final Lamp.stuck watchedLamp.machine)
    ∃ done, watchedLamp.machine.fire Lamp.stuck ⟨.toggle, []⟩ watchedLamp.host = .ok done ∧
      done.machine.current? = some .on ∧ ∃ guards actions : List (Incident Lamp Switch),
        done.host.heard () = watchedLamp.host.heard () ++ (guards.map thrown ++ .transitionBegin .off .toggle [] ::
          (actions.map thrown ++ [.transitionCompleted .off .toggle [] .on done.context.records])) := by
  intro thrown
  have lit : (watchedLamp.machine.fire Lamp.stuck ⟨.toggle, []⟩ watchedLamp.host).toOption.bind
      (·.machine.current?) = some .on := by decide +kernel
  have law := (call_publishes Lamp.stuck watchedLamp).1 ⟨.toggle, []⟩
  cases fired : watchedLamp.machine.fire Lamp.stuck ⟨.toggle, []⟩ watchedLamp.host with
  | error error =>
    rw [fired] at lit
    cases lit
  | ok done =>
    rw [fired] at lit
    obtain ⟨current, standing, guards, actions, _, _, _, cases⟩ := law done fired
    obtain rfl : current = .off := Option.some.inj (standing.symm.trans (by decide +kernel))
    rcases cases with ⟨declined, _⟩ | ⟨transition, reached, _, stands, told⟩
    · have chosen : (watchedLamp.machine.choose Lamp.stuck .off ⟨.toggle, []⟩ watchedLamp.host).1.isSome := by
        decide +kernel
      rw [declined] at chosen
      cases chosen
    · obtain rfl : reached = .on := Option.some.inj (stands.symm.trans lit)
      refine ⟨done, rfl, lit, guards, actions, ?_⟩
      have once (notices : List (Notice Lamp Switch)) : notices.flatMap (List.replicate 1) = notices :=
        List.flatMap_singleton' notices
      have heard := told.heard ()
      rw [show List.count () (watchedLamp.machine.subscribers.filterMap Subscriber.listener?) = 1 by decide +kernel,
        once] at heard
      exact heard

end Run

end Statechart
