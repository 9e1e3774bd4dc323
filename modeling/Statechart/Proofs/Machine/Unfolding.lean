import Statechart.Proofs.Machine.Episode

namespace Statechart

variable {S E F X L W : Type}

namespace Machine

variable [DecidableEq S] {b : Behaviour S E F X W} {m : Machine S E F X L} {current initial : S}
  {signal asked : Signal E} {host : Host S E F X L W} {p : Progress S E F X L W} {done : Completed S E F X L W}

def switch (m : Machine S E F X L) (reached : S) : List (JournalEntry S E F X L) :=
  if m.current? = some reached then []
  else m.extensions.map (Extension.note ⟨m.name, some reached⟩ (.switchedState m.current? reached))

theorem switchTo_eq (m : Machine S E F X L) (reached : S) (host : Host S E F X L W) :
    m.switchTo reached host = ({ m with current? := some reached }, host.writeAll (m.switch reached)) := by
  unfold switchTo switch
  by_cases same : m.current? = some reached
  · simp [same, Host.writeAll]
  · simp only [same, if_false, announce]
    rw [Host.announce_eq]
    rfl

omit [DecidableEq S] in
theorem collected_unfailing {notice : Notice S E} (unfailing : Failure.ofNotice? notice = none)
    (subscribers : List (Subscriber L)) : subscribers.flatMap (Subscriber.collected notice) = [] := by
  rw [List.flatMap_eq_nil_iff]
  intro subscriber _
  cases subscriber with
  | collector => simp [Subscriber.collected, unfailing]
  | custom subscriber => rfl

def question (b : Behaviour S E F X W) (m : Machine S E F X L) (signal : Signal E) : List (JournalEntry S E F X L) :=
  inquiry m.info .firing (fun extension signal => b.signal extension m.info signal) m.extensions signal

def opening (m : Machine S E F X L) (current : S) (asked : Signal E) : List (JournalEntry S E F X L) :=
  m.subscribers.filterMap (Subscriber.note? (.transitionBegin current asked.event asked.arguments))

def refusal (m : Machine S E F X L) (current : S) (asked : Signal E) : List (JournalEntry S E F X L) :=
  .log (.transitionDeclined m.name asked.event current) ::
    m.subscribers.filterMap (Subscriber.note? (.transitionDeclined current asked.event asked.arguments))

def closing (m : Machine S E F X L) (current : S) (asked : Signal E) (reached : S) (context : Context S E) :
    List (JournalEntry S E F X L) :=
  .log (.firedEvent m.name asked.event reached context.records) ::
    (m.extensions.map (Extension.note ⟨m.name, some reached⟩ (.fired context)) ++ m.subscribers.filterMap
      (Subscriber.note? (.transitionCompleted current asked.event asked.arguments reached context.records)))

def arrival (m : Machine S E F X L) (leaf : S) (context : Context S E) : List (JournalEntry S E F X L) :=
  .log (.enteredInitialState m.name leaf context.records) ::
    m.extensions.map (Extension.note ⟨m.name, some leaf⟩ (.enteredInitialState leaf context))

omit [DecidableEq S] in
theorem begin_opens (m : Machine S E F X L) (current : S) (p : Progress S E F X L W)
    (arguments : p.context.arguments = asked.arguments) :
    p.host.Writes (m.begin current asked.event p).host (m.opening current asked) [] := by
  have told := Host.Writes.publish p.host m.subscribers (.transitionBegin current asked.event p.context.arguments)
  rw [collected_unfailing rfl] at told
  unfold opening
  rw [← arguments]
  exact told

theorem conclude_refuses (m : Machine S E F X L) (current : S) (p : Progress S E F X L W)
    (arguments : p.context.arguments = asked.arguments) :
    p.host.Writes (m.conclude current asked.event (none, p)).host (m.refusal current asked) (m.subscribers.flatMap
      (Subscriber.collected (.transitionDeclined current asked.event asked.arguments))) := by
  have told := (Host.Writes.writeAll p.host [.log (.transitionDeclined m.name asked.event current)]).trans
    (.publish _ m.subscribers (.transitionDeclined current asked.event asked.arguments))
  rw [← arguments] at told ⊢
  unfold refusal
  rw [← arguments]
  exact told

theorem conclude_closes (m : Machine S E F X L) (current reached : S) (p : Progress S E F X L W)
    (arguments : p.context.arguments = asked.arguments) :
    p.host.Writes (m.conclude current asked.event (some reached, p)).host
      (m.switch reached ++ m.closing current asked reached p.context) [] := by
  have switched := Host.Writes.writeAll p.host (m.switch reached)
  have logged := switched.trans (.writeAll _ [.log (.firedEvent m.name asked.event reached p.context.records)])
  have announced := logged.trans
    (.writeAll _ (m.extensions.map (Extension.note ⟨m.name, some reached⟩ (.fired p.context))))
  have told := announced.trans (.publish _ m.subscribers
    (.transitionCompleted current asked.event p.context.arguments reached p.context.records))
  rw [collected_unfailing rfl] at told
  unfold conclude closing
  simp only [switchTo_eq, announce, Host.announce_eq]
  rw [← arguments]
  simp only [List.append_assoc, List.cons_append, List.nil_append] at told
  exact told

theorem arrive_arrives (m : Machine S E F X L) (leaf : S) (p : Progress S E F X L W) :
    p.host.Writes (m.arrive (leaf, p)).host (m.switch leaf ++ m.arrival leaf p.context) [] := by
  have switched := Host.Writes.writeAll p.host (m.switch leaf)
  have logged := switched.trans (.writeAll _ [.log (.enteredInitialState m.name leaf p.context.records)])
  have told := logged.trans
    (.writeAll _ (m.extensions.map (Extension.note ⟨m.name, some leaf⟩ (.enteredInitialState leaf p.context))))
  unfold arrive arrival
  simp only [switchTo_eq, announce, Host.announce_eq]
  simp only [List.append_assoc, List.cons_append, List.nil_append] at told
  exact told

/-- How a fired event is dealt with. Extensions are asked for the event and guards are asked until one passes. Then the
    event is declined, or a transition begins, follows its cues, and comes to its end. -/
inductive Fires [DecidableEq E] (b : Behaviour S E F X W) (m : Machine S E F X L) (current : S) (asked : Signal E)
    (questions : List (JournalEntry S E F X L)) (host : Host S E F X L W) :
    Completed S E F X L W → List (Episode S E F X L) → Prop where
  | declined {done : Completed S E F X L W} {guards : List (Episode S E F X L)}
      (tried : Unfolds b m (.ofSignal current asked)
        ((m.candidates current asked.event).flatMap (Transition.query asked)) guards done.context)
      (still : done.machine = m)
      (written : host.Writes done.host
        (questions ++ guards.flatMap (Episode.entries b m) ++ m.refusal current asked)
        (guards.flatMap (Episode.failures b m) ++ m.subscribers.flatMap
          (Subscriber.collected (.transitionDeclined current asked.event asked.arguments)))) :
      Fires b m current asked questions host done guards
  | completed {done : Completed S E F X L W} {passed rest : List (Transition S F)} {transition : Transition S F}
      {looked : Context S E} {reached : S} {guards actions : List (Episode S E F X L)}
      (offered : m.candidates current asked.event = passed ++ transition :: rest)
      (tried : Unfolds b m (.ofSignal current asked)
        ((passed ++ [transition]).flatMap (Transition.query asked)) guards looked)
      (carried : Unfolds b m looked (m.cues current asked transition) actions done.context)
      (stands : done.machine.current? = some reached)
      (stays : transition.target? = none → reached = current)
      (written : host.Writes done.host
        (questions ++ guards.flatMap (Episode.entries b m) ++ m.opening current asked ++
          actions.flatMap (Episode.entries b m) ++ m.switch reached ++ m.closing current asked reached done.context)
        ((guards ++ actions).flatMap (Episode.failures b m))) :
      Fires b m current asked questions host done (guards ++ actions)

structure Enters (b : Behaviour S E F X W) (m : Machine S E F X L) (initial leaf : S) (host : Host S E F X L W)
    (done : Completed S E F X L W) (episodes : List (Episode S E F X L)) : Prop where
  unfolds : Unfolds b m .ofInitialEntry (m.initialCues initial) episodes done.context
  stands : done.machine.current? = some leaf
  written : host.Writes done.host
    (m.extensions.map (Extension.note m.info (.enteringInitialState initial)) ++
      episodes.flatMap (Episode.entries b m) ++ m.switch leaf ++ m.arrival leaf done.context)
    (episodes.flatMap (Episode.failures b m))

theorem Fires.exceptions [DecidableEq E] {questions : List (JournalEntry S E F X L)}
    {episodes : List (Episode S E F X L)} (fires : m.Fires b current asked questions host done episodes) :
    done.context.exceptions = (episodes.filterMap Episode.incident?).map (Incident.final b m) := by
  cases fires with
  | declined tried => exact tried.exceptions
  | completed _ tried carried => exact (tried.append carried).exceptions

theorem fire_unfolds [DecidableEq E] (tree : m.forest.WellFormed) (standing : m.current? = some current)
    (fired : m.fire b signal host = .ok done) :
    ∃ episodes, m.Fires b current (m.asked b signal) (m.question b signal) host done episodes := by
  let asked := m.asked b signal
  obtain ⟨ready, _⟩ := fire_resembles fired
  have choice : m.choose b current signal host = m.select b asked.event (m.candidates current asked.event)
      ⟨host.writeAll (m.question b signal), .ofSignal current asked, m.memory⟩ := by
    unfold choose
    rw [resolve_eq]
    rfl
  have looked := choose_extends b m current signal host
  have played := m.select_plays b asked (m.candidates current asked.event)
    ⟨host.writeAll (m.question b signal), .ofSignal current asked, m.memory⟩ rfl
  rw [← choice] at played
  rcases chosen : m.choose b current signal host with ⟨transition?, p⟩
  rw [chosen] at looked played
  have told := fire_of_choice ready standing chosen
  rw [fired] at told
  have arguments : p.context.arguments = asked.arguments := looked.arguments.trans
    (congrArg Signal.arguments (congrArg Prod.fst (resolve_eq b m signal host)))
  have questioned := Host.Writes.writeAll host (m.question b signal)
  rcases played with ⟨declined, guards, tried⟩ | ⟨passed, transition, rest, found, split, guards, tried⟩
  · obtain rfl : transition? = none := declined
    obtain rfl := Except.ok.inj told
    have asking := questioned.trans tried.host
    exact ⟨guards, .declined tried.context rfl (asking.trans (m.conclude_refuses current p arguments))⟩
  · obtain rfl : transition? = some transition := found
    obtain rfl := Except.ok.inj told
    have above : transition.source ∈ m.forest.lineage current := by
      apply chosen_source tree
      exact congrArg Prod.fst chosen
    obtain ⟨actions, ran⟩ := execute_plays (b := b) tree looked.memory arguments above
    obtain ⟨_, endured⟩ := execute_endures b m current asked.event transition p
    have asking := questioned.trans tried.host
    have closed := ((asking.trans (m.begin_opens current p arguments)).trans ran.host).trans (m.conclude_closes current
      (m.execute b current asked.event transition p).1 (m.execute b current asked.event transition p).2
      (endured.arguments.trans arguments))
    rw [List.append_nil, List.append_nil, List.nil_append, ← List.flatMap_append, ← List.append_assoc] at closed
    refine ⟨guards ++ actions, .completed split tried.context ran.context rfl ?_ closed⟩
    intro internal
    rw [execute_internal internal]

theorem enterInitialState_unfolds (entered : m.enterInitialState b host = .ok done) :
    ∃ initial leaf episodes, m.initial? = some initial ∧ m.current? = none ∧
      m.Enters b initial leaf host done episodes := by
  obtain ⟨ready, unentered⟩ := enterInitialState_accepted entered
  obtain ⟨initial, found⟩ := Option.isSome_iff_exists.mp ready
  rw [enterInitialState_eq found unentered] at entered
  obtain rfl := Except.ok.inj entered
  obtain ⟨episodes, played⟩ := m.enterAll_plays b
    ((m.forest.lineage initial).reverse ++ m.forest.descent m.memory initial) (m.starting initial host)
  rw [settle_starting]
  have stood : m.current? = none := by
    rw [hasEntered, ← Bool.not_eq_true, Option.not_isSome_iff_eq_none] at unentered
    exact unentered
  refine ⟨initial, _, episodes, found, stood, played.context, rfl, ?_⟩
  have opened := Host.Writes.writeAll host (m.extensions.map (Extension.note m.info (.enteringInitialState initial)))
  rw [← Host.announce_eq] at opened
  have arrived := (opened.trans played.host).trans (m.arrive_arrives
    ((m.forest.descent m.memory initial).getLastD initial) (m.enterFrom b initial host))
  rw [List.nil_append, List.append_nil, ← List.append_assoc] at arrived
  exact arrived

end Machine

namespace Run

variable [DecidableEq S] [DecidableEq E] [DecidableEq X]

/-- Each failure of a guard or of an exit, transition or entry action is dealt with before anything else happens: all
    extensions are asked one after the other for a replacement, the final exception is added to the context, published
    to all subscribers, and told to all extensions. At the end of an operation the context holds the final exceptions of
    all its failures in their order. Calls other than firing and the initial entry raise nothing. -/
theorem operations_unfold (config : Config) (start : Host S E F X L W) (b : Behaviour S E F X W)
    (calls : List (Call S E F X L)) :
    let r := (Run.start config start).callAll b calls
    let m := r.machine
    (∀ signal host done, m.fire b signal host = .ok done → ∃ current episodes, m.current? = some current ∧
      m.Fires b current (m.asked b signal) (m.question b signal) host done episodes ∧
      done.context.exceptions = (episodes.filterMap Episode.incident?).map (Incident.final b m)) ∧
    (∀ host done, m.enterInitialState b host = .ok done → ∃ initial leaf episodes, m.initial? = some initial ∧
      m.Enters b initial leaf host done episodes ∧
      done.context.exceptions = (episodes.filterMap Episode.incident?).map (Incident.final b m)) ∧
    ∀ call : Call S E F X L, call.isOperation = false →
      (r.call b call).host.seen JournalEntry.raised? = r.host.seen JournalEntry.raised? := by
  intro r m
  have wf : m.WellFormed := callAll_wellFormed b (Machine.wellFormed_ofConfig config) calls
  refine ⟨?_, ?_, ?_⟩
  · intro signal host done fired
    obtain ⟨_, entered, _⟩ := Machine.fire_resembles fired
    obtain ⟨current, standing⟩ := Option.isSome_iff_exists.mp entered
    obtain ⟨episodes, fires⟩ := Machine.fire_unfolds wf.tree standing fired
    exact ⟨current, episodes, standing, fires, fires.exceptions⟩
  · intro host done entered
    obtain ⟨initial, leaf, episodes, ready, _, enters⟩ := Machine.enterInitialState_unfolds entered
    exact ⟨initial, leaf, episodes, ready, enters, enters.unfolds.exceptions⟩
  · intro call other
    rw [(call_silent b r call other).raised, List.append_nil]

end Run

namespace Lamp

def jammed : Behaviour Lamp Switch Unit Unit Unit where
  guard _ _ _ := ⟨.done true, [], ()⟩
  action _ _ _ := ⟨.failed (.custom "stuck"), [], ()⟩
  initialState _ _ _ := none
  signal _ _ _ := none
  exception _ _ _ _ _ := some (.custom "jammed")

def explanation : List (Call Lamp Switch Unit Unit Unit) :=
  [.configure (.addExtension (.custom ())),
    .addTransition .off .toggle ((Draft.goto .on).acting ⟨"light", .noArgument, ()⟩), .initializeAt .off,
    .enterInitialState]

end Lamp

namespace Run

theorem operations_unfold_lamp :
    let r := (start .standard (.ofWorld ())).callAll Lamp.jammed Lamp.explanation
    let m := r.machine
    ∃ done episodes, m.fire Lamp.jammed ⟨.toggle, []⟩ r.host = .ok done ∧
      m.Fires Lamp.jammed .off (m.asked Lamp.jammed ⟨.toggle, []⟩) (m.question Lamp.jammed ⟨.toggle, []⟩) r.host done
        episodes ∧
      (episodes.filterMap Episode.incident?).map (Incident.final Lamp.jammed m) = [.custom "jammed"] := by
  intro r m
  have stands : m.current? = some .off := by decide +kernel
  have thrown : (m.fire Lamp.jammed ⟨.toggle, []⟩ r.host).toOption.map (·.context.exceptions) =
      some [.custom "jammed"] := by decide +kernel
  obtain ⟨law, _⟩ := operations_unfold .standard (.ofWorld ()) Lamp.jammed Lamp.explanation
  cases fired : m.fire Lamp.jammed ⟨.toggle, []⟩ r.host with
  | error error =>
    rw [fired] at thrown
    cases thrown
  | ok done =>
    rw [fired] at thrown
    obtain ⟨current, episodes, standing, fires, exceptions⟩ := law ⟨.toggle, []⟩ r.host done fired
    obtain rfl : current = .off := Option.some.inj (standing.symm.trans stands)
    exact ⟨done, episodes, rfl, fires, exceptions.symm.trans (Option.some.inj thrown)⟩

end Run

end Statechart
