import Statechart.Proofs.Machine.Amendment
import Statechart.Proofs.Machine.External
import Statechart.Proofs.Machine.Publication

namespace Statechart

variable {S E F X L W α : Type}

structure Verdict (F : Type) where
  guard : Callable F
  arguments : Arguments
  outcome : Outcome Bool
deriving DecidableEq

def JournalEntry.verdict? : JournalEntry S E F X L → Option (Verdict F)
  | .guard callable arguments outcome _ => some ⟨callable, arguments, outcome⟩
  | _ => none

namespace Transition

def PassedOver (arguments : Arguments) (transition : Transition S F) (verdict : Verdict F) : Prop :=
  transition.guard? = some verdict.guard ∧ verdict.arguments = arguments ∧ verdict.outcome ≠ .done true

def approval (arguments : Arguments) (transition : Transition S F) : List (Verdict F) :=
  (transition.guard?.map fun guard => ⟨guard, arguments, .done true⟩).toList

end Transition

namespace Host

def verdicts (host : Host S E F X L W) : List (Verdict F) := host.seen JournalEntry.verdict?

@[simp] theorem verdicts_log (host : Host S E F X L W) (line : LogLine S E) : (host.log line).verdicts = host.verdicts :=
  (seen_write _ host (.log line)).trans (List.append_nil _)

@[simp] theorem verdicts_announce (extensions : List (Extension X)) (info : Info S) (hook : Hook S E)
    (host : Host S E F X L W) : (host.announce extensions info hook).verdicts = host.verdicts :=
  seen_announce (fun extension => by cases extension <;> rfl) extensions host

@[simp] theorem verdicts_consult (info : Info S) (question : α → Hook S E) (answer : X → α → Option α)
    (extensions : List (Extension X)) (value : α) (host : Host S E F X L W) :
    (consult info question answer extensions value host).2.verdicts = host.verdicts :=
  seen_consult (fun extension _ => by cases extension <;> rfl) answer extensions value host

@[simp] theorem verdicts_publish (subscribers : List (Subscriber L)) (notice : Notice S E) (host : Host S E F X L W) :
    (host.publish subscribers notice).verdicts = host.verdicts := seen_publish (fun _ => rfl) subscribers host

theorem verdicts_call (run : F → Input → W → Reply E W α)
    (entry : Callable F → Arguments → Outcome α → List (Post E) → JournalEntry S E F X L)
    (callable : Callable F) (arguments : Arguments) (host : Host S E F X L W) :
    ∃ sent, (call run entry callable arguments host).2.verdicts = host.verdicts ++
      (entry callable arguments (call run entry callable arguments host).1 sent).verdict?.toList := by
  unfold call
  cases callable.receive arguments with
  | error error => exact ⟨_, seen_write _ host _⟩
  | ok input => exact ⟨_, seen_accept _ host _ _⟩

end Host

namespace Machine

@[simp] theorem verdicts_handleException (b : Behaviour S E F X W) (m : Machine S E F X L) (fault : Fault S E)
    (exception : Exception) (p : Progress S E F X L W) :
    (m.handleException b fault exception p).host.verdicts = p.host.verdicts := by
  simp [handleException, announce]

theorem verdicts_perform (b : Behaviour S E F X W) (m : Machine S E F X L) (fault : Fault S E) (arguments : Arguments)
    (p : Progress S E F X L W) (action : Callable F) :
    (m.perform b fault arguments p action).host.verdicts = p.host.verdicts := by
  obtain ⟨sent, called⟩ := Host.verdicts_call b.action .action action arguments p.host
  have unasked : (Host.call b.action .action action arguments p.host).2.verdicts = p.host.verdicts :=
    called.trans (List.append_nil _)
  unfold perform
  cases outcome : (Host.call b.action .action action arguments p.host).1 with
  | done answer => simpa only [outcome] using unasked
  | crashed => simpa only [outcome] using unasked
  | failed exception => simpa only [outcome, verdicts_handleException] using unasked

theorem verdicts_foldl {step : Progress S E F X L W → α → Progress S E F X L W}
    (kept : ∀ p item, (step p item).host.verdicts = p.host.verdicts) (items : List α) (p : Progress S E F X L W) :
    (items.foldl step p).host.verdicts = p.host.verdicts := by
  induction items generalizing p with
  | nil => rfl
  | cons item rest ih => rw [List.foldl_cons, ih, kept]

theorem verdicts_performAll (b : Behaviour S E F X W) (m : Machine S E F X L) (fault : Fault S E)
    (arguments : Arguments) (actions : List (Callable F)) (p : Progress S E F X L W) :
    (m.performAll b fault arguments actions p).host.verdicts = p.host.verdicts :=
  verdicts_foldl (m.verdicts_perform b fault arguments) actions p

section Walking

variable [DecidableEq S]

theorem verdicts_enter (b : Behaviour S E F X W) (m : Machine S E F X L) (p : Progress S E F X L W) (s : S) :
    (m.enter b p s).host.verdicts = p.host.verdicts := m.verdicts_performAll b _ _ _ _

theorem verdicts_exit (b : Behaviour S E F X W) (m : Machine S E F X L) (p : Progress S E F X L W) (s : S) :
    (m.exit b p s).host.verdicts = p.host.verdicts := m.verdicts_performAll b (.exit s) _ _ _

theorem verdicts_enterAll (b : Behaviour S E F X W) (m : Machine S E F X L) (states : List S)
    (p : Progress S E F X L W) : (m.enterAll b states p).host.verdicts = p.host.verdicts :=
  verdicts_foldl (m.verdicts_enter b) states p

theorem verdicts_exitAll (b : Behaviour S E F X W) (m : Machine S E F X L) (states : List S)
    (p : Progress S E F X L W) : (m.exitAll b states p).host.verdicts = p.host.verdicts :=
  verdicts_foldl (m.verdicts_exit b) states p

theorem verdicts_execute (b : Behaviour S E F X W) (m : Machine S E F X L) (current : S) (event : E)
    (transition : Transition S F) (p : Progress S E F X L W) :
    (m.execute b current event transition p).2.host.verdicts = p.host.verdicts := by
  have begun : (m.begin current event p).host.verdicts = p.host.verdicts := Host.verdicts_publish _ _ _
  unfold execute
  cases transition.target? with
  | none => exact (m.verdicts_performAll b _ _ _ _).trans begun
  | some target =>
    simp only
    cases m.forest.route? current transition.source target with
    | none => exact begun
    | some route =>
      dsimp only
      rw [settle_eq, verdicts_enterAll, verdicts_enterAll, verdicts_performAll, verdicts_exitAll]
      exact begun

theorem verdicts_conclude (m : Machine S E F X L) (current : S) (event : E) (reached? : Option S)
    (p : Progress S E F X L W) : (m.conclude current event (reached?, p)).host.verdicts = p.host.verdicts := by
  cases reached? with
  | none => simp [conclude]
  | some reached =>
    have switched : ({ m with memory := p.memory }.switchTo reached p.host).2.verdicts = p.host.verdicts :=
      switchTo_keeps (P := fun after => after.verdicts = p.host.verdicts) rfl reached fun _ _ _ =>
        Host.verdicts_announce _ _ _ _
    simp [conclude, announce, switched]

end Walking

theorem guardPasses_verdict (b : Behaviour S E F X W) (m : Machine S E F X L) (edge : Edge S E) (guard : Callable F)
    (p : Progress S E F X L W) :
    ∃ outcome, (m.guardPasses b edge (some guard) p).2.host.verdicts =
        p.host.verdicts ++ [⟨guard, p.context.arguments, outcome⟩] ∧
      ((m.guardPasses b edge (some guard) p).1 ↔ outcome = .done true) := by
  obtain ⟨sent, called⟩ := Host.verdicts_call b.guard .guard guard p.context.arguments p.host
  have asked : (Host.call b.guard .guard guard p.context.arguments p.host).2.verdicts = p.host.verdicts ++
      [⟨guard, p.context.arguments, (Host.call b.guard .guard guard p.context.arguments p.host).1⟩] := called
  refine ⟨(Host.call b.guard .guard guard p.context.arguments p.host).1, ?_, ?_⟩
  · unfold guardPasses
    cases outcome : (Host.call b.guard .guard guard p.context.arguments p.host).1 with
    | done passes => simpa only [outcome] using asked
    | crashed => simpa only [outcome] using asked
    | failed exception => simpa only [outcome, verdicts_handleException] using asked
  · unfold guardPasses
    cases outcome : (Host.call b.guard .guard guard p.context.arguments p.host).1 with
    | done passes => simp [outcome]
    | crashed => simp [outcome]
    | failed exception => simp [outcome]

theorem select_splits (b : Behaviour S E F X W) (m : Machine S E F X L) (event : E)
    (candidates : List (Transition S F)) (p : Progress S E F X L W) :
    ∃ passed verdicts, List.Forall₂ (Transition.PassedOver p.context.arguments) passed verdicts ∧
      ((m.select b event candidates p).1 = none ∧ candidates = passed ∧
          (m.select b event candidates p).2.host.verdicts = p.host.verdicts ++ verdicts ∨
        ∃ chosen rest, (m.select b event candidates p).1 = some chosen ∧ candidates = passed ++ chosen :: rest ∧
          (m.select b event candidates p).2.host.verdicts =
            p.host.verdicts ++ (verdicts ++ chosen.approval p.context.arguments)) := by
  induction candidates generalizing p with
  | nil => exact ⟨[], [], .nil, .inl ⟨rfl, rfl, (List.append_nil _).symm⟩⟩
  | cons candidate rest ih =>
    cases guarded : candidate.guard? with
    | none =>
      refine ⟨[], [], .nil, .inr ⟨candidate, rest, ?_, rfl, ?_⟩⟩
      · simp [select, guarded, guardPasses]
      · simp [select, guarded, guardPasses, Transition.approval]
    | some guard =>
      have asked := m.guardPasses_extends b ⟨candidate.source, event, candidate.target?⟩ candidate.guard? p
      obtain ⟨outcome, verdict, answer⟩ :=
        m.guardPasses_verdict b ⟨candidate.source, event, candidate.target?⟩ guard p
      rw [guarded] at asked
      unfold select
      simp only [guarded]
      by_cases passes : outcome = .done true
      · rw [if_pos (answer.mpr passes)]
        refine ⟨[], [], .nil, .inr ⟨candidate, rest, rfl, rfl, ?_⟩⟩
        rw [verdict, passes, Transition.approval, guarded]
        rfl
      · -- the rest goes on with what was answered so far
        rw [if_neg (mt answer.mp passes)]
        obtain ⟨passed, verdicts, refused, ended⟩ :=
          ih (m.guardPasses b ⟨candidate.source, event, candidate.target?⟩ (some guard) p).2
        rw [asked.arguments, verdict] at ended
        rw [asked.arguments] at refused
        refine ⟨candidate :: passed, ⟨guard, p.context.arguments, outcome⟩ :: verdicts,
          .cons ⟨guarded, rfl, passes⟩ refused, ?_⟩
        rcases ended with ⟨none, all, written⟩ | ⟨chosen, others, some, split, written⟩
        · exact .inl ⟨none, by rw [all], by simpa using written⟩
        · exact .inr ⟨chosen, others, some, by rw [split]; rfl, by simpa using written⟩

variable [DecidableEq S] {b : Behaviour S E F X W} {m : Machine S E F X L} {current : S} {signal : Signal E}
  {host : Host S E F X L W} {done : Completed S E F X L W} {transition : Transition S F}

/-- An event was declined. That is published, and of the machine nothing has changed. -/
structure Declined (m : Machine S E F X L) (current : S) (asked : Signal E) (start : Host S E F X L W)
    (done : Completed S E F X L W) : Prop where
  machine : done.machine = m
  records : done.context.records = []
  actions : done.host.actions = start.actions
  published : ∃ (thrown : List Exception) (raised : List Raised), start.Publishes m.subscribers done.host
    (thrown.map (.transitionExceptionThrown current asked.event asked.arguments) ++
      [.transitionDeclined current asked.event asked.arguments]) raised

/-- A transition was executed, and no other one. -/
structure Executed (m : Machine S E F X L) (current : S) (asked : Signal E) (transition : Transition S F)
    (start : Host S E F X L W) (done : Completed S E F X L W) : Prop where
  internal : transition.target? = none → done.machine = m ∧ done.context.records = [] ∧
    done.host.actions = start.actions ++ transition.actions.map (·, asked.arguments)
  external : ∀ target ∈ transition.target?,
    let exits := m.exitsTo current transition.source target
    let entries := m.entriesTo transition.source target ++ m.descentTo current transition.source target
    done.machine = { m with memory := exits.foldl m.forest.remember m.memory, current? := entries.getLast? } ∧
    done.context.records = exits.map (Record.mk .exit) ++ entries.map (Record.mk .enter) ∧
    done.host.actions = start.actions ++
      (m.exitCalls exits ++ transition.actions.map (·, asked.arguments) ++ m.entryCalls entries)

/-- The innermost state from the current one upwards that has a candidate for an event. -/
def handler? [DecidableEq E] (m : Machine S E F X L) (current : S) (event : E) : Option S :=
  (current :: m.forest.ancestors current).find? fun s => !(m.forest.registered s event).isEmpty

theorem candidates_eq [DecidableEq E] (tree : m.forest.WellFormed)
    (filled : ∀ s, (m.forest.node s).transitions.Filled) (current : S) (event : E) :
    m.candidates current event = (m.handler? current event).elim [] fun s => m.forest.registered s event := by
  unfold candidates handler?
  rw [← tree.lineage_eq_cons]
  induction m.forest.lineage current with
  | nil => rfl
  | cons s rest ih =>
    unfold Forest.registered
    rw [List.findSome?_cons, List.find?_cons]
    cases found : (m.forest.node s).transitions.get? event with
    | none => simpa [Forest.registered] using ih
    | some listed =>
      cases listed with
      | nil => exact absurd found (filled s event)
      | cons first others => simp [found]

variable [DecidableEq E]

theorem choose_splits (tree : m.forest.WellFormed) (filled : ∀ s, (m.forest.node s).transitions.Filled)
    (b : Behaviour S E F X W) (current : S) (signal : Signal E) (host : Host S E F X L W) :
    let asked := m.asked b signal
    let chosen := m.choose b current signal host
    let candidates := (m.handler? current asked.event).elim [] fun s => m.forest.registered s asked.event
    ∃ passed verdicts, List.Forall₂ (Transition.PassedOver asked.arguments) passed verdicts ∧
      (chosen.1 = none ∧ candidates = passed ∧ chosen.2.host.verdicts = host.verdicts ++ verdicts ∨
        ∃ transition rest, chosen.1 = some transition ∧ candidates = passed ++ transition :: rest ∧
          chosen.2.host.verdicts = host.verdicts ++ (verdicts ++ transition.approval asked.arguments)) := by
  intro asked chosen candidates
  have offered : m.candidates current asked.event = candidates := candidates_eq tree filled current asked.event
  have heard : (m.resolve b signal host).2.verdicts = host.verdicts := Host.verdicts_consult _ _ _ _ _ _
  have split := m.select_splits b asked.event candidates
    ⟨(m.resolve b signal host).2, .ofSignal current asked, m.memory⟩
  have choice : chosen = m.select b asked.event candidates
      ⟨(m.resolve b signal host).2, .ofSignal current asked, m.memory⟩ := by
    have first : (m.resolve b signal host).1 = asked := congrArg Prod.fst (resolve_eq b m signal host)
    show m.choose b current signal host = _
    unfold choose
    simp only [first, offered]
  rw [← choice] at split
  simp only [heard] at split
  exact split

theorem declined_of_choice (standing : m.current? = some current)
    (declined : (m.choose b current signal host).1 = none) (fired : m.fire b signal host = .ok done) :
    m.Declined current (m.asked b signal) host done := by
  obtain ⟨ready, _⟩ := fire_resembles fired
  obtain ⟨done', fired', machine, _, actions⟩ := fire_of_declined ready standing declined
  obtain rfl : done = done' := Except.ok.inj (fired.symm.trans fired')
  obtain ⟨guards, _, _, _, _, ⟨_, _, _, records, published⟩ | ⟨transition, _, chosen, _⟩⟩ :=
    fire_publishes standing fired
  · refine ⟨machine, records, ?_, guards.map (Incident.final b m), guards.map Incident.mark, ?_⟩
    · rw [actions, (choose_extends b m current signal host).actions, List.append_nil]
    · rw [List.map_map]
      exact published
  · rw [declined] at chosen
    cases chosen

theorem executed_of_choice (wf : m.WellFormed) (standing : m.current? = some current)
    (chosen : (m.choose b current signal host).1 = some transition) (fired : m.fire b signal host = .ok done) :
    m.Executed current (m.asked b signal) transition host done := by
  obtain ⟨ready, _⟩ := fire_resembles fired
  have event : (m.resolve b signal host).1 = m.asked b signal := congrArg Prod.fst (resolve_eq b m signal host)
  have looked := choose_extends b m current signal host
  have began := looked.trans (m.begin_extends current (m.asked b signal).event _)
  have arguments : (m.choose b current signal host).2.context.arguments = (m.asked b signal).arguments :=
    looked.arguments.trans (congrArg Signal.arguments event)
  constructor
  · intro internal
    obtain ⟨done', fired', machine, context, actions⟩ := fire_of_chosen ready standing chosen
    obtain rfl : done = done' := Except.ok.inj (fired.symm.trans fired')
    rw [execute_internal internal, event, arguments] at machine context actions
    have ran := began.trans (m.performAll_extends b (.action ⟨transition.source, (m.asked b signal).event, none⟩)
      (m.asked b signal).arguments transition.actions _)
    refine ⟨?_, ?_, ?_⟩
    · have memory : (m.choose b current signal host).2.memory = m.memory := looked.memory
      rw [machine, ran.memory, ← standing]
      show { m with memory := (m.choose b current signal host).2.memory } = m
      rw [memory]
    · rw [context, ran.records]
      rfl
    · rw [actions, ran.actions]
      rfl
  · intro target external exits entries
    obtain ⟨done', fired', machine, context, actions⟩ := fire_carries wf.tree ready standing chosen external
    obtain rfl : done = done' := Except.ok.inj (fired.symm.trans fired')
    rw [event] at machine context actions
    have carried := began.trans (m.carryOut_extends b current (m.asked b signal).event transition.source target
      transition.actions _)
    have memory : (m.begin current (m.asked b signal).event (m.choose b current signal host).2).memory = m.memory :=
      looked.memory
    have given : (m.begin current (m.asked b signal).event (m.choose b current signal host).2).context.arguments =
        (m.asked b signal).arguments := arguments
    rw [memory, given] at carried
    refine ⟨?_, ?_, ?_⟩
    · rw [machine, carried.memory, show entries.getLast? = _ from entries_last wf transition.source target _]
    · rw [context, carried.records]
      rfl
    · rw [actions, carried.actions]
      rfl

end Machine

namespace Run

variable [DecidableEq S] [DecidableEq E] [DecidableEq X] {r : Run S E F X L W}

theorem call_tables {P : TransitionTable S E F → Prop}
    (add : ∀ {table grown event candidate}, P table → table.add? event candidate = some grown → P grown)
    (b : Behaviour S E F X W) (wf : r.machine.WellFormed) (holds : ∀ s, P (r.machine.forest.node s).transitions)
    (call : Call S E F X L) (s : S) : P ((r.call b call).machine.forest.node s).transitions := by
  rw [call_forest]
  cases call with
  | define superState initial history subs =>
    simp only [amended]
    split
    · rename_i defined
      rw [(Forest.define?_ok wf.tree.toRanked defined).transitions]
      exact holds s
    · exact holds s
  | addTransition source event draft =>
    rcases r.machine.forest.transitions_addTransition source event draft s with same | added
    · exact same ▸ holds s
    · exact add (holds s) added
  | addEntryAction a action =>
    exact (Forest.view_addEntryAction Node.transitions (fun _ _ => rfl) r.machine.forest a action s).symm ▸ holds s
  | addExitAction a action =>
    exact (Forest.view_addExitAction Node.transitions (fun _ _ => rfl) r.machine.forest a action s).symm ▸ holds s
  | initializeAt a =>
    simp only [amended]
    split
    · exact holds s
    · rw [Forest.node_mention]
      exact holds s
  | configure change => exact holds s
  | enterInitialState => exact holds s
  | fire signal => exact holds s
  | load checkpoint => exact holds s

theorem callAll_tables {P : TransitionTable S E F → Prop}
    (add : ∀ {table grown event candidate}, P table → table.add? event candidate = some grown → P grown)
    (b : Behaviour S E F X W) (wf : r.machine.WellFormed) (holds : ∀ s, P (r.machine.forest.node s).transitions)
    (calls : List (Call S E F X L)) (s : S) : P ((r.callAll b calls).machine.forest.node s).transitions := by
  unfold callAll
  induction calls generalizing r with
  | nil => exact holds s
  | cons call rest ih => exact ih (call_wellFormed b wf call) (call_tables add b wf holds call)

/-- An event is dealt with by the innermost state that has a candidate for it. Its candidates are asked one after the
    other until one passes, no other guard is asked, and the one that passes is executed. When none passes the event is
    declined, whatever the states further out have for it. -/
theorem fire_selects (config : Config) (start : Host S E F X L W) (b : Behaviour S E F X W)
    (calls : List (Call S E F X L)) (signal : Signal E) :
    let r := (Run.start config start).callAll b calls
    let m := r.machine
    let asked := m.asked b signal
    ∀ current, m.current? = some current → ∃ done, m.fire b signal r.host = .ok done ∧
      let candidates := (m.handler? current asked.event).elim [] fun s => m.forest.registered s asked.event
      ∃ passed verdicts, List.Forall₂ (Transition.PassedOver asked.arguments) passed verdicts ∧
        (candidates = passed ∧ done.host.verdicts = r.host.verdicts ++ verdicts ∧ m.Declined current asked r.host done ∨
          ∃ chosen rest, candidates = passed ++ chosen :: rest ∧
            done.host.verdicts = r.host.verdicts ++ (verdicts ++ chosen.approval asked.arguments) ∧
            m.Executed current asked chosen r.host done) := by
  intro r m asked current standing
  have wf : m.WellFormed := callAll_wellFormed b (Machine.wellFormed_ofConfig config) calls
  have filled : ∀ s, (m.forest.node s).transitions.Filled := callAll_tables TransitionTable.Filled.add? b
    (r := Run.start config start) (Machine.wellFormed_ofConfig config) (fun _ => TransitionTable.filled_empty) calls
  have ready := wf.ready (by rw [standing]; rfl)
  have told := Machine.fire_of_choice ready standing (rfl : m.choose b current signal r.host = _)
  refine ⟨_, told, ?_⟩
  obtain ⟨passed, verdicts, refused, ⟨none, all, written⟩ | ⟨chosen, rest, taken, split, written⟩⟩ :=
    Machine.choose_splits wf.tree filled b current signal r.host
  · refine ⟨passed, verdicts, refused, .inl ⟨all, ?_, Machine.declined_of_choice standing none told⟩⟩
    rw [none, ← written]
    exact m.verdicts_conclude _ _ _ _
  · refine ⟨passed, verdicts, refused, .inr ⟨chosen, rest, split, ?_, Machine.executed_of_choice wf standing taken told⟩⟩
    rw [taken, ← written]
    exact (m.verdicts_conclude _ _ _ _).trans (m.verdicts_execute b _ _ _ _)

end Run

namespace Lamp

def wary : Behaviour Lamp Switch Unit Empty Unit := { quiet with guard := fun _ _ _ => ⟨.done false, [], ()⟩ }

def cautious : Run Lamp Switch Unit Empty Empty Unit :=
  (Run.start .standard (.ofWorld ())).callAll wary (definition ++
    [.addTransition .off .turn ((Draft.goto .on).guardedBy ⟨"dark", .noArgument, ()⟩),
      .addTransition .supply .turn (.goto .on), .enterInitialState])

end Lamp

namespace Run

/-- The supply could be turned on, but the lamp that is off has a say in it first and says no. -/
theorem fire_selects_lamp : ∃ done, Lamp.cautious.machine.fire Lamp.wary ⟨.turn, []⟩ Lamp.cautious.host = .ok done ∧
    Lamp.cautious.machine.forest.registered .supply .turn = [⟨.supply, some .on, none, []⟩] ∧
    done.machine = Lamp.cautious.machine ∧ done.host.verdicts = [⟨⟨"dark", .noArgument, ()⟩, [], .done false⟩] := by
  have heard : (Lamp.cautious.machine.fire Lamp.wary ⟨.turn, []⟩ Lamp.cautious.host).toOption.map
      (fun done => done.host.verdicts) = some [⟨⟨"dark", .noArgument, ()⟩, [], .done false⟩] := by decide +kernel
  have only : let event := (Lamp.cautious.machine.asked Lamp.wary ⟨.turn, []⟩).event
      (Lamp.cautious.machine.handler? .off event).elim [] (fun s => Lamp.cautious.machine.forest.registered s event) =
        [⟨.off, some .on, some ⟨"dark", .noArgument, ()⟩, []⟩] := by decide +kernel
  obtain ⟨done, fired, passed, verdicts, refused, ended⟩ := fire_selects .standard (.ofWorld ()) Lamp.wary
    (Lamp.definition ++ [.addTransition .off .turn ((Draft.goto .on).guardedBy ⟨"dark", .noArgument, ()⟩),
      .addTransition .supply .turn (.goto .on), .enterInitialState]) ⟨.turn, []⟩ .off (by decide +kernel)
  rw [show Lamp.cautious.machine.fire Lamp.wary ⟨.turn, []⟩ Lamp.cautious.host = .ok done from fired] at heard
  have answered : done.host.verdicts = [⟨⟨"dark", .noArgument, ()⟩, [], .done false⟩] := Option.some.inj heard
  refine ⟨done, fired, by decide +kernel, ?_, answered⟩
  rcases ended with ⟨_, _, declined⟩ | ⟨chosen, rest, split, written, _⟩
  · exact declined.machine
  · -- the one candidate would have been taken, so that its guard would have said yes
    unfold Lamp.cautious at only
    have whole := only.symm.trans split
    cases passed with
    | nil =>
      cases refused
      cases whole
      have agreed := answered.symm.trans written
      exact absurd agreed (by decide +kernel)
    | cons first others =>
      have lengths := congrArg List.length whole
      simp at lengths

end Run

end Statechart
