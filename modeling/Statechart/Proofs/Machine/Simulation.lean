import Statechart.Proofs.Forest.Mirror
import Statechart.Proofs.Machine.Phase
import Statechart.Proofs.Machine.Stage

namespace Statechart

variable {S E F F' X L W W' : Type} [DecidableEq S]

/-- A relation between stretches of operations on two machines that survives every step both take. -/
structure Simulation (b : Behaviour S E F X W) (b' : Behaviour S E F' X W') (m : Machine S E F X L)
    (m' : Machine S E F' X L) (g : Callable F → Callable F')
    (Related : Progress S E F X L W → Progress S E F' X L W' → Prop) : Prop where
  forest : m.forest.Mirrors g m'.forest
  arguments : ∀ {p p'}, Related p p' → p'.context.arguments = p.context.arguments
  memory : ∀ {p p'}, Related p p' → ∀ s, p'.memory.get? s = p.memory.get? s
  record : ∀ {p p'} (kind : RecordKind) (s : S), Related p p' →
    Related { p with context := p.context.addRecord kind s } { p' with context := p'.context.addRecord kind s }
  remember : ∀ {p p'} (s : S), Related p p' →
    Related { p with memory := m.forest.remember p.memory s } { p' with memory := m'.forest.remember p'.memory s }
  begin : ∀ {p p'} (current : S) (event : E), Related p p' →
    Related (m.begin current event p) (m'.begin current event p')
  perform : ∀ {p p'} (fault : Fault S E) (arguments : Arguments) (action : Callable F), Related p p' →
    Related (m.perform b fault arguments p action) (m'.perform b' fault arguments p' (g action))
  guard : ∀ {p p'} (edge : Edge S E) (guard : Callable F), Related p p' →
    (m'.guardPasses b' edge (some (g guard)) p').1 = (m.guardPasses b edge (some guard) p).1 ∧
      Related (m.guardPasses b edge (some guard) p).2 (m'.guardPasses b' edge (some (g guard)) p').2

inductive Answered (Ended : Completed S E F X L W → Completed S E F' X L W' → Prop) :
    Except Misuse (Completed S E F X L W) → Except Misuse (Completed S E F' X L W') → Prop where
  | refused (error : Misuse) : Answered Ended (.error error) (.error error)
  | accepted {done : Completed S E F X L W} {done' : Completed S E F' X L W'} (ended : Ended done done') :
    Answered Ended (.ok done) (.ok done')

omit [DecidableEq S] in
theorem Answered.of_ok {Ended : Completed S E F X L W → Completed S E F' X L W' → Prop} {done : Completed S E F X L W}
    {answer : Except Misuse (Completed S E F' X L W')} (answered : Answered Ended (.ok done) answer) :
    ∃ done', answer = .ok done' ∧ Ended done done' := by
  cases answered with
  | accepted ended => exact ⟨_, rfl, ended⟩

inductive Prepared {ε : Type}
    (Left : Machine S E F X L × Host S E F X L W → Machine S E F X L × Host S E F X L W → Prop) :
    Except ε (Machine S E F X L × Host S E F X L W) → Except ε (Machine S E F X L × Host S E F X L W) → Prop where
  | refused (error : ε) : Prepared Left (.error error) (.error error)
  | granted {out out' : Machine S E F X L × Host S E F X L W} (left : Left out out') :
    Prepared Left (.ok out) (.ok out')

theorem Forest.Mirrors.candidates [DecidableEq E] {m : Machine S E F X L} {m' : Machine S E F' X L}
    {g : Callable F → Callable F'} (forest : m.forest.Mirrors g m'.forest) (current : S) (event : E) :
    m'.candidates current event = (m.candidates current event).map (Transition.map g) := by
  unfold Machine.candidates
  rw [forest.lineage]
  simp only [forest.transitions]
  induction m.forest.lineage current with
  | nil => rfl
  | cons s rest ih =>
    simp only [List.findSome?_cons]
    cases (m.forest.node s).transitions.get? event with
    | none => exact ih
    | some candidates => rfl

section Calls

variable {b : Behaviour S E F X W} {b' : Behaviour S E F' X W'} {m : Machine S E F X L} {m' : Machine S E F' X L}
  {Related : Progress S E F X L W → Progress S E F' X L W' → Prop} {p : Progress S E F X L W}
  {p' : Progress S E F' X L W'} {callable : Callable F} {callable' : Callable F'}

omit [DecidableEq S]

theorem Machine.perform_related {fault : Fault S E} {arguments : Arguments}
    (outcome : (Host.call b'.action .action callable' arguments p'.host).1 =
      (Host.call b.action .action callable arguments p.host).1)
    (called : Related { p with host := (Host.call b.action .action callable arguments p.host).2 }
      { p' with host := (Host.call b'.action .action callable' arguments p'.host).2 })
    (handled : ∀ exception {q q'}, Related q q' →
      Related (m.handleException b fault exception q) (m'.handleException b' fault exception q')) :
    Related (m.perform b fault arguments p callable) (m'.perform b' fault arguments p' callable') := by
  unfold Machine.perform
  simp only [outcome]
  split
  · exact handled _ called
  · exact called
  · exact called

theorem Machine.guardPasses_related {edge : Edge S E} (arguments : p'.context.arguments = p.context.arguments)
    (outcome : (Host.call b'.guard .guard callable' p.context.arguments p'.host).1 =
      (Host.call b.guard .guard callable p.context.arguments p.host).1)
    (called : Related { p with host := (Host.call b.guard .guard callable p.context.arguments p.host).2 }
      { p' with host := (Host.call b'.guard .guard callable' p.context.arguments p'.host).2 })
    (handled : ∀ exception {q q'}, Related q q' →
      Related (m.handleException b (.guard edge) exception q) (m'.handleException b' (.guard edge) exception q')) :
    (m'.guardPasses b' edge (some callable') p').1 = (m.guardPasses b edge (some callable) p).1 ∧
      Related (m.guardPasses b edge (some callable) p).2 (m'.guardPasses b' edge (some callable') p').2 := by
  unfold Machine.guardPasses
  simp only [arguments, outcome]
  split
  · exact ⟨rfl, called⟩
  · exact ⟨rfl, handled _ called⟩
  · exact ⟨rfl, called⟩

end Calls

namespace Simulation

variable {b : Behaviour S E F X W} {b' : Behaviour S E F' X W'} {m : Machine S E F X L} {m' : Machine S E F' X L}
  {g : Callable F → Callable F'} {Related : Progress S E F X L W → Progress S E F' X L W' → Prop}
  {p : Progress S E F X L W} {p' : Progress S E F' X L W'} (sim : Simulation b b' m m' g Related)
include sim

theorem performAll (related : Related p p') (fault : Fault S E) (arguments : Arguments) (actions : List (Callable F)) :
    Related (m.performAll b fault arguments actions p) (m'.performAll b' fault arguments (actions.map g) p') := by
  unfold Machine.performAll
  induction actions generalizing p p' with
  | nil => exact related
  | cons action rest ih => exact ih (sim.perform fault arguments action related)

theorem enter (related : Related p p') (s : S) : Related (m.enter b p s) (m'.enter b' p' s) := by
  unfold Machine.enter
  rw [sim.forest.node s]
  exact sim.performAll (sim.record .enter s related) _ _ _

theorem exit (related : Related p p') (s : S) : Related (m.exit b p s) (m'.exit b' p' s) := by
  unfold Machine.exit
  rw [sim.forest.node s]
  exact sim.remember s (sim.performAll (sim.record .exit s related) _ _ _)

theorem enterAll (related : Related p p') (states : List S) :
    Related (m.enterAll b states p) (m'.enterAll b' states p') := by
  unfold Machine.enterAll
  induction states generalizing p p' with
  | nil => exact related
  | cons s rest ih => exact ih (sim.enter related s)

theorem exitAll (related : Related p p') (states : List S) :
    Related (m.exitAll b states p) (m'.exitAll b' states p') := by
  unfold Machine.exitAll
  induction states generalizing p p' with
  | nil => exact related
  | cons s rest ih => exact ih (sim.exit related s)

theorem settle (related : Related p p') (s : S) :
    (m'.settle b' s p').1 = (m.settle b s p).1 ∧ Related (m.settle b s p).2 (m'.settle b' s p').2 := by
  unfold Machine.settle
  rw [sim.forest.descent (sim.memory related)]
  exact ⟨rfl, sim.enterAll related _⟩

theorem guardPasses (related : Related p p') (edge : Edge S E) (guard? : Option (Callable F)) :
    (m'.guardPasses b' edge (guard?.map g) p').1 = (m.guardPasses b edge guard? p).1 ∧
      Related (m.guardPasses b edge guard? p).2 (m'.guardPasses b' edge (guard?.map g) p').2 := by
  cases guard? with
  | none => exact ⟨rfl, related⟩
  | some guard => exact sim.guard edge guard related

theorem select (related : Related p p') (event : E) (candidates : List (Transition S F)) :
    (m'.select b' event (candidates.map (Transition.map g)) p').1 =
        (m.select b event candidates p).1.map (Transition.map g) ∧
      Related (m.select b event candidates p).2 (m'.select b' event (candidates.map (Transition.map g)) p').2 := by
  induction candidates generalizing p p' with
  | nil => exact ⟨rfl, related⟩
  | cons candidate rest ih =>
    obtain ⟨same, tried⟩ := sim.guardPasses related ⟨candidate.source, event, candidate.target?⟩ candidate.guard?
    simp only [List.map_cons, Machine.select, Transition.map, same]
    split
    · exact ⟨rfl, tried⟩
    · exact ih tried

theorem execute (related : Related p p') (current : S) (event : E) (transition : Transition S F) :
    (m'.execute b' current event (transition.map g) p').1 = (m.execute b current event transition p).1 ∧
      Related (m.execute b current event transition p).2 (m'.execute b' current event (transition.map g) p').2 := by
  have begun := sim.begin current event related
  have arguments := sim.arguments related
  unfold Machine.begin at begun
  unfold Machine.execute
  simp only [Transition.map]
  cases transition.target? with
  | none =>
    simp only [arguments] at begun ⊢
    exact ⟨trivial, sim.performAll begun _ _ _⟩
  | some target =>
    simp only [sim.forest.route?]
    cases m.forest.route? current transition.source target with
    | none => exact ⟨rfl, begun⟩
    | some route =>
      -- both machines take the same route and are compared leg by leg
      have left := sim.exitAll begun route.exits
      have acted := sim.performAll left (.action ⟨transition.source, event, some target⟩)
        (m.exitAll b route.exits (m.begin current event p)).context.arguments transition.actions
      have entered := sim.settle (sim.enterAll acted route.entries) target
      simp only [sim.arguments left]
      exact entered

variable {Ended : Completed S E F X L W → Completed S E F' X L W' → Prop} {host : Host S E F X L W}
  {host' : Host S E F' X L W'}

theorem enterInitialState (same : m'.initial? = m.initial?) (stands : m'.current? = m.current?)
    (started : ∀ initial, Related (m.starting initial host) (m'.starting initial host'))
    (arrived : ∀ out out', out'.1 = out.1 → Related out.2 out'.2 → Ended (m.arrive out) (m'.arrive out')) :
    Answered Ended (m.enterInitialState b host) (m'.enterInitialState b' host') := by
  have entered : m'.hasEntered = m.hasEntered := congrArg Option.isSome stands
  cases ready : m.initial? with
  | none =>
    rw [Machine.enterInitialState_uninitialized (congrArg Option.isSome ready),
      Machine.enterInitialState_uninitialized (congrArg Option.isSome (same.trans ready))]
    exact .refused _
  | some initial =>
    cases already : m.hasEntered with
    | true =>
      rw [Machine.enterInitialState_entered (congrArg Option.isSome ready) already,
        Machine.enterInitialState_entered (congrArg Option.isSome (same.trans ready)) (entered.trans already)]
      exact .refused _
    | false =>
      rw [Machine.enterInitialState_eq ready already,
        Machine.enterInitialState_eq (same.trans ready) (entered.trans already)]
      obtain ⟨leaf, settled⟩ := sim.settle (sim.enterAll (started initial) (m.forest.lineage initial).reverse) initial
      rw [sim.forest.lineage]
      exact .accepted (arrived _ _ leaf settled)

variable [DecidableEq E] {signal signal' : Signal E}

theorem react (related : Related p p') (current : S) (signal : Signal E) :
    (m'.react b' current signal p').1 = (m.react b current signal p).1 ∧
      Related (m.react b current signal p).2 (m'.react b' current signal p').2 := by
  obtain ⟨same, tried⟩ := sim.select related signal.event (m.candidates current signal.event)
  unfold Machine.react
  rw [sim.forest.candidates]
  rcases selected : m.select b signal.event (m.candidates current signal.event) p with ⟨transition?, q⟩
  rcases selected' : m'.select b' signal.event ((m.candidates current signal.event).map (Transition.map g)) p' with
    ⟨transition?', q'⟩
  rw [selected, selected'] at same tried
  obtain rfl : transition?' = transition?.map (Transition.map g) := same
  cases transition? with
  | none => exact ⟨rfl, tried⟩
  | some transition =>
    obtain ⟨reached, executed⟩ := sim.execute tried current signal.event transition
    exact ⟨congrArg some reached, executed⟩

/-- What counts is the event that each machine comes to, not the one that it is given. -/
theorem fire (ready : m'.isInitialized = m.isInitialized) (stands : m'.current? = m.current?)
    (same : m'.asked b' signal' = m.asked b signal)
    (started : ∀ current, Related
      ⟨(m.resolve b signal host).2, .ofSignal current (m.asked b signal), m.memory⟩
      ⟨(m'.resolve b' signal' host').2, .ofSignal current (m.asked b signal), m'.memory⟩)
    (concluded : ∀ current event out out', out'.1 = out.1 → Related out.2 out'.2 →
      Ended (m.conclude current event out) (m'.conclude current event out')) :
    Answered Ended (m.fire b signal host) (m'.fire b' signal' host') := by
  cases initialized : m.isInitialized with
  | false =>
    rw [Machine.fire_uninitialized initialized, Machine.fire_uninitialized (ready.trans initialized)]
    exact .refused _
  | true =>
    cases standing : m.current? with
    | none =>
      rw [Machine.fire_unentered initialized (congrArg Option.isSome standing),
        Machine.fire_unentered (ready.trans initialized) (congrArg Option.isSome (stands.trans standing))]
      exact .refused _
    | some current =>
      rw [Machine.fire_eq initialized standing, Machine.fire_eq (ready.trans initialized) (stands.trans standing)]
      obtain ⟨reached, reacted⟩ := sim.react (started current) current (m.asked b signal)
      rw [same]
      exact .accepted (concluded current (m.asked b signal).event _ _ reached reacted)

end Simulation

end Statechart
