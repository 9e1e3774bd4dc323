import Statechart.Proofs.Forest.Route
import Statechart.Proofs.Forest.WellFormed
import Statechart.Proofs.Machine.Trace

namespace Statechart.Machine

variable {S E F X L W : Type} [DecidableEq S] (b : Behaviour S E F X W) (m : Machine S E F X L)

def resolve (signal : Signal E) (host : Host S E F X L W) : Signal E × Host S E F X L W :=
  Host.consult m.info .firing (fun extension asked => b.signal extension m.info asked) m.extensions signal host

def choose [DecidableEq E] (current : S) (signal : Signal E) (host : Host S E F X L W) :
    Option (Transition S F) × Progress S E F X L W :=
  let (signal, host) := m.resolve b signal host
  m.select b signal.event (m.candidates current signal.event) ⟨host, .ofSignal current signal, m.memory⟩

omit [DecidableEq S] in
theorem switchTo_fst (state : S) (host : Host S E F X L W) [DecidableEq S] :
    (m.switchTo state host).1 = { m with current? := some state } := by
  unfold switchTo
  simp only
  split <;> rfl

theorem actions_switchTo (state : S) (host : Host S E F X L W) :
    (m.switchTo state host).2.actions = host.actions :=
  switchTo_keeps (P := fun after => after.actions = host.actions) rfl state fun _ _ _ => Host.actions_announce _ _ _ _

variable {b m} {current target : S} {signal : Signal E} {host : Host S E F X L W} {p : Progress S E F X L W}
  {transition : Transition S F}

section Firing

variable [DecidableEq E]

theorem fire_of_chosen (ready : m.isInitialized) (standing : m.current? = some current)
    (chosen : (m.choose b current signal host).1 = some transition) :
    let executed := m.execute b current (m.resolve b signal host).1.event transition (m.choose b current signal host).2
    ∃ done, m.fire b signal host = .ok done ∧
      done.machine = { m with memory := executed.2.memory, current? := some executed.1 } ∧
      done.context = executed.2.context ∧ done.host.actions = executed.2.host.actions := by
  rcases found : m.choose b current signal host with ⟨chosen?, p⟩
  rw [found] at chosen
  rw [show chosen? = some transition from chosen] at found
  unfold choose resolve at found
  unfold fire
  simp only [ready, standing, Bool.not_true, Bool.false_eq_true, if_false, found]
  refine ⟨_, rfl, switchTo_fst _ _ _, rfl, ?_⟩
  simp only [Host.actions_publish, actions_machine_announce, Host.actions_log, actions_switchTo]
  rfl

theorem fire_of_declined (ready : m.isInitialized) (standing : m.current? = some current)
    (declined : (m.choose b current signal host).1 = none) :
    ∃ done, m.fire b signal host = .ok done ∧ done.machine = m ∧
      done.context = (m.choose b current signal host).2.context ∧
      done.host.actions = (m.choose b current signal host).2.host.actions := by
  rcases found : m.choose b current signal host with ⟨chosen?, p⟩
  rw [found] at declined
  rw [show chosen? = none from declined] at found
  unfold choose resolve at found
  unfold fire
  simp only [ready, standing, Bool.not_true, Bool.false_eq_true, if_false, found]
  exact ⟨_, rfl, rfl, rfl, by simp only [Host.actions_publish, Host.actions_log]⟩

theorem choose_extends (b : Behaviour S E F X W) (m : Machine S E F X L) (current : S) (signal : Signal E)
    (host : Host S E F X L W) :
    Progress.Extends ⟨host, .ofSignal current (m.resolve b signal host).1, m.memory⟩
      (m.choose b current signal host).2 m.memory [] [] := by
  have asked : Progress.Extends ⟨host, .ofSignal current (m.resolve b signal host).1, m.memory⟩
      ⟨(m.resolve b signal host).2, .ofSignal current (m.resolve b signal host).1, m.memory⟩ m.memory [] [] := by
    refine ⟨rfl, rfl, rfl, (List.append_nil _).symm, ?_⟩
    rw [List.append_nil]
    exact Host.actions_consult _ _ _ _ _ _
  exact asked.trans (m.select_extends b _ _ _)

theorem candidate_edge {event : E} (member : transition ∈ m.candidates current event) :
    ∃ s ∈ m.forest.lineage current, (event, transition) ∈ TransitionTable.edges (m.forest.node s).transitions := by
  unfold candidates at member
  cases found : (m.forest.lineage current).findSome? fun s => (m.forest.node s).transitions.get? event with
  | none => simp [found] at member
  | some listed =>
    rw [found, Option.getD_some] at member
    obtain ⟨s, inLineage, there⟩ := List.exists_of_findSome?_eq_some found
    exact ⟨s, inLineage, TransitionTable.mem_edges_of_get? there member⟩

theorem candidate_ends {event : E} (tree : m.forest.WellFormed) (member : transition ∈ m.candidates current event) :
    transition.source ∈ m.forest.lineage current ∧ ∀ t ∈ transition.target?, t ∈ m.forest.keys := by
  obtain ⟨s, inLineage, edge⟩ := candidate_edge member
  obtain ⟨source, target⟩ := tree.edges s _ edge
  exact ⟨source ▸ inLineage, target⟩

theorem chosen_source (tree : m.forest.WellFormed)
    (chosen : (m.choose b current signal host).1 = some transition) :
    transition.source ∈ m.forest.lineage current := (candidate_ends tree (m.select_mem b _ _ _ chosen)).1

theorem chosen_target (tree : m.forest.WellFormed)
    (chosen : (m.choose b current signal host).1 = some transition) (external : transition.target? = some target) :
    target ∈ m.forest.keys := (candidate_ends tree (m.select_mem b _ _ _ chosen)).2 target external

end Firing

theorem settle_eq (b : Behaviour S E F X W) (m : Machine S E F X L) (s : S) (p : Progress S E F X L W) :
    m.settle b s p = ((m.forest.descent p.memory s).getLastD s, m.enterAll b (m.forest.descent p.memory s) p) :=
  rfl

theorem enterAll_append (b : Behaviour S E F X W) (m : Machine S E F X L) (first second : List S)
    (p : Progress S E F X L W) : m.enterAll b (first ++ second) p = m.enterAll b second (m.enterAll b first p) :=
  List.foldl_append ..

def starting (m : Machine S E F X L) (initial : S) (host : Host S E F X L W) : Progress S E F X L W :=
  ⟨m.announce (.enteringInitialState initial) host, .ofInitialEntry, m.memory⟩

def enterFrom (b : Behaviour S E F X W) (m : Machine S E F X L) (initial : S) (host : Host S E F X L W) :
    Progress S E F X L W :=
  m.enterAll b ((m.forest.lineage initial).reverse ++ m.forest.descent m.memory initial) (m.starting initial host)

theorem enterFrom_extends (b : Behaviour S E F X W) (m : Machine S E F X L) (initial : S) (host : Host S E F X L W) :
    (m.starting initial host).Extends (m.enterFrom b initial host) m.memory
      (((m.forest.lineage initial).reverse ++ m.forest.descent m.memory initial).map (Record.mk .enter))
      (m.entryCalls ((m.forest.lineage initial).reverse ++ m.forest.descent m.memory initial)) :=
  m.enterAll_extends b _ _

theorem settle_starting (b : Behaviour S E F X W) (m : Machine S E F X L) (initial : S) (host : Host S E F X L W) :
    m.settle b initial (m.enterAll b (m.forest.lineage initial).reverse (m.starting initial host)) =
      ((m.forest.descent m.memory initial).getLastD initial, m.enterFrom b initial host) := by
  have above := m.enterAll_extends b (m.forest.lineage initial).reverse (m.starting initial host)
  rw [settle_eq, above.memory, enterFrom, enterAll_append]
  rfl

theorem enterInitialState_of_ready {initial : S} (ready : m.initial? = some initial) (unentered : m.current? = none)
    (b : Behaviour S E F X W) (host : Host S E F X L W) :
    ∃ done, m.enterInitialState b host = .ok done ∧
      done.machine = { m with
        memory := (m.enterFrom b initial host).memory
        current? := some ((m.forest.descent m.memory initial).getLastD initial) } ∧
      done.context = (m.enterFrom b initial host).context ∧
      done.host.actions = (m.enterFrom b initial host).host.actions := by
  have settled := settle_starting b m initial host
  unfold starting at settled
  unfold enterInitialState
  split
  · rename_i absent
    rw [ready] at absent
    cases absent
  · rename_i initial' found
    rw [ready] at found
    cases found
    simp only [hasEntered, unentered, Option.isSome_none, Bool.false_eq_true, if_false, settled]
    refine ⟨_, rfl, switchTo_fst _ _ _, rfl, ?_⟩
    simp only [actions_machine_announce, Host.actions_log, actions_switchTo]

def exitsTo (m : Machine S E F X L) (current source target : S) : List S :=
  m.forest.branch (m.forest.pivot? source target) current

def entriesTo (m : Machine S E F X L) (source target : S) : List S :=
  (m.forest.branch (m.forest.pivot? source target) target).reverse

/-- The states that a transition enters below its target. What they are depends on what the exits of the same
    transition have left to remember. -/
def descentTo (m : Machine S E F X L) (current source target : S) : List S :=
  m.forest.descent ((m.exitsTo current source target).foldl m.forest.remember m.memory) target

def carryOut (b : Behaviour S E F X W) (m : Machine S E F X L) (current : S) (event : E) (source target : S)
    (actions : List (Callable F)) (p : Progress S E F X L W) : Progress S E F X L W :=
  let exited := m.exitAll b (m.exitsTo current source target) p
  let acted := m.performAll b (.action ⟨source, event, some target⟩) p.context.arguments actions exited
  m.enterAll b (m.entriesTo source target ++ m.descentTo current source target) acted

theorem carryOut_extends (b : Behaviour S E F X W) (m : Machine S E F X L) (current : S) (event : E)
    (source target : S) (actions : List (Callable F)) (p : Progress S E F X L W) :
    p.Extends (m.carryOut b current event source target actions p)
      ((m.exitsTo current source target).foldl m.forest.remember p.memory)
      ((m.exitsTo current source target).map (Record.mk .exit) ++
        (m.entriesTo source target ++ m.descentTo current source target).map (Record.mk .enter))
      (m.exitCalls (m.exitsTo current source target) ++ (actions.map fun action => (action, p.context.arguments)) ++
        m.entryCalls (m.entriesTo source target ++ m.descentTo current source target)) := by
  have exited := m.exitAll_extends b (m.exitsTo current source target) p
  have acted := exited.trans (m.performAll_extends b (.action ⟨source, event, some target⟩) p.context.arguments
    actions (m.exitAll b (m.exitsTo current source target) p))
  have entered := acted.trans (m.enterAll_extends b
    (m.entriesTo source target ++ m.descentTo current source target) _)
  rw [acted.memory, exited.memory, List.append_nil] at entered
  exact entered

def begin (m : Machine S E F X L) (current : S) (event : E) (p : Progress S E F X L W) : Progress S E F X L W :=
  { p with host := p.host.publish m.subscribers (.transitionBegin current event p.context.arguments) }

omit [DecidableEq S] in
theorem begin_extends (m : Machine S E F X L) (current : S) (event : E) (p : Progress S E F X L W) :
    p.Extends (m.begin current event p) p.memory [] [] := by
  refine ⟨rfl, rfl, rfl, (List.append_nil _).symm, ?_⟩
  rw [List.append_nil]
  exact Host.actions_publish _ _ _

theorem execute_internal {event : E} (internal : transition.target? = none) :
    m.execute b current event transition p = (current, m.performAll b
      (.action ⟨transition.source, event, none⟩) p.context.arguments transition.actions
      (m.begin current event p)) := by
  unfold execute
  simp only [internal]
  rfl

theorem execute_external {event : E} (tree : m.forest.WellFormed) (memory : p.memory = m.memory)
    (above : transition.source ∈ m.forest.lineage current) (external : transition.target? = some target) :
    m.execute b current event transition p =
      ((m.descentTo current transition.source target).getLastD target,
        m.carryOut b current event transition.source target transition.actions (m.begin current event p)) := by
  have route : m.forest.route? current transition.source target =
      some ⟨m.exitsTo current transition.source target, m.entriesTo transition.source target⟩ :=
    tree.toRanked.route?_eq above
  let exited := m.exitAll b (m.exitsTo current transition.source target) (m.begin current event p)
  have exits : (m.begin current event p).Extends exited _ _ _ := m.exitAll_extends b _ _
  have acts := exits.trans (m.performAll_extends b (.action ⟨transition.source, event, some target⟩)
    p.context.arguments transition.actions exited)
  have enters := acts.trans (m.enterAll_extends b (m.entriesTo transition.source target) _)
  have arguments : exited.context.arguments = p.context.arguments := exits.arguments
  have remembered := enters.memory
  have start : (m.begin current event p).memory = m.memory := memory
  rw [acts.memory, exits.memory, start] at remembered
  have run : m.execute b current event transition p = m.settle b target
      (m.enterAll b (m.entriesTo transition.source target) (m.performAll b
        (.action ⟨transition.source, event, some target⟩) exited.context.arguments transition.actions exited)) := by
    unfold execute
    simp only [external, route]
    rfl
  rw [run, settle_eq, arguments, remembered, carryOut, enterAll_append]
  rfl

theorem fire_carries [DecidableEq E] (tree : m.forest.WellFormed) (ready : m.isInitialized)
    (standing : m.current? = some current) (chosen : (m.choose b current signal host).1 = some transition)
    (external : transition.target? = some target) :
    let event := (m.resolve b signal host).1.event
    let carried := m.carryOut b current event transition.source target transition.actions
      (m.begin current event (m.choose b current signal host).2)
    ∃ done, m.fire b signal host = .ok done ∧
      done.machine = { m with
        memory := carried.memory
        current? := some ((m.descentTo current transition.source target).getLastD target) } ∧
      done.context = carried.context ∧ done.host.actions = carried.host.actions := by
  have memory : (m.choose b current signal host).2.memory = m.memory := (choose_extends b m current signal host).memory
  have executed := fire_of_chosen ready standing chosen
  rw [execute_external tree memory (chosen_source tree chosen) external] at executed
  exact executed

end Statechart.Machine
