import Statechart.Machine.Progress

namespace Statechart

structure Completed (S E F X L W : Type) where
  machine : Machine S E F X L
  host : Host S E F X L W
  context : Context S E

namespace Machine

variable {S E F X L W : Type} [DecidableEq S]

def initializeAt (b : Behaviour S E F X W) (m : Machine S E F X L) (state : S) (host : Host S E F X L W) :
    Except Misuse (Machine S E F X L × Host S E F X L W) :=
  if m.isInitialized then .error .alreadyInitialized
  else
    let (initial, host) := Host.consult m.info .initializing
      (fun extension current => b.initialState extension m.info current) m.extensions state host
    let m := { m with forest := m.forest.mention initial, initial? := some initial }
    let host := host.log (.initialized m.name initial)
    .ok (m, m.announce (.initialized initial) host)

/-- Moves to a state. Extensions hear of it when the state differs from the one before. -/
def switchTo (m : Machine S E F X L) (state : S) (host : Host S E F X L W) :
    Machine S E F X L × Host S E F X L W :=
  let switched := { m with current? := some state }
  if m.current? = some state then (switched, host)
  else (switched, switched.announce (.switchedState m.current? state) host)

/-- Enters the ancestors of the initial state outermost first, the initial state, and its sub-states down
    to a leaf. -/
def enterInitialState (b : Behaviour S E F X W) (m : Machine S E F X L) (host : Host S E F X L W) :
    Except Misuse (Completed S E F X L W) :=
  match m.initial? with
  | none => .error .notInitialized
  | some initial =>
    if m.hasEntered then .error .initialStateAlreadyEntered
    else
      let host := m.announce (.enteringInitialState initial) host
      let p := m.enterAll b (m.forest.lineage initial).reverse ⟨host, .ofInitialEntry, m.memory⟩
      let (leaf, p) := m.settle b initial p
      let (m, host) := { m with memory := p.memory }.switchTo leaf p.host
      let host := host.log (.enteredInitialState m.name leaf p.context.records)
      .ok ⟨m, m.announce (.enteredInitialState leaf p.context) host, p.context⟩

def execute (b : Behaviour S E F X W) (m : Machine S E F X L) (current : S) (event : E)
    (transition : Transition S F) (p : Progress S E F X L W) : S × Progress S E F X L W :=
  let edge : Edge S E := ⟨transition.source, event, transition.target?⟩
  let p := { p with
    host := p.host.publish m.subscribers (.transitionBegin current event p.context.arguments) }
  match transition.target? with
  | none => (current, m.performAll b (.action edge) p.context.arguments transition.actions p)
  | some target =>
    match m.forest.route? current transition.source target with
    | none => (current, p)
    | some route =>
      let p := m.exitAll b route.exits p
      let p := m.performAll b (.action edge) p.context.arguments transition.actions p
      m.settle b target (m.enterAll b route.entries p)

def select (b : Behaviour S E F X W) (m : Machine S E F X L) (event : E) :
    List (Transition S F) → Progress S E F X L W → Option (Transition S F) × Progress S E F X L W
  | [], p => (none, p)
  | candidate :: rest, p =>
    let (passes, p) := m.guardPasses b ⟨candidate.source, event, candidate.target?⟩ candidate.guard? p
    if passes then (some candidate, p) else m.select b event rest p

/-- The candidates of the innermost state that has any for the event. Outer states are not consulted, also
    when none of these candidates passes. -/
def candidates [DecidableEq E] (m : Machine S E F X L) (current : S) (event : E) : List (Transition S F) :=
  ((m.forest.lineage current).findSome? fun s => (m.forest.node s).transitions.get? event).getD []

/-- Fires an event. Extensions may replace it first. Declined events and failures of user code are
    published; only a machine that has not entered its initial state refuses. -/
def fire [DecidableEq E] (b : Behaviour S E F X W) (m : Machine S E F X L) (signal : Signal E)
    (host : Host S E F X L W) : Except Misuse (Completed S E F X L W) :=
  if !m.isInitialized then .error .notInitialized
  else match m.current? with
  | none => .error .initialStateNotEntered
  | some current =>
    let (signal, host) := Host.consult m.info .firing
      (fun extension asked => b.signal extension m.info asked) m.extensions signal host
    let p : Progress S E F X L W := ⟨host, .ofSignal current signal, m.memory⟩
    match m.select b signal.event (m.candidates current signal.event) p with
    | (some transition, p) =>
      let (reached, p) := m.execute b current signal.event transition p
      let (m, host) := { m with memory := p.memory }.switchTo reached p.host
      let host := host.log (.firedEvent m.name signal.event reached p.context.records)
      let host := m.announce (.fired p.context) host
      let host := host.publish m.subscribers
        (.transitionCompleted current signal.event p.context.arguments reached p.context.records)
      .ok ⟨m, host, p.context⟩
    | (none, p) =>
      let host := p.host.log (.transitionDeclined m.name signal.event current)
      let host := host.publish m.subscribers (.transitionDeclined current signal.event p.context.arguments)
      .ok ⟨m, host, p.context⟩

end Machine

end Statechart
