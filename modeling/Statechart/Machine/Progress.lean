import Statechart.Machine.Basic

namespace Statechart

/-- An operation under way: where it runs, what it has done, and what composite states remember. -/
structure Progress (S E F X L W : Type) where
  host : Host S E F X L W
  context : Context S E
  memory : Memory S

namespace Machine

variable {S E F X L W : Type}

/-- Extensions may replace a caught exception. The final one is recorded, published, and reported back to
    the extensions. -/
def handleException (b : Behaviour S E F X W) (m : Machine S E F X L) (fault : Fault S E)
    (exception : Exception) (p : Progress S E F X L W) : Progress S E F X L W :=
  let (final, host) := Host.consult m.info (.handlingException fault p.context)
    (fun extension current => b.exception extension m.info fault p.context current)
    m.extensions exception p.host
  let context := p.context.addException final
  let host := host.log (.callableFailed m.name fault final)
  let host := host.publish m.subscribers (.ofException context final)
  { p with host := m.announce (.handledException fault context final) host, context := context }

/-- Runs an action. A failure is handled and does not stop what follows. -/
def perform (b : Behaviour S E F X W) (m : Machine S E F X L) (fault : Fault S E) (arguments : Arguments)
    (p : Progress S E F X L W) (action : Callable F) : Progress S E F X L W :=
  let (outcome, host) := Host.call b.action .action action arguments p.host
  match outcome with
  | .failed exception => m.handleException b fault exception { p with host := host }
  | .done _ | .crashed => { p with host := host }

def performAll (b : Behaviour S E F X W) (m : Machine S E F X L) (fault : Fault S E) (arguments : Arguments)
    (actions : List (Callable F)) (p : Progress S E F X L W) : Progress S E F X L W :=
  actions.foldl (m.perform b fault arguments) p

/-- Evaluates the guard of a transition. A guard that fails counts as false. -/
def guardPasses (b : Behaviour S E F X W) (m : Machine S E F X L) (edge : Edge S E)
    (guard? : Option (Callable F)) (p : Progress S E F X L W) : Bool × Progress S E F X L W :=
  match guard? with
  | none => (true, p)
  | some guard =>
    let (outcome, host) := Host.call b.guard .guard guard p.context.arguments p.host
    match outcome with
    | .done passes => (passes, { p with host := host })
    | .failed exception => (false, m.handleException b (.guard edge) exception { p with host := host })
    | .crashed => (false, { p with host := host })

variable [DecidableEq S]

def enter (b : Behaviour S E F X W) (m : Machine S E F X L) (p : Progress S E F X L W) (s : S) :
    Progress S E F X L W :=
  m.performAll b (.entry s) [] (m.forest.node s).entry { p with context := p.context.addRecord .enter s }

/-- Leaves a state: the exit is recorded, its exit actions run without arguments, and its super-state
    remembers it. -/
def exit (b : Behaviour S E F X W) (m : Machine S E F X L) (p : Progress S E F X L W) (s : S) :
    Progress S E F X L W :=
  let p := m.performAll b (.exit s) [] (m.forest.node s).exit
    { p with context := p.context.addRecord .exit s }
  { p with memory := m.forest.remember p.memory s }

def enterAll (b : Behaviour S E F X W) (m : Machine S E F X L) (states : List S)
    (p : Progress S E F X L W) : Progress S E F X L W :=
  states.foldl (m.enter b) p

def exitAll (b : Behaviour S E F X W) (m : Machine S E F X L) (states : List S)
    (p : Progress S E F X L W) : Progress S E F X L W :=
  states.foldl (m.exit b) p

/-- Enters the sub-states of a state that was just entered and answers the leaf that is reached. -/
def settle (b : Behaviour S E F X W) (m : Machine S E F X L) (s : S) (p : Progress S E F X L W) :
    S × Progress S E F X L W :=
  let below := m.forest.descent p.memory s
  (below.getLastD s, m.enterAll b below p)

end Machine

end Statechart
