import Statechart.Config
import Statechart.Definition
import Statechart.Host
import Statechart.Route

namespace Statechart

/-- A hierarchical state machine: its definition, who observes it, and where it stands. It is initialized
    when it has an initial state and entered when it has a current one. -/
structure Machine (S E F X L : Type) where
  config : Config
  forest : Forest S E F
  memory : Memory S
  extensions : List (Extension X)
  subscribers : List (Subscriber L)
  initial? : Option S
  current? : Option S

namespace Machine

variable {S E F X L : Type}

def ofConfig (config : Config) : Machine S E F X L :=
  ⟨config, .empty, .empty, if config.logTransitions then [.logger none] else [], [], none, none⟩

def name (m : Machine S E F X L) : String := m.config.name

def info (m : Machine S E F X L) : Info S := ⟨m.name, m.current?⟩

def isInitialized (m : Machine S E F X L) : Bool := m.initial?.isSome

def hasEntered (m : Machine S E F X L) : Bool := m.current?.isSome

section Definition

variable [DecidableEq S]

def define (m : Machine S E F X L) (superState initial : S) (history : HistoryType) (subs : List S) :
    Except (List (DefinitionError S E)) (Machine S E F X L) :=
  (m.forest.define? superState initial history subs).map fun forest => { m with forest := forest }

def addTransition [DecidableEq E] (m : Machine S E F X L) (source : S) (event : E) (draft : Draft S F) :
    Except (DefinitionError S E) Unit × Machine S E F X L :=
  let (result, forest) := m.forest.addTransition source event draft
  (result, { m with forest := forest })

def addEntryAction (m : Machine S E F X L) (s : S) (action : Callable F) : Machine S E F X L :=
  { m with forest := m.forest.addEntryAction s action }

def addExitAction (m : Machine S E F X L) (s : S) (action : Callable F) : Machine S E F X L :=
  { m with forest := m.forest.addExitAction s action }

end Definition

def addExtension (m : Machine S E F X L) (extension : Extension X) : Machine S E F X L :=
  { m with extensions := m.extensions ++ [extension] }

def removeExtension [DecidableEq X] (m : Machine S E F X L) (extension : Extension X) : Machine S E F X L :=
  { m with extensions := m.extensions.filter fun other => other ≠ extension }

def clearExtensions (m : Machine S E F X L) : Machine S E F X L := { m with extensions := [] }

def subscribe (m : Machine S E F X L) (subscriber : Subscriber L) : Machine S E F X L :=
  { m with subscribers := m.subscribers ++ [subscriber] }

def announce {W : Type} (m : Machine S E F X L) (hook : Hook S E) (host : Host S E F X L W) :
    Host S E F X L W :=
  host.announce m.extensions m.info hook

def summary [Describe S] (m : Machine S E F X L) : String :=
  "StateMachine \x7b name: " ++ Text.quote m.name ++ ", states: " ++ toString m.forest.size ++
    ", initial_state: " ++ showOption (m.initial?.map describe) ++
    ", current_state: " ++ showOption (m.current?.map describe) ++ " \x7d"

end Machine

end Statechart
