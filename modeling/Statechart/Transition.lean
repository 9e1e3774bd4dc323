import Statechart.Callable
import Statechart.Table

namespace Statechart

/-- An edge of the state graph. Without a target it is internal: its actions run and no state is left or
    entered. -/
structure Transition (S F : Type) where
  source : S
  target? : Option S
  guard? : Option (Callable F)
  actions : List (Callable F)
deriving DecidableEq

/-- The transitions of one state: the candidates of each event in order of registration, events in order
    of their first registration. -/
abbrev TransitionTable (S E F : Type) := Table E (List (Transition S F))

namespace TransitionTable

variable {S E F : Type} [DecidableEq E]

def isShadowed (table : TransitionTable S E F) (event : E) : Bool :=
  ((table.get? event).getD []).any fun candidate => candidate.guard?.isNone

def register (table : TransitionTable S E F) (event : E) (candidate : Transition S F) :
    TransitionTable S E F :=
  (table.ensure event []).modify event fun candidates => candidates ++ [candidate]

def add? (table : TransitionTable S E F) (event : E) (candidate : Transition S F) :
    Option (TransitionTable S E F) :=
  if table.isShadowed event then none else some (table.register event candidate)

omit [DecidableEq E] in
def edges (table : TransitionTable S E F) : List (E × Transition S F) :=
  table.entries.flatMap fun entry => entry.2.map fun candidate => (entry.1, candidate)

end TransitionTable

end Statechart
