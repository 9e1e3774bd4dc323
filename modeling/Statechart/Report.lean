import Statechart.Machine.Basic

namespace Statechart

structure TransitionView (S E : Type) where
  event : E
  target? : Option S
  actions : List String
  guard? : Option String
deriving DecidableEq

inductive StateView (S E : Type) where
  | node (id : S) (initial? : Option S) (history : HistoryType) (entry exit : List String)
      (transitions : List (TransitionView S E)) (subs : List (StateView S E))

def TransitionView.ofEdge {S E F : Type} (edge : E × Transition S F) : TransitionView S E :=
  ⟨edge.1, edge.2.target?, edge.2.actions.map Callable.name, edge.2.guard?.map Callable.name⟩

namespace Forest

variable {S E F : Type} [DecidableEq S]

/-- The view of a state. There is no answer when states are nested deeper than allowed. -/
def view? (f : Forest S E F) : Nat → S → Option (StateView S E)
  | 0, _ => none
  | depth + 1, s =>
    let node := f.node s
    (node.subs.mapM (f.view? depth)).map fun subs =>
      .node s node.initial? node.history (node.entry.map Callable.name) (node.exit.map Callable.name)
        ((TransitionTable.edges node.transitions).map TransitionView.ofEdge) subs

def views? (f : Forest S E F) : Option (List (StateView S E)) := f.roots.mapM (f.view? f.steps)

def views (f : Forest S E F) : List (StateView S E) := f.views?.getD []

end Forest

structure Report (S E : Type) where
  name : String
  initial? : Option S
  states : List (StateView S E)

def Machine.report {S E F X L : Type} [DecidableEq S] (m : Machine S E F X L) : Report S E :=
  ⟨m.name, m.initial?, m.forest.views⟩

end Statechart
