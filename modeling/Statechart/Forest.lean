import Statechart.Error
import Statechart.History
import Statechart.Transition
import Statechart.Walk

namespace Statechart

/-- A state of the hierarchy. The level is the number of its ancestors. -/
structure Node (S E F : Type) where
  super? : Option S
  subs : List S
  initial? : Option S
  history : HistoryType
  level : Nat
  entry : List (Callable F)
  exit : List (Callable F)
  transitions : TransitionTable S E F

def Node.isolated {S E F : Type} : Node S E F := ⟨none, [], none, .none, 0, [], [], .empty⟩

/-- All states of a machine, in order of their first mention. States are linked by their identifiers. -/
abbrev Forest (S E F : Type) := Table S (Node S E F)

namespace Forest

variable {S E F : Type} [DecidableEq S]

def node (f : Forest S E F) (s : S) : Node S E F := (f.get? s).getD .isolated

def super? (f : Forest S E F) (s : S) : Option S := (f.node s).super?

def subs (f : Forest S E F) (s : S) : List S := (f.node s).subs

def initial? (f : Forest S E F) (s : S) : Option S := (f.node s).initial?

def level (f : Forest S E F) (s : S) : Nat := (f.node s).level

def isComposite (f : Forest S E F) (s : S) : Bool := !(f.subs s).isEmpty

def roots (f : Forest S E F) : List S := f.keys.filter fun s => (f.super? s).isNone

def composites (f : Forest S E F) : List S := f.keys.filter f.isComposite

def mention (f : Forest S E F) (s : S) : Forest S E F := f.ensure s .isolated

/-- A walk along links that never repeats a state is over within this many steps. -/
def steps (f : Forest S E F) : Nat := f.size + 1

def lineage? (f : Forest S E F) (s : S) : Option (List S) := walk? f.super? f.steps s

def lineage (f : Forest S E F) (s : S) : List S := (f.lineage? s).getD [s]

def ancestors (f : Forest S E F) (s : S) : List S := (f.lineage s).tail

def relevel? : Nat → List (S × Nat) → Forest S E F → Option (Forest S E F)
  | _, [], f => some f
  | 0, _ :: _, _ => none
  | n + 1, (s, level) :: pending, f =>
    relevel? n (pending ++ (f.subs s).map fun sub => (sub, level + 1))
      (f.modify s fun node => { node with level := level })

def link (f : Forest S E F) (parent sub : S) : Forest S E F :=
  (f.modify sub fun node => { node with super? := some parent }).modify parent fun node =>
    { node with subs := node.subs ++ [sub] }

/-- Puts a state with its whole subtree below another and corrects their levels. -/
def attach (f : Forest S E F) (parent sub : S) : Forest S E F :=
  let linked := f.link parent sub
  (relevel? linked.steps [(sub, linked.level parent + 1)] linked).getD linked

end Forest

end Statechart
