import Statechart.Forest

namespace Statechart

structure Draft (S F : Type) where
  target? : Option S
  guard? : Option (Callable F)
  actions : List (Callable F)

namespace Draft

variable {S F : Type}

def goto (target : S) : Draft S F := ⟨some target, none, []⟩

def internal : Draft S F := ⟨none, none, []⟩

def guardedBy (draft : Draft S F) (callable : Callable F) : Draft S F := { draft with guard? := some callable }

def acting (draft : Draft S F) (callable : Callable F) : Draft S F :=
  { draft with actions := draft.actions ++ [callable] }

def summary [Describe S] (draft : Draft S F) : String :=
  "TransitionBuilder \x7b target: " ++ showOption (draft.target?.map describe) ++
    ", guard: " ++ showOption (draft.guard?.map (Callable.summary "GuardHolder")) ++
    ", actions: [" ++ String.intercalate ", " (draft.actions.map (Callable.summary "ActionHolder")) ++ "] \x7d"

end Draft

namespace Forest

variable {S E F : Type} [DecidableEq S]

/-- What speaks against one sub-state: a super-state that it already has, and a cycle. A state that was
    never mentioned raises neither. -/
def subStateErrors (f : Forest S E F) (superState sub : S) : List (DefinitionError S E) :=
  if f.contains sub then
    (match f.super? sub with
      | some existing => [.alreadyHasSuperState sub existing superState]
      | none => []) ++
    (if f.contains superState ∧ sub ∈ f.lineage superState then [.cyclicHierarchy sub superState] else [])
  else []

/-- Everything that speaks against a hierarchy. A super-state listed below itself is reported once, as its
    own super-state. -/
def hierarchyErrors (f : Forest S E F) (superState initial : S) (subs : List S) :
    List (DefinitionError S E) :=
  (if superState ∈ subs then [.ownSuperState superState] else []) ++
  (if initial ∈ subs then [] else [.initialStateNotSubState superState initial]) ++
  (if f.isComposite superState then [.hierarchyAlreadyDefined superState] else []) ++
  (subs.filter fun sub => sub ≠ superState).flatMap (f.subStateErrors superState)

def place (superState : S) (f : Forest S E F) (sub : S) : Forest S E F :=
  let f := f.mention sub
  if f.super? sub = some superState then f else f.attach superState sub

def define? (f : Forest S E F) (superState initial : S) (history : HistoryType) (subs : List S) :
    Except (List (DefinitionError S E)) (Forest S E F) :=
  match f.hierarchyErrors superState initial subs with
  | [] => .ok ((subs.foldl (place superState) (f.mention superState)).modify superState fun node =>
      { node with initial? := some initial, history := history })
  | errors => .error errors

/-- Registers a transition. Source and target are mentioned also when the transition is refused because
    an unguarded one hides it. -/
def addTransition [DecidableEq E] (f : Forest S E F) (source : S) (event : E) (draft : Draft S F) :
    Except (DefinitionError S E) Unit × Forest S E F :=
  let f := (draft.target?.toList).foldl mention (f.mention source)
  match (f.node source).transitions.add? event ⟨source, draft.target?, draft.guard?, draft.actions⟩ with
  | none => (.error (.duplicateTransition source event), f)
  | some table => (.ok (), f.modify source fun node => { node with transitions := table })

def addEntryAction (f : Forest S E F) (s : S) (action : Callable F) : Forest S E F :=
  (f.mention s).modify s fun node => { node with entry := node.entry ++ [action] }

def addExitAction (f : Forest S E F) (s : S) (action : Callable F) : Forest S E F :=
  (f.mention s).modify s fun node => { node with exit := node.exit ++ [action] }

end Forest

end Statechart
