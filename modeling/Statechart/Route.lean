import Statechart.Forest

namespace Statechart

abbrev Memory (S : Type) := Table S S

structure Route (S : Type) where
  exits : List S
  entries : List S
deriving DecidableEq

namespace Forest

variable {S E F : Type} [DecidableEq S]

/-- The states from the current one upwards to, but excluding, the state that owns the transition. There is
    no answer when the owner is not an ancestor. -/
def unwind? (f : Forest S E F) (source : S) : Nat → S → Option (List S)
  | 0, _ => none
  | steps + 1, s =>
    if s = source then some []
    else (f.super? s).bind fun parent => (f.unwind? source steps parent).map (s :: ·)

/-- Climbs from the source and from the target until both meet, the deeper one first. A final target that
    the source side reaches is left and entered again. There is no answer when a super-state is missing on
    the way. -/
def climb? (f : Forest S E F) (finalTarget : S) : Nat → S → S → Option (Route S)
  | 0, _, _ => none
  | steps + 1, source, target =>
    if source = finalTarget then some ⟨[source], [finalTarget]⟩
    else if source = target then some ⟨[], []⟩
    else if f.super? source = f.super? target then some ⟨[source], [target]⟩
    else if f.level target < f.level source then
      (f.super? source).bind fun above => (f.climb? finalTarget steps above target).map fun route =>
        { route with exits := source :: route.exits }
    else if f.level source < f.level target then
      (f.super? target).bind fun above => (f.climb? finalTarget steps source above).map fun route =>
        { route with entries := route.entries ++ [target] }
    else
      (f.super? source).bind fun above => (f.super? target).bind fun above' =>
        (f.climb? finalTarget steps above above').map fun route =>
          ⟨source :: route.exits, route.entries ++ [target]⟩

def route? (f : Forest S E F) (current source target : S) : Option (Route S) :=
  (f.unwind? source f.steps current).bind fun unwound =>
    (f.climb? target (f.level source + f.level target + 1) source target).map fun route =>
      { route with exits := unwound ++ route.exits }

/-- The sub-state that a composite state was last in, or else its initial one. -/
def resume? (f : Forest S E F) (memory : Memory S) (s : S) : Option S := (memory.get? s).or (f.initial? s)

def descent? (f : Forest S E F) (memory : Memory S) (s : S) : Option (List S) :=
  match f.initial? s with
  | none => some []
  | some initial =>
    match (f.node s).history with
    | .none => walk? f.initial? f.steps initial
    | .shallow => walk? f.initial? f.steps ((memory.get? s).getD initial)
    | .deep => walk? (f.resume? memory) f.steps ((memory.get? s).getD initial)

def descent (f : Forest S E F) (memory : Memory S) (s : S) : List S := (f.descent? memory s).getD []

def remember (f : Forest S E F) (memory : Memory S) (s : S) : Memory S :=
  match f.super? s with
  | some parent => memory.insert parent s
  | none => memory

end Forest

end Statechart
