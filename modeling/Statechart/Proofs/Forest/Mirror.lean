import Statechart.Route

namespace Statechart

variable {S E F F' : Type}

def Transition.map (g : Callable F → Callable F') (transition : Transition S F) : Transition S F' :=
  ⟨transition.source, transition.target?, transition.guard?.map g, transition.actions.map g⟩

theorem Transition.map_id (transition : Transition S F) : transition.map id = transition := by
  simp [Transition.map]

namespace Table

variable {K V V' : Type}

def map (g : V → V') (t : Table K V) : Table K V' := ⟨t.entries.map fun entry => (entry.1, g entry.2)⟩

theorem size_map (g : V → V') (t : Table K V) : (t.map g).size = t.size := List.length_map _

theorem map_of_same {g : V → V} (same : ∀ v, g v = v) (t : Table K V) : t.map g = t := by
  simp [map, same]

theorem get?_map [DecidableEq K] (g : V → V') (t : Table K V) (k : K) : (t.map g).get? k = (t.get? k).map g := by
  simp only [get?, map, List.find?_map, Option.map_map]
  rfl

end Table

def Node.map (g : Callable F → Callable F') (node : Node S E F) : Node S E F' where
  super? := node.super?
  subs := node.subs
  initial? := node.initial?
  history := node.history
  level := node.level
  entry := node.entry.map g
  exit := node.exit.map g
  transitions := Table.map (List.map (Transition.map g)) node.transitions

theorem Node.map_id (node : Node S E F) : node.map id = node := by
  have same := List.map_id'' (Transition.map_id (S := S) (F := F))
  simp [Node.map, Table.map_of_same same]

namespace Forest

variable [DecidableEq S] {g : Callable F → Callable F'} {f : Forest S E F} {f' : Forest S E F'} {memory memory' : Memory S}

theorem remember_congr (f : Forest S E F) (same : ∀ s, memory'.get? s = memory.get? s) (s t : S) :
    (f.remember memory' s).get? t = (f.remember memory s).get? t := by
  unfold remember
  cases f.super? s with
  | none => exact same t
  | some parent =>
    simp only [Table.get?_insert]
    rw [same]

/-- Two forests of the same states with the same links, in which callables stand for callables. -/
structure Mirrors (g : Callable F → Callable F') (f : Forest S E F) (f' : Forest S E F') : Prop where
  steps : f'.steps = f.steps
  node : ∀ s, f'.node s = (f.node s).map g

theorem mirrors_refl (f : Forest S E F) : f.Mirrors id f := ⟨rfl, fun _ => (Node.map_id _).symm⟩

theorem mirrors_map (g : Callable F → Callable F') (f : Forest S E F) : f.Mirrors g (Table.map (Node.map g) f) := by
  refine ⟨congrArg (· + 1) (Table.size_map (Node.map g) f), fun s => ?_⟩
  unfold Forest.node
  rw [Table.get?_map]
  cases f.get? s <;> rfl

namespace Mirrors

variable (h : f.Mirrors g f')
include h

theorem super? : f'.super? = f.super? := by
  funext s
  simp only [Forest.super?, h.node]
  rfl

theorem initial? : f'.initial? = f.initial? := by
  funext s
  simp only [Forest.initial?, h.node]
  rfl

theorem level (s : S) : f'.level s = f.level s := by
  simp only [Forest.level, h.node]
  rfl

theorem lineage (s : S) : f'.lineage s = f.lineage s := by
  unfold Forest.lineage lineage?
  rw [h.super?, h.steps]

theorem unwind? (source : S) (n : Nat) (s : S) : f'.unwind? source n s = f.unwind? source n s := by
  induction n generalizing s with
  | zero => rfl
  | succ n ih => simp only [Forest.unwind?, h.super?, ih]

theorem climb? (target : S) (n : Nat) (s t : S) : f'.climb? target n s t = f.climb? target n s t := by
  induction n generalizing s t with
  | zero => rfl
  | succ n ih => simp only [Forest.climb?, h.super?, h.level, ih]

theorem route? (current source target : S) : f'.route? current source target = f.route? current source target := by
  unfold Forest.route?
  rw [h.steps, h.unwind?, h.level, h.level, h.climb?]

theorem descent (same : ∀ s, memory'.get? s = memory.get? s) (s : S) : f'.descent memory' s = f.descent memory s := by
  have resume : f'.resume? memory' = f.resume? memory := by
    funext s
    simp only [resume?, same, h.initial?]
  have history : (f'.node s).history = (f.node s).history := by
    rw [h.node]
    rfl
  unfold Forest.descent descent?
  rw [h.initial?, h.steps, history, same, resume]

theorem remember (memory : Memory S) (s : S) : f'.remember memory s = f.remember memory s := by
  unfold Forest.remember
  rw [h.super?]

theorem transitions [DecidableEq E] (s : S) (event : E) :
    (f'.node s).transitions.get? event = ((f.node s).transitions.get? event).map (List.map (Transition.map g)) := by
  rw [h.node]
  exact Table.get?_map _ _ _

end Mirrors

end Forest

end Statechart
