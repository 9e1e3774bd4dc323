import Mathlib.Algebra.BigOperators.Group.Finset.Basic
import Mathlib.Data.Finmap
import Statechart.Proofs.Forest.Grouping

namespace Statechart

/-- The candidates of each event in a map that has no order of its own, and the events in the order in which they first
    came. -/
structure Dictionary (S E F : Type) where
  candidates : Finmap fun _ : E => List (Transition S F)
  order : List E

namespace Dictionary

variable {S E F : Type}

def empty : Dictionary S E F := ⟨∅, []⟩

variable [DecidableEq E] {d : Dictionary S E F} {table : TransitionTable S E F} {event : E} {candidate : Transition S F}

def add (d : Dictionary S E F) (event : E) (candidate : Transition S F) : Bool × Dictionary S E F :=
  match d.candidates.lookup event with
  | some existing =>
    if existing.any fun other => other.guard?.isNone then (false, d)
    else (true, { d with candidates := d.candidates.insert event (existing ++ [candidate]) })
  | none => (true, ⟨d.candidates.insert event [candidate], d.order ++ [event]⟩)

def addAll (attempts : List (E × Transition S F)) : Dictionary S E F :=
  attempts.foldl (fun d attempt => (d.add attempt.1 attempt.2).2) empty

def iter (d : Dictionary S E F) : List (E × Transition S F) :=
  d.order.flatMap fun event => ((d.candidates.lookup event).getD []).map fun candidate => (event, candidate)

def len (d : Dictionary S E F) : Nat := ∑ event ∈ d.candidates.keys, ((d.candidates.lookup event).getD []).length

structure Represents (d : Dictionary S E F) (table : TransitionTable S E F) : Prop where
  order : d.order = table.keys
  lookup : ∀ event, d.candidates.lookup event = table.get? event

theorem represents_empty : (empty : Dictionary S E F).Represents .empty := ⟨rfl, fun _ => rfl⟩

namespace Represents

theorem add (h : d.Represents table) (event : E) (candidate : Transition S F) :
    (d.add event candidate).1 = !table.isShadowed event ∧
      (d.add event candidate).2.Represents
        (if table.isShadowed event then table else table.register event candidate) := by
  have inserted : ∀ listed : List (Transition S F), (table.get? event).getD [] ++ [candidate] = listed →
      ∀ e, (d.candidates.insert event listed).lookup e = (table.register event candidate).get? e := by
    intro listed same e
    rw [TransitionTable.get?_register]
    by_cases here : e = event
    · rw [if_pos here, here, Finmap.lookup_insert, same]
    · rw [if_neg here, Finmap.lookup_insert_of_ne _ here, h.lookup]
  unfold Dictionary.add TransitionTable.isShadowed
  rw [h.lookup]
  cases found : table.get? event with
  | some existing =>
    have known : event ∈ table.keys := Table.get?_isSome_iff.mp (by rw [found]; rfl)
    have keys : (table.register event candidate).keys = table.keys := by
      rw [TransitionTable.register, Table.keys_modify, Table.keys_ensure, if_pos known]
    dsimp only [Option.getD_some]
    by_cases shadowed : existing.any fun other => other.guard?.isNone
    · rw [if_pos shadowed, if_pos shadowed, shadowed]
      exact ⟨rfl, h⟩
    · rw [if_neg shadowed, if_neg shadowed, Bool.eq_false_iff.mpr shadowed]
      exact ⟨rfl, h.order.trans keys.symm, inserted _ (by rw [found]; rfl)⟩
  | none =>
    have keys : (table.register event candidate).keys = table.keys ++ [event] := by
      rw [TransitionTable.register, Table.keys_modify, Table.keys_ensure, if_neg (Table.get?_eq_none_iff.mp found)]
    refine ⟨rfl, ?_, inserted _ (by rw [found]; rfl)⟩
    show d.order ++ [event] = _
    rw [h.order]
    exact keys.symm

theorem mem_order_iff (h : d.Represents table) : event ∈ d.order ↔ event ∈ d.candidates := by
  rw [h.order, ← Finmap.lookup_isSome, h.lookup, Table.get?_isSome_iff]

theorem keys_eq (h : d.Represents table) : d.candidates.keys = d.order.toFinset := by
  ext event
  rw [List.mem_toFinset, h.mem_order_iff, Finmap.mem_keys]

theorem iter_eq (h : d.Represents table) (distinct : table.keys.Nodup) : d.iter = table.edges := by
  unfold iter TransitionTable.edges
  rw [h.order, Table.keys, List.flatMap_map]
  apply List.flatMap_congr
  intro entry member
  rw [h.lookup, Table.get?_of_mem distinct member]
  rfl

theorem len_eq (h : d.Represents table) (distinct : table.keys.Nodup) : d.len = d.iter.length := by
  unfold len iter
  rw [h.keys_eq, List.sum_toFinset _ (h.order ▸ distinct), List.length_flatMap]
  simp only [List.length_map]

end Represents

end Dictionary

end Statechart
