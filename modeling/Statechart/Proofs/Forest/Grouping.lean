import Mathlib.Data.List.Perm.Basic
import Statechart.Proofs.Forest.Registration

namespace Statechart

section Groups

variable {α β : Type} [DecidableEq β]

theorem nodup_eraseDups (keys : List β) : keys.eraseDups.Nodup := by
  generalize bound : keys.length = n
  induction n using Nat.strong_induction_on generalizing keys with
  | _ n ih =>
    cases keys with
    | nil => exact .nil
    | cons k rest =>
      have shorter := List.length_filter_le (fun other => !other == k) rest
      rw [List.length_cons] at bound
      rw [List.eraseDups_cons, List.nodup_cons]
      exact ⟨by simp, ih _ (by omega) _ rfl⟩

theorem eraseDups_snoc (keys : List β) (k : β) :
    (keys ++ [k]).eraseDups = if k ∈ keys then keys.eraseDups else keys.eraseDups ++ [k] := by
  rw [List.eraseDups_append]
  by_cases known : k ∈ keys <;> simp [List.removeAll, known, List.eraseDups_cons]

def group (key : α → β) (items : List α) (k : β) : List α := items.filter fun item => key item = k

/-- Items with the same key brought together, the keys in the order in which they first occur. -/
def grouped (key : α → β) (items : List α) : List α := (items.map key).eraseDups.flatMap (group key items)

theorem grouped_cons (key : α → β) (item : α) (rest : List α) : grouped key (item :: rest) =
    group key (item :: rest) (key item) ++ grouped key (rest.filter fun other => key other ≠ key item) := by
  have others : (rest.map key).filter (fun k => !k == key item) =
      (rest.filter fun other => key other ≠ key item).map key := by
    rw [List.filter_map]
    congr 1
    apply List.filter_congr
    intro other _
    simp [beq_eq_decide]
  unfold grouped
  rw [List.map_cons, List.eraseDups_cons, List.flatMap_cons, others]
  congr 1
  apply List.flatMap_congr
  intro k member
  obtain ⟨other, inRest, rfl⟩ := List.mem_map.mp (List.mem_eraseDups.mp member)
  have apart : key other ≠ key item := by simpa using (List.mem_filter.mp inRest).2
  unfold group
  rw [List.filter_cons_of_neg (by simpa using Ne.symm apart), List.filter_filter]
  apply List.filter_congr
  intro a _
  by_cases same : key a = key other
  · simp [same, apart]
  · simp [same]

theorem grouped_perm (key : α → β) (items : List α) : (grouped key items).Perm items := by
  generalize bound : items.length = n
  induction n using Nat.strong_induction_on generalizing items with
  | _ n ih =>
    cases items with
    | nil => exact .nil
    | cons item rest =>
      have shorter := List.length_filter_le (fun other => key other ≠ key item) rest
      rw [List.length_cons] at bound
      have others := ih _ (by omega) (rest.filter fun other => key other ≠ key item) rfl
      have whole := List.filter_append_perm (fun other => key other = key item) (item :: rest)
      have apart : (item :: rest).filter (fun other => !decide (key other = key item)) =
          rest.filter fun other => key other ≠ key item := by
        rw [List.filter_cons_of_neg (by simp)]
        exact List.filter_congr fun _ _ => (decide_not ..).symm
      rw [apart] at whole
      rw [grouped_cons]
      exact (others.append_left _).trans whole

end Groups

namespace TransitionTable

variable {S E F : Type} [DecidableEq E] {table : TransitionTable S E F} {listed : List (E × Transition S F)} {event : E}
  {candidate : Transition S F}

def candidatesOf (listed : List (E × Transition S F)) (event : E) : List (Transition S F) :=
  (group Prod.fst listed event).map Prod.snd

def registerAll (table : TransitionTable S E F) (listed : List (E × Transition S F)) : TransitionTable S E F :=
  listed.foldl (fun table edge => table.register edge.1 edge.2) table

theorem candidatesOf_snoc (listed : List (E × Transition S F)) (edge : E × Transition S F) (event : E) :
    candidatesOf (listed ++ [edge]) event =
      if edge.1 = event then candidatesOf listed event ++ [edge.2] else candidatesOf listed event := by
  unfold candidatesOf group
  by_cases here : edge.1 = event <;> simp [here]

theorem mem_candidatesOf : candidate ∈ candidatesOf listed event ↔ (event, candidate) ∈ listed := by
  simp only [candidatesOf, group, List.mem_map, List.mem_filter, decide_eq_true_eq]
  constructor
  · rintro ⟨edge, ⟨member, rfl⟩, rfl⟩
    exact member
  · intro member
    exact ⟨_, ⟨member, rfl⟩, rfl⟩

theorem candidatesOf_eq_nil_iff : candidatesOf listed event = [] ↔ event ∉ listed.map Prod.fst := by
  simp only [candidatesOf, group, List.map_eq_nil_iff, List.filter_eq_nil_iff, decide_eq_true_eq, List.mem_map]
  grind

theorem entries_register (table : TransitionTable S E F) (event : E) (candidate : Transition S F) :
    (table.register event candidate).entries =
      (if event ∈ table.keys then table.entries else table.entries ++ [(event, [])]).map fun entry =>
        if entry.1 = event then (entry.1, entry.2 ++ [candidate]) else entry := by
  unfold register Table.modify Table.ensure
  by_cases known : event ∈ table.keys <;> simp [Table.contains, known]

theorem entries_registerAll (listed : List (E × Transition S F)) :
    (registerAll .empty listed).entries =
      (listed.map Prod.fst).eraseDups.map fun event => (event, candidatesOf listed event) := by
  induction listed using List.reverseRec with
  | nil => rfl
  | append_singleton listed edge ih =>
    have keys : (registerAll .empty listed).keys = (listed.map Prod.fst).eraseDups := by
      rw [Table.keys, ih, List.map_map]
      exact List.map_id _
    have last : registerAll .empty (listed ++ [edge]) = (registerAll .empty listed).register edge.1 edge.2 :=
      List.foldl_append ..
    have step : ∀ event, (if event = edge.1 then (event, candidatesOf listed event ++ [edge.2])
        else (event, candidatesOf listed event)) = (event, candidatesOf (listed ++ [edge]) event) := by
      intro event
      rw [candidatesOf_snoc]
      by_cases here : event = edge.1
      · simp [here]
      · simp [here, Ne.symm here]
    rw [last, entries_register, keys, ih, List.map_append, List.map_singleton, eraseDups_snoc]
    by_cases known : edge.1 ∈ listed.map Prod.fst
    · rw [if_pos (List.mem_eraseDups.mpr known), if_pos known, List.map_map]
      exact List.map_congr_left fun event _ => step event
    · rw [if_neg (mt List.mem_eraseDups.mp known), if_neg known, List.map_append, List.map_append, List.map_map]
      congr 1
      · exact List.map_congr_left fun event _ => step event
      · have fresh : candidatesOf listed edge.1 = [] := candidatesOf_eq_nil_iff.mpr known
        simp [candidatesOf_snoc, fresh]

theorem keys_registerAll (listed : List (E × Transition S F)) :
    (registerAll .empty listed).keys = (listed.map Prod.fst).eraseDups := by
  rw [Table.keys, entries_registerAll, List.map_map]
  exact List.map_id _

theorem get?_registerAll (listed : List (E × Transition S F)) (event : E) :
    (registerAll .empty listed).get? event =
      if event ∈ listed.map Prod.fst then some (candidatesOf listed event) else none := by
  unfold Table.get?
  rw [entries_registerAll, List.find?_map]
  by_cases known : event ∈ listed.map Prod.fst
  · have found : (listed.map Prod.fst).eraseDups.find? (fun other => other = event) = some event := by
      cases search : (listed.map Prod.fst).eraseDups.find? fun other => other = event with
      | none =>
        have absent := List.find?_eq_none.mp search event (List.mem_eraseDups.mpr known)
        simp at absent
      | some other => rw [show other = event by simpa using List.find?_some search]
    rw [if_pos known]
    simp only [Function.comp_def, found, Option.map_some]
  · rw [if_neg known, Option.map_eq_none_iff, Option.map_eq_none_iff, List.find?_eq_none]
    intro other member same
    simp only [Function.comp_apply, decide_eq_true_eq] at same
    exact known (same ▸ List.mem_eraseDups.mp member)

theorem getD_registerAll (listed : List (E × Transition S F)) (event : E) :
    ((registerAll .empty listed).get? event).getD [] = candidatesOf listed event := by
  rw [get?_registerAll]
  split
  · rfl
  · rename_i absent
    exact (candidatesOf_eq_nil_iff.mpr absent).symm

theorem edges_registerAll (listed : List (E × Transition S F)) :
    edges (registerAll .empty listed) = grouped Prod.fst listed := by
  unfold edges grouped
  rw [entries_registerAll, List.flatMap_map]
  apply List.flatMap_congr
  intro event _
  unfold candidatesOf
  rw [List.map_map]
  refine (List.map_congr_left fun edge member => ?_).trans (List.map_id _)
  have here : edge.1 = event := by simpa using (List.mem_filter.mp member).2
  rw [← here]
  rfl

end TransitionTable

end Statechart
