import Statechart.Proofs.Forest.Definition

namespace Statechart

namespace TransitionTable

variable {S E F : Type} [DecidableEq E] {table grown : TransitionTable S E F} {event : E} {candidate : Transition S F}

theorem get?_register (table : TransitionTable S E F) (event : E) (candidate : Transition S F) (e : E) :
    (table.register event candidate).get? e =
      if e = event then some ((table.get? event).getD [] ++ [candidate]) else table.get? e := by
  rw [register, Table.get?_modify, Table.get?_ensure]
  by_cases here : e = event
  · subst here
    cases found : table.get? e with
    | none => simp [Table.get?_eq_none_iff.mp found]
    | some old =>
      have known : e ∈ table.keys := Table.get?_isSome_iff.mp (by rw [found]; rfl)
      simp [known]
  · simp [here]

theorem add?_eq_some_iff : table.add? event candidate = some grown ↔
    table.isShadowed event = false ∧ grown = table.register event candidate := by
  unfold add?
  cases table.isShadowed event <;> simp [eq_comm]

theorem add?_eq_none_iff : table.add? event candidate = none ↔ table.isShadowed event := by
  unfold add?
  cases table.isShadowed event <;> simp

def Filled (table : TransitionTable S E F) : Prop := ∀ event, table.get? event ≠ some []

theorem filled_empty : Filled (.empty : TransitionTable S E F) := by
  intro event found
  cases found

theorem Filled.add? (filled : Filled table) (added : table.add? event candidate = some grown) : Filled grown := by
  intro e found
  rw [(add?_eq_some_iff.mp added).2, get?_register] at found
  split at found
  · simp at found
  · exact filled e found

/-- Nothing stands behind a candidate that has no guard. -/
def Unshadowed (table : TransitionTable S E F) : Prop :=
  ∀ event candidates, table.get? event = some candidates → ∀ candidate ∈ candidates.dropLast, candidate.guard?.isSome

theorem unshadowed_empty : Unshadowed (.empty : TransitionTable S E F) := by
  intro event candidates found
  cases found

theorem Unshadowed.add? (unshadowed : Unshadowed table) (added : table.add? event candidate = some grown) :
    Unshadowed grown := by
  obtain ⟨free, rfl⟩ := add?_eq_some_iff.mp added
  intro e candidates found other member
  rw [get?_register] at found
  split at found
  · cases found
    rw [List.dropLast_concat] at member
    unfold isShadowed at free
    simpa [Option.isSome_iff_ne_none] using List.any_eq_false.mp free other member
  · exact unshadowed e candidates found other member

end TransitionTable

namespace Forest

variable {S E F : Type} [DecidableEq S] {f : Forest S E F} {s source : S} {event : E} {draft : Draft S F}

theorem node_mentionAll (states : List S) (f : Forest S E F) (a : S) : (states.foldl mention f).node a = f.node a := by
  induction states generalizing f with
  | nil => rfl
  | cons s rest ih => rw [List.foldl_cons, ih, node_mention]

theorem mention_known (known : s ∈ f.keys) : f.mention s = f := if_pos (Table.contains_iff.mpr known)

theorem node_modify_mentioned (f : Forest S E F) (s : S) (change : Node S E F → Node S E F) (a : S) :
    node (Table.modify (f.mention s) s change) a = if a = s then change (f.node s) else f.node a := by
  rw [node_modify (mem_keys_mention.mpr (.inr rfl)), node_mention, node_mention]

theorem view_modify {α : Type} {view : Node S E F → α} {change : Node S E F → Node S E F}
    (kept : ∀ node, view (change node) = view node) (f : Forest S E F) (s a : S) :
    view (node (Table.modify (f.mention s) s change) a) = view (f.node a) := by
  rw [node_modify_mentioned]
  split
  · rename_i same
    rw [same, kept]
  · rfl

theorem view_addEntryAction {α : Type} (view : Node S E F → α)
    (kept : ∀ node entry, view { node with entry := entry } = view node) (f : Forest S E F) (s : S)
    (action : Callable F) (a : S) : view ((f.addEntryAction s action).node a) = view (f.node a) :=
  view_modify (fun node => kept node _) f s a

theorem view_addExitAction {α : Type} (view : Node S E F → α)
    (kept : ∀ node exit, view { node with exit := exit } = view node) (f : Forest S E F) (s : S)
    (action : Callable F) (a : S) : view ((f.addExitAction s action).node a) = view (f.node a) :=
  view_modify (fun node => kept node _) f s a

variable [DecidableEq E]

/-- The candidates of an event in a state, in order of registration. -/
def registered (f : Forest S E F) (s : S) (event : E) : List (Transition S F) :=
  ((f.node s).transitions.get? event).getD []

theorem addTransition_eq (f : Forest S E F) (source : S) (event : E) (draft : Draft S F) :
    let mentioned := draft.target?.toList.foldl mention (f.mention source)
    f.addTransition source event draft =
      ((f.node source).transitions.add? event ⟨source, draft.target?, draft.guard?, draft.actions⟩).elim
        (.error (.duplicateTransition source event), mentioned)
        fun table => (.ok (), mentioned.modify source fun node => { node with transitions := table }) := by
  intro mentioned
  have same : node mentioned source = f.node source := by rw [node_mentionAll, node_mention]
  rw [← same]
  unfold addTransition
  dsimp only
  cases (node mentioned source).transitions.add? event ⟨source, draft.target?, draft.guard?, draft.actions⟩ <;> rfl

theorem position_addTransition (f : Forest S E F) (source : S) (event : E) (draft : Draft S F) (a : S) :
    ((f.addTransition source event draft).2.node a).position = (f.node a).position := by
  have mentioned : ∀ b, node (draft.target?.toList.foldl mention (f.mention source)) b = f.node b := fun b => by
    rw [node_mentionAll, node_mention]
  have known : source ∈ (draft.target?.toList.foldl mention (f.mention source)).keys :=
    (mem_keys_mentionAll _ _ _).mpr (.inl (mem_keys_mention.mpr (.inr rfl)))
  rw [addTransition_eq]
  cases (f.node source).transitions.add? event ⟨source, draft.target?, draft.guard?, draft.actions⟩ with
  | none =>
    dsimp only [Option.elim]
    rw [mentioned]
  | some table =>
    dsimp only [Option.elim]
    rw [node_modify known, mentioned, mentioned]
    split
    · rename_i same
      rw [same]
      rfl
    · rfl

theorem addTransition_refused_iff : (f.addTransition source event draft).1 ≠ .ok () ↔
    ∃ candidate ∈ f.registered source event, candidate.guard? = none := by
  have shadowed : (f.node source).transitions.isShadowed event ↔
      ∃ candidate ∈ f.registered source event, candidate.guard? = none := by
    simp [TransitionTable.isShadowed, registered]
  rw [← shadowed, ← TransitionTable.add?_eq_none_iff, addTransition_eq]
  cases (f.node source).transitions.add? event ⟨source, draft.target?, draft.guard?, draft.actions⟩ <;> simp

theorem addTransition_answer (f : Forest S E F) (source : S) (event : E) (draft : Draft S F) :
    (f.addTransition source event draft).1 = if (f.node source).transitions.isShadowed event then
      .error (.duplicateTransition source event) else .ok () := by
  rw [addTransition_eq]
  unfold TransitionTable.add?
  split <;> rfl

/-- What a transition that is refused leaves behind. Its source is known, since it has a candidate already. -/
theorem addTransition_refused (refused : (f.addTransition source event draft).1 ≠ .ok ()) :
    f.addTransition source event draft =
      (.error (.duplicateTransition source event), draft.target?.toList.foldl mention f) := by
  obtain ⟨candidate, member, unguarded⟩ := addTransition_refused_iff.mp refused
  have known : source ∈ f.keys := by
    by_contra absent
    rw [registered, node_of_not_mem absent] at member
    cases member
  rw [addTransition_eq] at refused ⊢
  rw [mention_known known] at refused ⊢
  cases added : (f.node source).transitions.add? event ⟨source, draft.target?, draft.guard?, draft.actions⟩ with
  | none => rfl
  | some table =>
    rw [added] at refused
    exact absurd rfl refused

theorem transitions_addTransition (f : Forest S E F) (source : S) (event : E) (draft : Draft S F) (a : S) :
    ((f.addTransition source event draft).2.node a).transitions = (f.node a).transitions ∨
      (f.node a).transitions.add? event ⟨source, draft.target?, draft.guard?, draft.actions⟩ =
        some ((f.addTransition source event draft).2.node a).transitions := by
  have known : source ∈ (draft.target?.toList.foldl mention (f.mention source)).keys :=
    (mem_keys_mentionAll _ _ _).mpr (.inl (mem_keys_mention.mpr (.inr rfl)))
  rw [addTransition_eq]
  cases added : (f.node source).transitions.add? event ⟨source, draft.target?, draft.guard?, draft.actions⟩ with
  | none =>
    left
    dsimp only [Option.elim]
    rw [node_mentionAll, node_mention]
  | some table =>
    dsimp only [Option.elim]
    rw [node_modify known]
    by_cases here : a = source
    · right
      rw [if_pos here, here, added]
    · left
      rw [if_neg here, node_mentionAll, node_mention]

end Forest

end Statechart
