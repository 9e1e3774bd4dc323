import Statechart.Proofs.Forest.Grouping
import Statechart.Proofs.Machine.Checkpoint
import Statechart.Proofs.Machine.Hierarchy

namespace Statechart

variable {S E F X L W : Type} [DecidableEq S]

namespace Forest

variable {f g : Forest S E F} {parent initial : S} {history : HistoryType} {subs : List S}

theorem prefix_keys_mention (f : Forest S E F) (s : S) : f.keys <+: (f.mention s).keys := by
  rw [mention, Table.keys_ensure]
  split
  · exact List.prefix_rfl
  · exact List.prefix_append _ _

theorem prefix_keys_mentionAll (states : List S) (f : Forest S E F) : f.keys <+: (states.foldl mention f).keys := by
  induction states generalizing f with
  | nil => exact List.prefix_rfl
  | cons s rest ih => exact (prefix_keys_mention f s).trans (ih (f.mention s))

theorem prefix_keys_addTransition [DecidableEq E] (f : Forest S E F) (source : S) (event : E) (draft : Draft S F) :
    f.keys <+: (f.addTransition source event draft).2.keys := by
  have mentioned := (prefix_keys_mention f source).trans (prefix_keys_mentionAll draft.target?.toList _)
  rw [addTransition_eq]
  cases (f.node source).transitions.add? event ⟨source, draft.target?, draft.guard?, draft.actions⟩ with
  | none => exact mentioned
  | some table =>
    dsimp only [Option.elim]
    rw [Table.keys_modify]
    exact mentioned

theorem prefix_keys_define? (h : f.Ranked f.level) (defined : f.define? parent initial history subs = .ok g) :
    f.keys <+: g.keys := by
  rw [define?_keys h defined, enlist_eq]
  exact List.prefix_append _ _

theorem subs_define? (h : f.Ranked f.level) (defined : f.define? parent initial history subs = .ok g) (a : S) :
    g.subs a = f.subs a ++ if a = parent then subs.eraseDups else [] := by
  have simple := ((hierarchyErrors_eq_nil_iff h).mp (hierarchyErrors_of_define? defined)).2.1
  have bare : f.subs parent = [] := by simpa [isComposite] using simple
  rw [define?_subs h defined, bare, enlist_eq]
  by_cases here : a = parent
  · subst here
    simp [bare]
  · simp [here]

section Transitions

variable [DecidableEq E] {source : S} {event : E} {draft : Draft S F}

theorem transitions_accepted (accepted : (f.addTransition source event draft).1 = .ok ()) (a : S) :
    ((f.addTransition source event draft).2.node a).transitions =
      if a = source then (f.node a).transitions.register event ⟨source, draft.target?, draft.guard?, draft.actions⟩
      else (f.node a).transitions := by
  have known : source ∈ (draft.target?.toList.foldl mention (f.mention source)).keys :=
    (mem_keys_mentionAll _ _ _).mpr (.inl (mem_keys_mention.mpr (.inr rfl)))
  rw [addTransition_eq] at accepted ⊢
  cases added : (f.node source).transitions.add? event ⟨source, draft.target?, draft.guard?, draft.actions⟩ with
  | none =>
    rw [added] at accepted
    cases accepted
  | some table =>
    obtain ⟨_, rfl⟩ := TransitionTable.add?_eq_some_iff.mp added
    dsimp only [Option.elim]
    rw [node_modify known, node_mentionAll, node_mention]
    by_cases here : a = source
    · rw [if_pos here, if_pos here, here]
    · rw [if_neg here, if_neg here, node_mentionAll, node_mention]

theorem transitions_refused (refused : (f.addTransition source event draft).1 ≠ .ok ()) (a : S) :
    ((f.addTransition source event draft).2.node a).transitions = (f.node a).transitions := by
  rw [addTransition_refused refused, node_mentionAll]

end Transitions

end Forest

namespace Run

variable [DecidableEq E] [DecidableEq X] {r : Run S E F X L W} {b : Behaviour S E F X W} {call : Call S E F X L}
  {calls : List (Call S E F X L)}

def amended (b : Behaviour S E F X W) (r : Run S E F X L W) : Call S E F X L → Forest S E F
  | .define parent initial history subs =>
    match r.machine.forest.define? parent initial history subs with
    | .ok g => g
    | .error _ => r.machine.forest
  | .addTransition source event draft => (r.machine.forest.addTransition source event draft).2
  | .addEntryAction s action => r.machine.forest.addEntryAction s action
  | .addExitAction s action => r.machine.forest.addExitAction s action
  | .initializeAt s =>
    if r.machine.isInitialized then r.machine.forest else r.machine.forest.mention (r.machine.initialFor b s)
  | .configure _ | .enterInitialState | .fire _ | .load _ => r.machine.forest

theorem call_forest (b : Behaviour S E F X W) (r : Run S E F X L W) (call : Call S E F X L) :
    (r.call b call).machine.forest = r.amended b call := by
  cases call with
  | define parent initial history subs =>
    rw [Run.call.eq_def]
    simp only [Machine.define, amended]
    cases r.machine.forest.define? parent initial history subs <;> rfl
  | addTransition source event draft => rfl
  | addEntryAction s action => rfl
  | addExitAction s action => rfl
  | configure change => cases change <;> rfl
  | initializeAt s =>
    rw [call_initializeAt_eq]
    simp only [amended]
    unfold Machine.initializeAt
    split
    · rfl
    · unfold Machine.initialFor
      rw [Host.consult_eq]
      rfl
  | enterInitialState =>
    rw [Run.call.eq_def]
    unfold after
    simp only
    split
    · rename_i entered
      obtain ⟨⟨_, _, same⟩, _⟩ := Machine.enterInitialState_resembles entered
      rw [same]
      rfl
    · rfl
  | fire signal =>
    rw [Run.call.eq_def]
    unfold after
    simp only
    split
    · rename_i fired
      obtain ⟨_, _, ⟨_, _, same⟩, _⟩ := Machine.fire_resembles fired
      rw [same]
      rfl
    · rfl
  | load checkpoint =>
    rw [call_load_eq]
    unfold adopt
    split
    · rename_i loaded
      obtain ⟨_, ⟨rfl, _⟩ | ⟨_, _, rfl, _⟩⟩ := Machine.load_ok loaded <;> rfl
    · rfl

theorem call_prefix_keys (wf : r.machine.WellFormed) (b : Behaviour S E F X W) (call : Call S E F X L) :
    r.machine.forest.keys <+: (r.call b call).machine.forest.keys := by
  rw [call_forest]
  cases call with
  | define parent initial history subs =>
    simp only [amended]
    split
    · rename_i defined
      exact Forest.prefix_keys_define? wf.tree.toRanked defined
    · exact List.prefix_rfl
  | addTransition source event draft => exact Forest.prefix_keys_addTransition _ source event draft
  | addEntryAction s action =>
    show _ <+: Table.keys (Table.modify (r.machine.forest.mention s) s _)
    rw [Table.keys_modify]
    exact Forest.prefix_keys_mention _ s
  | addExitAction s action =>
    show _ <+: Table.keys (Table.modify (r.machine.forest.mention s) s _)
    rw [Table.keys_modify]
    exact Forest.prefix_keys_mention _ s
  | initializeAt s =>
    simp only [amended]
    split
    · exact List.prefix_rfl
    · exact Forest.prefix_keys_mention _ _
  | configure change => exact List.prefix_rfl
  | enterInitialState => exact List.prefix_rfl
  | fire signal => exact List.prefix_rfl
  | load checkpoint => exact List.prefix_rfl

theorem callAll_prefix_keys (wf : r.machine.WellFormed) (b : Behaviour S E F X W) (calls : List (Call S E F X L)) :
    r.machine.forest.keys <+: (r.callAll b calls).machine.forest.keys := by
  unfold callAll
  induction calls generalizing r with
  | nil => exact List.prefix_rfl
  | cons call rest ih => exact (call_prefix_keys wf b call).trans (ih (call_wellFormed b wf call))

def yields {α : Type} (yield? : Run S E F X L W → Call S E F X L → Option α) (b : Behaviour S E F X W) :
    Run S E F X L W → List (Call S E F X L) → List α
  | _, [] => []
  | r, call :: rest => (yield? r call).toList ++ yields yield? b (r.call b call) rest

def built? (r : Run S E F X L W) : Call S E F X L → Option (Outline S)
  | .define parent initial history subs =>
    match r.machine.define parent initial history subs with
    | .ok _ => some ⟨parent, initial, history, subs⟩
    | .error _ => none
  | _ => none

def registered? (r : Run S E F X L W) : Call S E F X L → Option (E × Transition S F)
  | .addTransition source event draft =>
    match (r.machine.addTransition source event draft).1 with
    | .ok () => some (event, ⟨source, draft.target?, draft.guard?, draft.actions⟩)
    | .error _ => none
  | _ => none

def outlines (b : Behaviour S E F X W) (r : Run S E F X L W) (calls : List (Call S E F X L)) : List (Outline S) :=
  yields built? b r calls

def registrations (b : Behaviour S E F X W) (r : Run S E F X L W) (calls : List (Call S E F X L)) :
    List (E × Transition S F) := yields registered? b r calls

theorem call_subs (b : Behaviour S E F X W) (wf : r.machine.WellFormed) (call : Call S E F X L) (s : S) :
    (r.call b call).machine.forest.subs s = r.machine.forest.subs s ++
      (group Outline.parent (r.built? call).toList s).flatMap fun d => d.subs.eraseDups := by
  rw [call_forest]
  cases call with
  | define parent initial history subs =>
    simp only [amended, built?, Machine.define]
    cases defined : r.machine.forest.define? parent initial history subs with
    | ok g =>
      dsimp only [Except.map]
      rw [Forest.subs_define? wf.tree.toRanked defined]
      by_cases here : s = parent
      · simp [group, here]
      · simp [group, here, Ne.symm here]
    | error errors => exact (List.append_nil _).symm
  | addTransition source event draft =>
    have same := congrArg Node.subs (r.machine.forest.position_addTransition source event draft s)
    exact same.trans (List.append_nil _).symm
  | addEntryAction a action =>
    have same := Forest.view_addEntryAction Node.subs (fun _ _ => rfl) r.machine.forest a action s
    exact same.trans (List.append_nil _).symm
  | addExitAction a action =>
    have same := Forest.view_addExitAction Node.subs (fun _ _ => rfl) r.machine.forest a action s
    exact same.trans (List.append_nil _).symm
  | initializeAt a =>
    simp only [amended]
    split
    · exact (List.append_nil _).symm
    · rw [Forest.subs_mention]
      exact (List.append_nil _).symm
  | configure change => exact (List.append_nil _).symm
  | enterInitialState => exact (List.append_nil _).symm
  | fire signal => exact (List.append_nil _).symm
  | load checkpoint => exact (List.append_nil _).symm

/-- The states below a state are those that were listed for it when it was made composite. -/
theorem callAll_subs (b : Behaviour S E F X W) (wf : r.machine.WellFormed) (calls : List (Call S E F X L)) (s : S) :
    (r.callAll b calls).machine.forest.subs s = r.machine.forest.subs s ++
      (group Outline.parent (outlines b r calls) s).flatMap fun d => d.subs.eraseDups := by
  unfold callAll outlines
  induction calls generalizing r with
  | nil => exact (List.append_nil _).symm
  | cons call rest ih =>
    rw [List.foldl_cons, ih (call_wellFormed b wf call), call_subs b wf, yields, group, group, group, List.filter_append,
      List.flatMap_append, List.append_assoc]

theorem call_transitions (b : Behaviour S E F X W) (wf : r.machine.WellFormed) (call : Call S E F X L) (s : S) :
    ((r.call b call).machine.forest.node s).transitions = TransitionTable.registerAll
      (r.machine.forest.node s).transitions (group (fun edge => edge.2.source) (r.registered? call).toList s) := by
  rw [call_forest]
  cases call with
  | define parent initial history subs =>
    simp only [amended]
    split
    · rename_i defined
      exact (Forest.define?_ok wf.tree.toRanked defined).transitions s
    · rfl
  | addTransition source event draft =>
    simp only [amended, registered?, Machine.addTransition]
    cases answer : (r.machine.forest.addTransition source event draft).1 with
    | error _ =>
      rw [Forest.transitions_refused (answer ▸ nofun)]
      rfl
    | ok _ =>
      rw [Forest.transitions_accepted answer]
      by_cases here : s = source <;> simp [group, TransitionTable.registerAll, here, eq_comm]
  | addEntryAction a action => exact Forest.view_addEntryAction Node.transitions (fun _ _ => rfl) _ a action s
  | addExitAction a action => exact Forest.view_addExitAction Node.transitions (fun _ _ => rfl) _ a action s
  | initializeAt a =>
    simp only [amended]
    split
    · rfl
    · rw [Forest.node_mention]
      rfl
  | configure change => rfl
  | enterInitialState => rfl
  | fire signal => rfl
  | load checkpoint => rfl

/-- The table of a state has grown by the transitions that were registered for it. -/
theorem callAll_transitions (b : Behaviour S E F X W) (wf : r.machine.WellFormed) (calls : List (Call S E F X L))
    (s : S) : ((r.callAll b calls).machine.forest.node s).transitions = TransitionTable.registerAll
      (r.machine.forest.node s).transitions (group (fun edge => edge.2.source) (registrations b r calls) s) := by
  unfold callAll registrations
  induction calls generalizing r with
  | nil => rfl
  | cons call rest ih =>
    rw [List.foldl_cons, ih (call_wellFormed b wf call), call_transitions b wf, yields, group, group, group,
      List.filter_append]
    exact (List.foldl_append ..).symm

end Run

end Statechart
