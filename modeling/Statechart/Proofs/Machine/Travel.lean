import Statechart.Proofs.Machine.Run

namespace Statechart

variable {S E F X L W : Type} [DecidableEq S]

def Call.isOperation : Call S E F X L → Bool
  | .enterInitialState | .fire _ => true
  | _ => false

namespace Machine

variable {m m' m'' : Machine S E F X L} {records : List (Record S)} {contexts : List (Context S E)}

/-- What several operations do one after the other. Each leaves a context that names where it started. -/
inductive Travels (m : Machine S E F X L) : Machine S E F X L → List (Context S E) → Prop where
  | stay : Travels m m []
  | step {m' m'' : Machine S E F X L} {contexts : List (Context S E)} {context : Context S E}
      (before : Travels m m' contexts) (ready : m'.isInitialized) (moved : m'.Moves m'' context.records)
      (state : context.state? = m'.current?) : Travels m m'' (contexts ++ [context])

namespace Travels

theorem forest (travelled : m.Travels m' contexts) : m'.forest = m.forest := by
  induction travelled with
  | stay => rfl
  | step before ready moved state ih => exact moved.forest.trans ih

theorem wellFormed (travelled : m.Travels m' contexts) (wf : m.WellFormed) : m'.WellFormed := by
  induction travelled with
  | stay => exact wf
  | step before ready moved state ih => exact ih.moves ready moved

theorem leaf (travelled : m.Travels m' contexts) (leaf : ∀ s ∈ m.current?, m.forest.isComposite s = false) :
    ∀ s ∈ m'.current?, m'.forest.isComposite s = false := by
  induction travelled with
  | stay => exact leaf
  | step before ready moved state ih => exact moved.leaf ih

end Travels

end Machine

namespace Run

variable [DecidableEq E] [DecidableEq X] {r : Run S E F X L W} {b : Behaviour S E F X W}
  {op : Call S E F X L} {ops : List (Call S E F X L)} {script : List (Behaviour S E F X W × Call S E F X L)}
  {initial : S}

theorem callAll_append (b : Behaviour S E F X W) (r : Run S E F X L W) (first second : List (Call S E F X L)) :
    r.callAll b (first ++ second) = (r.callAll b first).callAll b second := List.foldl_append ..

theorem call_operation (wf : r.machine.WellFormed) (operation : op.isOperation) :
    r.call b op = r ∨ ∃ context, (r.call b op).contexts = r.contexts ++ [context] ∧ r.machine.isInitialized ∧
      (r.call b op).machine.current?.isSome ∧ r.machine.Moves (r.call b op).machine context.records ∧
      context.state? = r.machine.current? := by
  cases op with
  | enterInitialState =>
    cases entered : r.machine.enterInitialState b r.host with
    | error error =>
      left
      rw [call.eq_def]
      simp only [entered, after]
    | ok done =>
      right
      rw [call.eq_def]
      simp only [entered, after]
      exact ⟨done.context, rfl, Machine.enterInitialState_ok wf entered⟩
  | fire signal =>
    cases fired : r.machine.fire b signal r.host with
    | error error =>
      left
      rw [call.eq_def]
      simp only [fired, after]
    | ok done =>
      right
      rw [call.eq_def]
      simp only [fired, after]
      exact ⟨done.context, rfl, Machine.fire_ok wf fired⟩
  | _ => cases operation

theorem follow_travels (wf : r.machine.WellFormed) (operations : ∀ step ∈ script, step.2.isOperation) :
    ∃ contexts, (r.follow script).contexts = r.contexts ++ contexts ∧
      r.machine.Travels (r.follow script).machine contexts := by
  induction script using List.reverseRec with
  | nil => exact ⟨[], (List.append_nil _).symm, .stay⟩
  | append_singleton script step ih =>
    obtain ⟨contexts, log, travelled⟩ := ih fun step member => operations step (List.mem_append_left _ member)
    have operation := operations step (List.mem_append_right _ (List.mem_singleton_self step))
    rw [follow_append]
    change ∃ contexts, ((r.follow script).call step.1 step.2).contexts = _ ∧ _
    have last := call_operation (b := step.1) (travelled.wellFormed wf) operation
    rcases last with refused | ⟨context, more, ready, _, moved, state⟩
    · refine ⟨contexts, by rw [refused, log], ?_⟩
      rw [follow, List.foldl_cons, List.foldl_nil, refused]
      exact travelled
    · exact ⟨contexts ++ [context], by rw [more, log, List.append_assoc], .step travelled ready moved state⟩

theorem operations_travel (wf : r.machine.WellFormed) (operations : ∀ op ∈ ops, op.isOperation) :
    ∃ contexts, (r.callAll b ops).contexts = r.contexts ++ contexts ∧
      r.machine.Travels (r.callAll b ops).machine contexts := by
  rw [callAll_eq_follow]
  exact follow_travels wf (List.forall_mem_map.mpr operations)

def firings (signals : List (Behaviour S E F X W × Signal E)) : List (Behaviour S E F X W × Call S E F X L) :=
  signals.map fun asked => (asked.1, .fire asked.2)

omit [DecidableEq S] [DecidableEq E] [DecidableEq X] in
theorem firings_operate (signals : List (Behaviour S E F X W × Signal E)) :
    ∀ step ∈ (firings signals : List (Behaviour S E F X W × Call S E F X L)), step.2.isOperation :=
  List.forall_mem_map.mpr fun _ _ => rfl

theorem firings_accepted (wf : r.machine.WellFormed) (standing : r.machine.current?.isSome)
    (signals : List (Behaviour S E F X W × Signal E)) :
    (r.follow (firings signals)).machine.current?.isSome ∧
      (r.follow (firings signals)).contexts.length = r.contexts.length + signals.length := by
  induction signals generalizing r with
  | nil => exact ⟨standing, rfl⟩
  | cons asked rest ih =>
    obtain ⟨b, signal⟩ := asked
    obtain ⟨current, here⟩ := Option.isSome_iff_exists.mp standing
    obtain ⟨done, fired, moved, _⟩ := Machine.fire_moves wf here b signal r.host
    have called : r.call b (.fire signal) = ⟨done.machine, done.host, r.contexts ++ [done.context]⟩ := by
      rw [call.eq_def]
      simp only [fired, after]
    have next := ih (call_wellFormed b wf (.fire signal)) (by rw [called]; exact moved.stands standing)
    refine ⟨next.1, next.2.trans ?_⟩
    rw [called, List.length_append, List.length_cons, List.length_cons, List.length_nil]
    omega

theorem entry_accepted (wf : r.machine.WellFormed) (ready : r.machine.initial? = some initial)
    (unentered : r.machine.current? = none) (b : Behaviour S E F X W) :
    (r.call b .enterInitialState).machine.current?.isSome ∧
      (r.call b .enterInitialState).contexts.length = r.contexts.length + 1 := by
  obtain ⟨done, entered, _, ⟨reached, stands⟩, _⟩ := Machine.enter_moves wf ready unentered b r.host
  rw [call.eq_def]
  simp only [entered, after]
  exact ⟨by rw [stands]; rfl, List.length_append⟩

end Run

end Statechart
