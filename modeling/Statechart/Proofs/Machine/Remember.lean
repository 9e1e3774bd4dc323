import Statechart.Proofs.Forest.Recall
import Statechart.Proofs.Machine.Travel

namespace Statechart

variable {S E F X L W : Type} [DecidableEq S]

namespace Forest

variable {f : Forest S E F} {memory : Memory S} {p t c : S} {active : List S} {contexts : List (Context S E)}

/-- Where a composite state that is entered leads, given all that was done up to then. Without a history it is
    the leaf below its initial sub-state. A shallow history leads to the leaf below the sub-state that was left
    last, a deep one to the leaf where the operation started that left it last. -/
def Settles (f : Forest S E F) (contexts : List (Context S E)) (t leaf : S) : Prop :=
  match (f.node t).history with
  | .none => Ends f.initial? t leaf
  | .shallow => ∃ c, (f.lastExited? t (contexts.flatMap Context.records)).or (f.initial? t) = some c ∧
      Ends f.initial? c leaf
  | .deep =>
    match lastLeft? contexts t with
    | some context => context.state? = some leaf
    | none => Ends f.initial? t leaf

theorem lastExited?_moved (f : Forest S E F) (p : S) (exits entries : List S) :
    f.lastExited? p (exits.map (Record.mk .exit) ++ entries.map (Record.mk .enter)) =
      f.lastExited? p (exits.map (Record.mk .exit)) := by
  rw [lastExited?_append, lastExited?_enters]
  rfl

theorem Recalls.settles (recalls : f.Recalls memory active contexts) (h : f.WellFormed) (fits : f.MemoryFits memory)
    (last : ∀ p, memory.get? p = f.lastExited? p (contexts.flatMap Context.records)) (inactive : t ∉ active)
    (composite : f.isComposite t) : f.Settles contexts t ((f.descent memory t).getLastD t) := by
  obtain ⟨c, initial⟩ := h.initial_of_composite composite
  have descended := (h.descent_path fits t).1
  have resumed : f.resume? memory t = some ((memory.get? t).getD c) := by
    rw [resume?, initial, Option.or_some]
  unfold descent? at descended
  rw [initial] at descended
  unfold Settles
  cases history : (f.node t).history with
  | none =>
    simp only [history] at descended
    exact .link initial (walk?_ends descended t)
  | shallow =>
    simp only [history] at descended
    refine ⟨(memory.get? t).getD c, ?_, walk?_ends descended t⟩
    rw [← last t]
    exact resumed
  | deep =>
    simp only [history] at descended
    have ends : Ends (f.resume? memory) t _ := .link resumed (walk?_ends descended t)
    have before := recalls t inactive
    cases found : lastLeft? contexts t with
    | some context =>
      rw [found] at before
      obtain ⟨leaf, stood, there⟩ := before
      exact stood.trans (congrArg some (there.unique ends))
    | none =>
      rw [found] at before
      refine ends.congr (h.resume_below fits t) ?_ (h.mem_lineage_self t)
      intro a below
      rw [resume?, before a below]
      rfl

end Forest

namespace Machine

variable {m m' : Machine S E F X L} {contexts : List (Context S E)} {context : Context S E}

structure Remembers (m : Machine S E F X L) (contexts : List (Context S E)) : Prop where
  last : ∀ p, m.memory.get? p = m.forest.lastExited? p (contexts.flatMap Context.records)
  recalls : m.forest.Recalls m.memory (m.forest.configuration m.current?) contexts

theorem Moves.remembers (moved : m.Moves m' context.records) (wf : m.WellFormed)
    (leaf : ∀ s ∈ m.current?, m.forest.isComposite s = false) (state : context.state? = m.current?)
    (remembers : m.Remembers contexts) : m'.Remembers (contexts ++ [context]) := by
  generalize recorded : context.records = records at moved
  cases moved with
  | rest =>
    refine ⟨fun p => ?_, remembers.recalls.quiet (by simp [recorded])⟩
    rw [List.flatMap_append, List.flatMap_singleton, recorded, List.append_nil]
    exact remembers.last p
  | go pivot? reached passage =>
    refine ⟨fun p => ?_, ?_⟩
    · rw [List.flatMap_append, List.flatMap_singleton, recorded, Forest.lastExited?_append,
        Forest.lastExited?_moved, ← remembers.last p]
      exact Forest.get?_rememberAll m.forest m.memory _ p
    · have stays : ∀ a ∈ m.forest.configuration pivot?, a ∈ m.forest.lineage reached := by
        intro a active
        cases pivot? with
        | none => cases active
        | some p => exact wf.tree.mem_lineage_trans active (passage.above_to p rfl)
      have recalls := remembers.recalls
      have above := passage.above_from
      cases standing : m.current? with
      | some current =>
        rw [standing] at recalls above state
        have exits : ∀ s, ⟨.exit, s⟩ ∈ context.records ↔ s ∈ m.forest.branch pivot? current := by
          intro s
          rw [recorded, standing]
          simp [Forest.departures]
        exact (recalls.leave wf.tree wf.memory (leaf current standing) above state exits).mono stays
      | none =>
        rw [standing] at recalls
        have exits : ∀ s, ⟨.exit, s⟩ ∉ context.records := by
          intro s
          rw [recorded, standing]
          simp [Forest.departures]
        exact (recalls.quiet exits).mono (by simp)

theorem remembers_start (untouched : m.memory = .empty) : m.Remembers [] := by
  refine ⟨fun p => ?_, fun t _ => ?_⟩
  · rw [untouched]
    rfl
  · intro a _
    rw [untouched]
    rfl

theorem Travels.remembers (travelled : m.Travels m' contexts) (wf : m.WellFormed)
    (leaf : ∀ s ∈ m.current?, m.forest.isComposite s = false) (remembers : m.Remembers []) :
    m'.Remembers contexts := by
  induction travelled with
  | stay => exact remembers
  | step before ready moved state ih =>
    exact moved.remembers (before.wellFormed wf) (before.leaf leaf) state ih

theorem Moves.memory_kept {records : List (Record S)} {p : S} (moved : m.Moves m' records)
    (quiet : ∀ c, m.forest.super? c = some p → ⟨.exit, c⟩ ∉ records) : m'.memory.get? p = m.memory.get? p := by
  cases moved with
  | rest => rfl
  | go pivot? reached passage =>
    refine Forest.get?_rememberAll_of_quiet fun c link left => quiet c link ?_
    exact List.mem_append_left _ (List.mem_map.mpr ⟨c, left, rfl⟩)

variable [DecidableEq E] {b : Behaviour S E F X W} {current target : S} {signal : Signal E}
  {host : Host S E F X L W} {transition : Transition S F}

theorem fire_settles (wf : m.WellFormed) (leaf : ∀ s ∈ m.current?, m.forest.isComposite s = false)
    (remembers : m.Remembers contexts) (standing : m.current? = some current)
    (chosen : (m.choose b current signal host).1 = some transition) (external : transition.target? = some target)
    (composite : m.forest.isComposite target) :
    ∃ done reached, m.fire b signal host = .ok done ∧ done.machine.current? = some reached ∧
      done.context.state? = some current ∧ m.forest.Settles (contexts ++ [done.context]) target reached := by
  obtain ⟨done, fired, machine, records, state⟩ := fire_to_target wf standing chosen external
  have recalls := remembers.recalls
  rw [standing, Forest.configuration_some] at recalls
  have above : ∀ p ∈ m.forest.pivot? transition.source target, p ∈ m.forest.lineage current := fun p found =>
    wf.tree.mem_lineage_trans (wf.tree.pivot?_mem found).1 (chosen_source wf.tree chosen)
  have exits : ∀ s, ⟨.exit, s⟩ ∈ done.context.records ↔
      s ∈ m.forest.branch (m.forest.pivot? transition.source target) current := by
    intro s
    rw [records]
    simp [exitsTo]
  -- what is remembered when the target is entered includes what these very exits have written
  have after := recalls.leave wf.tree wf.memory (leaf current standing) above state exits
  have inactive : target ∉ m.forest.configuration (m.forest.pivot? transition.source target) := by
    intro active
    have common := (wf.tree.mem_configuration_pivot? transition.source target target).mp active
    exact common.2.2 common.1 rfl
  have last : ∀ p, ((m.exitsTo current transition.source target).foldl m.forest.remember m.memory).get? p =
      m.forest.lastExited? p ((contexts ++ [done.context]).flatMap Context.records) := by
    intro p
    rw [List.flatMap_append, List.flatMap_singleton, records, Forest.lastExited?_append, Forest.lastExited?_moved,
      ← remembers.last p]
    exact Forest.get?_rememberAll m.forest m.memory _ p
  refine ⟨done, _, fired, by rw [machine], state, ?_⟩
  exact after.settles wf.tree (wf.memory.rememberAll _) last inactive composite

end Machine

namespace Run

variable [DecidableEq E] [DecidableEq X] {r : Run S E F X L W} {b : Behaviour S E F X W}
  {op : Call S E F X L} {setup : List (Call S E F X L)}

theorem call_still (b : Behaviour S E F X W) (r : Run S E F X L W) (call : Call S E F X L)
    (still : call.isOperation = false) (unloaded : ∀ checkpoint, call ≠ .load checkpoint) :
    (r.call b call).machine.memory = r.machine.memory ∧
      (r.call b call).machine.current? = r.machine.current? ∧ (r.call b call).contexts = r.contexts := by
  cases call with
  | define superState initial history subs =>
    rw [Run.call.eq_def]
    simp only [Machine.define]
    cases r.machine.forest.define? superState initial history subs <;> exact ⟨rfl, rfl, rfl⟩
  | addTransition source event draft => exact ⟨rfl, rfl, rfl⟩
  | addEntryAction s action => exact ⟨rfl, rfl, rfl⟩
  | addExitAction s action => exact ⟨rfl, rfl, rfl⟩
  | configure change => cases change <;> exact ⟨rfl, rfl, rfl⟩
  | initializeAt s =>
    rw [Run.call.eq_def]
    simp only [Machine.initializeAt]
    split
    · rename_i initialized
      split at initialized
      · cases initialized
      · cases initialized
        exact ⟨rfl, rfl, rfl⟩
    · exact ⟨rfl, rfl, rfl⟩
  | enterInitialState => cases still
  | fire signal => cases still
  | load checkpoint => exact absurd rfl (unloaded checkpoint)

theorem callAll_untouched (config : Config) (host : Host S E F X L W) (b : Behaviour S E F X W)
    (unloaded : ∀ checkpoint, .load checkpoint ∉ setup)
    (unentered : ((start config host).callAll b setup).machine.current? = none) :
    ((start config host).callAll b setup).machine.memory = .empty ∧
      ((start config host).callAll b setup).contexts = [] := by
  induction setup using List.reverseRec with
  | nil => exact ⟨rfl, rfl⟩
  | append_singleton setup call ih =>
    have before := ih fun checkpoint member => unloaded checkpoint (List.mem_append_left _ member)
    have wf := callAll_wellFormed b (r := start config host) (Machine.wellFormed_ofConfig config) setup
    rw [callAll_append] at unentered ⊢
    generalize (start config host).callAll b setup = r at before wf unentered
    change (r.call b call).machine.current? = none at unentered
    change (r.call b call).machine.memory = .empty ∧ (r.call b call).contexts = []
    cases operation : call.isOperation with
    | true =>
      rcases call_operation (b := b) wf operation with refused | ⟨context, _, _, stands, _⟩
      · rw [refused] at unentered ⊢
        exact before unentered
      · rw [unentered] at stands
        cases stands
    | false =>
      have new : ∀ checkpoint, call ≠ .load checkpoint := by
        rintro checkpoint rfl
        exact unloaded checkpoint (List.mem_append_right _ (List.mem_singleton_self _))
      obtain ⟨memory, current, contexts⟩ := call_still b r call operation new
      rw [memory, contexts]
      rw [current] at unentered
      exact before unentered

theorem call_memory_kept (wf : r.machine.WellFormed) (operation : op.isOperation) :
    r.call b op = r ∨ ∃ context, (r.call b op).contexts = r.contexts ++ [context] ∧
      context.state? = r.machine.current? ∧
      ∀ p, (∀ c, r.machine.forest.super? c = some p → ⟨.exit, c⟩ ∉ context.records) →
        (r.call b op).machine.memory.get? p = r.machine.memory.get? p := by
  rcases call_operation (b := b) wf operation with refused | ⟨context, log, _, _, moved, state⟩
  · exact .inl refused
  · exact .inr ⟨context, log, state, fun p quiet => moved.memory_kept quiet⟩

/-- Once a machine is set up, initial entries and firings in any order keep its memory true to what was left:
    every state remembers the sub-state that was left last, a transition to a composite state settles as history
    has it, and an operation changes what a state remembers only by leaving a sub-state of it. The context of an
    operation names the state in which the operation started. -/
theorem operations_remember (config : Config) (host : Host S E F X L W) (b : Behaviour S E F X W)
    (setup ops : List (Call S E F X L)) (unloaded : ∀ checkpoint, .load checkpoint ∉ setup)
    (unentered : ((start config host).callAll b setup).machine.current? = none)
    (operations : ∀ op ∈ ops, op.isOperation) :
    let r := ((start config host).callAll b setup).callAll b ops
    (∀ p, r.machine.memory.get? p = r.machine.forest.lastExited? p r.records) ∧
    (∀ current signal transition target, r.machine.current? = some current →
      (r.machine.choose b current signal r.host).1 = some transition → transition.target? = some target →
      r.machine.forest.isComposite target →
      ∃ done leaf, r.machine.fire b signal r.host = .ok done ∧ done.machine.current? = some leaf ∧
        done.context.state? = some current ∧
        r.machine.forest.Settles (r.contexts ++ [done.context]) target leaf) ∧
    ∀ op : Call S E F X L, op.isOperation → r.call b op = r ∨ ∃ context,
      (r.call b op).contexts = r.contexts ++ [context] ∧ context.state? = r.machine.current? ∧
      ∀ p, (∀ c, r.machine.forest.super? c = some p → ⟨.exit, c⟩ ∉ context.records) →
        (r.call b op).machine.memory.get? p = r.machine.memory.get? p := by
  have wf := callAll_wellFormed b (r := start config host) (Machine.wellFormed_ofConfig config) setup
  obtain ⟨untouched, blank⟩ := callAll_untouched config host b unloaded unentered
  generalize (start config host).callAll b setup = r at wf untouched blank unentered
  obtain ⟨contexts, log, travelled⟩ := operations_travel (b := b) wf operations
  have nowhere : ∀ s ∈ r.machine.current?, r.machine.forest.isComposite s = false := by simp [unentered]
  have remembers := travelled.remembers wf nowhere (Machine.remembers_start untouched)
  have reached := travelled.wellFormed wf
  rw [blank, List.nil_append] at log
  rw [← log] at remembers
  refine ⟨remembers.last, ?_, fun op operation => call_memory_kept reached operation⟩
  intro current signal transition target standing chosen external composite
  exact Machine.fire_settles reached (travelled.leaf nowhere) remembers standing chosen external composite

theorem operations_remember_lamp :
    let r := ((start .standard (.ofWorld ())).callAll Lamp.quiet Lamp.definition).callAll Lamp.quiet
      [.enterInitialState, .fire ⟨.toggle, []⟩, .fire ⟨.turn, []⟩, .fire ⟨.toggle, []⟩]
    r.machine.memory.get? .on = some .bright ∧
      ∃ done leaf, r.machine.fire Lamp.quiet ⟨.toggle, []⟩ r.host = .ok done ∧
        done.machine.current? = some leaf ∧ done.context.state? = some .off ∧
        r.machine.forest.Settles (r.contexts ++ [done.context]) .on leaf := by
  have law := operations_remember .standard (.ofWorld ()) Lamp.quiet Lamp.definition
    [.enterInitialState, .fire ⟨.toggle, []⟩, .fire ⟨.turn, []⟩, .fire ⟨.toggle, []⟩]
    (by simp [Lamp.definition]) (by decide +kernel) (by decide)
  refine ⟨(law.1 .on).trans (by decide +kernel), ?_⟩
  exact law.2.1 .off ⟨.toggle, []⟩ ⟨.off, some .on, none, []⟩ .on (by decide +kernel) (by decide +kernel) rfl
    (by decide +kernel)

end Run

end Statechart
