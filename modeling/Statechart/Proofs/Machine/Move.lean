import Statechart.Proofs.Machine.Transition

namespace Statechart

variable {S E F X L W : Type} [DecidableEq S]

namespace Forest

variable {f : Forest S E F} {memory : Memory S} {pivot? from? : Option S} {reached s p c : S}

def departures (f : Forest S E F) (pivot? from? : Option S) : List S := (from?.map (f.branch pivot?)).getD []

/-- A way between two configurations: up to a pivot that is active on both sides, if there is one, and down to
    a leaf. -/
structure Passage (f : Forest S E F) (pivot? from? : Option S) (reached : S) : Prop where
  above_from : ∀ p ∈ pivot?, p ∈ f.configuration from?
  above_to : ∀ p ∈ pivot?, p ∈ f.lineage reached
  known : reached ∈ f.keys
  leaf : f.isComposite reached = false

theorem descent_last_mem (h : f.WellFormed) (fits : f.MemoryFits memory) (known : s ∈ f.keys) :
    (f.descent memory s).getLastD s ∈ f.keys := by
  have chain := (h.descent_path fits s).2.1
  generalize f.descent memory s = below at chain
  induction below generalizing s with
  | nil => exact known
  | cons c below ih =>
    obtain ⟨link, chain⟩ := List.isChain_cons_cons.mp chain
    rw [List.getLastD_cons]
    exact ih (mem_of_super link) chain

end Forest

namespace Machine

variable {b : Behaviour S E F X W} {m m' : Machine S E F X L} {current target initial : S} {signal : Signal E}
  {host : Host S E F X L W} {p : Progress S E F X L W} {transition : Transition S F} {records : List (Record S)}

/-- A machine in order: its tree is, what it remembers are sub-states, it stands in states that exist, and it
    was initialized before it was entered. -/
structure WellFormed (m : Machine S E F X L) : Prop where
  tree : m.forest.WellFormed
  memory : m.forest.MemoryFits m.memory
  initial_mem : ∀ s ∈ m.initial?, s ∈ m.forest.keys
  current_mem : ∀ s ∈ m.current?, s ∈ m.forest.keys
  ready : m.current?.isSome → m.isInitialized

theorem WellFormed.nowhere (wf : m.WellFormed) (fresh : m.isInitialized = false) : m.current? = none := by
  by_contra entered
  have ready := wf.ready (Option.isSome_iff_ne_none.mpr entered)
  rw [fresh] at ready
  cases ready

inductive Moves (m : Machine S E F X L) : Machine S E F X L → List (Record S) → Prop where
  | rest : Moves m m []
  | go (pivot? : Option S) (reached : S) (passage : m.forest.Passage pivot? m.current? reached) :
    Moves m { m with
        memory := (m.forest.departures pivot? m.current?).foldl m.forest.remember m.memory
        current? := some reached }
      ((m.forest.departures pivot? m.current?).map (Record.mk .exit) ++
        (m.forest.branch pivot? reached).reverse.map (Record.mk .enter))

theorem Moves.forest (moved : m.Moves m' records) : m'.forest = m.forest := by
  cases moved <;> rfl

theorem Moves.stands (moved : m.Moves m' records) (standing : m.current?.isSome) : m'.current?.isSome := by
  cases moved with
  | rest => exact standing
  | go pivot? reached passage => rfl

theorem Moves.leaf (moved : m.Moves m' records) (leaf : ∀ s ∈ m.current?, m.forest.isComposite s = false) :
    ∀ s ∈ m'.current?, m'.forest.isComposite s = false := by
  cases moved with
  | rest => exact leaf
  | go pivot? reached passage =>
    rintro s ⟨⟩
    exact passage.leaf

theorem WellFormed.moves (wf : m.WellFormed) (ready : m.isInitialized) (moved : m.Moves m' records) :
    m'.WellFormed := by
  cases moved with
  | rest => exact wf
  | go pivot? reached passage =>
    refine ⟨wf.tree, wf.memory.rememberAll _, wf.initial_mem, ?_, fun _ => ready⟩
    rintro s ⟨⟩
    exact passage.known

theorem entries_append_descent (wf : m.WellFormed) (source target : S) (current : S) :
    m.entriesTo source target ++ m.descentTo current source target =
      (m.forest.branch (m.forest.pivot? source target)
        ((m.descentTo current source target).getLastD target)).reverse := by
  have chain := (wf.tree.descent_path (wf.memory.rememberAll (m.exitsTo current source target)) target).2.1
  have whole := wf.tree.toRanked.branch_descend chain
    fun p inPivot => (wf.tree.pivot?_mem (s := source) inPivot).2
  unfold descentTo entriesTo
  rw [whole, List.reverse_append, List.reverse_reverse]

theorem passage_external (wf : m.WellFormed) (above : transition.source ∈ m.forest.lineage current)
    (known : target ∈ m.forest.keys) :
    m.forest.Passage (m.forest.pivot? transition.source target) (some current)
      ((m.descentTo current transition.source target).getLastD target) := by
  have fits := wf.memory.rememberAll (m.exitsTo current transition.source target)
  obtain ⟨_, chain, leaf⟩ := wf.tree.descent_path fits target
  have down := wf.tree.toRanked.lineage_descend chain
  refine ⟨fun p inPivot => ?_, fun p inPivot => ?_, Forest.descent_last_mem wf.tree fits known, leaf⟩
  · exact wf.tree.mem_lineage_trans (wf.tree.pivot?_mem inPivot).1 above
  · have inTarget := (wf.tree.pivot?_mem inPivot).2
    change p ∈ m.forest.lineage ((m.forest.descent _ target).getLastD target)
    rw [down]
    exact List.mem_append_right _ inTarget

theorem fire_to_target [DecidableEq E] (wf : m.WellFormed) (standing : m.current? = some current)
    (chosen : (m.choose b current signal host).1 = some transition) (external : transition.target? = some target) :
    ∃ done, m.fire b signal host = .ok done ∧
      done.machine = { m with
        memory := (m.exitsTo current transition.source target).foldl m.forest.remember m.memory
        current? := some ((m.descentTo current transition.source target).getLastD target) } ∧
      done.context.records = (m.exitsTo current transition.source target).map (Record.mk .exit) ++
        (m.entriesTo transition.source target ++ m.descentTo current transition.source target).map
          (Record.mk .enter) ∧
      done.context.state? = some current := by
  have ready := wf.ready (by rw [standing]; rfl)
  have looked := choose_extends b m current signal host
  have memory : (m.choose b current signal host).2.memory = m.memory := looked.memory
  obtain ⟨done, fired, machine, context, _⟩ := fire_carries wf.tree ready standing chosen external
  have carried := (looked.trans (m.begin_extends current (m.resolve b signal host).1.event _)).trans
    (m.carryOut_extends b current (m.resolve b signal host).1.event transition.source target transition.actions _)
  refine ⟨done, fired, ?_, ?_, ?_⟩
  · rw [machine, carried.memory]
    simp only [begin, memory]
  · rw [context, carried.records]
    rfl
  · rw [context, Context.state?, carried.origin]
    rfl

theorem fire_moves [DecidableEq E] (wf : m.WellFormed) (standing : m.current? = some current) (b : Behaviour S E F X W)
    (signal : Signal E) (host : Host S E F X L W) :
    ∃ done, m.fire b signal host = .ok done ∧ m.Moves done.machine done.context.records ∧
      done.context.state? = some current := by
  have ready := wf.ready (by rw [standing]; rfl)
  have looked := choose_extends b m current signal host
  have memory : (m.choose b current signal host).2.memory = m.memory := looked.memory
  cases chosen : (m.choose b current signal host).1 with
  | none =>
    obtain ⟨done, fired, machine, context, _⟩ := fire_of_declined ready standing chosen
    refine ⟨done, fired, ?_, by rw [context, Context.state?, looked.origin]; rfl⟩
    rw [machine, context, looked.records]
    exact .rest
  | some transition =>
    cases external : transition.target? with
    | none =>
      obtain ⟨done, fired, machine, context, _⟩ := fire_of_chosen ready standing chosen
      rw [execute_internal external] at machine context
      have acted := (looked.trans (m.begin_extends current (m.resolve b signal host).1.event _)).trans
        (m.performAll_extends b (.action ⟨transition.source, (m.resolve b signal host).1.event, none⟩)
          (m.choose b current signal host).2.context.arguments transition.actions _)
      refine ⟨done, fired, ?_, by rw [context, Context.state?, acted.origin]; rfl⟩
      -- the machine is put together again out of its own parts
      have still : done.machine = m := by
        rw [machine, acted.memory]
        simp only [begin, memory, ← standing]
      rw [still, context, acted.records]
      exact .rest
    | some target =>
      obtain ⟨done, fired, machine, records, state⟩ := fire_to_target wf standing chosen external
      refine ⟨done, fired, ?_, state⟩
      have passage := passage_external wf (chosen_source wf.tree chosen) (chosen_target wf.tree chosen external)
      rw [← standing] at passage
      have moved := Moves.go _ _ passage
      rw [standing, ← entries_append_descent wf] at moved
      rw [machine, records]
      exact moved

theorem enter_moves (wf : m.WellFormed) (ready : m.initial? = some initial) (unentered : m.current? = none)
    (b : Behaviour S E F X W) (host : Host S E F X L W) :
    ∃ done, m.enterInitialState b host = .ok done ∧ m.Moves done.machine done.context.records ∧
      (∃ reached, done.machine.current? = some reached) ∧ done.context.state? = none := by
  obtain ⟨done, entered, machine, context, _⟩ := enterInitialState_of_ready ready unentered b host
  have extended := m.enterFrom_extends b initial host
  have descended := wf.tree.descent_path wf.memory initial
  have down := wf.tree.toRanked.lineage_descend descended.2.1
  have passage : m.forest.Passage none none ((m.forest.descent m.memory initial).getLastD initial) :=
    ⟨by simp, by simp, Forest.descent_last_mem wf.tree wf.memory (wf.initial_mem initial ready), descended.2.2⟩
  have states : (m.forest.lineage initial).reverse ++ m.forest.descent m.memory initial =
      (m.forest.branch none ((m.forest.descent m.memory initial).getLastD initial)).reverse := by
    rw [Forest.Ranked.branch_none, down, List.reverse_append, List.reverse_reverse]
  refine ⟨done, entered, ?_, ⟨_, by rw [machine]⟩, by rw [context, Context.state?, extended.origin]; rfl⟩
  rw [← unentered] at passage
  have moved := Moves.go _ _ passage
  rw [unentered] at moved
  rw [states] at extended
  rw [machine, context, extended.records, extended.memory]
  exact moved

end Machine

end Statechart
