import Statechart.Proofs.Machine.Run

namespace Statechart.Machine

variable {S E F X L W : Type} [DecidableEq S] [DecidableEq E] {b : Behaviour S E F X W} {m : Machine S E F X L}
  {current target : S} {signal : Signal E} {host : Host S E F X L W} {transition : Transition S F}

omit [DecidableEq E] in
theorem entries_last (wf : m.WellFormed) (source target : S) (below : List S) :
    ((m.forest.branch (m.forest.pivot? source target) target).reverse ++ below).getLast? =
      some (below.getLastD target) := by
  have other := wf.tree.pivot?_ne_target source target
  have last : (m.forest.branch (m.forest.pivot? source target) target).head? = some target := by
    cases link : m.forest.super? target with
    | none => rw [wf.tree.branch_root link other]; rfl
    | some p => rw [wf.tree.branch_sub link other]; rfl
  cases below using List.reverseRec with
  | nil => rw [List.append_nil, List.getLast?_reverse, last]; rfl
  | append_singleton below c => simp

/-- An external transition leaves everything from the current state up to its pivot, runs its actions, and enters
    everything from there down to its target and on to a leaf. The exits come before the actions and the actions
    before the entries. -/
theorem fire_external (wf : m.WellFormed) (standing : m.current? = some current)
    (chosen : (m.choose b current signal host).1 = some transition) (external : transition.target? = some target) :
    let asked := (m.resolve b signal host).1
    let pivot? := m.forest.pivot? transition.source target
    let exits := m.forest.branch pivot? current
    let entries := (m.forest.branch pivot? target).reverse
    let below := m.forest.descent (exits.foldl m.forest.remember m.memory) target
    let exited := m.exitAll b exits (m.begin current asked.event (m.choose b current signal host).2)
    let acted := m.performAll b (.action ⟨transition.source, asked.event, some target⟩) asked.arguments
      transition.actions exited
    let entered := m.enterAll b (entries ++ below) acted
    transition.source ∈ m.forest.lineage current ∧
    (∀ a, a ∈ m.forest.configuration pivot? ↔ a ∈ m.forest.lineage transition.source ∧
      a ∈ m.forest.lineage target ∧ (target ∈ m.forest.lineage transition.source → a ≠ target)) ∧
    exits ++ m.forest.configuration pivot? = m.forest.lineage current ∧
    entries.reverse ++ m.forest.configuration pivot? = m.forest.lineage target ∧
    (entries ++ below).Nodup ∧
    (target :: below).IsChain (fun p c => m.forest.super? c = some p) ∧
    m.forest.isComposite (below.getLastD target) = false ∧
    exited.context.records = exits.map (Record.mk .exit) ∧
    acted.context.records = exited.context.records ∧
    entered.context.records = acted.context.records ++ (entries ++ below).map (Record.mk .enter) ∧
    exited.host.actions = host.actions ++ m.exitCalls exits ∧
    acted.host.actions = exited.host.actions ++ transition.actions.map (·, asked.arguments) ∧
    entered.host.actions = acted.host.actions ++ m.entryCalls (entries ++ below) ∧
    ∃ done, m.fire b signal host = .ok done ∧ done.context = entered.context ∧
      done.host.actions = entered.host.actions ∧
      done.machine = { m with
        memory := exits.foldl m.forest.remember m.memory, current? := (entries ++ below).getLast? } := by
  intro asked pivot? exits entries below exited acted entered
  have ready := wf.ready (by rw [standing]; rfl)
  have above := chosen_source wf.tree chosen
  have looked := choose_extends b m current signal host
  have began := looked.trans (m.begin_extends current asked.event _)
  have arguments : (m.choose b current signal host).2.context.arguments = asked.arguments := looked.arguments
  have memory : (m.choose b current signal host).2.memory = m.memory := looked.memory
  have exiting : Progress.Extends _ exited _ _ _ := m.exitAll_extends b exits _
  have acting : exited.Extends acted _ _ _ := m.performAll_extends b _ _ _ _
  have entering : acted.Extends entered _ _ _ := m.enterAll_extends b (entries ++ below) acted
  have passage := passage_external wf above (chosen_target wf.tree chosen external)
  obtain ⟨_, chain, leaf⟩ := wf.tree.descent_path (wf.memory.rememberAll exits) target
  have aboveTarget : ∀ p ∈ pivot?, p ∈ m.forest.lineage target := fun p found => (wf.tree.pivot?_mem found).2
  have whole : entries ++ below = (m.forest.branch pivot? (below.getLastD target)).reverse :=
    entries_append_descent wf transition.source target current
  refine ⟨above, wf.tree.mem_configuration_pivot? transition.source target,
    wf.tree.branch_append_configuration passage.above_from, ?_, ?_, chain, leaf, ?_, ?_, entering.records, ?_,
    acting.actions, entering.actions, ?_⟩
  · rw [List.reverse_reverse]
    exact wf.tree.branch_append_configuration aboveTarget
  · rw [whole, List.nodup_reverse]
    exact wf.tree.nodup_branch pivot? _
  · rw [exiting.records, began.records]
    rfl
  · rw [acting.records, List.append_nil]
  · rw [exiting.actions, began.actions]
    simp
  · obtain ⟨done, fired, machine, context, actions⟩ := fire_carries wf.tree ready standing chosen external
    have carried : m.carryOut b current asked.event transition.source target transition.actions
        (m.begin current asked.event (m.choose b current signal host).2) = entered := by
      unfold carryOut
      rw [show (m.begin current asked.event (m.choose b current signal host).2).context.arguments = _ from arguments]
      rfl
    rw [carried] at machine context actions
    refine ⟨done, fired, context, actions, ?_⟩
    rw [machine, entering.memory, acting.memory, exiting.memory, began.memory, memory, entries_last wf]
    rfl

theorem fire_external_lamp : ∃ done,
    (Lamp.press [.toggle, .turn]).machine.fire Lamp.quiet ⟨.toggle, []⟩ (Lamp.press [.toggle, .turn]).host =
      .ok done ∧
    done.context.records = [⟨.exit, .bright⟩, ⟨.exit, .on⟩, ⟨.enter, .off⟩] ∧
    done.machine.current? = some .off := by
  have wf : (Lamp.press [.toggle, .turn]).machine.WellFormed :=
    Run.callAll_wellFormed Lamp.quiet (wellFormed_ofConfig .standard) _
  have standing : (Lamp.press [.toggle, .turn]).machine.current? = some .bright := by decide +kernel
  have chosen : ((Lamp.press [.toggle, .turn]).machine.choose Lamp.quiet .bright ⟨.toggle, []⟩
      (Lamp.press [.toggle, .turn]).host).1 = some ⟨.on, some .off, none, []⟩ := by decide +kernel
  obtain ⟨_, _, _, _, _, _, _, exited, acted, entered, _, _, _, done, fired, context, _, machine⟩ :=
    fire_external wf standing chosen rfl
  refine ⟨done, fired, ?_, ?_⟩
  · rw [context, entered, acted, exited]
    decide +kernel
  · rw [machine]
    decide +kernel

end Statechart.Machine
