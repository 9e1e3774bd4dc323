import Statechart.Proofs.Forest.Registration
import Statechart.Proofs.Machine.Publication
import Statechart.Proofs.Machine.Rearrange

namespace Statechart

variable {S E F X L W : Type} [DecidableEq S]

namespace Forest

variable {f : Forest S E F} {memory : Memory S} {s a : S}

theorem lineage_mention (h : f.Ranked f.level) (s : S) : (f.mention s).lineage = f.lineage := by
  funext a
  exact h.lineage_congr (h.mention s) fun b _ => super?_mention f s b

theorem pivot?_mention (h : f.Ranked f.level) (s source target : S) :
    (f.mention s).pivot? source target = f.pivot? source target := by
  unfold pivot? meet?
  rw [lineage_mention h, super?_mention]

theorem branch_mention (h : f.Ranked f.level) (s : S) (stop? : Option S) (a : S) :
    (f.mention s).branch stop? a = f.branch stop? a := by
  unfold branch
  rw [lineage_mention h]

theorem remember_mention (f : Forest S E F) (s : S) : (f.mention s).remember = f.remember := by
  funext memory a
  unfold remember
  rw [super?_mention]

theorem steps_mention (f : Forest S E F) (s : S) : f.steps ≤ (f.mention s).steps := by
  have keys : (f.mention s).keys = if s ∈ f.keys then f.keys else f.keys ++ [s] := Table.keys_ensure f s .isolated
  have length := congrArg List.length keys
  rw [length_keys] at length
  have before := length_keys f
  unfold steps
  split at length
  · omega
  · rw [List.length_append] at length
    omega

theorem descent_mention (h : f.WellFormed) (fits : f.MemoryFits memory) (s a : S) :
    (f.mention s).descent memory a = f.descent memory a := by
  obtain ⟨finished, _⟩ := h.descent_path fits a
  have more := steps_mention f s
  have initials : (f.mention s).initial? = f.initial? := by
    funext b
    rw [initial?, node_mention]
    rfl
  have resumes : (f.mention s).resume? memory = f.resume? memory := by
    funext b
    rw [resume?, initials]
    rfl
  have again : (f.mention s).descent? memory a = some (f.descent memory a) := by
    unfold descent? at finished ⊢
    rw [initials, resumes, node_mention]
    cases first : f.initial? a with
    | none =>
      rw [first] at finished
      exact finished
    | some initial =>
      rw [first] at finished
      dsimp only at finished ⊢
      cases history : (f.node a).history with
      | none =>
        rw [history] at finished
        exact walk?_more_steps finished more
      | shallow =>
        rw [history] at finished
        exact walk?_more_steps finished more
      | deep =>
        rw [history] at finished
        exact walk?_more_steps finished more
  rw [descent, again]
  rfl

end Forest

namespace Machine

variable {b : Behaviour S E F X W} {m : Machine S E F X L} {current target : S} {signal : Signal E}
  {host : Host S E F X L W} {p : Progress S E F X L W} {transition : Transition S F}

def mentioning (m : Machine S E F X L) (s : S) : Machine S E F X L := { m with forest := m.forest.mention s }

theorem enterAll_mentioning (b : Behaviour S E F X W) (m : Machine S E F X L) (s : S) :
    (m.mentioning s).enterAll b = m.enterAll b := by
  have same : (m.mentioning s).enter b = m.enter b := by
    funext p a
    unfold enter
    rw [show (m.mentioning s).forest.node a = m.forest.node a from Forest.node_mention _ _ _]
    rfl
  unfold enterAll
  rw [same]

theorem exitAll_mentioning (b : Behaviour S E F X W) (m : Machine S E F X L) (s : S) :
    (m.mentioning s).exitAll b = m.exitAll b := by
  have same : (m.mentioning s).exit b = m.exit b := by
    funext p a
    unfold exit
    rw [show (m.mentioning s).forest.node a = m.forest.node a from Forest.node_mention _ _ _,
      show (m.mentioning s).forest.remember = m.forest.remember from Forest.remember_mention _ _]
    rfl
  unfold exitAll
  rw [same]

theorem settle_mentioning (wf : m.WellFormed) (fits : m.forest.MemoryFits p.memory) (s a : S) :
    (m.mentioning s).settle b a p = m.settle b a p := by
  rw [settle_eq, settle_eq, enterAll_mentioning,
    show (m.mentioning s).forest.descent p.memory a = _ from Forest.descent_mention wf.tree fits s a]

theorem carryOut_mentioning (wf : m.WellFormed) (b : Behaviour S E F X W) (s current : S) (event : E)
    (source target : S) (actions : List (Callable F)) (p : Progress S E F X L W) :
    (m.mentioning s).carryOut b current event source target actions p =
        m.carryOut b current event source target actions p ∧
      (m.mentioning s).descentTo current source target = m.descentTo current source target := by
  have ranked := wf.tree.toRanked
  have pivot : (m.mentioning s).forest.pivot? source target = m.forest.pivot? source target :=
    Forest.pivot?_mention ranked s source target
  have exits : (m.mentioning s).exitsTo current source target = m.exitsTo current source target := by
    unfold exitsTo
    rw [pivot]
    exact Forest.branch_mention ranked s _ _
  have entries : (m.mentioning s).entriesTo source target = m.entriesTo source target := by
    unfold entriesTo
    rw [pivot]
    exact congrArg List.reverse (Forest.branch_mention ranked s _ _)
  have below : (m.mentioning s).descentTo current source target = m.descentTo current source target := by
    unfold descentTo
    rw [exits, show (m.mentioning s).forest.remember = m.forest.remember from Forest.remember_mention _ _]
    exact Forest.descent_mention wf.tree (wf.memory.rememberAll _) s target
  refine ⟨?_, below⟩
  unfold carryOut
  rw [exits, entries, below, enterAll_mentioning, exitAll_mentioning]
  rfl

theorem select_mentioning (b : Behaviour S E F X W) (m : Machine S E F X L) (s : S) (event : E)
    (candidates : List (Transition S F)) (p : Progress S E F X L W) :
    (m.mentioning s).select b event candidates p = m.select b event candidates p := by
  induction candidates generalizing p with
  | nil => rfl
  | cons candidate rest ih =>
    have asked : (m.mentioning s).guardPasses b ⟨candidate.source, event, candidate.target?⟩ candidate.guard? p =
        m.guardPasses b ⟨candidate.source, event, candidate.target?⟩ candidate.guard? p := rfl
    unfold select
    simp only [asked, ih]

variable [DecidableEq E]

theorem choose_mentioning (wf : m.WellFormed) (b : Behaviour S E F X W) (s current : S) (signal : Signal E)
    (host : Host S E F X L W) : (m.mentioning s).choose b current signal host = m.choose b current signal host := by
  have offered : ∀ event, (m.mentioning s).candidates current event = m.candidates current event := by
    intro event
    unfold candidates
    rw [show (m.mentioning s).forest.lineage = m.forest.lineage from Forest.lineage_mention wf.tree.toRanked s]
    congr 2
    funext a
    rw [show (m.mentioning s).forest.node a = m.forest.node a from Forest.node_mention _ _ _]
  unfold choose
  rw [show (m.mentioning s).resolve b signal host = m.resolve b signal host from rfl]
  simp only [offered, select_mentioning]
  rfl

omit [DecidableEq E] in
theorem execute_mentioning (wf : m.WellFormed) (memory : p.memory = m.memory)
    (above : transition.source ∈ m.forest.lineage current) (b : Behaviour S E F X W) (s : S) (event : E) :
    (m.mentioning s).execute b current event transition p = m.execute b current event transition p := by
  have grown : (m.mentioning s).forest.WellFormed := (wf.tree.mention s).toWellFormed
  have above' : transition.source ∈ (m.mentioning s).forest.lineage current := by
    rw [show (m.mentioning s).forest.lineage = m.forest.lineage from Forest.lineage_mention wf.tree.toRanked s]
    exact above
  -- the search for a route may take more steps than before, so both routes are read off the tree instead
  cases external : transition.target? with
  | none =>
    rw [execute_internal external, execute_internal external]
    rfl
  | some target =>
    obtain ⟨carried, below⟩ := carryOut_mentioning wf b s current event transition.source target transition.actions
      (m.begin current event p)
    rw [execute_external wf.tree memory above external, execute_external grown memory above' external, below, ← carried]
    rfl

omit [DecidableEq E] in
theorem conclude_mentioning (m : Machine S E F X L) (s current : S) (event : E) (out : Option S × Progress S E F X L W) :
    (m.mentioning s).conclude current event out =
      { m.conclude current event out with machine := (m.conclude current event out).machine.mentioning s } := by
  obtain ⟨reached?, p⟩ := out
  cases reached? with
  | none => rfl
  | some reached =>
    have told := switchTo_forest { m with memory := p.memory } (m.forest.mention s) reached p.host
    unfold mentioning
    simp only [conclude, told]
    rfl

omit [DecidableEq E] in
theorem arrive_mentioning (m : Machine S E F X L) (s : S) (out : S × Progress S E F X L W) :
    (m.mentioning s).arrive out = { m.arrive out with machine := (m.arrive out).machine.mentioning s } := by
  obtain ⟨leaf, p⟩ := out
  have told := switchTo_forest { m with memory := p.memory } (m.forest.mention s) leaf p.host
  unfold mentioning
  simp only [arrive, told]
  rfl

theorem fire_mentioning (wf : m.WellFormed) (b : Behaviour S E F X W) (s : S) (signal : Signal E)
    (host : Host S E F X L W) : (m.mentioning s).fire b signal host =
      (m.fire b signal host).map fun done => { done with machine := done.machine.mentioning s } := by
  cases ready : m.isInitialized with
  | false =>
    have ready' : (m.mentioning s).isInitialized = false := ready
    rw [fire_uninitialized ready, fire_uninitialized ready']
    rfl
  | true =>
    have ready' : (m.mentioning s).isInitialized := ready
    cases standing : m.current? with
    | none =>
      have nowhere : m.hasEntered = false := congrArg Option.isSome standing
      have nowhere' : (m.mentioning s).hasEntered = false := nowhere
      rw [fire_unentered ready nowhere, fire_unentered ready' nowhere']
      rfl
    | some current =>
      have standing' : (m.mentioning s).current? = some current := standing
      have looked := choose_extends b m current signal host
      rcases choice : m.choose b current signal host with ⟨transition?, p⟩
      rw [choice] at looked
      have told := fire_of_choice ready standing choice
      have told' := fire_of_choice ready' standing' ((choose_mentioning wf b s current signal host).trans choice)
      have asked : (m.mentioning s).asked b signal = m.asked b signal := by
        unfold Machine.asked
        rfl
      dsimp only at told told'
      rw [told, told', asked, conclude_mentioning]
      cases transition? with
      | none => dsimp only [Option.elim, Except.map]
      | some transition =>
        have above := chosen_source wf.tree (congrArg Prod.fst choice)
        dsimp only [Option.elim, Except.map]
        rw [execute_mentioning wf looked.memory above]

omit [DecidableEq E] in
theorem enterInitialState_mentioning (wf : m.WellFormed) (b : Behaviour S E F X W) (s : S) (host : Host S E F X L W) :
    (m.mentioning s).enterInitialState b host =
      (m.enterInitialState b host).map fun done => { done with machine := done.machine.mentioning s } := by
  cases ready : m.initial? with
  | none =>
    have unready : m.isInitialized = false := congrArg Option.isSome ready
    have unready' : (m.mentioning s).isInitialized = false := unready
    rw [enterInitialState_uninitialized unready, enterInitialState_uninitialized unready']
    rfl
  | some initial =>
    have ready' : (m.mentioning s).initial? = some initial := ready
    cases already : m.hasEntered with
    | true =>
      have initialized : m.isInitialized := congrArg Option.isSome ready
      rw [enterInitialState_entered initialized already,
        enterInitialState_entered (m := m.mentioning s) initialized already]
      rfl
    | false =>
      have already' : (m.mentioning s).hasEntered = false := already
      have above := m.enterAll_extends b (m.forest.lineage initial).reverse (m.starting initial host)
      have fits : m.forest.MemoryFits
          (m.enterAll b (m.forest.lineage initial).reverse (m.starting initial host)).memory := by
        rw [above.memory]
        exact wf.memory
      have lineage : (m.mentioning s).forest.lineage = m.forest.lineage :=
        Forest.lineage_mention wf.tree.toRanked s
      rw [enterInitialState_eq ready already, enterInitialState_eq ready' already', arrive_mentioning, lineage,
        enterAll_mentioning, show (m.mentioning s).starting initial host = m.starting initial host from rfl,
        settle_mentioning wf fits]
      rfl

end Machine

namespace Run

variable [DecidableEq E] [DecidableEq X] {r : Run S E F X L W}

def mentioning (r : Run S E F X L W) (s : S) : Run S E F X L W := { r with machine := r.machine.mentioning s }

theorem call_mentioning (wf : r.machine.WellFormed) (b : Behaviour S E F X W) (s : S) {op : Call S E F X L}
    (operation : op.isOperation) : (r.mentioning s).call b op = (r.call b op).mentioning s := by
  cases op with
  | enterInitialState =>
    have told := Machine.enterInitialState_mentioning wf b s r.host
    show (r.mentioning s).after ((r.machine.mentioning s).enterInitialState b r.host) = _
    rw [told]
    show _ = (r.after (r.machine.enterInitialState b r.host)).mentioning s
    cases r.machine.enterInitialState b r.host <;> rfl
  | fire signal =>
    have told := Machine.fire_mentioning wf b s signal r.host
    show (r.mentioning s).after ((r.machine.mentioning s).fire b signal r.host) = _
    rw [told]
    show _ = (r.after (r.machine.fire b signal r.host)).mentioning s
    cases r.machine.fire b signal r.host <;> rfl
  | _ => cases operation

theorem callAll_mentioning (wf : r.machine.WellFormed) (b : Behaviour S E F X W) (s : S) {ops : List (Call S E F X L)}
    (operations : ∀ op ∈ ops, op.isOperation) : (r.mentioning s).callAll b ops = (r.callAll b ops).mentioning s := by
  unfold callAll
  induction ops generalizing r with
  | nil => rfl
  | cons op rest ih =>
    rw [List.foldl_cons, call_mentioning wf b s (operations op List.mem_cons_self)]
    exact ih (call_wellFormed b wf op) fun op member => operations op (List.mem_cons_of_mem _ member)

theorem call_refused (b : Behaviour S E F X W) {source : S} {event : E} {draft : Draft S F}
    (refused : (r.machine.addTransition source event draft).1 ≠ .ok ()) :
    (r.machine.addTransition source event draft).1 = .error (.duplicateTransition source event) ∧
      r.call b (.addTransition source event draft) = draft.target?.elim r r.mentioning := by
  have left : r.machine.forest.addTransition source event draft = _ := Forest.addTransition_refused refused
  have called : r.call b (.addTransition source event draft) =
      { r with machine := { r.machine with forest := (r.machine.forest.addTransition source event draft).2 } } := rfl
  refine ⟨congrArg Prod.fst left, ?_⟩
  rw [called, left]
  cases draft.target? <;> rfl

omit [DecidableEq E] [DecidableEq X] in
theorem mentioning_eq_iff (r : Run S E F X L W) (s : S) : r.mentioning s = r ↔ s ∈ r.machine.forest.keys := by
  constructor
  · intro same
    have mentioned : s ∈ (r.mentioning s).machine.forest.keys := Forest.mem_keys_mention.mpr (.inr rfl)
    rwa [same] at mentioned
  · intro known
    unfold mentioning Machine.mentioning
    rw [Forest.mention_known known]

/-- A transition is refused where an unguarded one hides it. All that may be left of it is its target, as a state that
    nothing leads to: what is entered, left and told from then on is what it would have been. -/
theorem refused_transition (config : Config) (host : Host S E F X L W) (b : Behaviour S E F X W)
    (calls : List (Call S E F X L)) (source : S) (event : E) (draft : Draft S F) :
    let r := (start config host).callAll b calls
    let after := r.call b (.addTransition source event draft)
    (r.machine.addTransition source event draft).1 ≠ .ok () →
      (r.machine.addTransition source event draft).1 = .error (.duplicateTransition source event) ∧
      (after = r ↔ ∀ target ∈ draft.target?, target ∈ r.machine.forest.keys) ∧
      (∀ a, after.machine.forest.node a = r.machine.forest.node a) ∧
      ∀ target ∈ draft.target?, target ∉ r.machine.forest.keys →
        after.machine.forest.keys = r.machine.forest.keys ++ [target] ∧
        ∀ ops : List (Call S E F X L), (∀ op ∈ ops, op.isOperation) →
          after.callAll b ops = (r.callAll b ops).mentioning target := by
  intro r after refused
  have wf : r.machine.WellFormed := callAll_wellFormed b (Machine.wellFormed_ofConfig config) calls
  obtain ⟨answer, left⟩ := call_refused b refused
  have left : after = draft.target?.elim r r.mentioning := left
  refine ⟨answer, ?_, ?_, ?_⟩
  · rw [left]
    cases draft.target? with
    | none => simp
    | some target => simpa using r.mentioning_eq_iff target
  · intro a
    rw [left]
    cases draft.target? with
    | none => rfl
    | some target => exact Forest.node_mention _ _ _
  · intro target found unknown
    rw [left, show draft.target? = some target from found]
    refine ⟨?_, fun ops operations => callAll_mentioning wf b target operations⟩
    exact (Table.keys_ensure r.machine.forest target .isolated).trans (if_neg unknown)

end Run

def Lamp.sketched : Run Lamp Switch Unit Empty Empty Unit :=
  (Run.start .standard (.ofWorld ())).callAll quiet [.addTransition .off .toggle .internal]

namespace Run

theorem refused_transition_lamp :
    Lamp.sketched.call Lamp.quiet (.addTransition .off .toggle (.goto .off)) = Lamp.sketched ∧
      (Lamp.sketched.call Lamp.quiet (.addTransition .off .toggle (.goto .on))).machine.forest.keys = [.off, .on] := by
  constructor
  · obtain ⟨_, unchanged, _⟩ := refused_transition (L := Empty) .standard (.ofWorld ()) Lamp.quiet
      [.addTransition .off .toggle .internal] .off .toggle (.goto .off) (by decide +kernel)
    exact unchanged.mpr (by decide +kernel)
  · obtain ⟨_, _, _, leftover⟩ := refused_transition (L := Empty) .standard (.ofWorld ()) Lamp.quiet
      [.addTransition .off .toggle .internal] .off .toggle (.goto .on) (by decide +kernel)
    exact (leftover .on rfl (by decide +kernel)).1

/-- A state that only a refused transition has named is listed, and a checkpoint may start there. -/
theorem refused_transition_leaks_lamp :
    let after := Lamp.sketched.call Lamp.quiet (.addTransition .off .toggle (.goto .on))
    let c : Checkpoint Lamp := ⟨1, "saved", ⟨⟨2024, 1, 2⟩, ⟨0, 0⟩, by decide⟩, "lamp", some .on, none, []⟩
    (Lamp.sketched.machine.addTransition .off .toggle (.goto .on)).1 = .error (.duplicateTransition .off .toggle) ∧
      Lamp.sketched.machine.forest.keys = [.off] ∧ after.machine.forest.keys = [.off, .on] ∧
      (Lamp.sketched.machine.load c Lamp.sketched.host).isOk = false ∧ (after.machine.load c after.host).isOk := by
  intro after c
  exact ⟨rfl, rfl, rfl, rfl, rfl⟩

end Run

end Statechart
