import Statechart.Proofs.Forest.Outline
import Statechart.Proofs.Machine.Checkpoint
import Statechart.Proofs.Machine.Simulation

namespace Statechart

variable {S E F X L W : Type} [DecidableEq S]

namespace Forest

variable {f g bare : Forest S E F} {ds : List (Outline S)}

theorem Outlined.mentionAll (h : Outlined ds bare f) (states : List S) :
    Outlined ds (states.foldl Forest.mention bare) (states.foldl Forest.mention f) := by
  induction states generalizing bare f with
  | nil => exact h
  | cons s rest ih => exact ih (h.mention s)

theorem Outlined.addTransition [DecidableEq E] (h : Outlined ds bare f) (source : S) (event : E) (draft : Draft S F) :
    Outlined ds (bare.addTransition source event draft).2 (f.addTransition source event draft).2 := by
  have mentioned := (h.mention source).mentionAll draft.target?.toList
  have known : source ∈ (draft.target?.toList.foldl Forest.mention (bare.mention source)).keys :=
    (mem_keys_mentionAll _ _ _).mpr (.inl (mem_keys_mention.mpr (.inr rfl)))
  have transitions := congrArg Node.transitions (mentioned.contents source)
  simp only [Node.contents] at transitions
  unfold Forest.addTransition
  simp only [transitions]
  split
  · exact mentioned
  · rename_i table _
    refine mentioned.modify known (fun node => { node with transitions := table }) (fun _ => rfl) ?_
    intro node node' same
    simp only [Node.contents, Node.mk.injEq] at same ⊢
    simp [same]

theorem Outlined.addEntryAction (h : Outlined ds bare f) (s : S) (action : Callable F) :
    Outlined ds (bare.addEntryAction s action) (f.addEntryAction s action) := by
  refine (h.mention s).modify (mem_keys_mention.mpr (.inr rfl)) _ (fun _ => rfl) fun node node' same => ?_
  simp only [Node.contents, Node.mk.injEq] at same ⊢
  simp [same]

theorem Outlined.addExitAction (h : Outlined ds bare f) (s : S) (action : Callable F) :
    Outlined ds (bare.addExitAction s action) (f.addExitAction s action) := by
  refine (h.mention s).modify (mem_keys_mention.mpr (.inr rfl)) _ (fun _ => rfl) fun node node' same => ?_
  simp only [Node.contents, Node.mk.injEq] at same ⊢
  simp [same]

/-- Two forests that have grown out of one by the same outlines, each in an order of its own. -/
structure Rearranged (f g : Forest S E F) : Prop where
  outlined : ∃ bare ds ds', Outlined ds bare f ∧ Outlined ds' bare g ∧ ds'.Perm ds ∧ Outline.Compatible ds

namespace Rearranged

variable (h : f.Rearranged g)
include h

theorem node (s : S) : g.node s = f.node s := by
  obtain ⟨bare, ds, ds', outlined, outlined', perm, _⟩ := h.outlined
  exact outlined.node_eq outlined' perm s

theorem keys : g.keys.Perm f.keys := by
  obtain ⟨bare, ds, ds', outlined, outlined', perm, _⟩ := h.outlined
  exact (List.perm_ext_iff_of_nodup outlined'.keys_nodup outlined.keys_nodup).mpr (outlined.mem_keys_iff outlined' perm)

theorem mirrors : f.Mirrors id g where
  steps := by
    unfold steps
    rw [← length_keys, ← length_keys, h.keys.length_eq]
  node s := (h.node s).trans (Node.map_id _).symm

theorem super? : g.super? = f.super? := h.mirrors.super?

theorem isComposite : g.isComposite = f.isComposite := by
  funext s
  unfold Forest.isComposite Forest.subs
  rw [h.node]

theorem contains : g.contains = f.contains := by
  funext s
  rw [Bool.eq_iff_iff, Table.contains_iff, Table.contains_iff, h.keys.mem_iff]

theorem mention (s : S) : (f.mention s).Rearranged (g.mention s) := by
  obtain ⟨bare, ds, ds', outlined, outlined', perm, compatible⟩ := h.outlined
  exact ⟨_, ds, ds', outlined.mention s, outlined'.mention s, perm, compatible⟩

theorem addTransition [DecidableEq E] (source : S) (event : E) (draft : Draft S F) :
    (f.addTransition source event draft).2.Rearranged (g.addTransition source event draft).2 := by
  obtain ⟨bare, ds, ds', outlined, outlined', perm, compatible⟩ := h.outlined
  exact ⟨_, ds, ds', outlined.addTransition source event draft, outlined'.addTransition source event draft, perm,
    compatible⟩

theorem addEntryAction (s : S) (action : Callable F) :
    (f.addEntryAction s action).Rearranged (g.addEntryAction s action) := by
  obtain ⟨bare, ds, ds', outlined, outlined', perm, compatible⟩ := h.outlined
  exact ⟨_, ds, ds', outlined.addEntryAction s action, outlined'.addEntryAction s action, perm, compatible⟩

theorem addExitAction (s : S) (action : Callable F) : (f.addExitAction s action).Rearranged (g.addExitAction s action) := by
  obtain ⟨bare, ds, ds', outlined, outlined', perm, compatible⟩ := h.outlined
  exact ⟨_, ds, ds', outlined.addExitAction s action, outlined'.addExitAction s action, perm, compatible⟩

theorem define (d : Outline S) :
    (∃ errors errors', f.define? (E := E) d.parent d.initial d.history d.subs = .error errors ∧
      g.define? (E := E) d.parent d.initial d.history d.subs = .error errors') ∨
    ∃ f' g', f.define? (E := E) d.parent d.initial d.history d.subs = .ok f' ∧
      g.define? (E := E) d.parent d.initial d.history d.subs = .ok g' ∧ f'.Rearranged g' := by
  obtain ⟨bare, ds, ds', outlined, outlined', perm, compatible⟩ := h.outlined
  have compatible' := compatible.perm perm
  have perm' : (ds' ++ [d]).Perm (ds ++ [d]) := perm.append_right [d]
  have both : Outline.Compatible (ds' ++ [d]) ↔ Outline.Compatible (ds ++ [d]) :=
    ⟨fun together => together.perm perm'.symm, fun together => together.perm perm'⟩
  have accepted := outlined.valid_iff (d := d) compatible
  have accepted' := (outlined'.valid_iff (d := d) compatible').trans both
  cases defined : f.define? (E := E) d.parent d.initial d.history d.subs with
  | error errors =>
    cases defined' : g.define? (E := E) d.parent d.initial d.history d.subs with
    | error errors' => exact .inl ⟨errors, errors', rfl, rfl⟩
    | ok g' =>
      rw [defined', ← accepted, defined] at accepted'
      cases accepted'.mp rfl
  | ok f' =>
    rw [defined] at accepted
    have together := accepted.mp rfl
    obtain ⟨g', defined'⟩ := isOk_iff_exists.mp (accepted'.mpr together)
    refine .inr ⟨f', g', rfl, defined', ?_⟩
    exact ⟨bare, ds ++ [d], ds' ++ [d], outlined.define compatible defined, outlined'.define compatible' defined', perm',
      together⟩

end Rearranged

end Forest

namespace Machine

variable {b : Behaviour S E F X W} {m : Machine S E F X L} {g : Forest S E F}

theorem switchTo_forest (m : Machine S E F X L) (g : Forest S E F) (state : S) (host : Host S E F X L W) :
    ({ m with forest := g }.switchTo state host).2 = (m.switchTo state host).2 := by
  unfold switchTo
  split <;> rfl

theorem simulation_rearranged (h : m.forest.Rearranged g) (b : Behaviour S E F X W) :
    Simulation b b m { m with forest := g } id Eq where
  forest := h.mirrors
  arguments same := same ▸ rfl
  memory same _ := same ▸ rfl
  record kind s same := same ▸ rfl
  remember s same := by
    subst same
    rw [show Forest.remember _ _ _ = _ from h.mirrors.remember _ s]
  begin current event same := same ▸ rfl
  perform fault arguments action same := same ▸ rfl
  guard edge guard same := same ▸ ⟨rfl, rfl⟩

def EndsWith (g : Forest S E F) (done done' : Completed S E F X L W) : Prop :=
  done' = { done with machine := { done.machine with forest := g } }

theorem enterInitialState_rearranged (h : m.forest.Rearranged g) (b : Behaviour S E F X W) (host : Host S E F X L W) :
    Answered (EndsWith g) (m.enterInitialState b host) ({ m with forest := g }.enterInitialState b host) := by
  apply (simulation_rearranged h b).enterInitialState
  · rfl
  · rfl
  · exact fun initial => rfl
  · intro out out' reached same
    obtain rfl : out' = out := Prod.ext reached same.symm
    obtain ⟨leaf, p⟩ := out'
    have told := switchTo_forest { m with memory := p.memory } g leaf p.host
    simp only [EndsWith, arrive, told]
    rfl

theorem fire_rearranged [DecidableEq E] (h : m.forest.Rearranged g) (b : Behaviour S E F X W) (signal : Signal E)
    (host : Host S E F X L W) :
    Answered (EndsWith g) (m.fire b signal host) ({ m with forest := g }.fire b signal host) := by
  apply (simulation_rearranged h b).fire
  · rfl
  · rfl
  · rfl
  · exact fun current => rfl
  · intro current event out out' reached same
    obtain rfl : out' = out := Prod.ext reached same.symm
    obtain ⟨reached?, p⟩ := out'
    cases reached? with
    | none => rfl
    | some leaf =>
      have told := switchTo_forest { m with memory := p.memory } g leaf p.host
      simp only [EndsWith, conclude, told]
      rfl

theorem load_rearranged (h : m.forest.Rearranged g) (c : Checkpoint S) (host : Host S E F X L W) :
    { m with forest := g }.load c host =
      (m.load c host).map fun loaded => ({ loaded.1 with forest := g }, loaded.2) := by
  have known : checkKnown { m with forest := g } = m.checkKnown := by
    funext s
    unfold checkKnown
    rw [h.contains]
  have currently : checkCurrent { m with forest := g } = m.checkCurrent := by
    funext s
    unfold checkCurrent
    rw [known, h.isComposite]
  have recorded : checkHistory { m with forest := g } = m.checkHistory := by
    funext entry
    unfold checkHistory
    rw [known, h.super?]
  have initialized : isInitialized { m with forest := g } = m.isInitialized := rfl
  unfold load
  rw [known, currently, recorded, initialized]
  -- each check fails on both machines or on neither
  cases m.isInitialized with
  | true => rfl
  | false =>
    cases c.checkVersion with
    | error error => rfl
    | ok _ =>
      cases c.initial? with
      | none => cases c.current?.isSome <;> rfl
      | some initial =>
        dsimp only
        cases m.checkKnown initial with
        | error error => rfl
        | ok _ =>
          cases c.current?.forM m.checkCurrent with
          | error error => rfl
          | ok _ => cases c.history.forM m.checkHistory <;> rfl

end Machine

def Call.outline? : Call S E F X L → Option (Outline S)
  | .define superState initial history subs => some ⟨superState, initial, history, subs⟩
  | _ => none

def Call.isOutline (call : Call S E F X L) : Bool := call.outline?.isSome

namespace Run

variable [DecidableEq E] [DecidableEq X] {b : Behaviour S E F X W} {q r r' : Run S E F X L W} {ds : List (Outline S)}
  {calls calls' : List (Call S E F X L)}

def grants (r : Run S E F X L W) (call : Call S E F X L) : Bool :=
  call.outline?.all fun d => (r.machine.define d.parent d.initial d.history d.subs).isOk

def grantsAll (b : Behaviour S E F X W) (r : Run S E F X L W) : List (Call S E F X L) → Bool
  | [] => true
  | call :: rest => r.grants call && (r.call b call).grantsAll b rest

/-- Two runs that differ in nothing but the order in which their machines came by their states. -/
structure Rearranged (r r' : Run S E F X L W) : Prop where
  forest : r.machine.forest.Rearranged r'.machine.forest
  rest : r' = { r with machine := { r.machine with forest := r'.machine.forest } }

omit [DecidableEq E] [DecidableEq X] in
theorem Rearranged.of_forest {g : Forest S E F} (forest : r.machine.forest.Rearranged g) :
    r.Rearranged { r with machine := { r.machine with forest := g } } := ⟨forest, rfl⟩

omit [DecidableEq E] [DecidableEq X] in
theorem Rearranged.after {g : Forest S E F} {answer answer' : Except Misuse (Completed S E F X L W)}
    (answered : Answered (Machine.EndsWith g) answer answer') (forest : r.machine.forest.Rearranged g)
    (kept : ∀ done, answer = .ok done → done.machine.forest = r.machine.forest) :
    (r.after answer).Rearranged ({ r with machine := { r.machine with forest := g } }.after answer') := by
  cases answered with
  | refused error => exact .of_forest forest
  | accepted ended =>
    cases ended
    exact .of_forest ((kept _ rfl).symm ▸ forest)

theorem call_rearranged (alike : r.Rearranged r') (b : Behaviour S E F X W) (call : Call S E F X L) :
    (r.call b call).Rearranged (r'.call b call) := by
  obtain ⟨forest, rest⟩ := alike
  generalize r'.machine.forest = g at forest rest
  subst rest
  cases call with
  | define parent initial history subs =>
    rw [Run.call.eq_def, Run.call.eq_def]
    simp only [Machine.define]
    rcases forest.define ⟨parent, initial, history, subs⟩ with
      ⟨errors, errors', refused, refused'⟩ | ⟨f', g', accepted, accepted', forest'⟩
    · rw [refused, refused']
      exact .of_forest forest
    · rw [accepted, accepted']
      exact ⟨forest', rfl⟩
  | addTransition source event draft => exact ⟨forest.addTransition source event draft, rfl⟩
  | addEntryAction s action => exact ⟨forest.addEntryAction s action, rfl⟩
  | addExitAction s action => exact ⟨forest.addExitAction s action, rfl⟩
  | configure change => cases change <;> exact ⟨forest, rfl⟩
  | initializeAt s =>
    rw [Run.call.eq_def, Run.call.eq_def]
    have initialized : Machine.isInitialized { r.machine with forest := g } = r.machine.isInitialized := rfl
    simp only [Machine.initializeAt, initialized]
    cases r.machine.isInitialized with
    | true => exact .of_forest forest
    | false => exact ⟨forest.mention _, rfl⟩
  | enterInitialState =>
    refine Rearranged.after (Machine.enterInitialState_rearranged forest b r.host) forest fun done entered => ?_
    obtain ⟨⟨_, _, parts⟩, _⟩ := Machine.enterInitialState_resembles entered
    rw [parts]
  | fire signal =>
    refine Rearranged.after (Machine.fire_rearranged forest b signal r.host) forest fun done fired => ?_
    obtain ⟨_, _, ⟨_, _, parts⟩, _⟩ := Machine.fire_resembles fired
    rw [parts]
  | load checkpoint =>
    rw [Run.call.eq_def, Run.call.eq_def]
    simp only [Machine.load_rearranged forest]
    cases loaded : r.machine.load checkpoint r.host with
    | error error => exact .of_forest forest
    | ok done =>
      have kept : done.1.forest = r.machine.forest := by
        obtain ⟨_, ⟨same, _⟩ | ⟨initial, _, same, _⟩⟩ := Machine.load_ok loaded <;> rw [same]
      exact ⟨kept.symm ▸ forest, rfl⟩

theorem callAll_alike (alike : r.Rearranged r') (b : Behaviour S E F X W) (calls : List (Call S E F X L)) :
    (r.callAll b calls).Rearranged (r'.callAll b calls) := by
  unfold callAll
  induction calls generalizing r r' with
  | nil => exact alike
  | cons call rest ih => exact ih (call_rearranged alike b call)

structure Sketched (ds : List (Outline S)) (q r : Run S E F X L W) : Prop where
  forest : Forest.Outlined ds q.machine.forest r.machine.forest
  rest : r = { q with machine := { q.machine with forest := r.machine.forest } }

theorem Sketched.call_other (sketched : Sketched ds q r) (b : Behaviour S E F X W) {call : Call S E F X L}
    (definition : call.isDefinition) (other : call.isOutline = false) : Sketched ds (q.call b call) (r.call b call) := by
  obtain ⟨forest, rest⟩ := sketched
  generalize r.machine.forest = g at forest rest
  subst rest
  cases call with
  | define => cases other
  | addTransition source event draft => exact ⟨forest.addTransition source event draft, rfl⟩
  | addEntryAction s action => exact ⟨forest.addEntryAction s action, rfl⟩
  | addExitAction s action => exact ⟨forest.addExitAction s action, rfl⟩
  | configure change => cases change <;> exact ⟨forest, rfl⟩
  | _ => cases definition

theorem Sketched.call_outline (sketched : Sketched ds q r) (compatible : Outline.Compatible ds) (b : Behaviour S E F X W)
    {call : Call S E F X L} {d : Outline S} (asked : call.outline? = some d) :
    (r.grants call ↔ Outline.Compatible (ds ++ [d])) ∧ (r.grants call → Sketched (ds ++ [d]) q (r.call b call)) := by
  obtain ⟨forest, rest⟩ := sketched
  cases call with
  | define parent initial history subs =>
    cases asked
    have valid := forest.valid_iff (d := ⟨parent, initial, history, subs⟩) compatible
    rw [Run.call.eq_def]
    simp only [grants, Call.outline?, Option.all_some, Machine.define] at valid ⊢
    cases defined : r.machine.forest.define? (E := E) parent initial history subs with
    | error errors =>
      rw [defined] at valid
      exact ⟨valid, fun granted => by cases granted⟩
    | ok g =>
      rw [defined] at valid
      refine ⟨valid, fun _ => ⟨forest.define compatible defined, ?_⟩⟩
      rw [rest]
      rfl
  | _ => cases asked

theorem Sketched.callAll (sketched : Sketched ds q r) (compatible : Outline.Compatible ds) (b : Behaviour S E F X W)
    (definitions : ∀ call ∈ calls, call.isDefinition) :
    (r.grantsAll b calls ↔ Outline.Compatible (ds ++ calls.filterMap Call.outline?)) ∧
    (r.grantsAll b calls → Sketched (ds ++ calls.filterMap Call.outline?)
      (q.callAll b (calls.filter fun call => !call.isOutline)) (r.callAll b calls)) := by
  induction calls generalizing ds q r with
  | nil => simpa [grantsAll, Run.callAll, compatible] using sketched
  | cons call rest ih =>
    have definition := definitions call List.mem_cons_self
    have remaining : ∀ call ∈ rest, call.isDefinition := fun call member =>
      definitions call (List.mem_cons_of_mem _ member)
    cases asked : call.outline? with
    | none =>
      have other : call.isOutline = false := congrArg Option.isSome asked
      have granted : r.grants call := by
        unfold grants
        rw [asked]
        rfl
      rw [List.filterMap_cons_none asked, List.filter_cons_of_pos (by simp [other]), grantsAll, granted, Bool.true_and]
      exact ih (sketched.call_other b definition other) compatible remaining
    | some d =>
      have outline : call.isOutline := congrArg Option.isSome asked
      obtain ⟨valid, grown⟩ := sketched.call_outline compatible b asked
      rw [List.filterMap_cons_some asked, List.filter_cons_of_neg (by simp [outline]), grantsAll, Bool.and_eq_true,
        List.append_cons]
      by_cases granted : r.grants call
      · have next := ih (grown granted) (valid.mp granted) remaining
        rw [granted, eq_self, true_and]
        exact next
      · -- a piece that is refused is not compatible with those before it, and none that follow mend that
        refine ⟨⟨fun all => absurd all.1 granted, fun together => ?_⟩, fun all => absurd all.1 granted⟩
        exact absurd (valid.mpr together.of_append) granted

omit [DecidableEq E] [DecidableEq X] in
theorem Sketched.rearranged {ds' : List (Outline S)} (sketched : Sketched ds q r) (sketched' : Sketched ds' q r')
    (perm : ds'.Perm ds) (compatible : Outline.Compatible ds) : r.Rearranged r' := by
  obtain ⟨forest, rest⟩ := sketched
  obtain ⟨forest', rest'⟩ := sketched'
  generalize r.machine.forest = f at forest rest
  generalize r'.machine.forest = f' at forest' rest'
  subst rest rest'
  exact ⟨⟨_, _, _, forest, forest', perm, compatible⟩, rfl⟩

/-- In which order a hierarchy is asked for, and what is registered before or after it, makes no difference: it is
    accepted as a whole or not, and the machines that come of it cannot be told apart by what they do. -/
theorem callAll_rearranged (config : Config) (host : Host S E F X L W) (b : Behaviour S E F X W)
    (calls calls' : List (Call S E F X L)) (definitions : ∀ call ∈ calls, call.isDefinition) (perm : calls'.Perm calls)
    (others : (calls'.filter fun call => !call.isOutline) = calls.filter fun call => !call.isOutline) :
    let new : Run S E F X L W := start config host
    let r := new.callAll b calls
    let r' := new.callAll b calls'
    (new.grantsAll b calls' ↔ new.grantsAll b calls) ∧
    (new.grantsAll b calls →
      r'.machine.forest.keys.Perm r.machine.forest.keys ∧
      (∀ s, r'.machine.forest.node s = r.machine.forest.node s) ∧
      ∀ ops,
        let used := r.callAll b ops
        let used' := r'.callAll b ops
        used'.machine.current? = used.machine.current? ∧ used'.machine.memory = used.machine.memory ∧
          used'.contexts = used.contexts ∧ used'.host = used.host ∧
          ∀ s, used'.machine.forest.node s = used.machine.forest.node s) := by
  intro new r r'
  have blank : Sketched [] new new := ⟨.empty, rfl⟩
  have definitions' : ∀ call ∈ calls', call.isDefinition := fun call member => definitions call (perm.mem_iff.mp member)
  have outlines : (calls'.filterMap Call.outline?).Perm (calls.filterMap Call.outline?) := perm.filterMap _
  obtain ⟨valid, sketched⟩ := blank.callAll Outline.compatible_nil b definitions
  obtain ⟨valid', sketched'⟩ := blank.callAll Outline.compatible_nil b definitions'
  rw [List.nil_append] at valid valid' sketched sketched'
  have together : new.grantsAll b calls' ↔ new.grantsAll b calls :=
    ⟨fun granted => valid.mpr ((valid'.mp granted).perm outlines.symm),
      fun granted => valid'.mpr ((valid.mp granted).perm outlines)⟩
  refine ⟨together, fun granted => ?_⟩
  have alike : r.Rearranged r' :=
    (sketched granted).rearranged (others ▸ sketched' (together.mpr granted)) outlines (valid.mp granted)
  refine ⟨alike.forest.keys, alike.forest.node, fun ops => ?_⟩
  have used := callAll_alike alike b ops
  rw [used.rest]
  refine ⟨rfl, rfl, rfl, rfl, used.forest.node⟩

def bottomUpLamp : List (Call Lamp Switch Unit Empty Empty) :=
  [.define .on .dim .deep [.dim, .bright], .addTransition .off .toggle (.goto .on),
    .define .supply .off .none [.off, .on], .addTransition .on .toggle (.goto .off),
    .addTransition .dim .turn ((Draft.goto .bright).acting ⟨"turn", .noArgument, ()⟩)]

theorem callAll_rearranged_lamp :
    let new : Run Lamp Switch Unit Empty Empty Unit := start .standard (.ofWorld ())
    let r := new.callAll Lamp.quiet Lamp.definition.dropLast
    let r' := new.callAll Lamp.quiet bottomUpLamp
    let ops := [.initializeAt .supply, .enterInitialState, .fire ⟨.toggle, []⟩]
    new.grantsAll Lamp.quiet bottomUpLamp ∧ r'.machine.forest.keys ≠ r.machine.forest.keys ∧
      (r'.machine.forest.node .bright).level = 2 ∧ (r'.callAll Lamp.quiet ops).machine.current? = some .dim ∧
      (r'.callAll Lamp.quiet ops).records = (r.callAll Lamp.quiet ops).records := by
  dsimp only
  have law := callAll_rearranged .standard (.ofWorld ()) Lamp.quiet Lamp.definition.dropLast bottomUpLamp (by decide)
    (((List.Perm.swap _ _ _).cons _).trans (.swap _ _ _)) rfl
  obtain ⟨_, nodes, used⟩ := law.2 (by decide +kernel)
  obtain ⟨current, _, contexts, _⟩ := used [.initializeAt .supply, .enterInitialState, .fire ⟨.toggle, []⟩]
  refine ⟨by decide +kernel, by decide +kernel, (congrArg Node.level (nodes .bright)).trans ?_, current.trans ?_,
    congrArg (List.flatMap Context.records) contexts⟩
  · decide +kernel
  · decide +kernel

end Run

end Statechart
