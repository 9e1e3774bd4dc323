import Statechart.Proofs.Host.Journal
import Statechart.Proofs.Machine.Phase
import Statechart.Proofs.Machine.Travel

namespace Statechart

variable {S E F X L W W' : Type} [DecidableEq S]

/-- The calls that say what a machine is and who observes it. -/
def Call.isDefinition : Call S E F X L → Bool
  | .define .. | .addTransition .. | .addEntryAction .. | .addExitAction .. | .configure _ => true
  | _ => false

namespace Forest

variable {f : Forest S E F} {memory : Memory S} {s : S}

theorem mention_of_mem (known : s ∈ f.keys) : f.mention s = f := if_pos (Table.contains_iff.mpr known)

theorem get?_recorded (states : List S) (memory base : Memory S) (p : S) :
    ((states.filterMap fun s => (memory.get? s).map (HistoryEntry.mk s)).foldl
        (fun memory entry => memory.insert entry.superState entry.lastActive) base).get? p =
      if p ∈ states ∧ (memory.get? p).isSome then memory.get? p else base.get? p := by
  -- over the saved states, from a memory into which the earlier ones were put
  induction states generalizing base with
  | nil => simp
  | cons s rest ih =>
    cases found : memory.get? s with
    | none =>
      rw [List.filterMap_cons, found, Option.map_none, ih]
      by_cases same : p = s
      · simp [same, found]
      · simp [same]
    | some sub =>
      rw [List.filterMap_cons, found, Option.map_some, List.foldl_cons, ih, Table.get?_insert]
      by_cases same : p = s
      · simp [same, found]
      · simp [same]

end Forest

namespace Machine

variable {b : Behaviour S E F X W} {m m' blank : Machine S E F X L} {initial s : S} {host host' : Host S E F X L W}
  {records : List (Record S)} {contexts : List (Context S E)}

/-- The state in which a machine is initialized: the one that is asked for, unless an extension replaces it. -/
def initialFor (b : Behaviour S E F X W) (m : Machine S E F X L) (s : S) : S :=
  threaded (fun extension current => b.initialState extension m.info current) m.extensions s

structure Blank (m : Machine S E F X L) : Prop where
  wellFormed : m.WellFormed
  uninitialized : m.initial? = none
  untouched : m.memory = .empty

theorem blank_ofConfig (config : Config) : (ofConfig config : Machine S E F X L).Blank :=
  ⟨wellFormed_ofConfig config, rfl, rfl⟩

theorem Blank.unentered (blank : m.Blank) : m.current? = none := by
  have ready := blank.wellFormed.ready
  rw [isInitialized, blank.uninitialized] at ready
  rw [← Option.not_isSome_iff_eq_none]
  intro stands
  cases ready stands

/-- A machine that was put to use at a state and has moved since. Of its definition, only the mention of that
    state may be new. -/
structure Used (blank : Machine S E F X L) (initial : S) (m : Machine S E F X L) : Prop where
  wellFormed : m.WellFormed
  alike : { blank with forest := blank.forest.mention initial, initial? := some initial }.Resembles m
  leaf : ∀ s ∈ m.current?, m.forest.isComposite s = false

theorem Blank.initializeAt (blank : m.Blank) (b : Behaviour S E F X W) (s : S) (host : Host S E F X L W) :
    ∃ m' host', m.initializeAt b s host = .ok (m', host') ∧ m.Used (m.initialFor b s) m' ∧ m'.current? = none := by
  have accepted : ∃ host', m.initializeAt b s host = .ok ({ m with
      forest := m.forest.mention (m.initialFor b s), initial? := some (m.initialFor b s) }, host') := by
    unfold Machine.initializeAt isInitialized
    rw [blank.uninitialized, Host.consult_eq]
    exact ⟨_, rfl⟩
  obtain ⟨host', initialized⟩ := accepted
  refine ⟨_, host', initialized, ⟨blank.wellFormed.initializeAt initialized, ⟨m.memory, m.current?, rfl⟩, ?_⟩,
    blank.unentered⟩
  intro s stands
  rw [show _ = none from blank.unentered] at stands
  cases stands

omit [DecidableEq S] in
theorem Resembles.trans {m m' m'' : Machine S E F X L} (first : m.Resembles m') (second : m'.Resembles m'') :
    m.Resembles m'' := by
  obtain ⟨_, _, rfl⟩ := first
  obtain ⟨memory, current?, rfl⟩ := second
  exact ⟨memory, current?, rfl⟩

theorem Moves.resembles (moved : m.Moves m' records) : m.Resembles m' := by
  cases moved with
  | rest => exact .refl m
  | go pivot? reached passage => exact ⟨_, _, rfl⟩

theorem Travels.resembles (travelled : m.Travels m' contexts) : m.Resembles m' := by
  induction travelled with
  | stay => exact .refl m
  | step before ready moved state ih => exact ih.trans moved.resembles

theorem Used.travels (used : blank.Used initial m) (travelled : m.Travels m' contexts) : blank.Used initial m' :=
  ⟨travelled.wellFormed used.wellFormed, used.alike.trans travelled.resembles, travelled.leaf used.leaf⟩

theorem get?_recalled (wf : m.WellFormed) (p : S) :
    (m.rememberedSubStates.foldl (fun (memory : Memory S) entry =>
      memory.insert entry.superState entry.lastActive) .empty).get? p = m.memory.get? p := by
  unfold rememberedSubStates
  rw [Forest.get?_recorded]
  cases found : m.memory.get? p with
  | none => simp
  | some c =>
    -- only a composite state remembers anything, so that all of it is saved
    have link := wf.memory p c found
    have composite : p ∈ m.forest.composites := by
      refine List.mem_filter.mpr ⟨wf.tree.super_mem link, ?_⟩
      have below : m.forest.subs p ≠ [] := List.ne_nil_of_mem (wf.tree.sub_iff.mpr link)
      simpa [Forest.isComposite] using below
    rw [if_pos ⟨composite, rfl⟩]

variable {id : String} {time : Timestamp}

theorem Blank.load_eq (fresh : blank.Blank) (found : m.initial? = some initial) :
    blank.load (m.save id time) host = (do
      blank.checkKnown initial
      m.current?.forM blank.checkCurrent
      m.rememberedSubStates.forM blank.checkHistory
      let memory := m.rememberedSubStates.foldl
        (fun (memory : Memory S) entry => memory.insert entry.superState entry.lastActive) .empty
      return ({ blank with memory := memory, initial? := some initial, current? := m.current? },
        host.log (.loadedCheckpoint blank.name id m.current?))) := by
  unfold load isInitialized save
  rw [fresh.uninitialized, fresh.untouched, found]
  rfl

theorem Used.load_save_unknown (used : blank.Used initial m) (fresh : blank.Blank)
    (unknown : initial ∉ blank.forest.keys) (id : String) (time : Timestamp) (host : Host S E F X L W) :
    blank.load (m.save id time) host = .error (.unknownState initial) := by
  obtain ⟨memory, current?, rfl⟩ := used.alike
  have refused : blank.checkKnown initial = .error (.unknownState initial) := by
    unfold checkKnown
    rw [if_neg (mt Table.contains_iff.mp unknown)]
  rw [fresh.load_eq rfl, refused]
  rfl

theorem Used.load_save (used : blank.Used initial m) (fresh : blank.Blank) (known : initial ∈ blank.forest.keys)
    (id : String) (time : Timestamp) (host : Host S E F X L W) :
    ∃ restored, blank.load (m.save id time) host =
        .ok (restored, host.log (.loadedCheckpoint blank.name id m.current?)) ∧
      (∃ memory, restored = { m with memory := memory }) ∧
      (∀ s, restored.memory.get? s = m.memory.get? s) := by
  have recalled := get?_recalled used.wellFormed
  have wf := used.wellFormed
  have leaf := used.leaf
  obtain ⟨memory, current?, rfl⟩ := used.alike
  rw [Forest.mention_of_mem known] at recalled wf leaf ⊢
  have stands : current?.forM blank.checkCurrent = .ok () := by
    cases current? with
    | none => rfl
    | some s => exact checkCurrent_ok_iff.mpr ⟨wf.current_mem s rfl, leaf s rfl⟩
  rw [fresh.load_eq rfl, checkKnown_ok_iff.mpr known, stands]
  have listed : ∀ entry ∈ rememberedSubStates { blank with
      memory := memory, initial? := some initial, current? := current? }, blank.checkHistory entry = .ok () := by
    intro entry member
    obtain ⟨s, _, remembered⟩ := List.mem_filterMap.mp member
    obtain ⟨sub, found, rfl⟩ := Option.map_eq_some_iff.mp remembered
    have link := wf.memory s sub found
    exact checkHistory_ok_iff.mpr ⟨wf.tree.super_mem link, Forest.mem_of_super link, link⟩
  rw [forM_ok_iff.mpr listed]
  exact ⟨_, rfl, ⟨_, rfl⟩, recalled⟩

end Machine

namespace Run

variable [DecidableEq E] [DecidableEq X] {r : Run S E F X L W} {setup ops : List (Call S E F X L)}

theorem callAll_used (blank : r.machine.Blank) (b : Behaviour S E F X W) (s : S)
    (operations : ∀ op ∈ ops, op.isOperation) :
    r.machine.Used (r.machine.initialFor b s) (r.callAll b (.initializeAt s :: ops)).machine := by
  obtain ⟨m', host', initialized, used, _⟩ := blank.initializeAt b s r.host
  have called : r.call b (.initializeAt s) = ⟨m', host', r.contexts⟩ := by
    rw [call.eq_def]
    simp only [initialized]
  have started : (r.call b (.initializeAt s)).machine.WellFormed := call_wellFormed b blank.wellFormed _
  obtain ⟨contexts, _, travelled⟩ := operations_travel (b := b) started operations
  rw [called] at travelled
  change r.machine.Used _ ((r.call b (.initializeAt s)).callAll b ops).machine
  rw [called]
  exact used.travels travelled

theorem call_definition {call : Call S E F X L} (definition : call.isDefinition)
    {r : Run S E F X L W} {r' : Run S E F X L W'} (same : r'.machine = r.machine) (b : Behaviour S E F X W)
    (b' : Behaviour S E F X W') :
    (r'.call b' call).machine = (r.call b call).machine ∧ (r.call b call).host = r.host ∧
      (r.call b call).contexts = r.contexts ∧ (r.machine.Blank → (r.call b call).machine.Blank) := by
  have wellFormed := fun wf => call_wellFormed b (r := r) wf call
  cases call with
  | define superState initial history subs =>
    rw [Run.call.eq_def] at wellFormed ⊢
    rw [Run.call.eq_def]
    simp only [same, Machine.define] at wellFormed ⊢
    cases built : r.machine.forest.define? superState initial history subs with
    | error errors => exact ⟨same, rfl, rfl, fun blank => blank⟩
    | ok forest =>
      rw [built] at wellFormed
      exact ⟨rfl, rfl, rfl, fun blank => ⟨wellFormed blank.wellFormed, blank.uninitialized, blank.untouched⟩⟩
  | addTransition source event draft =>
    refine ⟨?_, rfl, rfl, fun blank => ⟨wellFormed blank.wellFormed, blank.uninitialized, blank.untouched⟩⟩
    simp only [Run.call, same]
  | addEntryAction s action =>
    refine ⟨?_, rfl, rfl, fun blank => ⟨wellFormed blank.wellFormed, blank.uninitialized, blank.untouched⟩⟩
    simp only [Run.call, same]
  | addExitAction s action =>
    refine ⟨?_, rfl, rfl, fun blank => ⟨wellFormed blank.wellFormed, blank.uninitialized, blank.untouched⟩⟩
    simp only [Run.call, same]
  | configure change =>
    refine ⟨?_, rfl, rfl, fun blank => ⟨wellFormed blank.wellFormed, ?_, ?_⟩⟩
    · simp only [Run.call, same]
    · cases change <;> exact blank.uninitialized
    · cases change <;> exact blank.untouched
  | _ => cases definition

theorem callAll_definitions (definitions : ∀ call ∈ setup, call.isDefinition) {r : Run S E F X L W}
    {r' : Run S E F X L W'} (same : r'.machine = r.machine) (b : Behaviour S E F X W) (b' : Behaviour S E F X W') :
    (r'.callAll b' setup).machine = (r.callAll b setup).machine ∧ (r.callAll b setup).host = r.host ∧
      (r.callAll b setup).contexts = r.contexts ∧ (r.machine.Blank → (r.callAll b setup).machine.Blank) := by
  induction setup generalizing r r' with
  | nil => exact ⟨same, rfl, rfl, fun blank => blank⟩
  | cons call rest ih =>
    obtain ⟨alike, host, contexts, blank⟩ := call_definition (definitions call List.mem_cons_self) same b b'
    obtain ⟨alike', host', contexts', blank'⟩ :=
      ih (fun call member => definitions call (List.mem_cons_of_mem _ member)) alike
    exact ⟨alike', host'.trans host, contexts'.trans contexts, blank' ∘ blank⟩

theorem callAll_put_to_use (config : Config) (host : Host S E F X L W) (host' : Host S E F X L W')
    (b : Behaviour S E F X W) (b' : Behaviour S E F X W') (s : S) (definitions : ∀ call ∈ setup, call.isDefinition)
    (operations : ∀ op ∈ ops, op.isOperation) :
    let used := (start config host).callAll b (setup ++ .initializeAt s :: ops)
    let fresh := (start config host').callAll b' setup
    fresh.host = host' ∧ fresh.machine.Blank ∧ fresh.machine.Used (fresh.machine.initialFor b s) used.machine := by
  have alike : (start config host).machine = (start config host').machine := rfl
  obtain ⟨same, unused, _, blank⟩ := callAll_definitions definitions alike b' b
  have fresh := blank (Machine.blank_ofConfig config)
  have used := callAll_used (same ▸ fresh) b s operations
  rw [same] at used
  rw [callAll_append]
  exact ⟨unused, fresh, used⟩

/-- A machine of the same definition takes over what was saved exactly when it knows the state in which the
    saved machine was initialized. Nothing else is ever held against a checkpoint that was saved. -/
theorem callAll_saved (config : Config) (host : Host S E F X L W) (host' : Host S E F X L W')
    (b : Behaviour S E F X W) (b' : Behaviour S E F X W') (setup ops : List (Call S E F X L)) (s : S) (id : String)
    (time : Timestamp) (definitions : ∀ call ∈ setup, call.isDefinition) (operations : ∀ op ∈ ops, op.isOperation) :
    let used := (start config host).callAll b (setup ++ .initializeAt s :: ops)
    let fresh := (start config host').callAll b' setup
    let initial := fresh.machine.initialFor b s
    used.machine.initial? = some initial ∧
      ((fresh.machine.load (used.machine.save id time) fresh.host).isOk ↔ initial ∈ fresh.machine.forest.keys) ∧
      (initial ∉ fresh.machine.forest.keys →
        fresh.machine.load (used.machine.save id time) fresh.host = .error (.unknownState initial)) := by
  obtain ⟨_, blank, used⟩ := callAll_put_to_use config host host' b b' s definitions operations
  obtain ⟨memory, current?, parts⟩ := used.alike
  refine ⟨by rw [parts], ⟨fun accepted => ?_, fun known => ?_⟩, fun unknown => ?_⟩
  · by_contra unknown
    rw [used.load_save_unknown blank unknown] at accepted
    cases accepted
  · obtain ⟨restored, accepted, _⟩ :=
      used.load_save blank known id time ((start config host').callAll b' setup).host
    rw [accepted]
    rfl
  · exact used.load_save_unknown blank unknown id time _

theorem callAll_saved_lamp :
    let used := (start .standard (.ofWorld ())).callAll Lamp.quiet
      (Lamp.definition ++ [.enterInitialState, .fire ⟨.toggle, []⟩])
    let fresh := (start .standard (.ofWorld ())).callAll Lamp.quiet Lamp.definition.dropLast
    (fresh.machine.load (used.machine.save "saved" ⟨⟨2024, 1, 2⟩, ⟨0, 0⟩, by decide⟩) fresh.host).isOk := by
  have law := callAll_saved .standard (.ofWorld ()) (.ofWorld ()) Lamp.quiet Lamp.quiet Lamp.definition.dropLast
    [.enterInitialState, .fire ⟨.toggle, []⟩] .supply "saved" ⟨⟨2024, 1, 2⟩, ⟨0, 0⟩, by decide⟩ (by decide) (by decide)
  exact law.2.1.mpr (by decide +kernel)

/-- A lamp that is initialized in a state its definition does not mention is saved in vain. -/
theorem callAll_unmentioned_lamp :
    let setup : List (Call Lamp Switch Unit Empty Empty) := [.addTransition .off .toggle (.goto .on)]
    let used := (start .standard (.ofWorld ())).callAll Lamp.quiet
      (setup ++ [.initializeAt .supply, .enterInitialState])
    let fresh := (start .standard (.ofWorld ())).callAll Lamp.quiet setup
    used.machine.initial? = some .supply ∧ used.machine.current? = some .supply ∧
      (fresh.machine.load (used.machine.save "saved" ⟨⟨2024, 1, 2⟩, ⟨0, 0⟩, by decide⟩) fresh.host).isOk = false := by
  decide +kernel

end Run

end Statechart
