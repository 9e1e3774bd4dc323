import Statechart.Proofs.Forest.Registration
import Statechart.Proofs.Machine.Configuration
import Statechart.Proofs.Machine.Hierarchy
import Statechart.Proofs.Machine.Loading

namespace Statechart

variable {S E F X L W : Type} [DecidableEq S]

namespace Forest

variable {f g : Forest S E F} {parent initial s : S} {subs : List S} {history : HistoryType}

theorem Defined.lineage (h : f.Ranked f.level) (defined : f.Defined g parent initial history subs) (s : S) :
    g.lineage s = f.lineage s ++ if ∃ a ∈ f.lineage s, a ∈ subs then g.lineage parent else [] := by
  induction s using h.induct with
  | root s link =>
    have above := defined.supers s
    rw [h.lineage_root link]
    by_cases placed : s ∈ subs
    · rw [if_pos placed] at above
      rw [if_pos ⟨s, List.mem_singleton_self s, placed⟩, defined.lineage_sub above]
      rfl
    · rw [if_neg placed, link] at above
      have untouched : ¬∃ a ∈ [s], a ∈ subs := by simpa using placed
      rw [if_neg untouched, defined.lineage_root above, List.append_nil]
  | sub s p link ih =>
    have kept : s ∉ subs := fun placed => by
      rw [defined.free s placed] at link
      cases link
    have same : (∃ a ∈ s :: f.lineage p, a ∈ subs) ↔ ∃ a ∈ f.lineage p, a ∈ subs := by simp [kept]
    rw [h.lineage_sub link, defined.lineage_sub (defined.super_kept link), ih, if_congr same rfl rfl]
    rfl

theorem Ranked.isComposite_eq_false_iff {rank : S → Nat} (h : f.Ranked rank) :
    f.isComposite s = false ↔ ∀ c, f.super? c ≠ some s := by
  unfold isComposite
  rw [Bool.not_eq_false', List.isEmpty_iff, List.eq_nil_iff_forall_not_mem]
  exact forall_congr' fun c => not_congr h.sub_iff

theorem Defined.isComposite_eq_false_iff (h : f.Ranked f.level) (defined : f.Defined g parent initial history subs) :
    g.isComposite s = false ↔ f.isComposite s = false ∧ s ≠ parent := by
  rw [defined.toRanked.isComposite_eq_false_iff, h.isComposite_eq_false_iff]
  constructor
  · intro leaf
    refine ⟨fun c link => leaf c (defined.super_kept link), ?_⟩
    rintro rfl
    exact leaf initial (by rw [defined.supers, if_pos defined.listed])
  · rintro ⟨leaf, other⟩ c link
    rw [defined.supers] at link
    split at link
    · exact other (Option.some.inj link).symm
    · exact leaf c link

theorem Ranked.congr_positions (h : f.Ranked f.level) (h' : g.Ranked g.level)
    (positions : ∀ a, (g.node a).position = (f.node a).position) :
    g.lineage = f.lineage ∧ g.isComposite = f.isComposite := by
  have supers : ∀ a, g.super? a = f.super? a := fun a => (congrArg Node.super? (positions a) :)
  have subStates : ∀ a, g.subs a = f.subs a := fun a => (congrArg Node.subs (positions a) :)
  constructor
  · funext s
    exact h.lineage_congr h' fun a _ => supers a
  · funext s
    rw [isComposite, subStates]
    rfl

end Forest

namespace Machine

variable {m m' m'' blank : Machine S E F X L} {b : Behaviour S E F X W} {parent initial current s : S} {subs : List S}
  {history : HistoryType} {host : Host S E F X L W} {records : List (Record S)}

/-- A definition leaves a machine alone that stands elsewhere than in the new super-state and in and below none of
    the new sub-states. -/
def Spares (m : Machine S E F X L) (parent : S) (subs : List S) : Prop :=
  ∀ s ∈ m.current?, s ≠ parent ∧ ∀ a ∈ m.forest.lineage s, a ∉ subs

theorem Moves.exit_mem (moved : m.Moves m' records) (left : ⟨.exit, s⟩ ∈ records) :
    s ∈ m.forest.configuration m.current? := by
  cases moved with
  | rest => cases left
  | go pivot? reached passage =>
    have departed : s ∈ m.forest.departures pivot? m.current? := by simpa using left
    unfold Forest.departures at departed
    cases standing : m.current? with
    | none =>
      rw [standing] at departed
      cases departed
    | some current =>
      rw [standing] at departed
      exact Forest.mem_branch_lineage departed

theorem load_save_iff (wf : m.WellFormed) (standing : m.current? = some current) (unused : blank.isInitialized = false)
    (same : blank.forest = m.forest) (id : String) (time : Timestamp) (host : Host S E F X L W) :
    (blank.load (m.save id time) host).isOk ↔ m.forest.isComposite current = false := by
  obtain ⟨initial, ready⟩ := Option.isSome_iff_exists.mp (wf.ready (by rw [standing]; rfl))
  have recalled : ∀ entry ∈ m.rememberedSubStates, entry.superState ∈ m.forest.keys ∧
      entry.lastActive ∈ m.forest.keys ∧ m.forest.super? entry.lastActive = some entry.superState := by
    intro entry member
    obtain ⟨p, _, found⟩ := List.mem_filterMap.mp member
    obtain ⟨c, remembered, rfl⟩ := Option.map_eq_some_iff.mp found
    have link := wf.memory p c remembered
    exact ⟨wf.tree.super_mem link, Forest.mem_of_super link, link⟩
  have accepted : (blank.load (m.save id time) host).isOk ↔
      ∀ demand ∈ blank.checkpointDemands (m.save id time), demand.holds := by
    rw [isOk_iff_exists]
    constructor
    · rintro ⟨⟨restored, host'⟩, loaded⟩
      exact (load_ok_iff.mp loaded).1
    · intro met
      exact ⟨blank.takeOver (m.save id time) host, load_ok_iff.mpr ⟨met, rfl⟩⟩
  rw [accepted, checkpointDemands_met_iff, same]
  constructor
  · rintro ⟨_, _, ⟨absent, _⟩ | ⟨_, leaf, _⟩⟩
    · exact absurd (ready.symm.trans absent) (by simp)
    · exact (leaf current standing).2
  · intro leaf
    refine ⟨unused, rfl, .inr ⟨⟨initial, ready, wf.initial_mem initial ready⟩, ?_, recalled⟩⟩
    intro s stands
    cases standing.symm.trans stands
    exact ⟨wf.current_mem current standing, leaf⟩

structure Redefines (m m' : Machine S E F X L) (parent : S) (subs : List S) (current : S) : Prop where
  stands : m'.current? = some current
  leaf_iff : m'.forest.isComposite current = false ↔ m.forest.isComposite current = false ∧ current ≠ parent
  ancestors : m'.forest.ancestors current = m.forest.ancestors current ++
    if ∃ a ∈ m.forest.lineage current, a ∈ subs then m'.forest.lineage parent else []
  spares_iff : m.Spares parent subs ↔
    m'.forest.ancestors current = m.forest.ancestors current ∧ current ≠ parent
  loads_iff : ∀ (W : Type) (blank : Machine S E F X L) (host : Host S E F X L W) (id : String) (time : Timestamp),
    blank.isInitialized = false → blank.forest = m'.forest →
      ((blank.load (m'.save id time) host).isOk ↔ m.forest.isComposite current = false ∧ current ≠ parent)

theorem WellFormed.redefines (wf : m.WellFormed) (standing : m.current? = some current)
    (defined : m.define parent initial history subs = .ok m') : m.Redefines m' parent subs current := by
  obtain ⟨grown, same⟩ := define_ok_iff.mp defined
  have changed := Forest.define?_ok wf.tree.toRanked grown
  have lineage := changed.lineage wf.tree.toRanked current
  have leaf := changed.isComposite_eq_false_iff wf.tree.toRanked (s := current)
  have stands : m'.current? = some current := by
    rw [same]
    exact standing
  have ancestors : m'.forest.ancestors current = m.forest.ancestors current ++
      if ∃ a ∈ m.forest.lineage current, a ∈ subs then m'.forest.lineage parent else [] := by
    rw [changed.lineage_eq_cons, wf.tree.lineage_eq_cons, List.cons_append] at lineage
    rw [wf.tree.lineage_eq_cons]
    exact (List.cons.inj lineage).2
  refine ⟨stands, leaf, ancestors, ?_, ?_⟩
  · unfold Spares
    rw [standing, ancestors, List.append_right_eq_self, ite_eq_right_iff]
    constructor
    · intro spared
      obtain ⟨other, apart⟩ := spared current rfl
      refine ⟨?_, other⟩
      rintro ⟨a, active, placed⟩
      exact absurd placed (apart a active)
    · rintro ⟨ended, other⟩ s ⟨⟩
      refine ⟨other, fun a active placed => ?_⟩
      exact List.ne_nil_of_mem (changed.mem_lineage_self parent) (ended ⟨a, active, placed⟩)
  · intro W blank host id time unused alike
    rw [load_save_iff (wf.define defined) stands unused alike, leaf]

theorem Redefines.exit_mem (redefined : m.Redefines m' parent subs current) (wf : m.WellFormed) (wf' : m'.WellFormed)
    (apart : ∀ a ∈ m.forest.lineage current, a ∉ subs) (moved : m'.Moves m'' records) (left : ⟨.exit, s⟩ ∈ records) :
    s ∈ m.forest.lineage current := by
  have untouched : ¬∃ a ∈ m.forest.lineage current, a ∈ subs := by
    rintro ⟨a, active, placed⟩
    exact apart a active placed
  have ancestors := redefined.ancestors
  rw [if_neg untouched, List.append_nil] at ancestors
  rw [wf.tree.lineage_eq_cons, ← ancestors, ← wf'.tree.lineage_eq_cons]
  have active := moved.exit_mem left
  rw [redefined.stands] at active
  exact active

end Machine

namespace Run

variable {r r' r'' : Run S E F X L W} {b : Behaviour S E F X W} {call : Call S E F X L} {later : List (Call S E F X L)}

def active (r : Run S E F X L W) : Finset S := (r.machine.forest.configuration r.machine.current?).toFinset

/-- From one point of a run to a later one, what was entered and left accounts for what is active, and the machine
    stands on a leaf. -/
structure Accounts (r r' : Run S E F X L W) : Prop where
  leaf : ∀ s ∈ r'.machine.current?, r'.machine.forest.isComposite s = false
  replayed : ∃ contexts, r'.contexts = r.contexts ++ contexts ∧
    Record.replayAll r.active (contexts.flatMap Context.records) = r'.active

theorem Accounts.trans (first : r.Accounts r') (second : r'.Accounts r'') : r.Accounts r'' := by
  obtain ⟨earlier, log, replayed⟩ := first.replayed
  obtain ⟨later, log', replayed'⟩ := second.replayed
  refine ⟨second.leaf, earlier ++ later, by rw [log', log, List.append_assoc], ?_⟩
  rw [List.flatMap_append, Record.replayAll, List.foldl_append]
  exact (congrArg (Record.replayAll · _) replayed).trans replayed'

theorem Accounts.of_place (leaf : ∀ s ∈ r.machine.current?, r.machine.forest.isComposite s = false)
    (log : r'.contexts = r.contexts) (stands : r'.machine.current? = r.machine.current?)
    (place : ∀ s ∈ r.machine.current?, r'.machine.forest.lineage s = r.machine.forest.lineage s ∧
      r'.machine.forest.isComposite s = r.machine.forest.isComposite s) : r.Accounts r' := by
  refine ⟨fun s standing => ?_, [], by rw [log, List.append_nil], ?_⟩
  · rw [stands] at standing
    rw [(place s standing).2]
    exact leaf s standing
  · unfold active
    rw [stands]
    cases standing : r.machine.current? with
    | none => rfl
    | some s =>
      show (r.machine.forest.lineage s).toFinset = (r'.machine.forest.lineage s).toFinset
      rw [(place s standing).1]

theorem Accounts.of_positions (wf : r.machine.WellFormed) (wf' : r'.machine.WellFormed)
    (leaf : ∀ s ∈ r.machine.current?, r.machine.forest.isComposite s = false)
    (log : r'.contexts = r.contexts) (stands : r'.machine.current? = r.machine.current?)
    (positions : ∀ a, (r'.machine.forest.node a).position = (r.machine.forest.node a).position) : r.Accounts r' := by
  obtain ⟨lineage, composite⟩ := wf.tree.toRanked.congr_positions wf'.tree.toRanked positions
  exact .of_place leaf log stands fun s _ => ⟨congrFun lineage s, congrFun composite s⟩

variable [DecidableEq E] [DecidableEq X]

def Minds (r : Run S E F X L W) (call : Call S E F X L) : Prop :=
  ∀ parent initial history subs, call = .define parent initial history subs →
    (r.machine.define parent initial history subs).isOk → r.machine.Spares parent subs

def Considerate (b : Behaviour S E F X W) : Run S E F X L W → List (Call S E F X L) → Prop
  | _, [] => True
  | r, call :: rest => r.Minds call ∧ Considerate b (r.call b call) rest

theorem call_accounts (b : Behaviour S E F X W) (wf : r.machine.WellFormed)
    (leaf : ∀ s ∈ r.machine.current?, r.machine.forest.isComposite s = false) (minds : r.Minds call)
    (carried : r.machine.isInitialized ∨ ∀ checkpoint, call ≠ .load checkpoint) : r.Accounts (r.call b call) := by
  have wf' := call_wellFormed b wf call
  have still : r.Accounts r := .of_place leaf rfl rfl fun s _ => ⟨rfl, rfl⟩
  have operates : call.isOperation → r.Accounts (r.call b call) := by
    intro operation
    rcases call_operation (b := b) wf operation with same | ⟨context, log, _, _, moved, _⟩
    · rw [same]
      exact still
    · refine ⟨moved.leaf leaf, [context], log, ?_⟩
      have replays := moved.replays wf
      rw [List.flatMap_singleton, active, replays.reached, active, moved.forest]
  cases call with
  | define parent initial history subs =>
    cases defined : r.machine.define parent initial history subs with
    | error errors =>
      rw [call.eq_def]
      simp only [defined]
      exact still
    | ok m' =>
      rw [call.eq_def]
      simp only [defined]
      have spared := minds parent initial history subs rfl (by rw [defined]; rfl)
      obtain ⟨_, same⟩ := Machine.define_ok_iff.mp defined
      refine .of_place leaf rfl (by rw [same]) fun s standing => ?_
      have redefined := wf.redefines standing defined
      obtain ⟨ancestors, other⟩ := redefined.spares_iff.mp spared
      refine ⟨?_, ?_⟩
      · rw [(wf.define defined).tree.lineage_eq_cons, wf.tree.lineage_eq_cons, ancestors]
      · rw [leaf s standing, redefined.leaf_iff]
        exact ⟨leaf s standing, other⟩
  | addTransition source event draft =>
    exact .of_positions wf wf' leaf rfl rfl (Forest.position_addTransition _ source event draft)
  | addEntryAction s action =>
    exact .of_positions wf wf' leaf rfl rfl (Forest.view_addEntryAction Node.position (fun _ _ => rfl) _ s action)
  | addExitAction s action =>
    exact .of_positions wf wf' leaf rfl rfl (Forest.view_addExitAction Node.position (fun _ _ => rfl) _ s action)
  | configure change =>
    cases change <;> exact .of_place leaf rfl rfl fun s _ => ⟨rfl, rfl⟩
  | initializeAt s =>
    cases initialized : r.machine.initializeAt b s r.host with
    | error error =>
      rw [call.eq_def]
      simp only [initialized]
      exact still
    | ok done =>
      have mentioned : ∃ a, done.1.forest = r.machine.forest.mention a ∧ done.1.current? = r.machine.current? := by
        unfold Machine.initializeAt at initialized
        split at initialized
        · cases initialized
        · cases initialized
          exact ⟨_, rfl, rfl⟩
      obtain ⟨a, forest, stands⟩ := mentioned
      rw [call.eq_def] at wf' ⊢
      simp only [initialized] at wf' ⊢
      refine .of_positions wf wf' leaf rfl stands fun c => ?_
      rw [forest, Forest.node_mention]
  | enterInitialState => exact operates rfl
  | fire signal => exact operates rfl
  | load checkpoint =>
    have initialized := carried.resolve_right fun other => other checkpoint rfl
    have refused : ∀ done, r.machine.load checkpoint r.host ≠ .ok done := by
      rintro ⟨m', host'⟩ loaded
      have fresh := (Machine.load_ok loaded).1
      rw [initialized] at fresh
      cases fresh
    rw [call.eq_def]
    cases loaded : r.machine.load checkpoint r.host with
    | error error =>
      simp only [loaded]
      exact still
    | ok done => exact absurd loaded (refused done)

theorem callAll_accounts (b : Behaviour S E F X W) (wf : r.machine.WellFormed)
    (leaf : ∀ s ∈ r.machine.current?, r.machine.forest.isComposite s = false) (considerate : Considerate b r later)
    (carried : r.machine.isInitialized ∨ ∀ checkpoint, .load checkpoint ∉ later) : r.Accounts (r.callAll b later) := by
  induction later generalizing r with
  | nil => exact .of_place leaf rfl rfl fun s _ => ⟨rfl, rfl⟩
  | cons call rest ih =>
    obtain ⟨minds, considerate⟩ := considerate
    have first := call_accounts b wf leaf minds
      (carried.imp_right fun other checkpoint same => other checkpoint (same ▸ List.mem_cons_self))
    have carried' : (r.call b call).machine.isInitialized ∨ ∀ checkpoint, .load checkpoint ∉ rest := by
      rcases carried with initialized | other
      · left
        rcases call_standing b r call with ⟨same, _⟩ | ⟨yes, _⟩
        · exact same.trans initialized
        · exact yes
      · exact .inr fun checkpoint member => other checkpoint (List.mem_cons_of_mem _ member)
    exact first.trans (ih (call_wellFormed b wf call) first.leaf considerate carried')

/-- A hierarchy may be defined at any time. It keeps the place where an entered machine stands exactly when it spares
    it: otherwise the machine stands in a composite state, or below states that were never entered. As long as every
    definition spares that place, the machine stands on a leaf, what was entered and left leads to that leaf and its
    ancestors, and whatever is fired next leaves and enters states in order. -/
theorem callAll_define (config : Config) (host : Host S E F X L W) (b : Behaviour S E F X W)
    (calls : List (Call S E F X L)) :
    let r := (start config host).callAll b calls
    (∀ parent initial history subs m' current, r.machine.current? = some current →
      r.machine.define parent initial history subs = .ok m' → r.machine.Redefines m' parent subs current ∧
        ((∀ a ∈ r.machine.forest.lineage current, a ∉ subs) → ∀ signal host' done,
          m'.fire b signal host' = .ok done →
            ∀ s, ⟨.exit, s⟩ ∈ done.context.records → s ∈ r.machine.forest.lineage current)) ∧
    ((∀ s ∈ r.machine.current?, r.machine.forest.isComposite s = false) → ∀ later, Considerate b r later →
      (r.machine.isInitialized ∨ ∀ checkpoint, .load checkpoint ∉ later) →
      let r' := r.callAll b later
      r.Accounts r' ∧ ∀ signal done, r'.machine.fire b signal r'.host = .ok done →
        r'.machine.forest.Disciplined r'.active done.context.records) := by
  intro r
  have wf := callAll_wellFormed b (r := start config host) (Machine.wellFormed_ofConfig config) calls
  constructor
  · intro parent initial history subs m' current standing defined
    have redefined := wf.redefines standing defined
    refine ⟨redefined, fun apart signal host' done fired s left => ?_⟩
    obtain ⟨_, _, moved, _⟩ := Machine.fire_ok (wf.define defined) fired
    exact redefined.exit_mem wf (wf.define defined) apart moved left
  · intro leaf later considerate carried r'
    refine ⟨callAll_accounts b wf leaf considerate carried, fun signal done fired => ?_⟩
    have wf' := callAll_wellFormed b wf later
    obtain ⟨_, _, moved, _⟩ := Machine.fire_ok wf' fired
    exact (moved.replays wf').disciplined

def plainLamp : Run Lamp Switch Unit Empty Empty Unit :=
  (start .standard (.ofWorld ())).callAll Lamp.quiet
    [.addTransition .off .toggle (.goto .on), .initializeAt .off, .enterInitialState]

theorem callAll_define_lamp :
    (∃ m', plainLamp.machine.define .on .dim .none [.dim] = .ok m' ∧ m'.forest.isComposite .off = false ∧
      m'.forest.ancestors .off = plainLamp.machine.forest.ancestors .off) ∧
    plainLamp.Accounts (plainLamp.callAll Lamp.quiet [.define .on .dim .none [.dim], .fire ⟨.toggle, []⟩]) := by
  obtain ⟨one, run⟩ := callAll_define .standard (.ofWorld ()) Lamp.quiet
    [.addTransition .off .toggle (.goto .on), .initializeAt .off, .enterInitialState]
  have spared : plainLamp.machine.Spares .on [.dim] := by
    rintro s ⟨⟩
    decide +kernel
  constructor
  · have accepted : (plainLamp.machine.define .on .dim .none [.dim]).isOk := by decide +kernel
    obtain ⟨m', defined⟩ := isOk_iff_exists.mp accepted
    obtain ⟨redefined, _⟩ := one .on .dim .none [.dim] m' .off rfl defined
    obtain ⟨ancestors, other⟩ := redefined.spares_iff.mp spared
    exact ⟨m', defined, redefined.leaf_iff.mpr ⟨by decide +kernel, other⟩, ancestors⟩
  · refine (run ?_ [.define .on .dim .none [.dim], .fire ⟨.toggle, []⟩] ⟨?_, ?_, trivial⟩ (.inl rfl)).1
    · rintro s ⟨⟩
      decide +kernel
    · rintro parent initial history subs ⟨⟩ _
      exact spared
    · rintro parent initial history subs ⟨⟩

/-- A lamp that stands in off gets a dim part of off, or a supply around off. With the first it saves a checkpoint
    that a lamp of the same definition refuses. With the second a toggle leaves the supply, which was never entered. -/
theorem callAll_define_unspared_lamp :
    let definition : List (Call Lamp Switch Unit Empty Empty) :=
      [.addTransition .off .toggle (.goto .on), .define .off .dim .none [.dim]]
    let fresh := (start .standard (.ofWorld ())).callAll Lamp.quiet definition
    plainLamp.machine.current? = some .off ∧ plainLamp.machine.forest.isComposite .off = false ∧
    plainLamp.active = {.off} ∧
    (∃ below, plainLamp.machine.define .off .dim .none [.dim] = .ok below ∧ below.current? = some .off ∧
      below.forest.isComposite .off ∧
      ∀ time, fresh.machine.load (below.save "saved" time) fresh.host = .error (.currentNotLeaf .off)) ∧
    ∃ above done, plainLamp.machine.define .supply .off .none [.off] = .ok above ∧
      above.forest.ancestors .off = [.supply] ∧ above.fire Lamp.quiet ⟨.toggle, []⟩ plainLamp.host = .ok done ∧
      ⟨.exit, .supply⟩ ∈ done.context.records := by
  intro definition fresh
  refine ⟨rfl, by decide +kernel, by decide +kernel, ⟨_, rfl, rfl, by decide +kernel, fun _ => rfl⟩, ?_⟩
  refine ⟨_, _, rfl, rfl, rfl, ?_⟩
  decide +kernel

end Run

end Statechart
