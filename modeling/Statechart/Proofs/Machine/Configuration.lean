import Mathlib.Data.Finset.Basic
import Statechart.Proofs.Machine.Travel

namespace Statechart

variable {S E F X L W : Type} [DecidableEq S]

def Record.replay (active : Finset S) : Record S → Finset S
  | ⟨.enter, s⟩ => insert s active
  | ⟨.exit, s⟩ => active.erase s

def Record.replayAll (active : Finset S) (records : List (Record S)) : Finset S := records.foldl Record.replay active

namespace Forest

/-- A state may be entered while it is inactive and its super-state, if there is one, is active. It may be
    left while it is active and none of its sub-states is. -/
def Admits (f : Forest S E F) (active : Finset S) : Record S → Prop
  | ⟨.enter, s⟩ => s ∉ active ∧ ∀ p ∈ f.super? s, p ∈ active
  | ⟨.exit, s⟩ => s ∈ active ∧ ∀ c ∈ f.subs s, c ∉ active

def Disciplined (f : Forest S E F) : Finset S → List (Record S) → Prop
  | _, [] => True
  | active, record :: rest => f.Admits active record ∧ f.Disciplined (record.replay active) rest

structure Replays (f : Forest S E F) (active : Finset S) (records : List (Record S)) (active' : Finset S) : Prop where
  disciplined : f.Disciplined active records
  reached : Record.replayAll active records = active'

variable {f : Forest S E F} {rank : S → Nat} {active active' active'' : Finset S} {first second : List (Record S)}
  {stop? : Option S} {s : S}

theorem Replays.refl (f : Forest S E F) (active : Finset S) : f.Replays active [] active := ⟨trivial, rfl⟩

theorem Replays.append (before : f.Replays active first active') (after : f.Replays active' second active'') :
    f.Replays active (first ++ second) active'' := by
  induction first generalizing active with
  | nil =>
    have same := before.reached
    subst same
    exact after
  | cons record rest ih =>
    have next := ih ⟨before.disciplined.2, before.reached⟩
    exact ⟨⟨before.disciplined.1, next.disciplined⟩, next.reached⟩

theorem Ranked.replays_enter (h : f.Ranked rank) (s : S) :
    f.Replays (f.configuration (f.super? s)).toFinset [⟨.enter, s⟩] (f.lineage s).toFinset := by
  have whole := h.branch_append_configuration (s := s) fun p link => h.mem_lineage_super link
  rw [h.branch_super] at whole
  have distinct := h.nodup_lineage s
  rw [← whole] at distinct ⊢
  refine ⟨⟨⟨?_, ?_⟩, trivial⟩, ?_⟩
  · rw [List.mem_toFinset]
    exact (List.nodup_cons.mp distinct).1
  · intro p link
    rw [Option.mem_def.mp link, configuration_some, List.mem_toFinset]
    exact h.mem_lineage_self p
  · simp [Record.replayAll, Record.replay]

theorem Ranked.replays_exit (h : f.Ranked rank) (s : S) :
    f.Replays (f.lineage s).toFinset [⟨.exit, s⟩] (f.configuration (f.super? s)).toFinset := by
  have whole := h.branch_append_configuration (s := s) fun p link => h.mem_lineage_super link
  rw [h.branch_super] at whole
  have distinct := h.nodup_lineage s
  refine ⟨⟨⟨?_, ?_⟩, trivial⟩, ?_⟩
  · rw [List.mem_toFinset]
    exact h.mem_lineage_self s
  · intro c member
    rw [List.mem_toFinset]
    refine h.not_mem_of_rank_lt ?_
    have := h.rank_sub (h.sub_iff.mp member)
    omega
  · rw [← whole] at distinct ⊢
    have apart : s ∉ f.configuration (f.super? s) := (List.nodup_cons.mp distinct).1
    simp [Record.replayAll, Record.replay, apart]

theorem Ranked.replays_exits (h : f.Ranked rank) (above : ∀ p ∈ stop?, p ∈ f.lineage s) :
    f.Replays (f.lineage s).toFinset ((f.branch stop? s).map (Record.mk .exit))
      (f.configuration stop?).toFinset := by
  refine h.branch_induct (motive := fun s branch => f.Replays (f.lineage s).toFinset
    (branch.map (Record.mk .exit)) (f.configuration stop?).toFinset) ?_ ?_ ?_ above
  · intro p found
    rw [Option.mem_def.mp found]
    exact .refl f _
  · intro s top link
    have single := h.replays_exit s
    rw [link] at single
    rw [top]
    exact single
  · intro s p link ih
    have single := h.replays_exit s
    rw [link] at single
    exact single.append ih

theorem Ranked.replays_entries (h : f.Ranked rank) (above : ∀ p ∈ stop?, p ∈ f.lineage s) :
    f.Replays (f.configuration stop?).toFinset ((f.branch stop? s).reverse.map (Record.mk .enter))
      (f.lineage s).toFinset := by
  refine h.branch_induct (motive := fun s branch => f.Replays (f.configuration stop?).toFinset
    (branch.reverse.map (Record.mk .enter)) (f.lineage s).toFinset) ?_ ?_ ?_ above
  · intro p found
    rw [Option.mem_def.mp found]
    exact .refl f _
  · intro s top link
    have single := h.replays_enter s
    rw [link] at single
    rw [top]
    exact single
  · intro s p link ih
    have single := h.replays_enter s
    rw [link] at single
    rw [List.reverse_cons, List.map_append]
    exact ih.append single

end Forest

namespace Machine

variable {m m' : Machine S E F X L} {records : List (Record S)} {contexts : List (Context S E)}

theorem Moves.replays (wf : m.WellFormed) (moved : m.Moves m' records) :
    m.forest.Replays (m.forest.configuration m.current?).toFinset records
      (m.forest.configuration m'.current?).toFinset := by
  cases moved with
  | rest => exact .refl _ _
  | go pivot? reached passage =>
    refine Forest.Replays.append ?_ (wf.tree.replays_entries passage.above_to)
    cases standing : m.current? with
    | some s => exact wf.tree.replays_exits fun p found => by simpa [standing] using passage.above_from p found
    | none =>
      have nowhere : pivot? = none := by
        cases pivot? with
        | none => rfl
        | some p => exact absurd (passage.above_from p rfl) (by simp [standing])
      rw [nowhere]
      exact .refl _ _

theorem Travels.replays (travelled : m.Travels m' contexts) (wf : m.WellFormed) :
    m.forest.Replays (m.forest.configuration m.current?).toFinset (contexts.flatMap Context.records)
      (m.forest.configuration m'.current?).toFinset := by
  induction travelled with
  | stay => exact .refl _ _
  | step before ready moved state ih =>
    have next := moved.replays (before.wellFormed wf)
    rw [before.forest] at next
    rw [List.flatMap_append, List.flatMap_singleton]
    exact ih.append next

end Machine

namespace Run

variable [DecidableEq E] [DecidableEq X]

/-- From one point of a run to a later one, a number of operations were accepted, and their records lead from
    some active states to a leaf and its ancestors. -/
def Tracks (r r' : Run S E F X L W) (active : Finset S) (operations : Nat) : Prop :=
  ∃ leaf contexts, r'.machine.current? = some leaf ∧ r'.machine.forest.isComposite leaf = false ∧
    r'.contexts = r.contexts ++ contexts ∧ contexts.length = operations ∧
    r'.machine.forest.Replays active (contexts.flatMap Context.records) (r'.machine.forest.lineage leaf).toFinset

variable {r : Run S E F X L W} {script : List (Behaviour S E F X W × Call S E F X L)} {n : Nat}
  {checkpoint : Checkpoint S} {s : S}

theorem tracks_of_operations (wf : r.machine.WellFormed)
    (leaf : ∀ s ∈ r.machine.current?, r.machine.forest.isComposite s = false)
    (moving : ∀ step ∈ script, step.2.isOperation) (stands : (r.follow script).machine.current?.isSome)
    (accepted : (r.follow script).contexts.length = r.contexts.length + n) :
    r.Tracks (r.follow script) (r.machine.forest.configuration r.machine.current?).toFinset n := by
  obtain ⟨contexts, log, travelled⟩ := follow_travels wf moving
  obtain ⟨reached, standing⟩ := Option.isSome_iff_exists.mp stands
  have replayed := travelled.replays wf
  rw [standing] at replayed
  refine ⟨reached, contexts, standing, travelled.leaf leaf reached standing, log, ?_, ?_⟩
  · rw [log, List.length_append] at accepted
    omega
  · rw [travelled.forest]
    exact replayed

theorem call_load (b : Behaviour S E F X W) (loads : (r.machine.load checkpoint r.host).isOk)
    (standing : checkpoint.current? = some s) :
    (r.call b (.load checkpoint)).contexts = r.contexts ∧
      (r.call b (.load checkpoint)).machine.forest = r.machine.forest ∧
      (r.call b (.load checkpoint)).machine.current? = some s ∧ r.machine.forest.isComposite s = false := by
  cases loaded : r.machine.load checkpoint r.host with
  | error error =>
    rw [loaded] at loads
    cases loads
  | ok restored =>
    rw [call.eq_def]
    simp only [loaded]
    obtain ⟨_, ⟨_, nowhere⟩ | ⟨initial, _, same, leaf, _⟩⟩ := Machine.load_ok loaded
    · rw [standing] at nowhere
      cases nowhere
    · rw [same]
      exact ⟨trivial, rfl, standing, (leaf s standing).2⟩

theorem entry_tracks (wf : r.machine.WellFormed) (ready : r.machine.initial?.isSome)
    (unentered : r.machine.current? = none) (b : Behaviour S E F X W)
    (signals : List (Behaviour S E F X W × Signal E)) :
    r.Tracks (r.follow ((b, .enterInitialState) :: firings signals)) ∅ (signals.length + 1) := by
  obtain ⟨initial, found⟩ := Option.isSome_iff_exists.mp ready
  obtain ⟨stands, entered⟩ := entry_accepted wf found unentered b
  obtain ⟨still, fired⟩ := firings_accepted (call_wellFormed b wf .enterInitialState) stands signals
  have moving : ∀ step ∈ ((b, .enterInitialState) :: firings signals : List (Behaviour S E F X W × Call S E F X L)),
      step.2.isOperation := List.forall_mem_cons.mpr ⟨rfl, firings_operate signals⟩
  have tracked := tracks_of_operations (n := signals.length + 1) wf (by simp [unentered]) moving still
    (fired.trans (by omega))
  rwa [unentered] at tracked

theorem load_tracks (wf : r.machine.WellFormed) (loads : (r.machine.load checkpoint r.host).isOk)
    (standing : checkpoint.current? = some s) (b : Behaviour S E F X W)
    (signals : List (Behaviour S E F X W × Signal E)) :
    r.Tracks (r.follow ((b, .load checkpoint) :: firings signals)) (r.machine.forest.lineage s).toFinset
      signals.length := by
  obtain ⟨log, forest, stands, leaf⟩ := call_load b loads standing
  have wf' := call_wellFormed b wf (.load checkpoint)
  obtain ⟨still, fired⟩ := firings_accepted wf' (by rw [stands]; rfl) signals
  have settled : ∀ a ∈ (r.call b (.load checkpoint)).machine.current?,
      (r.call b (.load checkpoint)).machine.forest.isComposite a = false := by
    rw [stands, forest]
    rintro a ⟨⟩
    exact leaf
  have tracked := tracks_of_operations wf' settled (firings_operate signals) still fired
  rw [stands, forest] at tracked
  unfold Tracks at tracked
  rw [log] at tracked
  exact tracked

theorem follow_tracks (config : Config) (host : Host S E F X L W)
    (setup : List (Behaviour S E F X W × Call S E F X L)) :
    let r := (start config host).follow setup
    (r.machine.initial?.isSome → r.machine.current? = none →
      ∀ (b : Behaviour S E F X W) (signals : List (Behaviour S E F X W × Signal E)),
        r.Tracks (r.follow ((b, .enterInitialState) :: firings signals)) ∅ (signals.length + 1)) ∧
    (∀ checkpoint s, (r.machine.load checkpoint r.host).isOk → checkpoint.current? = some s →
      ∀ (b : Behaviour S E F X W) (signals : List (Behaviour S E F X W × Signal E)),
        r.Tracks (r.follow ((b, .load checkpoint) :: firings signals)) (r.machine.forest.lineage s).toFinset
          signals.length) := by
  have wf := follow_wellFormed (r := start config host) (Machine.wellFormed_ofConfig config) setup
  exact ⟨entry_tracks wf, fun _ _ => load_tracks wf⟩

/-- Once a machine is set up, its initial entry and all that is fired afterwards keep exactly the current
    state and its ancestors active. So does all that is fired after it was restored. -/
theorem callAll_tracks (config : Config) (host : Host S E F X L W) (b : Behaviour S E F X W)
    (setup : List (Call S E F X L)) :
    let r := (start config host).callAll b setup
    (r.machine.initial?.isSome → r.machine.current? = none → ∀ signals : List (Signal E),
      r.Tracks (r.callAll b (.enterInitialState :: signals.map .fire)) ∅ (signals.length + 1)) ∧
    (∀ checkpoint s, (r.machine.load checkpoint r.host).isOk → checkpoint.current? = some s →
      ∀ signals : List (Signal E), r.Tracks (r.callAll b (.load checkpoint :: signals.map .fire))
        (r.machine.forest.lineage s).toFinset signals.length) := by
  have alike (r : Run S E F X L W) (first : Call S E F X L) (signals : List (Signal E)) :
      r.callAll b (first :: signals.map .fire) = r.follow ((b, first) :: firings (signals.map (b, ·))) := by
    rw [callAll_eq_follow, firings, List.map_cons, List.map_map, List.map_map]
    rfl
  obtain ⟨entry, load⟩ := follow_tracks config host (setup.map (b, ·))
  rw [← callAll_eq_follow] at entry load
  refine ⟨fun ready unentered signals => ?_, fun checkpoint s loads standing signals => ?_⟩
  · rw [alike, ← List.length_map (b, ·)]
    exact entry ready unentered b _
  · rw [alike, ← List.length_map (b, ·)]
    exact load checkpoint s loads standing b _

def savedLamp : Checkpoint Lamp :=
  (Lamp.press [.toggle, .turn]).machine.save "saved" ⟨⟨2024, 1, 2⟩, ⟨0, 0⟩, by decide⟩

theorem callAll_tracks_lamp :
    let setUp := (start .standard (.ofWorld ())).callAll Lamp.quiet Lamp.definition
    let defined := (start .standard (.ofWorld ())).callAll Lamp.quiet Lamp.definition.dropLast
    let fires : List (Call Lamp Switch Unit Empty Empty) := [.fire ⟨.toggle, []⟩, .fire ⟨.turn, []⟩]
    setUp.Tracks (setUp.callAll Lamp.quiet (.enterInitialState :: fires)) ∅ 3 ∧
      defined.Tracks (defined.callAll Lamp.quiet (.load savedLamp :: fires))
        (defined.machine.forest.lineage .bright).toFinset 2 := by
  have fresh := (callAll_tracks .standard (.ofWorld ()) Lamp.quiet Lamp.definition).1 (by decide +kernel)
    (by decide +kernel) [⟨.toggle, []⟩, ⟨.turn, []⟩]
  have restored := (callAll_tracks .standard (.ofWorld ()) Lamp.quiet Lamp.definition.dropLast).2 savedLamp .bright
    (by decide +kernel) (by decide +kernel) [⟨.toggle, []⟩, ⟨.turn, []⟩]
  exact ⟨fresh, restored⟩

end Run

end Statechart
