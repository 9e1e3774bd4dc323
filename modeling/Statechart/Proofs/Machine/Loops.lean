import Statechart.Proofs.Forest.Loops
import Statechart.Proofs.Forest.Outline
import Statechart.Proofs.Machine.Run
import Statechart.Proofs.Report.View

namespace Statechart

variable {S E F X L W : Type} [DecidableEq S]

/-- Every loop over the states of a machine ends where it should, for whatever the machine starts it with, and comes by
    no state that the machine does not have. -/
structure Machine.Halts [DecidableEq E] (m : Machine S E F X L) : Prop where
  ancestors : ∀ s ∈ m.forest.keys, m.forest.lineage? s = some (m.forest.lineage s) ∧
    Trail m.forest.super? s (m.forest.lineage s) ∧ ∀ a ∈ m.forest.lineage s, a ∈ m.forest.keys
  /-- The state that owns a transition is reached before super-states run out. -/
  unwind : ∀ current ∈ m.current?, ∀ event, ∀ transition ∈ m.candidates current event, ∃ exits,
    m.forest.unwind? transition.source m.forest.steps current = some exits ∧
    Trail (fun a => (m.forest.unwindTurn transition.source a).next?) current (exits ++ [transition.source]) ∧
    m.forest.unwindTurn transition.source transition.source = .arrived ∧
    ∀ a ∈ exits ++ [transition.source], a ∈ m.forest.keys
  /-- No super-state is missing on the way. -/
  traverse : ∀ current ∈ m.current?, ∀ event, ∀ transition ∈ m.candidates current event, ∀ target ∈ transition.target?,
    (m.forest.route? current transition.source target).isSome ∧ ∃ path met,
      Trail (fun pair => (m.forest.traverseTurn target pair).next?) (transition.source, target) (path ++ [met]) ∧
      m.forest.traverseTurn target met = .arrived ∧
      ∀ pair ∈ path ++ [met], pair.1 ∈ m.forest.keys ∧ pair.2 ∈ m.forest.keys
  /-- However many exits have been remembered since. -/
  descent : ∀ exits : List S, ∀ s ∈ m.forest.keys, let memory := exits.foldl m.forest.remember m.memory
    m.forest.descent? memory s = some (m.forest.descent memory s) ∧
    (∃ path leaf, Trail m.forest.initial? s (path ++ [leaf]) ∧ m.forest.isComposite leaf = false ∧
      ∀ a ∈ path ++ [leaf], a ∈ m.forest.keys) ∧
    (∃ path leaf, Trail (m.forest.resume? memory) s (path ++ [leaf]) ∧ m.forest.isComposite leaf = false ∧
      ∀ a ∈ path ++ [leaf], a ∈ m.forest.keys) ∧
    ∀ a, memory.get? s = some a ∨ m.forest.initial? s = some a → a ∈ m.forest.keys
  relevel : ∀ parent initial history subs forest, m.forest.define? parent initial history subs = .ok forest →
    ∀ before s after, subs = before ++ s :: after →
      let placed := (before.foldl (Forest.place parent) (m.forest.mention parent)).mention s
      placed.super? s ≠ some parent →
        let linked := placed.link parent s
        Forest.relevel? linked.steps [(s, linked.level parent + 1)] linked = some (placed.attach parent s) ∧
        ∃ path, Trail (fun config => (Forest.relevelTurn config).next?) ([(s, linked.level parent + 1)], linked)
            (path ++ [([], placed.attach parent s)]) ∧
          ∀ config ∈ path, ∀ entry ∈ config.1, entry.1 ∈ placed.keys
  report : (WellFounded fun c p => c ∈ m.forest.subs p) ∧ m.forest.views? = some m.forest.views
  indices : (∀ s ∈ m.initial?, s ∈ m.forest.keys) ∧ (∀ s ∈ m.current?, s ∈ m.forest.keys) ∧
    (∀ p c, m.memory.get? p = some c → p ∈ m.forest.keys ∧ c ∈ m.forest.keys) ∧
    (∀ c p, m.forest.super? c = some p ∨ c ∈ m.forest.subs p ∨ m.forest.initial? p = some c →
      c ∈ m.forest.keys ∧ p ∈ m.forest.keys) ∧
    ∀ s, ∀ edge ∈ TransitionTable.edges (m.forest.node s).transitions,
      edge.2.source ∈ m.forest.keys ∧ ∀ t ∈ edge.2.target?, t ∈ m.forest.keys

namespace Machine.WellFormed

variable [DecidableEq E] {m : Machine S E F X L} {s : S}

omit [DecidableEq E] in
theorem halts_cascade (wf : m.WellFormed) {next : S → Option S}
    (down : ∀ a b, next a = some b → m.forest.super? b = some a) (ends : ∀ a, next a = none → m.forest.initial? a = none)
    (known : s ∈ m.forest.keys) : ∃ path leaf, Trail next s (path ++ [leaf]) ∧ m.forest.isComposite leaf = false ∧
      ∀ a ∈ path ++ [leaf], a ∈ m.forest.keys := by
  obtain ⟨path, leaf, trail, stops, inside⟩ := wf.tree.cascade_trail down known
  exact ⟨path, leaf, trail, wf.tree.initial_none_iff.mp (ends leaf stops), inside⟩

theorem halts (wf : m.WellFormed) : m.Halts where
  ancestors s known := ⟨wf.tree.lineage?_eq s, wf.tree.lineage_trail s, wf.tree.lineage_mem_keys known⟩
  unwind current standing event transition member := by
    obtain ⟨above, _⟩ := candidate_ends wf.tree member
    have known := wf.current_mem current standing
    refine ⟨_, wf.tree.unwind?_eq _ current above (wf.tree.rank_lt_steps current), wf.tree.unwind_trail above, ?_, ?_⟩
    · exact if_pos rfl
    · intro a member
      rcases List.mem_append.mp member with left | owner
      · exact wf.tree.lineage_mem_keys known a (Forest.mem_branch_lineage left)
      · rw [List.mem_singleton.mp owner]
        exact wf.tree.lineage_mem_keys known _ above
  traverse current standing event transition member target isTarget := by
    obtain ⟨above, targets⟩ := candidate_ends wf.tree member
    have known := wf.tree.lineage_mem_keys (wf.current_mem current standing) _ above
    refine ⟨?_, wf.tree.traverse_trail known (targets target isTarget)⟩
    rw [wf.tree.route?_eq above]
    rfl
  descent exits s known := by
    have fits := wf.memory.rememberAll exits
    obtain ⟨descended, _⟩ := wf.tree.descent_path fits s
    refine ⟨descended, wf.halts_cascade (fun _ _ => wf.tree.initial_sub) (fun _ => id) known,
      wf.halts_cascade (wf.tree.resume_down fits) Forest.WellFormed.resume_ends known, ?_⟩
    rintro a (remembered | initial)
    · exact Forest.mem_of_super (fits s a remembered)
    · exact Forest.mem_of_super (wf.tree.initial_sub initial)
  relevel := by
    rintro parent initial history _ forest defined before s after rfl placed elsewhere
    obtain ⟨_, _, placeable⟩ := Forest.placeable_of_no_errors wf.tree.toRanked (Forest.hierarchyErrors_of_define? defined)
    have graftable := placeable.rest.graftable elsewhere
    exact ⟨graftable.attach_settled.1, graftable.relevel_trail⟩
  report := ⟨wf.tree.subs_wellFounded, Forest.views?_eq wf.tree.toRanked⟩
  indices := by
    have linked : ∀ c p, m.forest.super? c = some p → c ∈ m.forest.keys ∧ p ∈ m.forest.keys := fun c p link =>
      ⟨Forest.mem_of_super link, wf.tree.super_mem link⟩
    refine ⟨wf.initial_mem, wf.current_mem, fun p c remembered => ?_, ?_, fun s edge member => ?_⟩
    · exact (linked c p (wf.memory p c remembered)).symm
    · rintro c p (link | inSubs | initial)
      · exact linked c p link
      · exact linked c p (wf.tree.sub_iff.mp inSubs)
      · exact linked c p (wf.tree.initial_sub initial)
    · obtain ⟨source, target⟩ := wf.tree.edges s edge member
      refine ⟨?_, target⟩
      rw [source]
      by_contra absent
      rw [Forest.node_of_not_mem absent] at member
      cases member

end Machine.WellFormed

theorem Run.follow_halts [DecidableEq E] [DecidableEq X] (config : Config) (host : Host S E F X L W)
    (script : List (Behaviour S E F X W × Call S E F X L)) : ((start config host).follow script).machine.Halts :=
  (follow_wellFormed (Machine.wellFormed_ofConfig config) script).halts

/-- Whatever is called on a machine, and in whatever order, its loops end. -/
theorem Run.callAll_halts [DecidableEq E] [DecidableEq X] (config : Config) (host : Host S E F X L W)
    (b : Behaviour S E F X W) (calls : List (Call S E F X L)) : ((start config host).callAll b calls).machine.Halts :=
  (callAll_wellFormed b (Machine.wellFormed_ofConfig config) calls).halts

end Statechart
