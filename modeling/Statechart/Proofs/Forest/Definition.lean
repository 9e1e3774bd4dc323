import Statechart.Definition
import Statechart.Proofs.Forest.Attach
import Statechart.Proofs.Forest.WellFormed

namespace Statechart

def Node.position {S E F : Type} (node : Node S E F) : Node S E F :=
  { node with entry := [], exit := [], transitions := .empty }

namespace TransitionTable

variable {S E F : Type} [DecidableEq E] {table : TransitionTable S E F} {event : E} {candidate : Transition S F}
  {edge : E × Transition S F}

theorem mem_edges_ensure : edge ∈ edges (table.ensure event []) ↔ edge ∈ edges table := by
  unfold Table.ensure
  split
  · rfl
  · simp [edges]

theorem mem_edges_register (member : edge ∈ edges (register table event candidate)) :
    edge ∈ edges table ∨ edge = (event, candidate) := by
  obtain ⟨entry, inTable, inEntry⟩ := List.mem_flatMap.mp member
  obtain ⟨old, inOld, rfl⟩ := List.mem_map.mp inTable
  have kept : edge ∈ old.2.map (fun candidate => (old.1, candidate)) → edge ∈ edges table := fun inList =>
    mem_edges_ensure.mp (List.mem_flatMap.mpr ⟨old, inOld, inList⟩)
  by_cases here : old.1 = event
  · rw [if_pos here] at inEntry
    obtain ⟨listed, inList, rfl⟩ := List.mem_map.mp inEntry
    rcases List.mem_append.mp inList with inList | new
    · exact .inl (kept (List.mem_map.mpr ⟨listed, inList, rfl⟩))
    · exact .inr (by rw [List.mem_singleton.mp new, here])
  · rw [if_neg here] at inEntry
    exact .inl (kept inEntry)

end TransitionTable

namespace Forest

variable {S E F : Type} [DecidableEq S] {f g k : Forest S E F} {s parent initial : S} {subs rest : List S}
  {history : HistoryType} {memory : Memory S}

/-- What allows states to be placed below a parent one after the other. A state that is listed again stands
    there already. -/
structure Placeable (f : Forest S E F) (parent : S) (subs : List S) : Prop extends Ranked f f.level where
  parent_mem : parent ∈ f.keys
  free : ∀ s ∈ subs, f.super? s = none ∨ f.super? s = some parent
  outside : ∀ s ∈ subs, s ∉ f.lineage parent

structure Placed (f g : Forest S E F) (parent : S) (subs : List S) : Prop extends Ranked g g.level where
  mem_keys : ∀ a, a ∈ g.keys ↔ a ∈ f.keys ∨ a ∈ subs
  supers : ∀ a, g.super? a = if a ∈ subs then some parent else f.super? a
  contents : ∀ a, g.node a = { f.node a with super? := g.super? a, subs := g.subs a, level := g.level a }

theorem Placed.refl (h : f.Ranked f.level) (parent : S) : f.Placed f parent [] where
  toRanked := h
  mem_keys a := by simp
  supers a := by simp
  contents a := rfl

theorem Placed.trans (first : f.Placed g parent subs) (second : g.Placed k parent rest) :
    f.Placed k parent (subs ++ rest) where
  toRanked := second.toRanked
  mem_keys a := by rw [second.mem_keys, first.mem_keys, List.mem_append, or_assoc]
  supers a := by
    rw [second.supers, first.supers]
    by_cases inRest : a ∈ rest
    · simp [inRest]
    · simp [inRest]
  contents a := by rw [second.contents, first.contents]

theorem Placeable.mention_ranked (h : f.Placeable parent subs) (s : S) : (f.mention s).Ranked (f.mention s).level := by
  rw [level_mention]
  exact h.toRanked.mention s

theorem Placeable.graftable (h : f.Placeable parent (s :: rest)) (elsewhere : (f.mention s).super? s ≠ some parent) :
    (f.mention s).Graftable parent s := by
  have ranked := h.mention_ranked s
  have lineage : (f.mention s).lineage parent = f.lineage parent :=
    h.lineage_congr ranked fun a _ => super?_mention f s a
  have root : (f.mention s).super? s = none := by
    rw [super?_mention] at elsewhere ⊢
    exact (h.free s List.mem_cons_self).resolve_right elsewhere
  exact ⟨ranked, mem_keys_mention.mpr (.inl h.parent_mem), mem_keys_mention.mpr (.inr rfl), root,
    lineage ▸ h.outside s List.mem_cons_self⟩

theorem Placeable.place (h : f.Placeable parent (s :: rest)) : f.Placed (place parent f s) parent [s] := by
  unfold Forest.place
  by_cases there : (f.mention s).super? s = some parent
  · rw [if_pos there]
    refine ⟨h.mention_ranked s, fun a => by rw [mem_keys_mention, List.mem_singleton], fun a => ?_, fun a => ?_⟩
    · by_cases same : a = s
      · rw [same, there, if_pos (List.mem_singleton_self s)]
      · rw [super?_mention, if_neg (by simpa using same)]
    · rw [super?, Forest.subs, level, node_mention]
  · rw [if_neg there]
    obtain ⟨attached, keys, nodes⟩ := (h.graftable there).attach
    refine ⟨attached, fun a => by rw [keys, mem_keys_mention, List.mem_singleton], fun a => ?_, fun a => ?_⟩
    · rw [super?, nodes, super?_mention]
      simp only [List.mem_singleton]
    · rw [super?, Forest.subs, level, nodes, node_mention]

theorem Placeable.step (h : f.Placeable parent (s :: rest)) (placed : f.Placed g parent [s]) :
    g.Placeable parent rest := by
  have apart : ∀ a ∈ f.lineage parent, g.super? a = f.super? a := by
    intro a above
    rw [placed.supers, if_neg]
    rw [List.mem_singleton]
    rintro rfl
    exact h.outside a List.mem_cons_self above
  have lineage : g.lineage parent = f.lineage parent := h.lineage_congr placed.toRanked apart
  refine ⟨placed.toRanked, (placed.mem_keys parent).mpr (.inl h.parent_mem), ?_, ?_⟩
  · intro a member
    rw [placed.supers]
    split
    · exact .inr rfl
    · exact h.free a (List.mem_cons_of_mem _ member)
  · intro a member
    rw [lineage]
    exact h.outside a (List.mem_cons_of_mem _ member)

theorem Placeable.placeAll (h : f.Placeable parent subs) : f.Placed (subs.foldl (Forest.place parent) f) parent subs := by
  induction subs generalizing f with
  | nil => exact .refl h.toRanked parent
  | cons s rest ih =>
    have placed := h.place
    exact placed.trans (ih (h.step placed))

theorem placeable_of_no_errors (h : f.Ranked f.level) (valid : f.hierarchyErrors parent initial subs = []) :
    initial ∈ subs ∧ (∀ s ∈ subs, f.super? s = none) ∧ (f.mention parent).Placeable parent subs := by
  simp only [hierarchyErrors, List.append_eq_nil_iff, List.flatMap_eq_nil_iff, List.mem_filter,
    decide_eq_true_eq] at valid
  obtain ⟨⟨⟨notOwn, present⟩, _⟩, each⟩ := valid
  have proper : parent ∉ subs := by
    intro member
    simp [member] at notOwn
  have listed : initial ∈ subs := by
    by_contra absent
    simp [absent] at present
  have ranked : (f.mention parent).Ranked (f.mention parent).level := by
    rw [level_mention]
    exact h.mention parent
  have lineage : (f.mention parent).lineage parent = f.lineage parent :=
    h.lineage_congr ranked fun a _ => super?_mention f parent a
  have free : ∀ s ∈ subs, f.super? s = none := by
    intro s member
    by_cases known : s ∈ f.keys
    · have none := each s ⟨member, fun same => proper (same ▸ member)⟩
      rw [subStateErrors, if_pos (Table.contains_iff.mpr known), List.append_eq_nil_iff] at none
      cases link : f.super? s with
      | none => rfl
      | some existing => simp [link] at none
    · exact super?_of_not_mem known
  refine ⟨listed, free, ranked, mem_keys_mention.mpr (.inr rfl), ?_, ?_⟩
  · intro s member
    rw [super?_mention]
    exact .inl (free s member)
  · intro s member above
    rw [lineage] at above
    have other : s ≠ parent := fun same => proper (same ▸ member)
    by_cases parentKnown : parent ∈ f.keys
    · have known := h.lineage_mem_keys parentKnown s above
      have none := each s ⟨member, other⟩
      rw [subStateErrors, if_pos (Table.contains_iff.mpr known), List.append_eq_nil_iff,
        if_pos ⟨Table.contains_iff.mpr parentKnown, above⟩] at none
      cases none.2
    · rw [h.lineage_root (super?_of_not_mem parentKnown), List.mem_singleton] at above
      exact other above

structure Defined (f g : Forest S E F) (parent initial : S) (history : HistoryType) (subs : List S) : Prop
    extends Ranked g g.level where
  listed : initial ∈ subs
  free : ∀ s ∈ subs, f.super? s = none
  mem_keys : ∀ a, a ∈ g.keys ↔ a ∈ f.keys ∨ a = parent ∨ a ∈ subs
  supers : ∀ a, g.super? a = if a ∈ subs then some parent else f.super? a
  contents : ∀ a, g.node a = { f.node a with
    super? := g.super? a, subs := g.subs a, level := g.level a
    initial? := if a = parent then some initial else f.initial? a
    history := if a = parent then history else (f.node a).history }

theorem define?_ok (h : f.Ranked f.level) (defined : f.define? parent initial history subs = .ok g) :
    f.Defined g parent initial history subs := by
  unfold define? at defined
  cases valid : f.hierarchyErrors parent initial subs with
  | cons error errors =>
    rw [valid] at defined
    cases defined
  | nil =>
    simp only [valid, Except.ok.injEq] at defined
    obtain ⟨listed, free, placeable⟩ := placeable_of_no_errors h valid
    have placed := placeable.placeAll
    have known : parent ∈ (subs.foldl (place parent) (f.mention parent)).keys :=
      (placed.mem_keys parent).mpr (.inl placeable.parent_mem)
    have nodes : ∀ a, g.node a = { node (subs.foldl (place parent) (f.mention parent)) a with
        initial? := if a = parent then some initial else f.initial? a
        history := if a = parent then history else (f.node a).history } := by
      intro a
      rw [← defined, node_modify known]
      split
      · rename_i same
        rw [same]
      · rw [placed.contents, node_mention]
        rfl
    have supers : ∀ a, g.super? a = super? (subs.foldl (place parent) (f.mention parent)) a :=
      fun a => (congrArg Node.super? (nodes a) :)
    have subStates : ∀ a, g.subs a = Forest.subs (subs.foldl (place parent) (f.mention parent)) a :=
      fun a => (congrArg Node.subs (nodes a) :)
    have levels : g.level = level (subs.foldl (place parent) (f.mention parent)) :=
      funext fun a => (congrArg Node.level (nodes a) :)
    have keys : g.keys = Table.keys (subs.foldl (place parent) (f.mention parent)) := by
      rw [← defined, Table.keys_modify]
    refine ⟨?_, listed, free, fun a => ?_, fun a => ?_, fun a => ?_⟩
    · rw [levels]
      exact placed.toRanked.congr (keys ▸ placed.keys_nodup) (fun a member => keys ▸ member) supers subStates
    · rw [keys, placed.mem_keys, mem_keys_mention, or_assoc]
    · rw [supers, placed.supers, super?_mention]
    · rw [supers, subStates, levels, nodes, placed.contents, node_mention]

theorem Defined.transitions (h : f.Defined g parent initial history subs) (s : S) :
    (g.node s).transitions = (f.node s).transitions := by
  rw [h.contents]

theorem Defined.initials (h : f.Defined g parent initial history subs) (s : S) :
    g.initial? s = if s = parent then some initial else f.initial? s := by
  rw [initial?, h.contents]

theorem Defined.super_kept (h : f.Defined g parent initial history subs) {c : S} (link : f.super? c = some s) :
    g.super? c = some s := by
  rw [h.supers, if_neg, link]
  intro member
  rw [h.free c member] at link
  cases link

theorem Defined.wellFormed (h : f.WellFormed) (defined : f.Defined g parent initial history subs) :
    g.WellFormed where
  toRanked := defined.toRanked
  initial_sub := by
    intro p c found
    rw [defined.initials] at found
    split at found
    · rename_i same
      cases found
      rw [defined.supers, if_pos defined.listed, same]
    · exact defined.super_kept (h.initial_sub found)
  initial_isSome := by
    intro p c link
    rw [defined.initials]
    split
    · rfl
    · rename_i other
      rw [defined.supers] at link
      split at link
      · cases link
        exact absurd rfl other
      · exact h.initial_isSome link
  edges := by
    intro s edge member
    rw [defined.transitions] at member
    obtain ⟨source, target⟩ := h.edges s edge member
    exact ⟨source, fun t isTarget => (defined.mem_keys t).mpr (.inl (target t isTarget))⟩

structure Grown (f g : Forest S E F) : Prop extends WellFormed g where
  known : ∀ a ∈ f.keys, a ∈ g.keys
  kept : ∀ c p, f.super? c = some p → g.super? c = some p

theorem Grown.trans (first : f.Grown g) (second : g.Grown k) : f.Grown k where
  toWellFormed := second.toWellFormed
  known a member := second.known a (first.known a member)
  kept c p link := second.kept c p (first.kept c p link)

theorem WellFormed.define? (h : f.WellFormed) (defined : f.define? parent initial history subs = .ok g) :
    f.Grown g := by
  have changed := define?_ok h.toRanked defined
  exact ⟨changed.wellFormed h, fun a member => (changed.mem_keys a).mpr (.inl member), fun c p => changed.super_kept⟩

theorem WellFormed.of_positions (h : f.WellFormed) (distinct : g.keys.Nodup) (known : ∀ a ∈ f.keys, a ∈ g.keys)
    (positions : ∀ a, (g.node a).position = (f.node a).position) (edges : g.EdgesFit) : f.Grown g := by
  have supers : ∀ a, g.super? a = f.super? a := fun a => (congrArg Node.super? (positions a) :)
  have initials : ∀ a, g.initial? a = f.initial? a := fun a => (congrArg Node.initial? (positions a) :)
  have levels : g.level = f.level := funext fun a => (congrArg Node.level (positions a) :)
  refine ⟨⟨?_, ?_, ?_, edges⟩, known, fun c p link => (supers c).trans link⟩
  · rw [levels]
    exact h.toRanked.congr distinct known supers fun a => (congrArg Node.subs (positions a) :)
  · intro p c found
    rw [initials] at found
    rw [supers]
    exact h.initial_sub found
  · intro p c link
    rw [supers] at link
    rw [initials]
    exact h.initial_isSome link

theorem WellFormed.mention (h : f.WellFormed) (s : S) : f.Grown (f.mention s) := by
  refine h.of_positions (nodup_keys_mention h.keys_nodup s) (fun _ member => mem_keys_mention.mpr (.inl member))
    (fun a => by rw [node_mention]) ?_
  intro a edge member
  rw [node_mention] at member
  obtain ⟨source, target⟩ := h.edges a edge member
  exact ⟨source, fun t isTarget => mem_keys_mention.mpr (.inl (target t isTarget))⟩

theorem WellFormed.modify (h : f.WellFormed) (known : s ∈ f.keys) (change : Node S E F → Node S E F)
    (position : ∀ node : Node S E F, (change node).position = node.position)
    (edges : ∀ edge ∈ TransitionTable.edges (change (f.node s)).transitions,
      edge.2.source = s ∧ ∀ t ∈ edge.2.target?, t ∈ f.keys) : Grown f (f.modify s change) := by
  have keys : Table.keys (f.modify s change) = f.keys := Table.keys_modify f s change
  have nodes := node_modify known change
  refine h.of_positions (keys ▸ h.keys_nodup) (fun a member => keys ▸ member) (fun a => ?_) ?_
  · rw [nodes]
    split
    · rename_i same
      rw [same]
      exact position (f.node s)
    · rfl
  · intro a edge member
    rw [keys]
    rw [nodes] at member
    split at member
    · rename_i same
      rw [same]
      exact edges edge member
    · exact h.edges a edge member

theorem WellFormed.mentionAll (h : f.WellFormed) (states : List S) : f.Grown (states.foldl Forest.mention f) := by
  induction states generalizing f with
  | nil => exact ⟨h, fun _ member => member, fun _ _ link => link⟩
  | cons s rest ih =>
    have first := h.mention s
    exact first.trans (ih first.toWellFormed)

theorem mem_keys_mentionAll (states : List S) (f : Forest S E F) (a : S) :
    a ∈ (states.foldl mention f).keys ↔ a ∈ f.keys ∨ a ∈ states := by
  induction states generalizing f with
  | nil => simp
  | cons s rest ih => rw [List.foldl_cons, ih, mem_keys_mention, List.mem_cons, or_assoc]

theorem WellFormed.addTransition [DecidableEq E] (h : f.WellFormed) (source : S) (event : E) (draft : Draft S F) :
    f.Grown (f.addTransition source event draft).2 := by
  have first := h.mention source
  have mentioned := first.trans (first.mentionAll draft.target?.toList)
  have known := mem_keys_mentionAll draft.target?.toList (f.mention source)
  unfold Forest.addTransition
  simp only
  split
  -- a transition that is refused has still mentioned its source and its target
  · exact mentioned
  · rename_i table added
    refine mentioned.trans (mentioned.modify ((known source).mpr (.inl (mem_keys_mention.mpr (.inr rfl))))
      (fun node => { node with transitions := table }) (fun _ => rfl) ?_)
    intro edge member
    unfold TransitionTable.add? at added
    split at added
    · cases added
    · cases added
      rcases TransitionTable.mem_edges_register member with old | new
      · exact mentioned.edges source edge old
      · rw [new]
        exact ⟨rfl, fun t isTarget => (known t).mpr (.inr (Option.mem_toList.mpr isTarget))⟩

theorem WellFormed.addEntryAction (h : f.WellFormed) (s : S) (action : Callable F) :
    f.Grown (f.addEntryAction s action) := by
  have first := h.mention s
  exact first.trans (first.modify (mem_keys_mention.mpr (.inr rfl)) _ (fun _ => rfl) (first.edges s))

theorem WellFormed.addExitAction (h : f.WellFormed) (s : S) (action : Callable F) :
    f.Grown (f.addExitAction s action) := by
  have first := h.mention s
  exact first.trans (first.modify (mem_keys_mention.mpr (.inr rfl)) _ (fun _ => rfl) (first.edges s))

end Forest

end Statechart
