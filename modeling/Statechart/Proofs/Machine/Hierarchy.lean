import Statechart.Proofs.Forest.Outline
import Statechart.Proofs.Machine.Run
import Statechart.Proofs.Refusal

namespace Statechart

namespace Forest

variable {S E F : Type} [DecidableEq S] {f g : Forest S E F} {parent initial s : S} {subs rest : List S}
  {history : HistoryType}

/-- What a hierarchy demands of one of its sub-states. A super-state that it has already cannot be undone. -/
def subStateDemands (f : Forest S E F) (parent s : S) : List (Demand (DefinitionError S E)) :=
  ((f.super? s).toList.map fun existing => ⟨false, .alreadyHasSuperState s existing parent⟩) ++
    [⟨s ∉ f.ancestors parent, .cyclicHierarchy s parent⟩]

def hierarchyDemands (f : Forest S E F) (parent initial : S) (subs : List S) : List (Demand (DefinitionError S E)) :=
  [⟨parent ∉ subs, .ownSuperState parent⟩, ⟨initial ∈ subs, .initialStateNotSubState parent initial⟩,
    ⟨!f.isComposite parent, .hierarchyAlreadyDefined parent⟩] ++
  (subs.filter fun s => s ≠ parent).flatMap (f.subStateDemands parent)

theorem ancestors_known (h : f.Ranked f.level) (above : s ∈ f.ancestors parent) : s ∈ f.keys ∧ parent ∈ f.keys := by
  have inLineage : s ∈ f.lineage parent := h.lineage_eq_cons parent ▸ List.mem_cons_of_mem parent above
  by_cases known : parent ∈ f.keys
  · exact ⟨h.lineage_mem_keys known s inLineage, known⟩
  · rw [ancestors, h.lineage_root (super?_of_not_mem known)] at above
    cases above

theorem subStateErrors_eq (h : f.Ranked f.level) (other : s ≠ parent) :
    f.subStateErrors parent s = Demand.unmet (f.subStateDemands parent s) := by
  have cyclic : f.contains parent ∧ s ∈ f.lineage parent ↔ s ∈ f.ancestors parent := by
    rw [Table.contains_iff, h.lineage_eq_cons, List.mem_cons]
    constructor
    · rintro ⟨_, here | above⟩
      · exact absurd here other
      · exact above
    · intro above
      exact ⟨(ancestors_known h above).2, .inr above⟩
  have placed : Demand.unmet ((f.super? s).toList.map fun existing =>
      ⟨false, DefinitionError.alreadyHasSuperState (E := E) s existing parent⟩) =
        ((f.super? s).toList.map fun existing => .alreadyHasSuperState s existing parent) := by
    cases f.super? s <;> rfl
  unfold subStateErrors subStateDemands
  simp only [cyclic]
  rw [Demand.unmet_append, placed, Demand.unmet_cons]
  by_cases known : s ∈ f.keys
  · rw [if_pos (Table.contains_iff.mpr known)]
    by_cases above : s ∈ f.ancestors parent <;> cases f.super? s <;> simp [above, Demand.unmet]
  · have outside : s ∉ f.ancestors parent := fun above => known (ancestors_known h above).1
    rw [if_neg (mt Table.contains_iff.mp known), super?_of_not_mem known]
    simp [outside, Demand.unmet]

theorem hierarchyErrors_eq (h : f.Ranked f.level) (parent initial : S) (subs : List S) :
    f.hierarchyErrors parent initial subs = Demand.unmet (f.hierarchyDemands parent initial subs) := by
  -- a super-state that is listed below itself is left out here: of it alone both lists would say different things
  have each : (subs.filter fun s => s ≠ parent).flatMap (f.subStateErrors (E := E) parent) =
      (subs.filter fun s => s ≠ parent).flatMap fun s => Demand.unmet (f.subStateDemands parent s) := by
    apply List.flatMap_congr
    intro s member
    exact subStateErrors_eq h (by simpa using (List.mem_filter.mp member).2)
  unfold hierarchyErrors hierarchyDemands
  rw [each, Demand.unmet_append, Demand.unmet_flatMap, Demand.unmet_cons, Demand.unmet_cons, Demand.unmet_cons]
  congr 1
  by_cases own : parent ∈ subs <;> by_cases listed : initial ∈ subs <;> cases composite : f.isComposite parent <;>
    simp [own, listed, Demand.unmet]

theorem hierarchyDemands_met_iff : (∀ demand ∈ f.hierarchyDemands parent initial subs, demand.holds) ↔
    parent ∉ subs ∧ initial ∈ subs ∧ f.isComposite parent = false ∧
      ∀ s ∈ subs, f.super? s = none ∧ s ∉ f.ancestors parent := by
  have each : ∀ s, (∀ demand ∈ f.subStateDemands parent s, demand.holds) ↔
      f.super? s = none ∧ s ∉ f.ancestors parent := by
    intro s
    unfold subStateDemands
    cases f.super? s <;> simp
  unfold hierarchyDemands
  simp only [List.forall_mem_append, List.forall_mem_cons, List.forall_mem_flatMap, List.mem_filter, each]
  simp only [decide_eq_true_eq, Bool.not_eq_true', and_assoc]
  constructor
  · rintro ⟨proper, listed, simple, _, apart⟩
    exact ⟨proper, listed, simple, fun s member => apart s ⟨member, fun same => proper (same ▸ member)⟩⟩
  · rintro ⟨proper, listed, simple, apart⟩
    exact ⟨proper, listed, simple, by simp, fun s member => apart s member.1⟩

theorem enlist_eq (known subs : List S) : enlist known subs = known ++ (subs.filter fun s => s ∉ known).eraseDups := by
  induction subs generalizing known with
  | nil => simp [enlist]
  | cons s rest ih =>
    have unrolled : enlist known (s :: rest) = enlist (if s ∈ known then known else known ++ [s]) rest := rfl
    rw [unrolled, ih]
    by_cases listed : s ∈ known
    · simp [listed]
    · have later : (rest.filter fun a => a ∉ known).filter (fun a => !a == s) = rest.filter fun a => a ∉ known ++ [s] := by
        rw [List.filter_filter]
        apply List.filter_congr
        intro a _
        simp [beq_eq_decide, Bool.and_comm]
      rw [if_neg listed, List.filter_cons_of_pos (by simpa using listed), List.eraseDups_cons, later, List.append_assoc,
        List.singleton_append]

theorem Placeable.keys_place (h : f.Placeable parent (s :: rest)) :
    Table.keys (Forest.place parent f s) = enlist f.keys [s] := by
  have mentioned : (f.mention s).keys = enlist f.keys [s] := Table.keys_ensure f s .isolated
  unfold Forest.place
  by_cases there : (f.mention s).super? s = some parent
  · rw [if_pos there, mentioned]
  · rw [if_neg there, (h.graftable there).attach.2.1, mentioned]

theorem Placeable.keys_placeAll (h : f.Placeable parent subs) :
    Table.keys (subs.foldl (Forest.place parent) f) = enlist f.keys subs := by
  induction subs generalizing f with
  | nil => rfl
  | cons s rest ih =>
    rw [List.foldl_cons, ih (h.step h.place), h.keys_place]
    rfl

theorem define?_keys (h : f.Ranked f.level) (defined : f.define? parent initial history subs = .ok g) :
    g.keys = enlist f.keys (parent :: subs) := by
  have valid := hierarchyErrors_of_define? defined
  obtain ⟨_, _, placeable⟩ := placeable_of_no_errors h valid
  unfold define? at defined
  simp only [valid, Except.ok.injEq] at defined
  rw [← defined, Table.keys_modify, placeable.keys_placeAll]
  have mentioned : (f.mention parent).keys = enlist f.keys [parent] := Table.keys_ensure f parent .isolated
  rw [mentioned]
  rfl

def defineInPlace (parent initial : S) (history : HistoryType) (subs : List S) :
    InPlace (List (DefinitionError S E)) (Forest S E F) Unit := do
  InPlace.check fun f => match f.hierarchyErrors parent initial subs with
    | [] => .ok ()
    | errors => .error errors
  modify fun f => f.mention parent
  subs.forM fun s => modify fun f => place parent f s
  modify fun f => f.mention initial
  modify fun f => f.modify parent fun node => { node with initial? := some initial, history := history }

theorem run_defineInPlace (h : f.Ranked f.level) (parent initial : S) (history : HistoryType) (subs : List S) :
    (defineInPlace parent initial history subs).run.run f =
      InPlace.allOrNothing f (f.define? parent initial history subs) := by
  unfold defineInPlace define?
  rw [InPlace.run_check]
  cases valid : f.hierarchyErrors (E := E) parent initial subs with
  | cons error errors => rfl
  | nil =>
    dsimp only
    obtain ⟨listed, _, placeable⟩ := placeable_of_no_errors h valid
    have known : initial ∈ (subs.foldl (place parent) (f.mention parent)).keys :=
      (placeable.placeAll.mem_keys initial).mpr (.inr listed)
    have mentioned : (subs.foldl (place parent) (f.mention parent)).mention initial =
        subs.foldl (place parent) (f.mention parent) := if_pos (Table.contains_iff.mpr known)
    have placed := InPlace.run_modifyAll (ε := List (DefinitionError S E)) (place parent) (fun _ => do
      modify fun f => f.mention initial
      modify fun f => f.modify parent fun node => { node with initial? := some initial, history := history })
      subs (f.mention parent)
    refine placed.trans ?_
    show (Except.ok (), Table.modify (mention (subs.foldl (place parent) (f.mention parent)) initial) parent _) = _
    rw [mentioned]
    rfl

end Forest

namespace Machine

variable {S E F X L : Type} [DecidableEq S] {m m' : Machine S E F X L} {parent initial : S} {history : HistoryType}
  {subs : List S}

theorem define_ok_iff : m.define parent initial history subs = .ok m' ↔
    m.forest.define? parent initial history subs = .ok m'.forest ∧ m' = { m with forest := m'.forest } := by
  unfold define
  cases m.forest.define? parent initial history subs with
  | error errors => simp [Except.map]
  | ok g =>
    constructor
    · rintro ⟨⟩
      exact ⟨rfl, rfl⟩
    · rintro ⟨built, same⟩
      rw [same, ← Except.ok.inj built]
      rfl

theorem define_error_iff {errors : List (DefinitionError S E)} :
    m.define parent initial history subs = .error errors ↔
      errors = m.forest.hierarchyErrors parent initial subs ∧ errors ≠ [] := by
  unfold define Forest.define?
  cases m.forest.hierarchyErrors (E := E) parent initial subs with
  | nil =>
    constructor
    · rintro ⟨⟩
    · rintro ⟨none, some⟩
      exact absurd none some
  | cons error rest =>
    constructor
    · rintro ⟨⟩
      exact ⟨rfl, List.cons_ne_nil _ _⟩
    · rintro ⟨rfl, _⟩
      rfl

/-- A hierarchy is accepted exactly when all that it demands is met, and is refused with everything that is not.
    Refusing it changes nothing, also where it is built state by state, and accepting it changes the super-state and
    those that are placed below it. -/
theorem define_exact (tree : m.forest.WellFormed) (parent initial : S) (history : HistoryType) (subs : List S) :
    ((m.define parent initial history subs).isOk ↔ parent ∉ subs ∧ initial ∈ subs ∧
      m.forest.isComposite parent = false ∧ ∀ s ∈ subs, m.forest.super? s = none ∧ s ∉ m.forest.ancestors parent) ∧
    (∀ errors, m.define parent initial history subs = .error errors ↔
      errors = Demand.unmet (m.forest.hierarchyDemands parent initial subs) ∧ errors ≠ []) ∧
    (Forest.defineInPlace parent initial history subs).run.run m.forest =
      InPlace.allOrNothing m.forest ((m.define parent initial history subs).map Machine.forest) ∧
    ∀ m', m.define parent initial history subs = .ok m' →
      m' = { m with forest := m'.forest } ∧ m'.forest.WellFormed ∧
      m'.forest.keys = m.forest.keys ++ ((parent :: subs).filter fun s => s ∉ m.forest.keys).eraseDups ∧
      ∀ a, m'.forest.node a = { m.forest.node a with
        super? := if a ∈ subs then some parent else m.forest.super? a
        subs := if a = parent then subs.eraseDups else m.forest.subs a
        level := (m'.forest.ancestors a).length
        initial? := if a = parent then some initial else m.forest.initial? a
        history := if a = parent then history else (m.forest.node a).history } := by
  have ranked := tree.toRanked
  have demands := Forest.hierarchyErrors_eq ranked parent initial subs
  refine ⟨?_, ?_, ?_, ?_⟩
  · rw [← Forest.hierarchyDemands_met_iff, ← Demand.unmet_eq_nil_iff, ← demands, isOk_iff_exists]
    constructor
    · rintro ⟨m', defined⟩
      exact Forest.hierarchyErrors_of_define? (define_ok_iff.mp defined).1
    · intro valid
      unfold define Forest.define?
      rw [valid]
      exact ⟨_, rfl⟩
  · intro errors
    rw [define_error_iff, demands]
  · rw [Forest.run_defineInPlace ranked]
    unfold define
    cases m.forest.define? parent initial history subs <;> rfl
  · intro m' defined
    obtain ⟨built, same⟩ := define_ok_iff.mp defined
    have changed := Forest.define?_ok ranked built
    have wellFormed := changed.wellFormed tree
    refine ⟨same, wellFormed, ?_, fun a => ?_⟩
    · rw [Forest.define?_keys ranked built, Forest.enlist_eq]
    · have below : m'.forest.subs a = if a = parent then subs.eraseDups else m.forest.subs a := by
        rw [Forest.define?_subs ranked built]
        split
        · have simple := ((Forest.hierarchyErrors_eq_nil_iff ranked).mp (Forest.hierarchyErrors_of_define? built)).2.1
          have bare : m.forest.subs parent = [] := by simpa [Forest.isComposite] using simple
          rw [bare, Forest.enlist_eq]
          simp
        · rfl
      have level : m'.forest.level a = (m'.forest.ancestors a).length := by
        have length := wellFormed.length_lineage a
        rw [wellFormed.lineage_eq_cons, List.length_cons] at length
        omega
      rw [← changed.supers, ← below, ← level]
      exact changed.contents a

def plainLamp : Machine Lamp Switch Unit Empty Empty :=
  ((Run.start .standard (.ofWorld ())).callAll Lamp.quiet (Lamp.definition.take 1)).machine

theorem define_exact_lamp :
    (∃ m', plainLamp.define .on .dim .deep [.dim, .bright, .dim] = .ok m' ∧
      m'.forest.keys = [.supply, .off, .on, .dim, .bright] ∧ m'.forest.subs .on = [.dim, .bright]) ∧
    plainLamp.define .on .dim .none [.on, .off, .supply, .off] = .error [.ownSuperState .on,
      .initialStateNotSubState .on .dim, .alreadyHasSuperState .off .supply .on, .cyclicHierarchy .supply .on,
      .alreadyHasSuperState .off .supply .on] := by
  have tree : plainLamp.forest.WellFormed :=
    (Run.callAll_wellFormed Lamp.quiet (wellFormed_ofConfig .standard) _).tree
  constructor
  · obtain ⟨accepted, _, _, defined⟩ := define_exact tree .on .dim .deep [.dim, .bright, .dim]
    obtain ⟨m', built⟩ := isOk_iff_exists.mp (accepted.mpr (by decide +kernel))
    obtain ⟨_, _, keys, nodes⟩ := defined m' built
    refine ⟨m', built, ?_, ?_⟩
    · rw [keys]
      decide +kernel
    · rw [Forest.subs, nodes]
      rfl
  · obtain ⟨_, refused, _⟩ := define_exact tree .on .dim .none [.on, .off, .supply, .off]
    exact (refused _).mpr (by decide +kernel)

end Machine

end Statechart
