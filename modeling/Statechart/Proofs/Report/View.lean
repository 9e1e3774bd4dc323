import Mathlib.Data.List.Nodup
import Statechart.Proofs.Forest.Lineage
import Statechart.Report

namespace Statechart

variable {S E F : Type}

theorem mapM_eq_some_iff {α β : Type} {f : α → Option β} {items : List α} {answers : List β} :
    items.mapM f = some answers ↔ List.Forall₂ (fun item answer => f item = some answer) items answers := by
  induction items generalizing answers with
  | nil => cases answers <;> simp
  | cons item rest ih =>
    rw [List.mapM_cons, List.forall₂_cons_left_iff]
    simp only [Option.bind_eq_bind, Option.bind_eq_some_iff, ih]
    constructor
    · rintro ⟨answer, first, others, later, same⟩
      exact ⟨answer, others, first, later, (Option.some.inj same).symm⟩
    · rintro ⟨answer, others, first, later, rfl⟩
      exact ⟨answer, first, others, later, rfl⟩

theorem mapM_of_forall {α β : Type} {f : α → Option β} {items : List α}
    (each : ∀ item ∈ items, ∃ answer, f item = some answer) : ∃ answers, items.mapM f = some answers := by
  induction items with
  | nil => exact ⟨[], rfl⟩
  | cons item rest ih =>
    obtain ⟨answer, first⟩ := each item (List.mem_cons_self ..)
    obtain ⟨answers, later⟩ := ih fun other member => each other (List.mem_cons_of_mem _ member)
    exact ⟨answer :: answers, by rw [List.mapM_cons, first, later]; rfl⟩

namespace StateView

def id : StateView S E → S
  | .node id .. => id

def subs : StateView S E → List (StateView S E)
  | .node _ _ _ _ _ _ subs => subs

def transitions : StateView S E → List (TransitionView S E)
  | .node _ _ _ _ _ transitions _ => transitions

theorem sizeOf_sub {view sub : StateView S E} (member : sub ∈ view.subs) : sizeOf sub < sizeOf view := by
  cases view with
  | node id initial? history entry exit transitions inner =>
    have inside : sizeOf sub < sizeOf inner := List.sizeOf_lt_of_mem member
    rw [node.sizeOf_spec]
    omega

theorem induct {motive : StateView S E → Prop} (node : ∀ view, (∀ sub ∈ view.subs, motive sub) → motive view)
    (view : StateView S E) : motive view := node view fun sub _ => induct node sub
termination_by sizeOf view
decreasing_by exact sizeOf_sub ‹_›

mutual

def flat : StateView S E → List (StateView S E)
  | .node id initial? history entry exit transitions subs =>
    .node id initial? history entry exit transitions subs :: flatAll subs

def flatAll : List (StateView S E) → List (StateView S E)
  | [] => []
  | view :: views => view.flat ++ flatAll views

end

theorem flatAll_eq (views : List (StateView S E)) : flatAll views = views.flatMap flat := by
  induction views with
  | nil => rfl
  | cons view rest ih => rw [flatAll, ih, List.flatMap_cons]

theorem flat_eq (view : StateView S E) : view.flat = view :: view.subs.flatMap flat := by
  cases view
  rw [flat, flatAll_eq]
  rfl

theorem mem_flat_self (view : StateView S E) : view ∈ view.flat := by
  rw [flat_eq]
  exact List.mem_cons_self ..

theorem mem_flat_sub {view sub inner : StateView S E} (member : sub ∈ view.subs) (inside : inner ∈ sub.flat) :
    inner ∈ view.flat := by
  rw [flat_eq]
  exact List.mem_cons_of_mem _ (List.mem_flatMap.mpr ⟨sub, member, inside⟩)

end StateView

namespace Forest

variable [DecidableEq S] {f : Forest S E F} {rank : S → Nat} {s a : S} {view : StateView S E}
  {views : List (StateView S E)}

/-- A view shows what is known of its state, and the views inside it are those of its sub-states. -/
structure Shows (f : Forest S E F) (view : StateView S E) : Prop where
  whole : view = .node view.id (f.initial? view.id) (f.node view.id).history
    ((f.node view.id).entry.map Callable.name) ((f.node view.id).exit.map Callable.name)
    ((TransitionTable.edges (f.node view.id).transitions).map TransitionView.ofEdge) view.subs
  subs : view.subs.map StateView.id = f.subs view.id

def ShowsAll (f : Forest S E F) (views : List (StateView S E)) : Prop := ∀ view ∈ views, ∀ inner ∈ view.flat, f.Shows inner

theorem ShowsAll.flatAll (shown : f.ShowsAll views) : ∀ inner ∈ StateView.flatAll views, f.Shows inner := by
  intro inner below
  rw [StateView.flatAll_eq] at below
  obtain ⟨view, member, below⟩ := List.mem_flatMap.mp below
  exact shown view member inner below

theorem ShowsAll.subs (shown : ∀ inner ∈ view.flat, f.Shows inner) : f.ShowsAll view.subs :=
  fun _ member inner below => shown inner (StateView.mem_flat_sub member below)

theorem forall₂_view? {depth : Nat} {states : List S}
    (found : List.Forall₂ (fun s view => f.view? depth s = some view) states views)
    (shows : ∀ s view, f.view? depth s = some view → view.id = s ∧ ∀ inner ∈ view.flat, f.Shows inner) :
    views.map StateView.id = states ∧ f.ShowsAll views := by
  induction found with
  | nil => exact ⟨rfl, fun _ member => absurd member List.not_mem_nil⟩
  | @cons s view states views first _ ih =>
    obtain ⟨here, inside⟩ := shows s view first
    refine ⟨by rw [List.map_cons, here, ih.1], fun other member => ?_⟩
    rcases List.mem_cons.mp member with rfl | later
    · exact inside
    · exact ih.2 other later

theorem view?_shows {depth : Nat} (found : f.view? depth s = some view) :
    view.id = s ∧ ∀ inner ∈ view.flat, f.Shows inner := by
  induction depth generalizing s view with
  | zero => cases found
  | succ depth ih =>
    obtain ⟨subs, inside, rfl⟩ := Option.map_eq_some_iff.mp found
    obtain ⟨ids, shown⟩ := forall₂_view? (mapM_eq_some_iff.mp inside) fun s view => ih
    refine ⟨rfl, fun inner member => ?_⟩
    rw [StateView.flat] at member
    rcases List.mem_cons.mp member with rfl | below
    · exact ⟨rfl, ids⟩
    · exact shown.flatAll inner below

theorem view?_isSome (h : f.Ranked rank) {depth : Nat} (enough : f.size < depth + rank s) (known : s ∈ f.keys) :
    ∃ view, f.view? depth s = some view := by
  induction depth generalizing s with
  | zero =>
    have shallow := h.rank_lt_size known
    omega
  | succ depth ih =>
    have inside : ∀ c ∈ f.subs s, ∃ view, f.view? depth c = some view := by
      intro c member
      have link := h.sub_iff.mp member
      have deeper := h.rank_sub link
      exact ih (by omega) (mem_of_super link)
    obtain ⟨subs, answered⟩ := mapM_of_forall inside
    exact ⟨_, Option.map_eq_some_iff.mpr ⟨subs, answered, rfl⟩⟩

theorem views?_eq (h : f.Ranked rank) : f.views? = some f.views := by
  have each : ∀ s ∈ f.roots, ∃ view, f.view? f.steps s = some view := by
    intro s root
    have few : f.size < f.steps + rank s := by
      unfold steps
      omega
    exact view?_isSome h few (List.mem_filter.mp root).1
  obtain ⟨views, answered⟩ := mapM_of_forall each
  unfold Forest.views Forest.views?
  rw [answered]
  rfl

theorem views_shows (h : f.Ranked rank) : f.views.map StateView.id = f.roots ∧ f.ShowsAll f.views :=
  forall₂_view? (mapM_eq_some_iff.mp (views?_eq h)) fun _ _ => view?_shows

theorem mem_flat_iff (h : f.Ranked rank) (view : StateView S E) (shown : ∀ inner ∈ view.flat, f.Shows inner) (a : S) :
    a ∈ view.flat.map StateView.id ↔ view.id ∈ f.lineage a := by
  induction view using StateView.induct with
  | node view ih =>
    have inside : ∀ sub ∈ view.subs, (a ∈ sub.flat.map StateView.id ↔ sub.id ∈ f.lineage a) := fun sub member =>
      ih sub member (ShowsAll.subs shown sub member)
    have subs := (shown view view.mem_flat_self).subs
    rw [StateView.flat_eq, List.map_cons, List.mem_cons, List.map_flatMap, List.mem_flatMap]
    constructor
    · rintro (rfl | ⟨sub, member, below⟩)
      · exact h.mem_lineage_self _
      · have link : f.super? sub.id = some view.id := h.sub_iff.mp (subs ▸ List.mem_map_of_mem member)
        exact h.mem_lineage_trans (h.mem_lineage_super link) ((inside sub member).mp below)
    · intro above
      by_cases here : a = view.id
      · exact .inl here
      · obtain ⟨c, link, between⟩ := h.exists_sub_of_mem above (Ne.symm here)
        obtain ⟨sub, member, rfl⟩ := List.mem_map.mp (subs ▸ h.sub_iff.mpr link : c ∈ view.subs.map StateView.id)
        exact .inr ⟨sub, member, (inside sub member).mpr between⟩

theorem nodup_flatMap (h : f.Ranked rank) (shown : f.ShowsAll views) (distinct : (views.map StateView.id).Nodup)
    (alike : ∀ view ∈ views, ∀ other ∈ views, rank view.id = rank other.id)
    (each : ∀ view ∈ views, (view.flat.map StateView.id).Nodup) :
    ((views.flatMap StateView.flat).map StateView.id).Nodup := by
  have inside : ∀ view ∈ views, ∀ a, a ∈ view.flat.map StateView.id ↔ view.id ∈ f.lineage a :=
    fun view member => mem_flat_iff h view (shown view member)
  rw [List.map_flatMap, List.nodup_flatMap]
  refine ⟨each, ?_⟩
  refine (List.pairwise_map.mp distinct).imp_of_mem fun {view other} member member' apart a below below' => apart ?_
  exact h.eq_of_rank_eq ((inside view member a).mp below) ((inside other member' a).mp below')
    (alike view member other member')

theorem nodup_flat (h : f.Ranked rank) (view : StateView S E) (shown : ∀ inner ∈ view.flat, f.Shows inner) :
    (view.flat.map StateView.id).Nodup := by
  induction view using StateView.induct with
  | node view ih =>
    have subs := (shown view view.mem_flat_self).subs
    have linked : ∀ sub ∈ view.subs, rank sub.id = rank view.id + 1 := fun sub member =>
      h.rank_sub (h.sub_iff.mp (subs ▸ List.mem_map_of_mem member))
    have inside : f.ShowsAll view.subs := ShowsAll.subs shown
    rw [StateView.flat_eq, List.map_cons, List.nodup_cons]
    constructor
    · intro below
      rw [List.map_flatMap, List.mem_flatMap] at below
      obtain ⟨sub, member, below⟩ := below
      have above := (mem_flat_iff h sub (inside sub member) view.id).mp below
      have deeper := linked sub member
      exact h.not_mem_of_rank_lt (by omega) above
    · refine nodup_flatMap h inside (subs ▸ h.subs_nodup view.id) ?_ fun sub member => ih sub member (inside sub member)
      intro sub member other member'
      rw [linked sub member, linked other member']

theorem exists_root (h : f.Ranked rank) (s : S) : ∃ r, f.super? r = none ∧ r ∈ f.lineage s := by
  induction s using h.induct with
  | root s link => exact ⟨s, link, h.mem_lineage_self s⟩
  | sub s p link ih =>
    obtain ⟨r, root, above⟩ := ih
    exact ⟨r, root, h.mem_lineage_trans above (h.mem_lineage_super link)⟩

theorem views_perm (h : f.Ranked rank) : ((StateView.flatAll f.views).map StateView.id).Perm f.keys := by
  obtain ⟨ids, shown⟩ := views_shows h
  have roots : ∀ view ∈ f.views, view.id ∈ f.keys ∧ f.super? view.id = none := by
    intro view member
    have root : view.id ∈ f.roots := ids ▸ List.mem_map_of_mem member
    simpa [Forest.roots] using root
  rw [StateView.flatAll_eq]
  refine (List.perm_ext_iff_of_nodup ?_ h.keys_nodup).mpr fun a => ?_
  · refine nodup_flatMap h shown (ids ▸ h.keys_nodup.filter _) ?_ fun view member => nodup_flat h view (shown view member)
    intro view member other member'
    rw [h.rank_root (roots view member).2, h.rank_root (roots other member').2]
  · rw [List.map_flatMap, List.mem_flatMap]
    constructor
    · rintro ⟨view, member, below⟩
      have above := (mem_flat_iff h view (shown view member) a).mp below
      by_contra absent
      rw [h.lineage_root (super?_of_not_mem absent), List.mem_singleton] at above
      exact absent (above ▸ (roots view member).1)
    · intro known
      obtain ⟨r, root, above⟩ := exists_root h a
      have listed : r ∈ f.views.map StateView.id := by
        rw [ids]
        exact List.mem_filter.mpr ⟨h.lineage_mem_keys known r above, by rw [root]; rfl⟩
      obtain ⟨view, member, rfl⟩ := List.mem_map.mp listed
      exact ⟨view, member, (mem_flat_iff h view (shown view member) a).mpr above⟩

end Forest

end Statechart
