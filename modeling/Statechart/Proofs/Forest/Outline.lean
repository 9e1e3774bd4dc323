import Statechart.Proofs.Forest.Definition
import Statechart.Proofs.Forest.Mirror

namespace Statechart

variable {S E F : Type}

/-- A piece of a hierarchy as it is asked for: the states below a state, and how they are entered. -/
structure Outline (S : Type) where
  parent : S
  initial : S
  history : HistoryType
  subs : List S

namespace Outline

variable {ds ds' : List (Outline S)} {c p : S}

def Links (ds : List (Outline S)) (c p : S) : Prop := ∃ d ∈ ds, c ∈ d.subs ∧ d.parent = p

/-- Outlines that make up one hierarchy: none of them speaks of a state that another one places elsewhere or
    divides as well, and no state ends up below itself. Their order does not matter. -/
structure Compatible (ds : List (Outline S)) : Prop where
  listed : ∀ d ∈ ds, d.initial ∈ d.subs
  parents : ds.Pairwise fun d d' => d.parent ≠ d'.parent
  apart : ds.Pairwise fun d d' => d.subs.Disjoint d'.subs
  acyclic : ∀ s, ¬Relation.TransGen (Links ds) s s

theorem links_perm (perm : ds'.Perm ds) : Links ds' = Links ds := by
  funext c p
  simp only [Links, perm.mem_iff]

theorem links_snoc (d : Outline S) : Links (ds ++ [d]) c p ↔ Links ds c p ∨ c ∈ d.subs ∧ d.parent = p := by
  simp only [Links, List.mem_append, List.mem_singleton]
  constructor
  · rintro ⟨e, earlier | rfl, link⟩
    · exact .inl ⟨e, earlier, link⟩
    · exact .inr link
  · rintro (⟨e, earlier, link⟩ | link)
    · exact ⟨e, .inl earlier, link⟩
    · exact ⟨d, .inr rfl, link⟩

theorem compatible_nil : Compatible ([] : List (Outline S)) where
  listed _ member := absurd member List.not_mem_nil
  parents := .nil
  apart := .nil
  acyclic s loop := by
    obtain ⟨_, ⟨_, member, _⟩, _⟩ := Relation.TransGen.head'_iff.mp loop
    exact absurd member List.not_mem_nil

theorem Compatible.perm (h : Compatible ds) (perm : ds'.Perm ds) : Compatible ds' where
  listed d member := h.listed d (perm.mem_iff.mp member)
  parents := (perm.pairwise_iff Ne.symm).mpr h.parents
  apart := (perm.pairwise_iff List.Disjoint.symm).mpr h.apart
  acyclic := by
    rw [links_perm perm]
    exact h.acyclic

theorem Compatible.of_append (h : Compatible (ds ++ ds')) : Compatible ds where
  listed d member := h.listed d (List.mem_append_left _ member)
  parents := (List.pairwise_append.mp h.parents).1
  apart := (List.pairwise_append.mp h.apart).1
  acyclic s loop := by
    refine h.acyclic s (Relation.TransGen.mono ?_ _ _ loop)
    rintro c p ⟨d, member, link⟩
    exact ⟨d, List.mem_append_left _ member, link⟩

end Outline

theorem isOk_iff_exists {ε α : Type} {answer : Except ε α} : answer.isOk ↔ ∃ a, answer = .ok a := by
  cases answer <;> simp [Except.isOk, Except.toBool]

def Node.contents (node : Node S E F) : Node S E F :=
  { node with super? := none, subs := [], initial? := none, history := .none, level := 0 }

theorem Node.eq_of_parts {node node' : Node S E F} (positions : node.position = node'.position)
    (contents : node.contents = node'.contents) : node = node' := by
  obtain ⟨super?, subs, initial?, history, level, entry, exit, transitions⟩ := node
  obtain ⟨super?', subs', initial?', history', level', entry', exit', transitions'⟩ := node'
  simp only [Node.position, Node.mk.injEq] at positions
  simp only [Node.contents, Node.mk.injEq] at contents
  simp [positions, contents]

namespace Forest

variable [DecidableEq S] {f g bare : Forest S E F} {parent initial s : S} {subs rest : List S}
  {history : HistoryType} {ds ds' : List (Outline S)} {d : Outline S}

def enlist (known subs : List S) : List S :=
  subs.foldl (fun known s => if s ∈ known then known else known ++ [s]) known

theorem Placeable.subs_place (h : f.Placeable parent (s :: rest)) (a : S) :
    (Forest.place parent f s).subs a = if a = parent then enlist (f.subs parent) [s] else f.subs a := by
  have there : (f.mention s).super? s = some parent ↔ s ∈ f.subs parent := by rw [super?_mention, h.sub_iff]
  unfold Forest.place enlist
  simp only [List.foldl_cons, List.foldl_nil]
  by_cases placed : s ∈ f.subs parent
  · rw [if_pos (there.mpr placed), if_pos placed, subs_mention]
    split
    · rename_i same
      rw [same]
    · rfl
  · rw [if_neg (mt there.mp placed), if_neg placed]
    obtain ⟨_, _, nodes⟩ := (h.graftable (mt there.mp placed)).attach
    rw [Forest.subs, nodes]
    simp only [subs_mention]

theorem Placeable.subs_placeAll (h : f.Placeable parent subs) (a : S) :
    Forest.subs (subs.foldl (Forest.place parent) f) a = if a = parent then enlist (f.subs parent) subs else f.subs a := by
  induction subs generalizing f with
  | nil =>
    split
    · rename_i same
      rw [same]
      rfl
    · rfl
  | cons s rest ih =>
    rw [List.foldl_cons, ih (h.step h.place), h.subs_place, h.subs_place]
    split
    · rw [if_pos rfl]
      rfl
    · rfl

theorem hierarchyErrors_eq_nil_iff (h : f.Ranked f.level) :
    f.hierarchyErrors parent initial subs = ([] : List (DefinitionError S E)) ↔
    initial ∈ subs ∧ f.isComposite parent = false ∧ ∀ s ∈ subs, f.super? s = none ∧ s ∉ f.lineage parent := by
  constructor
  · intro valid
    obtain ⟨listed, free, placeable⟩ := placeable_of_no_errors h valid
    refine ⟨listed, ?_, fun s member => ⟨free s member, ?_⟩⟩
    · simp only [hierarchyErrors, List.append_eq_nil_iff] at valid
      by_contra composite
      simp [composite] at valid
    · have lineage : (f.mention parent).lineage parent = f.lineage parent :=
        h.lineage_congr placeable.toRanked fun a _ => super?_mention f parent a
      rw [← lineage]
      exact placeable.outside s member
  · rintro ⟨listed, simple, each⟩
    have proper : parent ∉ subs := fun member => (each parent member).2 (h.mem_lineage_self parent)
    have none : ∀ s ∈ subs.filter (fun sub => sub ≠ parent), f.subStateErrors (E := E) parent s = [] := by
      intro s member
      obtain ⟨free, outside⟩ := each s (List.mem_filter.mp member).1
      simp [subStateErrors, free, outside]
    rw [hierarchyErrors, if_neg proper, if_pos listed, if_neg (by simp [simple]), List.flatMap_eq_nil_iff.mpr none]
    rfl

theorem hierarchyErrors_of_define? (defined : f.define? parent initial history subs = .ok g) :
    f.hierarchyErrors parent initial subs = ([] : List (DefinitionError S E)) := by
  unfold define? at defined
  split at defined
  · assumption
  · cases defined

theorem define?_subs (h : f.Ranked f.level) (defined : f.define? parent initial history subs = .ok g) (a : S) :
    g.subs a = if a = parent then enlist (f.subs parent) subs else f.subs a := by
  unfold define? at defined
  cases valid : f.hierarchyErrors (E := E) parent initial subs with
  | cons error errors =>
    rw [valid] at defined
    cases defined
  | nil =>
    simp only [valid, Except.ok.injEq] at defined
    obtain ⟨_, _, placeable⟩ := placeable_of_no_errors h valid
    have known : parent ∈ (subs.foldl (place parent) (f.mention parent)).keys :=
      (placeable.placeAll.mem_keys parent).mpr (.inl placeable.parent_mem)
    have kept : g.subs a = Forest.subs (subs.foldl (place parent) (f.mention parent)) a := by
      rw [← defined, Forest.subs, node_modify known]
      split
      · rename_i same
        rw [same]
        rfl
      · rfl
    rw [kept, placeable.subs_placeAll, subs_mention, subs_mention]

/-- A forest that has grown out of a bare one by outlines, in whatever order it was asked for. -/
structure Outlined (ds : List (Outline S)) (bare f : Forest S E F) : Prop extends Ranked f f.level where
  mem_keys : ∀ a, a ∈ f.keys ↔ a ∈ bare.keys ∨ ∃ d ∈ ds, a = d.parent ∨ a ∈ d.subs
  supers : ∀ c p, f.super? c = some p ↔ Outline.Links ds c p
  composite : ∀ d ∈ ds, f.subs d.parent = enlist [] d.subs ∧ f.initial? d.parent = some d.initial ∧
    (f.node d.parent).history = d.history
  simple : ∀ p, (∀ d ∈ ds, d.parent ≠ p) → f.subs p = [] ∧ f.initial? p = none ∧ (f.node p).history = .none
  contents : ∀ a, (f.node a).contents = (bare.node a).contents

namespace Outlined

theorem empty : Outlined [] (.empty : Forest S E F) .empty where
  keys_nodup := .nil
  super_mem link := by cases link
  sub_iff := by
    intro p c
    constructor <;> intro found <;> cases found
  subs_nodup _ := .nil
  rank_root _ := rfl
  rank_sub link := by cases link
  mem_keys a := by simp
  supers c p := by
    constructor
    · intro link
      cases link
    · rintro ⟨_, member, _⟩
      cases member
  composite _ member := by cases member
  simple _ _ := ⟨rfl, rfl, rfl⟩
  contents _ := rfl

theorem isComposite_iff (h : Outlined ds bare f) (compatible : Outline.Compatible ds) (p : S) :
    f.isComposite p ↔ ∃ d ∈ ds, d.parent = p := by
  have filled : f.isComposite p ↔ ∃ c, c ∈ f.subs p := by
    rw [isComposite, Bool.not_eq_true', List.isEmpty_eq_false_iff_exists_mem]
  rw [filled]
  constructor
  · rintro ⟨c, member⟩
    obtain ⟨d, inList, _, same⟩ := (h.supers c p).mp (h.sub_iff.mp member)
    exact ⟨d, inList, same⟩
  · rintro ⟨d, inList, same⟩
    exact ⟨d.initial, h.sub_iff.mpr ((h.supers _ _).mpr ⟨d, inList, compatible.listed d inList, same⟩)⟩

theorem mem_lineage_iff_links (h : Outlined ds bare f) (a s : S) :
    a ∈ f.lineage s ↔ a = s ∨ Relation.TransGen (Outline.Links ds) s a := by
  have links : (fun c p => f.super? c = some p) = Outline.Links ds := by
    funext c p
    exact propext (h.supers c p)
  rw [h.lineage_eq_cons, List.mem_cons, h.mem_ancestors_iff, links]

theorem acyclic (h : Outlined ds bare f) (s : S) : ¬Relation.TransGen (Outline.Links ds) s s := by
  intro loop
  refine Nat.lt_irrefl _ (h.rank_lt_of_transGen (Relation.TransGen.mono ?_ _ _ loop))
  exact fun c p => (h.supers c p).mpr

theorem define (h : Outlined ds bare f) (compatible : Outline.Compatible ds)
    (defined : f.define? d.parent d.initial d.history d.subs = .ok g) : Outlined (ds ++ [d]) bare g := by
  have changed := define?_ok h.toRanked defined
  have subs := define?_subs h.toRanked defined
  have undivided := (hierarchyErrors_eq_nil_iff h.toRanked).mp (hierarchyErrors_of_define? defined)
  have other : ∀ e ∈ ds, e.parent ≠ d.parent := by
    intro e member same
    have divided := (h.isComposite_iff compatible d.parent).mpr ⟨e, member, same⟩
    rw [undivided.2.1] at divided
    cases divided
  refine ⟨changed.toRanked, ?_, ?_, ?_, ?_, ?_⟩
  · intro a
    rw [changed.mem_keys, h.mem_keys]
    simp only [List.mem_append, List.mem_singleton, or_and_right, exists_or, exists_eq_left, or_assoc]
  · intro c p
    rw [changed.supers, Outline.links_snoc, ← h.supers]
    split
    · rename_i here
      rw [changed.free c here]
      simp [here]
    · rename_i elsewhere
      simp [elsewhere]
  · intro e member
    rcases List.mem_append.mp member with earlier | new
    · have apart := other e earlier
      rw [subs, initial?, changed.contents, if_neg apart, if_neg apart, if_neg apart]
      exact h.composite e earlier
    · obtain rfl := List.mem_singleton.mp new
      have bare := (h.simple e.parent other).1
      rw [subs, initial?, changed.contents, if_pos rfl, if_pos rfl, if_pos rfl, bare]
      exact ⟨rfl, rfl, rfl⟩
  · intro p spared
    have apart : p ≠ d.parent := fun same => spared d (List.mem_append_right _ (List.mem_singleton_self d)) same.symm
    rw [subs, initial?, changed.contents, if_neg apart, if_neg apart, if_neg apart]
    exact h.simple p fun e member => spared e (List.mem_append_left _ member)
  · intro a
    rw [changed.contents, ← h.contents]
    rfl

theorem valid_iff (h : Outlined ds bare f) (compatible : Outline.Compatible ds) :
    (f.define? (E := E) d.parent d.initial d.history d.subs).isOk ↔ Outline.Compatible (ds ++ [d]) := by
  have new : d ∈ ds ++ [d] := List.mem_append_right _ (List.mem_singleton_self d)
  constructor
  · intro accepted
    obtain ⟨g, defined⟩ := isOk_iff_exists.mp accepted
    have valid := (hierarchyErrors_eq_nil_iff h.toRanked).mp (hierarchyErrors_of_define? defined)
    obtain ⟨listed, simple, each⟩ := valid
    refine ⟨?_, ?_, ?_, (h.define compatible defined).acyclic⟩
    · intro e member
      rcases List.mem_append.mp member with member | member
      · exact compatible.listed e member
      · rw [List.mem_singleton.mp member]
        exact listed
    · refine List.pairwise_append.mpr ⟨compatible.parents, List.pairwise_singleton _ _, ?_⟩
      intro e member e' new same
      rw [List.mem_singleton.mp new] at same
      have divided := (h.isComposite_iff compatible d.parent).mpr ⟨e, member, same⟩
      rw [simple] at divided
      cases divided
    · refine List.pairwise_append.mpr ⟨compatible.apart, List.pairwise_singleton _ _, ?_⟩
      intro e member e' new s there here
      rw [List.mem_singleton.mp new] at here
      have link := (h.supers s e.parent).mpr ⟨e, member, there, rfl⟩
      rw [(each s here).1] at link
      cases link
  · intro together
    have valid : f.hierarchyErrors (E := E) d.parent d.initial d.subs = [] := by
      refine (hierarchyErrors_eq_nil_iff h.toRanked).mpr ⟨together.listed d new, ?_, fun s member => ⟨?_, ?_⟩⟩
      · by_contra divided
        obtain ⟨e, earlier, same⟩ := (h.isComposite_iff compatible d.parent).mp (by simpa using divided)
        exact (List.pairwise_append.mp together.parents).2.2 e earlier d (List.mem_singleton_self d) same
      · by_contra placed
        obtain ⟨p, link⟩ := Option.ne_none_iff_exists'.mp placed
        obtain ⟨e, earlier, there, _⟩ := (h.supers s p).mp link
        exact (List.pairwise_append.mp together.apart).2.2 e earlier d (List.mem_singleton_self d) there member
      · intro above
        -- the new link would close the way from the super-state up to the sub-state
        have link : Outline.Links (ds ++ [d]) s d.parent := ⟨d, new, member, rfl⟩
        rcases (h.mem_lineage_iff_links s d.parent).mp above with rfl | climbs
        · exact together.acyclic _ (.single link)
        · refine together.acyclic s (.head link (Relation.TransGen.mono ?_ _ _ climbs))
          exact fun c p old => (Outline.links_snoc d).mpr (.inl old)
    rw [define?, valid]
    rfl

theorem mention (h : Outlined ds bare f) (s : S) : Outlined ds (bare.mention s) (f.mention s) where
  toRanked := by
    rw [level_mention]
    exact h.toRanked.mention s
  mem_keys a := by
    rw [mem_keys_mention, mem_keys_mention, h.mem_keys, or_right_comm]
  supers c p := by
    rw [super?_mention]
    exact h.supers c p
  composite d member := by
    rw [subs_mention, initial?, node_mention]
    exact h.composite d member
  simple p spared := by
    rw [subs_mention, initial?, node_mention]
    exact h.simple p spared
  contents a := by
    rw [node_mention, node_mention]
    exact h.contents a

theorem modify (h : Outlined ds bare f) (known : s ∈ bare.keys) (change : Node S E F → Node S E F)
    (position : ∀ node, (change node).position = node.position)
    (contents : ∀ node node', node.contents = node'.contents → (change node).contents = (change node').contents) :
    Outlined ds (Table.modify bare s change) (Table.modify f s change) := by
  have known' : s ∈ f.keys := (h.mem_keys s).mpr (.inl known)
  have keys : Table.keys (Table.modify f s change) = f.keys := Table.keys_modify f s change
  have keys' : Table.keys (Table.modify bare s change) = bare.keys := Table.keys_modify bare s change
  have positions : ∀ a, (node (Table.modify f s change) a).position = (f.node a).position := by
    intro a
    rw [node_modify known']
    split
    · rename_i same
      rw [same, position]
    · rfl
  have levels : level (Table.modify f s change) = f.level := funext fun a => (congrArg Node.level (positions a) :)
  have supers : ∀ a, super? (Table.modify f s change) a = f.super? a := fun a => (congrArg Node.super? (positions a) :)
  have subs : ∀ a, Forest.subs (Table.modify f s change) a = f.subs a := fun a => (congrArg Node.subs (positions a) :)
  have initials : ∀ a, initial? (Table.modify f s change) a = f.initial? a :=
    fun a => (congrArg Node.initial? (positions a) :)
  have histories : ∀ a, (node (Table.modify f s change) a).history = (f.node a).history :=
    fun a => (congrArg Node.history (positions a) :)
  refine ⟨?_, ?_, ?_, ?_, ?_, ?_⟩
  · rw [levels]
    exact h.toRanked.congr (keys ▸ h.keys_nodup) (fun a member => keys ▸ member) supers subs
  · intro a
    rw [keys, keys']
    exact h.mem_keys a
  · intro c p
    rw [supers]
    exact h.supers c p
  · intro d member
    rw [subs, initials, histories]
    exact h.composite d member
  · intro p spared
    rw [subs, initials, histories]
    exact h.simple p spared
  · intro a
    rw [node_modify known', node_modify known]
    split
    · exact contents _ _ (h.contents s)
    · exact h.contents a

theorem super?_eq (h : Outlined ds bare f) (h' : Outlined ds' bare g) (perm : ds'.Perm ds) (a : S) :
    g.super? a = f.super? a := by
  apply Option.ext
  intro p
  rw [h'.supers, h.supers, Outline.links_perm perm]

theorem node_eq (h : Outlined ds bare f) (h' : Outlined ds' bare g) (perm : ds'.Perm ds) (a : S) :
    g.node a = f.node a := by
  have supers := h.super?_eq h' perm
  have divisions : g.subs a = f.subs a ∧ g.initial? a = f.initial? a ∧ (g.node a).history = (f.node a).history := by
    by_cases divided : ∃ d ∈ ds, d.parent = a
    · obtain ⟨d, member, rfl⟩ := divided
      obtain ⟨subs, initial, history⟩ := h.composite d member
      obtain ⟨subs', initial', history'⟩ := h'.composite d (perm.mem_iff.mpr member)
      exact ⟨subs'.trans subs.symm, initial'.trans initial.symm, history'.trans history.symm⟩
    · have spared : ∀ d ∈ ds, d.parent ≠ a := fun d member same => divided ⟨d, member, same⟩
      obtain ⟨subs, initial, history⟩ := h.simple a spared
      obtain ⟨subs', initial', history'⟩ := h'.simple a fun d member => spared d (perm.mem_iff.mp member)
      exact ⟨subs'.trans subs.symm, initial'.trans initial.symm, history'.trans history.symm⟩
  have level : g.level a = f.level a := by
    have lineage : g.lineage a = f.lineage a := h.toRanked.lineage_congr h'.toRanked fun a _ => supers a
    have length := h'.length_lineage a
    rw [lineage, h.length_lineage a] at length
    exact (Nat.succ.inj length).symm
  apply Node.eq_of_parts
  · obtain ⟨subs, initial, history⟩ := divisions
    unfold Node.position
    rw [Node.mk.injEq]
    exact ⟨supers a, subs, initial, history, level, rfl, rfl, rfl⟩
  · rw [h'.contents, h.contents]

theorem mem_keys_iff (h : Outlined ds bare f) (h' : Outlined ds' bare g) (perm : ds'.Perm ds) (a : S) :
    a ∈ g.keys ↔ a ∈ f.keys := by
  simp only [h.mem_keys, h'.mem_keys, perm.mem_iff]

end Outlined

end Forest

end Statechart
