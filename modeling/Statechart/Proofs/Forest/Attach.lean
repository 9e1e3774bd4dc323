import Statechart.Proofs.Forest.Relevel

namespace Statechart.Forest

variable {S E F : Type} [DecidableEq S] {f g : Forest S E F} {rank : S → Nat} {s p c parent sub : S}

theorem SameLinks.ranked (same : f.SameLinks g) (h : f.Ranked rank) : g.Ranked rank := by
  refine h.congr (same.keys ▸ h.keys_nodup) (fun a member => same.keys ▸ member) (fun a => ?_) same.subs
  rw [super?, same.node a]
  rfl

theorem node_mention (f : Forest S E F) (s a : S) : (f.mention s).node a = f.node a := by
  rw [node, mention, Table.get?_ensure]
  split
  · rename_i fresh
    rw [node_of_not_mem (fresh.1 ▸ fresh.2)]
    rfl
  · rfl

theorem mem_keys_mention {a : S} : a ∈ (f.mention s).keys ↔ a ∈ f.keys ∨ a = s := by
  rw [mention, Table.keys_ensure]
  split
  · rename_i known
    exact ⟨.inl, fun member => member.elim id (fun same => same ▸ known)⟩
  · simp

theorem super?_mention (f : Forest S E F) (s a : S) : (f.mention s).super? a = f.super? a := by
  rw [super?, node_mention]
  rfl

theorem subs_mention (f : Forest S E F) (s a : S) : (f.mention s).subs a = f.subs a := by
  rw [subs, node_mention]
  rfl

theorem level_mention (f : Forest S E F) (s : S) : (f.mention s).level = f.level := by
  funext a
  rw [level, node_mention]
  rfl

theorem nodup_keys_mention (distinct : f.keys.Nodup) (s : S) : (f.mention s).keys.Nodup := by
  rw [mention, Table.keys_ensure]
  split
  · exact distinct
  · rename_i fresh
    refine List.nodup_append.mpr ⟨distinct, by simp, ?_⟩
    intro a member b new
    rw [List.mem_singleton.mp new]
    rintro rfl
    exact fresh member

theorem Ranked.mention (h : f.Ranked rank) (s : S) : (f.mention s).Ranked rank :=
  h.congr (nodup_keys_mention h.keys_nodup s) (fun _ member => mem_keys_mention.mpr (.inl member))
    (super?_mention f s) (subs_mention f s)

theorem node_link (parentKnown : parent ∈ f.keys) (subKnown : sub ∈ f.keys) (other : sub ≠ parent) (a : S) :
    (f.link parent sub).node a = { f.node a with
      super? := if a = sub then some parent else f.super? a
      subs := if a = parent then f.subs parent ++ [sub] else f.subs a } := by
  have still : parent ∈ Table.keys (f.modify sub fun node => { node with super? := some parent }) := by
    rw [Table.keys_modify]
    exact parentKnown
  rw [link, node_modify still, node_modify subKnown, node_modify subKnown]
  by_cases atSub : a = sub
  · subst atSub
    rw [if_neg other, if_pos rfl, if_pos rfl, if_neg other]
    rfl
  · rw [if_neg atSub, if_neg (Ne.symm other), if_neg atSub]
    by_cases atParent : a = parent
    · subst atParent
      rw [if_pos rfl, if_pos rfl]
      rfl
    · rw [if_neg atParent, if_neg atParent]
      rfl

def graftedLevel (f : Forest S E F) (parent sub a : S) : Nat :=
  if sub ∈ f.lineage a then f.level a + (f.level parent + 1) else f.level a

/-- What allows a state to be put below another: both exist, it has no super-state, and the other one does
    not stand below it. -/
structure Graftable (f : Forest S E F) (parent sub : S) : Prop extends Ranked f f.level where
  parent_mem : parent ∈ f.keys
  sub_mem : sub ∈ f.keys
  root : f.super? sub = none
  outside : sub ∉ f.lineage parent

namespace Graftable

theorem other (h : f.Graftable parent sub) : sub ≠ parent := by
  rintro rfl
  exact h.outside (h.mem_lineage_self sub)

theorem node_link (h : f.Graftable parent sub) (a : S) : (f.link parent sub).node a = { f.node a with
      super? := if a = sub then some parent else f.super? a
      subs := if a = parent then f.subs parent ++ [sub] else f.subs a } :=
  Forest.node_link h.parent_mem h.sub_mem h.other a

theorem super?_link (h : f.Graftable parent sub) (a : S) :
    (f.link parent sub).super? a = if a = sub then some parent else f.super? a := by
  rw [super?, h.node_link]

theorem subs_link (h : f.Graftable parent sub) (a : S) :
    (f.link parent sub).subs a = if a = parent then f.subs parent ++ [sub] else f.subs a := by
  rw [subs, h.node_link]

theorem level_link (h : f.Graftable parent sub) (a : S) : (f.link parent sub).level a = f.level a := by
  rw [level, h.node_link]
  rfl

theorem keys_link (f : Forest S E F) (parent sub : S) : (f.link parent sub).keys = f.keys := by
  rw [link, Table.keys_modify, Table.keys_modify]

theorem link_ranked (h : f.Graftable parent sub) : (f.link parent sub).Ranked (f.graftedLevel parent sub) where
  keys_nodup := by rw [keys_link]; exact h.keys_nodup
  super_mem := by
    intro s p link
    rw [keys_link]
    rw [h.super?_link] at link
    split at link
    · cases link; exact h.parent_mem
    · exact h.super_mem link
  sub_iff := by
    intro p c
    rw [h.subs_link, h.super?_link]
    by_cases atParent : p = parent
    · subst atParent
      rw [if_pos rfl, List.mem_append, h.sub_iff, List.mem_singleton]
      by_cases atSub : c = sub
      · simp [atSub]
      · simp [atSub]
    · rw [if_neg atParent, h.sub_iff]
      by_cases atSub : c = sub
      · simp [atSub, h.root, Ne.symm atParent]
      · simp [atSub]
  subs_nodup p := by
    rw [h.subs_link]
    split
    · refine List.nodup_append.mpr ⟨h.subs_nodup parent, by simp, ?_⟩
      intro a member b new
      rw [List.mem_singleton.mp new]
      rintro rfl
      have := h.sub_iff.mp member
      rw [h.root] at this
      cases this
    · exact h.subs_nodup p
  rank_root := by
    intro s link
    rw [h.super?_link] at link
    split at link
    · cases link
    · rename_i other
      have apart : sub ∉ f.lineage s := by
        rw [h.lineage_root link, List.mem_singleton]
        exact Ne.symm other
      rw [graftedLevel, if_neg apart, h.rank_root link]
  rank_sub := by
    intro s p link
    rw [h.super?_link] at link
    split at link
    · rename_i same
      cases link
      subst same
      rw [graftedLevel, if_pos (h.mem_lineage_self s), graftedLevel, if_neg h.outside, h.rank_root h.root]
      omega
    · rename_i other
      have step := h.rank_sub link
      have below : sub ∈ f.lineage s ↔ sub ∈ f.lineage p := by
        rw [h.mem_lineage_iff link]
        exact ⟨fun member => member.resolve_left (Ne.symm other), .inr⟩
      unfold graftedLevel
      by_cases member : sub ∈ f.lineage p
      · rw [if_pos (below.mpr member), if_pos member]
        omega
      · rw [if_neg (mt below.mp member), if_neg member]
        exact step

theorem mem_lineage_link (h : f.Graftable parent sub) (member : sub ∈ f.lineage s) :
    sub ∈ (f.link parent sub).lineage s := by
  have linked := h.link_ranked
  induction s using h.induct with
  | root s link =>
    have same : sub = s := List.mem_singleton.mp (h.lineage_root link ▸ member)
    rw [← same]
    exact linked.mem_lineage_self sub
  | sub s p link ih =>
    rcases (h.mem_lineage_iff link).mp member with same | above
    · rw [← same]
      exact linked.mem_lineage_self sub
    · have other : s ≠ sub := fun same => by
        rw [same, h.root] at link
        cases link
      have link' : (f.link parent sub).super? s = some p := by rw [h.super?_link, if_neg other, link]
      exact (linked.mem_lineage_iff link').mpr (.inr (ih above))

theorem settling (h : f.Graftable parent sub) :
    (f.link parent sub).Settling (f.graftedLevel parent sub) [sub] (f.link parent sub) where
  same := .refl _
  known := by simpa [keys_link] using h.sub_mem
  apart := List.pairwise_singleton _ _
  settled s := by
    by_cases below : sub ∈ f.lineage s
    · exact .inr ⟨sub, List.mem_singleton_self sub, h.mem_lineage_link below⟩
    · exact .inl (by rw [h.level_link, graftedLevel, if_neg below])

theorem graftedLevel_sub (h : f.Graftable parent sub) :
    f.graftedLevel parent sub sub = (f.link parent sub).level parent + 1 := by
  rw [h.level_link, graftedLevel, if_pos (h.mem_lineage_self sub), h.rank_root h.root]
  omega

theorem attach_settled (h : f.Graftable parent sub) :
    relevel? (f.link parent sub).steps [(sub, (f.link parent sub).level parent + 1)] (f.link parent sub) =
        some (f.attach parent sub) ∧
      (f.link parent sub).SameLinks (f.attach parent sub) ∧
      ∀ s, (f.attach parent sub).level s = f.graftedLevel parent sub s := by
  have enough : ((f.link parent sub).unsettled [sub]).card ≤ (f.link parent sub).steps := by
    have filtered := Finset.card_filter_le (f.link parent sub).keys.toFinset
      (fun s => ∃ a ∈ [sub], a ∈ (f.link parent sub).lineage s)
    have listed := List.toFinset_card_le (f.link parent sub).keys
    rw [length_keys] at listed
    simp only [unsettled, steps]
    omega
  obtain ⟨result, levelled, same, levels⟩ := h.link_ranked.relevel?_eq (f.link parent sub).steps [sub] h.settling enough
  rw [List.map_singleton, h.graftedLevel_sub] at levelled
  have attached : f.attach parent sub = result := by
    rw [Forest.attach]
    simp only [levelled, Option.getD_some]
  rw [attached]
  exact ⟨levelled, same, levels⟩

/-- Attaching links the state and gives it and all below it the levels of their new place. -/
theorem attach (h : f.Graftable parent sub) :
    (f.attach parent sub).Ranked (f.attach parent sub).level ∧ (f.attach parent sub).keys = f.keys ∧
      ∀ a, (f.attach parent sub).node a = { f.node a with
        super? := if a = sub then some parent else f.super? a
        subs := if a = parent then f.subs parent ++ [sub] else f.subs a
        level := f.graftedLevel parent sub a } := by
  obtain ⟨_, same, levels⟩ := h.attach_settled
  have level : (f.attach parent sub).level = f.graftedLevel parent sub := funext levels
  refine ⟨level ▸ same.ranked h.link_ranked, by rw [same.keys, keys_link], fun a => ?_⟩
  rw [same.node a, h.node_link, levels]

end Graftable

end Statechart.Forest
