import Statechart.Forest
import Statechart.Proofs.Walk

namespace Statechart.Forest

variable {S E F : Type} [DecidableEq S] {f g : Forest S E F} {rank : S → Nat} {s p a b c : S}

/-- The links of a forest: every state that is named exists, super-states and sub-states name each other,
    and a rank counts the links above each state. Links can be followed upwards only as often as the rank
    says, so there is no cycle. -/
structure Ranked (f : Forest S E F) (rank : S → Nat) : Prop where
  keys_nodup : f.keys.Nodup
  super_mem : ∀ {s p}, f.super? s = some p → p ∈ f.keys
  sub_iff : ∀ {p c}, c ∈ f.subs p ↔ f.super? c = some p
  subs_nodup : ∀ p, (f.subs p).Nodup
  rank_root : ∀ {s}, f.super? s = none → rank s = 0
  rank_sub : ∀ {s p}, f.super? s = some p → rank s = rank p + 1

theorem node_of_not_mem (absent : s ∉ f.keys) : f.node s = .isolated := by
  rw [node, Table.get?_eq_none_iff.mpr absent]
  rfl

theorem super?_of_not_mem (absent : s ∉ f.keys) : f.super? s = none := by
  rw [super?, node_of_not_mem absent]
  rfl

theorem mem_of_super (link : f.super? s = some p) : s ∈ f.keys := by
  by_contra absent
  rw [super?_of_not_mem absent] at link
  cases link

omit [DecidableEq S] in
theorem length_keys (f : Forest S E F) : f.keys.length = f.size := List.length_map ..

namespace Ranked

@[elab_as_elim]
theorem induct {motive : S → Prop} (h : f.Ranked rank) (root : ∀ s, f.super? s = none → motive s)
    (sub : ∀ s p, f.super? s = some p → motive p → motive s) (s : S) : motive s := by
  generalize bound : rank s = n
  induction n generalizing s with
  | zero =>
    cases link : f.super? s with
    | none => exact root s link
    | some p => have := h.rank_sub link; omega
  | succ n ih =>
    cases link : f.super? s with
    | none => exact root s link
    | some p =>
      have above := h.rank_sub link
      exact sub s p link (ih p (by omega))

theorem congr (h : f.Ranked rank) (distinct : g.keys.Nodup) (known : ∀ a ∈ f.keys, a ∈ g.keys)
    (supers : ∀ a, g.super? a = f.super? a) (subs : ∀ a, g.subs a = f.subs a) : g.Ranked rank where
  keys_nodup := distinct
  super_mem link := known _ (h.super_mem (supers _ ▸ link))
  sub_iff := by
    intro p c
    rw [subs, supers]
    exact h.sub_iff
  subs_nodup p := by rw [subs]; exact h.subs_nodup p
  rank_root link := h.rank_root (supers _ ▸ link)
  rank_sub link := h.rank_sub (supers _ ▸ link)

theorem rank_congr (h : f.Ranked rank) (same : f.super? a = f.super? b) : rank a = rank b := by
  cases link : f.super? b with
  | none => rw [h.rank_root link, h.rank_root (same.trans link)]
  | some p => rw [h.rank_sub link, h.rank_sub (same.trans link)]

theorem walk_up (h : f.Ranked rank) (s : S) :
    ∃ path, walk? f.super? (rank s + 1) s = some path ∧ path.length = rank s + 1 ∧ path.Nodup ∧
      (∀ a ∈ path, rank a ≤ rank s) ∧ (s ∈ f.keys → ∀ a ∈ path, a ∈ f.keys) := by
  induction s using h.induct with
  | root s link =>
    have low := h.rank_root link
    refine ⟨[s], walk?_end link _, by simp [low], by simp, by simp, ?_⟩
    intro known a member
    rw [List.mem_singleton.mp member]
    exact known
  | sub s p link ih =>
    obtain ⟨path, walked, length, distinct, bounded, known⟩ := ih
    have above := h.rank_sub link
    refine ⟨s :: path, ?_, ?_, ?_, ?_, ?_⟩
    · rw [above, walk?_link link, walked]
      rfl
    · rw [List.length_cons, length, above]
    · refine List.nodup_cons.mpr ⟨fun member => ?_, distinct⟩
      have := bounded s member
      omega
    · intro a member
      rcases List.mem_cons.mp member with rfl | member
      · exact Nat.le_refl _
      · have := bounded a member
        omega
    · intro present a member
      rcases List.mem_cons.mp member with rfl | member
      · exact present
      · exact known (h.super_mem link) a member

theorem rank_lt_size (h : f.Ranked rank) (known : s ∈ f.keys) : rank s < f.size := by
  obtain ⟨path, _, length, distinct, _, subset⟩ := h.walk_up s
  have fits : path.length ≤ f.keys.length := distinct.length_le_of_subset (subset known)
  rw [length_keys] at fits
  omega

theorem rank_lt_steps (h : f.Ranked rank) (s : S) : rank s < f.steps := by
  by_cases known : s ∈ f.keys
  · have := h.rank_lt_size known
    simp only [steps]
    omega
  · have low := h.rank_root (super?_of_not_mem known)
    simp [steps, low]

theorem lineage?_eq (h : f.Ranked rank) (s : S) : f.lineage? s = some (f.lineage s) := by
  obtain ⟨path, walked, _⟩ := h.walk_up s
  have enough := walk?_more_steps walked (h.rank_lt_steps s)
  rw [lineage, lineage?, enough]
  rfl

theorem lineage_root (h : f.Ranked rank) (link : f.super? s = none) : f.lineage s = [s] := by
  have := h.lineage?_eq s
  rw [lineage?, steps, walk?_end link] at this
  exact (Option.some.inj this).symm

theorem lineage_sub (h : f.Ranked rank) (link : f.super? s = some p) : f.lineage s = s :: f.lineage p := by
  obtain ⟨path, walked, _⟩ := h.walk_up p
  have low := h.rank_lt_size (h.super_mem link)
  have below := h.lineage?_eq p
  rw [lineage?, walk?_more_steps walked (h.rank_lt_steps p)] at below
  have whole := h.lineage?_eq s
  rw [lineage?, steps, walk?_link link, walk?_more_steps walked low, below] at whole
  exact (Option.some.inj whole).symm

theorem lineage_eq_cons (h : f.Ranked rank) (s : S) : f.lineage s = s :: f.ancestors s := by
  cases link : f.super? s with
  | none => rw [ancestors, h.lineage_root link]; rfl
  | some p => rw [ancestors, h.lineage_sub link]; rfl

theorem mem_lineage_self (h : f.Ranked rank) (s : S) : s ∈ f.lineage s := by
  cases link : f.super? s with
  | none => rw [h.lineage_root link]; exact List.mem_singleton_self s
  | some p => rw [h.lineage_sub link]; exact List.mem_cons_self

theorem mem_lineage_super (h : f.Ranked rank) (link : f.super? s = some p) : p ∈ f.lineage s := by
  rw [h.lineage_sub link]
  exact List.mem_cons_of_mem _ (h.mem_lineage_self p)

theorem mem_lineage_iff (h : f.Ranked rank) (link : f.super? s = some p) :
    a ∈ f.lineage s ↔ a = s ∨ a ∈ f.lineage p := by
  rw [h.lineage_sub link, List.mem_cons]

theorem length_lineage (h : f.Ranked rank) (s : S) : (f.lineage s).length = rank s + 1 := by
  induction s using h.induct with
  | root s link => rw [h.lineage_root link, h.rank_root link]; rfl
  | sub s p link ih => rw [h.lineage_sub link, List.length_cons, ih, h.rank_sub link]

theorem rank_le_of_mem (h : f.Ranked rank) (member : a ∈ f.lineage s) : rank a ≤ rank s := by
  induction s using h.induct with
  | root s link =>
    rw [h.lineage_root link] at member
    rw [List.mem_singleton.mp member]
  | sub s p link ih =>
    rcases (h.mem_lineage_iff link).mp member with rfl | member
    · exact Nat.le_refl _
    · have := ih member
      have := h.rank_sub link
      omega

theorem rank_lt_of_mem (h : f.Ranked rank) (member : a ∈ f.lineage s) (other : a ≠ s) : rank a < rank s := by
  cases link : f.super? s with
  | none =>
    rw [h.lineage_root link] at member
    exact absurd (List.mem_singleton.mp member) other
  | some p =>
    rcases (h.mem_lineage_iff link).mp member with same | member
    · exact absurd same other
    · have := h.rank_le_of_mem member
      have := h.rank_sub link
      omega

theorem not_mem_of_rank_lt (h : f.Ranked rank) (low : rank s < rank a) : a ∉ f.lineage s := by
  intro member
  have := h.rank_le_of_mem member
  omega

theorem nodup_lineage (h : f.Ranked rank) (s : S) : (f.lineage s).Nodup := by
  induction s using h.induct with
  | root s link => rw [h.lineage_root link]; simp
  | sub s p link ih =>
    rw [h.lineage_sub link]
    refine List.nodup_cons.mpr ⟨h.not_mem_of_rank_lt ?_, ih⟩
    have := h.rank_sub link
    omega

theorem lineage_split (h : f.Ranked rank) (member : a ∈ f.lineage s) :
    ∃ front, f.lineage s = front ++ f.lineage a ∧ ∀ x ∈ front, rank a < rank x := by
  induction s using h.induct with
  | root s link =>
    rw [h.lineage_root link] at member
    rw [List.mem_singleton.mp member]
    exact ⟨[], rfl, by simp⟩
  | sub s p link ih =>
    rcases (h.mem_lineage_iff link).mp member with rfl | above
    · exact ⟨[], rfl, by simp⟩
    · obtain ⟨front, split, outranked⟩ := ih above
      have low := h.rank_le_of_mem above
      have step := h.rank_sub link
      refine ⟨s :: front, by rw [h.lineage_sub link, split]; rfl, ?_⟩
      intro x inFront
      rcases List.mem_cons.mp inFront with rfl | inFront
      · omega
      · exact outranked x inFront

theorem mem_lineage_trans (h : f.Ranked rank) (first : a ∈ f.lineage b) (second : b ∈ f.lineage c) :
    a ∈ f.lineage c := by
  obtain ⟨front, split, _⟩ := h.lineage_split second
  rw [split]
  exact List.mem_append_right _ first

theorem lineage_mem_keys (h : f.Ranked rank) (known : s ∈ f.keys) : ∀ a ∈ f.lineage s, a ∈ f.keys := by
  induction s using h.induct with
  | root s link =>
    intro a member
    rw [h.lineage_root link] at member
    rw [List.mem_singleton.mp member]
    exact known
  | sub s p link ih =>
    intro a member
    rcases (h.mem_lineage_iff link).mp member with rfl | member
    · exact known
    · exact ih (h.super_mem link) a member

theorem exists_sub_of_mem (h : f.Ranked rank) (member : a ∈ f.lineage s) (other : a ≠ s) :
    ∃ c, f.super? c = some a ∧ c ∈ f.lineage s := by
  induction s using h.induct with
  | root s link =>
    rw [h.lineage_root link] at member
    exact absurd (List.mem_singleton.mp member) other
  | sub s p link ih =>
    rcases (h.mem_lineage_iff link).mp member with same | member
    · exact absurd same other
    · by_cases here : a = p
      · subst here
        exact ⟨s, link, h.mem_lineage_self s⟩
      · obtain ⟨c, linked, inLineage⟩ := ih member here
        exact ⟨c, linked, (h.mem_lineage_iff link).mpr (.inr inLineage)⟩

theorem eq_of_rank_eq (h : f.Ranked rank) {c c' : S} (member : c ∈ f.lineage s) (member' : c' ∈ f.lineage s)
    (same : rank c = rank c') : c = c' := by
  by_contra other
  obtain ⟨front, split, outranked⟩ := h.lineage_split member
  rw [split] at member'
  rcases List.mem_append.mp member' with inFront | below
  · have := outranked c' inFront
    omega
  · have := h.rank_lt_of_mem below (Ne.symm other)
    omega

theorem sub_unique (h : f.Ranked rank) {a c c' : S} (first : f.super? c = some a) (second : f.super? c' = some a)
    (member : c ∈ f.lineage s) (member' : c' ∈ f.lineage s) : c = c' :=
  h.eq_of_rank_eq member member' (by rw [h.rank_sub first, h.rank_sub second])

theorem rank_lt_of_transGen (h : f.Ranked rank) (above : Relation.TransGen (fun c p => f.super? c = some p) s a) :
    rank a < rank s := by
  induction above with
  | single link =>
    have := h.rank_sub link
    omega
  | tail _ link ih =>
    have := h.rank_sub link
    omega

theorem mem_ancestors_iff (h : f.Ranked rank) (s a : S) :
    a ∈ f.ancestors s ↔ Relation.TransGen (fun c p => f.super? c = some p) s a := by
  induction s using h.induct with
  | root s link =>
    rw [ancestors, h.lineage_root link]
    constructor
    · intro member
      cases member
    · intro above
      obtain ⟨p, up, _⟩ := Relation.TransGen.head'_iff.mp above
      rw [link] at up
      cases up
  | sub s p link ih =>
    have whole : f.lineage p = p :: f.ancestors p := h.lineage_eq_cons p
    rw [ancestors, h.lineage_sub link, List.tail_cons, whole, List.mem_cons, ih]
    constructor
    · rintro (rfl | above)
      · exact .single link
      · exact .head link above
    · intro above
      obtain ⟨p', up, rest⟩ := Relation.TransGen.head'_iff.mp above
      rw [link] at up
      cases up
      rcases Relation.reflTransGen_iff_eq_or_transGen.mp rest with same | rest
      · exact .inl same
      · exact .inr rest

theorem count_subs (h : f.Ranked rank) (p c : S) : (f.subs p).count c = if f.super? c = some p then 1 else 0 := by
  simp only [(h.subs_nodup p).count, h.sub_iff]

theorem lineage_congr (h : f.Ranked rank) {rank' : S → Nat} (h' : g.Ranked rank')
    (same : ∀ a ∈ f.lineage s, g.super? a = f.super? a) : g.lineage s = f.lineage s := by
  induction s using h.induct with
  | root s link =>
    rw [h.lineage_root link, h'.lineage_root (by rw [same s (h.mem_lineage_self s), link])]
  | sub s p link ih =>
    have link' : g.super? s = some p := by rw [same s (h.mem_lineage_self s), link]
    rw [h.lineage_sub link, h'.lineage_sub link', ih]
    intro a member
    exact same a ((h.mem_lineage_iff link).mpr (.inr member))

end Ranked

end Statechart.Forest
