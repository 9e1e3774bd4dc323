import Mathlib.Data.Finset.Card
import Mathlib.Data.List.Nodup
import Statechart.Proofs.Forest.Lineage

namespace Statechart

namespace Table

variable {K V : Type} [DecidableEq K] {t t' : Table K V} {entry : K × V}

theorem get?_of_mem (distinct : t.keys.Nodup) (member : entry ∈ t.entries) : t.get? entry.1 = some entry.2 := by
  unfold get?
  cases found : t.entries.find? fun other => other.1 = entry.1 with
  | none => simpa using List.find?_eq_none.mp found entry member
  | some other =>
    have same : other.1 = entry.1 := by simpa using List.find?_some found
    rw [List.inj_on_of_nodup_map distinct (List.mem_of_find?_eq_some found) member same]
    rfl

theorem eq_of_get? (distinct : t.keys.Nodup) (keys : t'.keys = t.keys) (values : ∀ k ∈ t.keys, t'.get? k = t.get? k) :
    t' = t := by
  have entries : t'.entries = t.entries := by
    apply List.ext_getElem (by simpa [Table.keys] using congrArg List.length keys)
    intro i bound bound'
    have key : t'.entries[i].1 = t.entries[i].1 := by
      have places := congrArg (fun ks => ks[i]?) keys
      simpa [Table.keys, bound, bound'] using places
    have value := get?_of_mem distinct (List.getElem_mem bound')
    have value' := get?_of_mem (keys ▸ distinct) (List.getElem_mem bound)
    rw [key, values _ (List.mem_map_of_mem (List.getElem_mem bound')), value] at value'
    exact Prod.ext key (Option.some.inj value').symm
  cases t
  cases t'
  cases entries
  rfl

end Table

variable {S E F : Type} [DecidableEq S] {f g : Forest S E F} {rank : S → Nat} {s p c parent sub : S}

namespace Forest

theorem node_modify (known : s ∈ f.keys) (change : Node S E F → Node S E F) (a : S) :
    node (f.modify s change) a = if a = s then change (f.node s) else f.node a := by
  rw [node, Table.get?_modify]
  by_cases same : a = s
  · subst same
    obtain ⟨found, there⟩ := Option.isSome_iff_exists.mp (Table.get?_isSome_iff.mpr known)
    simp [node, there]
  · simp [same, node]

structure SameLinks (f g : Forest S E F) : Prop where
  keys : g.keys = f.keys
  node : ∀ s, g.node s = { f.node s with level := g.level s }

namespace SameLinks

theorem refl (f : Forest S E F) : f.SameLinks f := ⟨rfl, fun _ => rfl⟩

theorem subs (same : f.SameLinks g) (s : S) : g.subs s = f.subs s := by
  rw [Forest.subs, same.node s]
  rfl

theorem relabel (same : f.SameLinks g) (known : s ∈ f.keys) (level : Nat) :
    f.SameLinks (g.modify s fun node => { node with level := level }) ∧
      ∀ a, Forest.level (g.modify s fun node => { node with level := level }) a =
        if a = s then level else g.level a := by
  have there : s ∈ g.keys := same.keys ▸ known
  have nodes := node_modify there fun node => { node with level := level }
  refine ⟨⟨by rw [Table.keys_modify, same.keys], fun a => ?_⟩, fun a => ?_⟩
  · rw [Forest.level, nodes]
    by_cases here : a = s
    · subst here
      simp only [if_true]
      rw [same.node a]
    · simp only [if_neg here]
      exact same.node a
  · rw [Forest.level, nodes]
    by_cases here : a = s
    · rw [if_pos here, if_pos here]
    · rw [if_neg here, if_neg here]
      rfl

theorem eq_of_levels {k : Forest S E F} (distinct : f.keys.Nodup) (same : f.SameLinks g) (same' : f.SameLinks k)
    (levels : ∀ s, k.level s = g.level s) : k = g := by
  refine Table.eq_of_get? (same.keys ▸ distinct) (same'.keys.trans same.keys.symm) fun s known => ?_
  have nodes : k.node s = g.node s := by rw [same'.node, same.node, levels]
  obtain ⟨there, found⟩ := Option.isSome_iff_exists.mp (Table.get?_isSome_iff.mpr known)
  have known' : s ∈ k.keys := same'.keys ▸ same.keys ▸ known
  obtain ⟨there', found'⟩ := Option.isSome_iff_exists.mp (Table.get?_isSome_iff.mpr known')
  rw [Forest.node, Forest.node, found, found'] at nodes
  rw [found, found']
  exact congrArg some nodes

end SameLinks

def unsettled (f : Forest S E F) (pending : List S) : Finset S :=
  f.keys.toFinset.filter fun s => ∃ a ∈ pending, a ∈ f.lineage s

theorem mem_unsettled {pending : List S} :
    s ∈ f.unsettled pending ↔ s ∈ f.keys ∧ ∃ a ∈ pending, a ∈ f.lineage s := by
  simp [unsettled]

def Apart (f : Forest S E F) (states : List S) : Prop :=
  states.Pairwise fun a b => a ∉ f.lineage b ∧ b ∉ f.lineage a

namespace Ranked

theorem apart_subs (h : f.Ranked rank) (s : S) : f.Apart (f.subs s) := by
  have distinct : (f.subs s).Pairwise (· ≠ ·) := h.subs_nodup s
  refine distinct.imp_of_mem fun {a b} memberA memberB other => ?_
  have level : rank a = rank b := h.rank_congr ((h.sub_iff.mp memberA).trans (h.sub_iff.mp memberB).symm)
  constructor
  · intro above
    have := h.rank_lt_of_mem above other
    omega
  · intro above
    have := h.rank_lt_of_mem above (Ne.symm other)
    omega

theorem apart_step (h : f.Ranked rank) {pending : List S} (apart : f.Apart (s :: pending)) :
    f.Apart (pending ++ f.subs s) := by
  obtain ⟨fromHead, rest⟩ := List.pairwise_cons.mp apart
  refine List.pairwise_append.mpr ⟨rest, h.apart_subs s, ?_⟩
  intro a member c inSubs
  have link := h.sub_iff.mp inSubs
  obtain ⟨headAbove, headBelow⟩ := fromHead a member
  constructor
  · intro above
    rcases (h.mem_lineage_iff link).mp above with same | above
    · exact headAbove (same ▸ h.mem_lineage_super link)
    · exact headBelow above
  · intro above
    exact headAbove (h.mem_lineage_trans (h.mem_lineage_super link) above)

theorem unsettled_step (h : f.Ranked rank) {pending : List S} (known : s ∈ f.keys)
    (apart : f.Apart (s :: pending)) :
    (f.unsettled (pending ++ f.subs s)).card < (f.unsettled (s :: pending)).card := by
  apply Finset.card_lt_card
  refine (Finset.ssubset_iff_of_subset ?_).mpr ⟨s, ?_, ?_⟩
  · intro a member
    obtain ⟨there, c, inPending, above⟩ := mem_unsettled.mp member
    refine mem_unsettled.mpr ⟨there, ?_⟩
    rcases List.mem_append.mp inPending with inPending | inSubs
    · exact ⟨c, List.mem_cons_of_mem _ inPending, above⟩
    · have link := h.sub_iff.mp inSubs
      exact ⟨s, List.mem_cons_self, h.mem_lineage_trans (h.mem_lineage_super link) above⟩
  · exact mem_unsettled.mpr ⟨known, s, List.mem_cons_self, h.mem_lineage_self s⟩
  · intro member
    obtain ⟨_, c, inPending, above⟩ := mem_unsettled.mp member
    rcases List.mem_append.mp inPending with inPending | inSubs
    · exact ((List.pairwise_cons.mp apart).1 c inPending).2 above
    · have := h.rank_le_of_mem above
      have := h.rank_sub (h.sub_iff.mp inSubs)
      omega

theorem subs_ranks (h : f.Ranked rank) (s : S) :
    (f.subs s).map (fun sub => (sub, rank s + 1)) = (f.subs s).map fun sub => (sub, rank sub) := by
  apply List.map_congr_left
  intro c inSubs
  rw [h.rank_sub (h.sub_iff.mp inSubs)]

end Ranked

/-- Levels are being written from the pending states downwards. What is not below a pending state has its level
    already. -/
structure Settling (f : Forest S E F) (rank : S → Nat) (pending : List S) (g : Forest S E F) : Prop where
  same : f.SameLinks g
  known : ∀ s ∈ pending, s ∈ f.keys
  apart : f.Apart pending
  settled : ∀ s, g.level s = rank s ∨ ∃ a ∈ pending, a ∈ f.lineage s

namespace Settling

variable {pending pending' : List S}

theorem perm (settling : f.Settling rank pending g) (same : pending.Perm pending') : f.Settling rank pending' g where
  same := settling.same
  known s member := settling.known s (same.mem_iff.mpr member)
  apart := (same.pairwise_iff fun {_ _} apart => apart.symm).mp settling.apart
  settled s := by simpa only [same.mem_iff] using settling.settled s

theorem done (settling : f.Settling rank [] g) (s : S) : g.level s = rank s := by
  rcases settling.settled s with settled | ⟨a, member, _⟩
  · exact settled
  · exact absurd member List.not_mem_nil

theorem step (settling : f.Settling rank (s :: pending) g) (h : f.Ranked rank) :
    f.Settling rank (pending ++ f.subs s) (g.modify s fun node => { node with level := rank s }) := by
  have there := settling.known s List.mem_cons_self
  obtain ⟨same, levels⟩ := settling.same.relabel there (rank s)
  refine ⟨same, ?_, h.apart_step settling.apart, ?_⟩
  · intro a member
    rcases List.mem_append.mp member with member | inSubs
    · exact settling.known a (List.mem_cons_of_mem _ member)
    · exact mem_of_super (h.sub_iff.mp inSubs)
  · intro a
    rw [levels]
    by_cases here : a = s
    · exact .inl (by rw [if_pos here, here])
    rw [if_neg here]
    rcases settling.settled a with done | ⟨c, member, above⟩
    · exact .inl done
    rcases List.mem_cons.mp member with rfl | member
    · obtain ⟨sub, link, inLineage⟩ := h.exists_sub_of_mem above (Ne.symm here)
      exact .inr ⟨sub, List.mem_append_right _ (h.sub_iff.mpr link), inLineage⟩
    · exact .inr ⟨c, List.mem_append_left _ member, above⟩

end Settling

theorem Ranked.relevel?_eq (h : f.Ranked rank) (n : Nat) (pending : List S) (settling : f.Settling rank pending g)
    (enough : (f.unsettled pending).card ≤ n) :
    ∃ result, relevel? n (pending.map fun s => (s, rank s)) g = some result ∧ f.SameLinks result ∧
      ∀ s, result.level s = rank s := by
  induction n generalizing pending g with
  | zero =>
    cases pending with
    | nil => exact ⟨g, rfl, settling.same, settling.done⟩
    | cons s pending =>
      have := h.unsettled_step (settling.known s List.mem_cons_self) settling.apart
      omega
  | succ n ih =>
    cases pending with
    | nil => exact ⟨g, rfl, settling.same, settling.done⟩
    | cons s pending =>
      have := h.unsettled_step (settling.known s List.mem_cons_self) settling.apart
      rw [List.map_cons, relevel?, settling.same.subs, h.subs_ranks, ← List.map_append]
      exact ih _ (settling.step h) (by omega)

end Forest

end Statechart
