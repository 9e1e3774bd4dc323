import Mathlib.Data.List.Find
import Mathlib.Data.List.TakeWhile
import Statechart.Proofs.Forest.Lineage
import Statechart.Route

namespace Statechart.Forest

variable {S E F : Type} [DecidableEq S] {f : Forest S E F} {rank : S → Nat} {s t p a b c : S} {stop? : Option S}

/-- The states that are active while a machine stands in a state: that state and its ancestors. -/
def configuration (f : Forest S E F) (current? : Option S) : List S := (current?.map f.lineage).getD []

/-- The states from one upwards to, but excluding, a given ancestor. Without an ancestor it goes up to the
    root. -/
def branch (f : Forest S E F) (stop? : Option S) (s : S) : List S :=
  (f.lineage s).takeWhile fun a => stop? ≠ some a

/-- The lowest common ancestor of two states, each of which counts as its own ancestor. -/
def meet? (f : Forest S E F) (s t : S) : Option S := (f.lineage s).find? fun a => a ∈ f.lineage t

/-- The innermost state that a transition neither leaves nor enters. A transition to its source or to an
    ancestor of it leaves and enters the target again. -/
def pivot? (f : Forest S E F) (source target : S) : Option S :=
  if target ∈ f.lineage source then f.super? target else f.meet? source target

@[simp] theorem configuration_none (f : Forest S E F) : f.configuration none = [] := rfl

@[simp] theorem configuration_some (f : Forest S E F) (s : S) : f.configuration (some s) = f.lineage s := rfl

theorem mem_branch_lineage (member : a ∈ f.branch stop? s) : a ∈ f.lineage s :=
  (List.takeWhile_subset _) member

namespace Ranked

theorem branch_self (h : f.Ranked rank) (s : S) : f.branch (some s) s = [] := by
  cases link : f.super? s with
  | none => simp [branch, h.lineage_root link]
  | some p => simp [branch, h.lineage_sub link]

theorem branch_none (f : Forest S E F) (s : S) : f.branch none s = f.lineage s := by
  rw [branch, List.takeWhile_eq_self_iff]
  simp

theorem branch_root (h : f.Ranked rank) (link : f.super? s = none) (other : stop? ≠ some s) :
    f.branch stop? s = [s] := by
  simp [branch, h.lineage_root link, other]

theorem branch_sub (h : f.Ranked rank) (link : f.super? s = some p) (other : stop? ≠ some s) :
    f.branch stop? s = s :: f.branch stop? p := by
  simp [branch, h.lineage_sub link, other]

theorem branch_super (h : f.Ranked rank) (s : S) : f.branch (f.super? s) s = [s] := by
  cases link : f.super? s with
  | none => exact h.branch_root link (by simp)
  | some p =>
    have other : some p ≠ some s := by
      intro same
      cases same
      have := h.rank_sub link
      omega
    rw [h.branch_sub link other, h.branch_self]

theorem branch_induct {motive : S → List S → Prop} (h : f.Ranked rank) (stop : ∀ p ∈ stop?, motive p [])
    (root : ∀ s, stop? = none → f.super? s = none → motive s [s])
    (sub : ∀ s p, f.super? s = some p → motive p (f.branch stop? p) → motive s (s :: f.branch stop? p))
    (above : ∀ p ∈ stop?, p ∈ f.lineage s) : motive s (f.branch stop? s) := by
  induction s using h.induct with
  | root s link =>
    cases stop? with
    | none =>
      rw [h.branch_root link (by simp)]
      exact root s rfl link
    | some p =>
      have same := above p rfl
      rw [h.lineage_root link, List.mem_singleton] at same
      rw [same, h.branch_self]
      exact stop s (by rw [same]; rfl)
  | sub s p link ih =>
    by_cases here : stop? = some s
    · rw [here, h.branch_self]
      exact stop s here
    · rw [h.branch_sub link here]
      refine sub s p link (ih fun a found => ?_)
      rcases (h.mem_lineage_iff link).mp (above a found) with same | higher
      · exact absurd (same ▸ found) here
      · exact higher

theorem branch_append_configuration (h : f.Ranked rank) (above : ∀ p ∈ stop?, p ∈ f.lineage s) :
    f.branch stop? s ++ f.configuration stop? = f.lineage s := by
  refine branch_induct (motive := fun s branch => branch ++ f.configuration stop? = f.lineage s) h ?_ ?_ ?_ above
  · intro p found
    rw [Option.mem_def.mp found, configuration_some, List.nil_append]
  · intro s top link
    rw [top, h.lineage_root link, configuration_none, List.append_nil]
  · intro s p link ih
    rw [List.cons_append, ih, h.lineage_sub link]

theorem branch_append (h : f.Ranked rank) (member : s ∈ f.lineage c) (above : ∀ p ∈ stop?, p ∈ f.lineage s) :
    f.branch (some s) c ++ f.branch stop? s = f.branch stop? c := by
  have lower : f.branch (some s) c ++ f.configuration (some s) = f.lineage c :=
    h.branch_append_configuration (by simpa using member)
  have upper := h.branch_append_configuration above
  have whole : f.branch stop? c ++ f.configuration stop? = f.lineage c :=
    h.branch_append_configuration fun p inStop => h.mem_lineage_trans (above p inStop) member
  rw [configuration_some, ← upper, ← List.append_assoc, ← whole] at lower
  exact List.append_cancel_right lower

theorem mem_branch_iff (h : f.Ranked rank) (above : ∀ p ∈ stop?, p ∈ f.lineage s) :
    a ∈ f.branch stop? s ↔ a ∈ f.lineage s ∧ a ∉ f.configuration stop? := by
  have whole := h.branch_append_configuration above
  have distinct := h.nodup_lineage s
  rw [← whole] at distinct ⊢
  have apart := (List.nodup_append.mp distinct).2.2
  constructor
  · intro member
    exact ⟨List.mem_append_left _ member, fun inStop => apart a member a inStop rfl⟩
  · rintro ⟨member, outside⟩
    rcases List.mem_append.mp member with member | inStop
    · exact member
    · exact absurd inStop outside

theorem nodup_branch (h : f.Ranked rank) (stop? : Option S) (s : S) : (f.branch stop? s).Nodup :=
  (List.takeWhile_sublist _).nodup (h.nodup_lineage s)

theorem meet?_mem (found : f.meet? s t = some p) : p ∈ f.lineage s ∧ p ∈ f.lineage t :=
  ⟨List.mem_of_find?_eq_some found, by simpa using List.find?_some found⟩

theorem meet?_lowest (h : f.Ranked rank) (inFirst : a ∈ f.lineage s) (inSecond : a ∈ f.lineage t) :
    ∃ p, f.meet? s t = some p ∧ a ∈ f.lineage p := by
  induction s using h.induct with
  | root s link =>
    have same := List.mem_singleton.mp (h.lineage_root link ▸ inFirst)
    subst same
    exact ⟨a, by simp [meet?, h.lineage_root link, inSecond], h.mem_lineage_self a⟩
  | sub s p link ih =>
    by_cases common : s ∈ f.lineage t
    · exact ⟨s, by simp [meet?, h.lineage_sub link, common], inFirst⟩
    · rcases (h.mem_lineage_iff link).mp inFirst with rfl | above
      · exact absurd inSecond common
      · obtain ⟨q, found, below⟩ := ih above
        refine ⟨q, ?_, below⟩
        rw [← found]
        simp [meet?, h.lineage_sub link, common]

theorem meet?_self (h : f.Ranked rank) (s : S) : f.meet? s s = some s := by
  cases link : f.super? s with
  | none => simp [meet?, h.lineage_root link]
  | some p => simp [meet?, h.lineage_sub link]

theorem meet?_sub_left (h : f.Ranked rank) (link : f.super? s = some p) (apart : s ∉ f.lineage t) :
    f.meet? s t = f.meet? p t := by
  simp [meet?, h.lineage_sub link, apart]

theorem meet?_sub_right (h : f.Ranked rank) (link : f.super? t = some p) (apart : t ∉ f.lineage s) :
    f.meet? s t = f.meet? s p := by
  unfold meet?
  apply List.find?_congr
  intro a member
  have other : a ≠ t := fun same => apart (same ▸ member)
  simp [h.lineage_sub link, other]

theorem meet?_siblings (h : f.Ranked rank) (same : f.super? s = f.super? t) (other : s ≠ t) :
    f.meet? s t = f.super? s := by
  have level := h.rank_congr same
  have apart : s ∉ f.lineage t := fun member => by
    have := h.rank_lt_of_mem member other
    omega
  cases link : f.super? s with
  | none => simp [meet?, h.lineage_root link, apart]
  | some p =>
    have link' : f.super? t = some p := same ▸ link
    have apart' : t ∉ f.lineage p := h.not_mem_of_rank_lt (by have := h.rank_sub link'; omega)
    rw [h.meet?_sub_left link apart, h.meet?_sub_right link' apart', h.meet?_self]

theorem pivot?_mem (h : f.Ranked rank) (found : f.pivot? s t = some p) : p ∈ f.lineage s ∧ p ∈ f.lineage t := by
  unfold pivot? at found
  split at found
  · rename_i inSource
    have above := h.mem_lineage_super found
    exact ⟨h.mem_lineage_trans above inSource, above⟩
  · exact meet?_mem found

theorem mem_configuration_pivot? (h : f.Ranked rank) (s t a : S) :
    a ∈ f.configuration (f.pivot? s t) ↔
      a ∈ f.lineage s ∧ a ∈ f.lineage t ∧ (t ∈ f.lineage s → a ≠ t) := by
  constructor
  · intro active
    cases found : f.pivot? s t with
    | none => simp [found] at active
    | some p =>
      rw [found, configuration_some] at active
      obtain ⟨aboveSource, aboveTarget⟩ := h.pivot?_mem found
      refine ⟨h.mem_lineage_trans active aboveSource, h.mem_lineage_trans active aboveTarget, ?_⟩
      rintro inSource rfl
      rw [pivot?, if_pos inSource] at found
      exact h.not_mem_of_rank_lt (by have := h.rank_sub found; omega) active
  · rintro ⟨inSource, inTarget, other⟩
    unfold pivot?
    split
    · rename_i reentered
      cases link : f.super? t with
      | none =>
        rw [h.lineage_root link, List.mem_singleton] at inTarget
        exact absurd inTarget (other reentered)
      | some p => exact ((h.mem_lineage_iff link).mp inTarget).resolve_left (other reentered)
    · obtain ⟨p, found, below⟩ := h.meet?_lowest inSource inTarget
      rw [found]
      exact below

theorem pivot?_ne_target (h : f.Ranked rank) (s t : S) : f.pivot? s t ≠ some t := by
  intro found
  unfold pivot? at found
  split at found
  · have := h.rank_sub found
    omega
  · rename_i apart
    exact apart (meet?_mem found).1

end Ranked

end Statechart.Forest
