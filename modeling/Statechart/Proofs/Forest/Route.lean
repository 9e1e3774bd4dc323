import Statechart.Proofs.Forest.Path

namespace Statechart.Forest.Ranked

variable {S E F : Type} [DecidableEq S] {f : Forest S E F} {current source target s t : S}

theorem unwind?_eq (h : f.Ranked f.level) (steps : Nat) (s : S) (member : source ∈ f.lineage s)
    (enough : f.level s < steps) : f.unwind? source steps s = some (f.branch (some source) s) := by
  induction s using h.induct generalizing steps with
  | root s link =>
    obtain ⟨steps, rfl⟩ : ∃ n, steps = n + 1 := ⟨steps - 1, by omega⟩
    have same : source = s := List.mem_singleton.mp (h.lineage_root link ▸ member)
    subst same
    rw [h.branch_self, unwind?, if_pos rfl]
  | sub s p link ih =>
    obtain ⟨steps, rfl⟩ : ∃ n, steps = n + 1 := ⟨steps - 1, by omega⟩
    have level := h.rank_sub link
    by_cases here : s = source
    · subst here
      rw [h.branch_self, unwind?, if_pos rfl]
    · have above : source ∈ f.lineage p := ((h.mem_lineage_iff link).mp member).resolve_left (Ne.symm here)
      have rest := ih steps above (by omega)
      rw [unwind?, if_neg here, link, Option.bind_some, rest, h.branch_sub link (by simpa using Ne.symm here)]
      rfl

theorem climb?_to_ancestor (h : f.Ranked f.level) (steps : Nat) (s : S) (member : t ∈ f.lineage s)
    (enough : f.level s < steps) : f.climb? t steps s t = some ⟨f.branch (f.super? t) s, [t]⟩ := by
  induction s using h.induct generalizing steps with
  | root s link =>
    obtain ⟨steps, rfl⟩ : ∃ n, steps = n + 1 := ⟨steps - 1, by omega⟩
    have same : t = s := List.mem_singleton.mp (h.lineage_root link ▸ member)
    subst same
    rw [climb?, if_pos rfl, h.branch_super]
  | sub s p link ih =>
    obtain ⟨steps, rfl⟩ : ∃ n, steps = n + 1 := ⟨steps - 1, by omega⟩
    by_cases here : s = t
    · subst here
      rw [climb?, if_pos rfl, h.branch_super]
    · have above : t ∈ f.lineage p := ((h.mem_lineage_iff link).mp member).resolve_left (Ne.symm here)
      have level := h.rank_sub link
      have lower := h.rank_le_of_mem above
      have apart : f.super? s ≠ f.super? t := fun same => by
        have := h.rank_congr same
        omega
      have passed : f.super? t ≠ some s := fun stop => by
        have := h.rank_sub stop
        omega
      have rest := ih steps above (by omega)
      rw [climb?, if_neg here, if_neg here, if_neg apart, if_pos (by omega), link, Option.bind_some, rest,
        h.branch_sub link passed]
      rfl

/-- Source and target climb until both stand below the state in which they meet. The final target is only
    compared with the source side, which never reaches it. -/
theorem climb?_to_meet {final : S} (h : f.Ranked f.level) (steps : Nat) (s t : S)
    (apart : final ∉ f.lineage s) (enough : f.level s + f.level t < steps) :
    f.climb? final steps s t = some ⟨f.branch (f.meet? s t) s, (f.branch (f.meet? s t) t).reverse⟩ := by
  induction steps generalizing s t with
  | zero => omega
  | succ steps ih =>
    have notFinal : s ≠ final := fun same => apart (same ▸ h.mem_lineage_self s)
    rw [climb?, if_neg notFinal]
    by_cases same : s = t
    · subst same
      rw [if_pos rfl, h.meet?_self, h.branch_self]
      rfl
    rw [if_neg same]
    by_cases siblings : f.super? s = f.super? t
    · rw [if_pos siblings, h.meet?_siblings siblings same, h.branch_super, siblings, h.branch_super]
      rfl
    rw [if_neg siblings]
    have sourceStays (below : s ∉ f.lineage t) : f.meet? s t ≠ some s := fun found => below (meet?_mem found).2
    have targetStays (below : t ∉ f.lineage s) : f.meet? s t ≠ some t := fun found => below (meet?_mem found).1
    rcases Nat.lt_trichotomy (f.level s) (f.level t) with deeper | level | deeper
    · rw [if_neg (by omega), if_pos deeper]
      have below := h.not_mem_of_rank_lt deeper
      cases link : f.super? t with
      | none => have := h.rank_root link; omega
      | some q =>
        have step := h.rank_sub link
        have rest := ih s q apart (by omega)
        rw [Option.bind_some, rest, ← h.meet?_sub_right link below, h.branch_sub link (targetStays below)]
        simp
    · have below : s ∉ f.lineage t := fun member => by
        have := h.rank_lt_of_mem member same
        omega
      have below' : t ∉ f.lineage s := fun member => by
        have := h.rank_lt_of_mem member (Ne.symm same)
        omega
      rw [if_neg (by omega), if_neg (by omega)]
      cases link : f.super? s with
      | none =>
        have root := h.rank_root link
        cases link' : f.super? t with
        | none => exact absurd (link.trans link'.symm) siblings
        | some q => have := h.rank_sub link'; omega
      | some p =>
        have step := h.rank_sub link
        cases link' : f.super? t with
        | none => have := h.rank_root link'; omega
        | some q =>
          have step' := h.rank_sub link'
          have apart' : final ∉ f.lineage p := fun member => apart ((h.mem_lineage_iff link).mpr (.inr member))
          have below'' : t ∉ f.lineage p := h.not_mem_of_rank_lt (by omega)
          have rest := ih p q apart' (by omega)
          have meets : f.meet? s t = f.meet? p q := by
            rw [h.meet?_sub_left link below, h.meet?_sub_right link' below'']
          rw [Option.bind_some, Option.bind_some, rest, h.branch_sub link (sourceStays below),
            h.branch_sub link' (targetStays below'), meets]
          simp
    · rw [if_pos deeper]
      have below := h.not_mem_of_rank_lt deeper
      cases link : f.super? s with
      | none => have := h.rank_root link; omega
      | some p =>
        have step := h.rank_sub link
        have apart' : final ∉ f.lineage p := fun member => apart ((h.mem_lineage_iff link).mpr (.inr member))
        have rest := ih p t apart' (by omega)
        rw [Option.bind_some, rest, ← h.meet?_sub_left link below, h.branch_sub link (sourceStays below)]
        rfl

theorem climb?_eq (h : f.Ranked f.level) (source target : S) :
    f.climb? target (f.level source + f.level target + 1) source target =
      some ⟨f.branch (f.pivot? source target) source, (f.branch (f.pivot? source target) target).reverse⟩ := by
  by_cases above : target ∈ f.lineage source
  · rw [h.climb?_to_ancestor _ source above (by omega), pivot?, if_pos above, h.branch_super]
    rfl
  · rw [h.climb?_to_meet _ source target above (by omega), pivot?, if_neg above]

/-- A transition leaves everything up to its pivot and enters everything from there down to its target. -/
theorem route?_eq (h : f.Ranked f.level) (member : source ∈ f.lineage current) :
    f.route? current source target = some ⟨f.branch (f.pivot? source target) current,
      (f.branch (f.pivot? source target) target).reverse⟩ := by
  have unwound := h.unwind?_eq f.steps current member (h.rank_lt_steps current)
  have joined := h.branch_append member fun p inPivot => (h.pivot?_mem (t := target) inPivot).1
  rw [route?, unwound, Option.bind_some, h.climb?_eq, Option.map_some]
  simp only [joined]

end Statechart.Forest.Ranked
