import Statechart.Proofs.Forest.Path

namespace Statechart

variable {S E F : Type} [DecidableEq S] {f : Forest S E F} {memory : Memory S} {s t p c : S} {stop? : Option S}

omit [DecidableEq S] in
theorem TransitionTable.mem_edges_of_get? [DecidableEq E] {table : TransitionTable S E F} {event : E}
    {candidates : List (Transition S F)} {candidate : Transition S F}
    (found : table.get? event = some candidates) (member : candidate ∈ candidates) :
    (event, candidate) ∈ TransitionTable.edges table := by
  obtain ⟨entry, inTable, rfl⟩ := Option.map_eq_some_iff.mp found
  have key : entry.1 = event := by simpa using List.find?_some inTable
  refine List.mem_flatMap.mpr ⟨entry, List.mem_of_find?_eq_some inTable, ?_⟩
  exact List.mem_map.mpr ⟨candidate, member, by rw [key]⟩

namespace Forest

def EdgesFit (f : Forest S E F) : Prop :=
  ∀ s, ∀ edge ∈ TransitionTable.edges (f.node s).transitions,
    edge.2.source = s ∧ ∀ t ∈ edge.2.target?, t ∈ f.keys

def MemoryFits (f : Forest S E F) (memory : Memory S) : Prop :=
  ∀ p c, memory.get? p = some c → f.super? c = some p

theorem MemoryFits.remember (fits : f.MemoryFits memory) (s : S) : f.MemoryFits (f.remember memory s) := by
  intro p c found
  unfold Forest.remember at found
  cases link : f.super? s with
  | none =>
    simp only [link] at found
    exact fits p c found
  | some parent =>
    simp only [link, Table.get?_insert] at found
    split at found
    · rename_i same
      cases found
      rw [link, same]
    · exact fits p c found

theorem MemoryFits.rememberAll (fits : f.MemoryFits memory) (states : List S) :
    f.MemoryFits (states.foldl f.remember memory) := by
  induction states generalizing memory with
  | nil => exact fits
  | cons s rest ih => exact ih (fits.remember s)

/-- A state tree in order: its links and levels agree, exactly the composite states have an initial
    sub-state, and transitions connect states that exist. -/
structure WellFormed (f : Forest S E F) : Prop extends Ranked f f.level where
  initial_sub : ∀ {p c}, f.initial? p = some c → f.super? c = some p
  initial_isSome : ∀ {p c}, f.super? c = some p → (f.initial? p).isSome
  edges : f.EdgesFit

namespace WellFormed

theorem initial_none_iff (h : f.WellFormed) : f.initial? s = none ↔ f.isComposite s = false := by
  constructor
  · intro leaf
    by_contra composite
    simp only [isComposite, Bool.not_eq_false', Bool.not_eq_true, List.isEmpty_eq_false_iff] at composite
    obtain ⟨c, member⟩ := List.exists_mem_of_ne_nil _ composite
    have := h.initial_isSome (h.sub_iff.mp member)
    simp [leaf] at this
  · intro leaf
    by_contra composite
    obtain ⟨c, found⟩ := Option.ne_none_iff_exists'.mp composite
    have member := h.sub_iff.mpr (h.initial_sub found)
    simp only [isComposite, Bool.not_eq_false', List.isEmpty_iff] at leaf
    simp [leaf] at member

theorem initial_of_composite (h : f.WellFormed) (composite : f.isComposite s) : ∃ c, f.initial? s = some c := by
  refine Option.ne_none_iff_exists'.mp fun absent => ?_
  rw [h.initial_none_iff.mp absent] at composite
  exact absurd composite (by decide)

theorem walk_down (h : f.WellFormed) {next : S → Option S}
    (down : ∀ a b, next a = some b → f.super? b = some a) (ends : ∀ a, next a = none → f.initial? a = none)
    (link : f.super? c = some s) :
    ∃ path, walk? next f.steps c = some path ∧ (s :: path).IsChain (fun a b => f.super? b = some a) ∧
      path ≠ [] ∧ f.isComposite (path.getLastD s) = false := by
  have falls : ∀ a b, next a = some b → f.size - f.level b < f.size - f.level a := by
    intro a b found
    have linked := down a b found
    have := h.rank_lt_size (mem_of_super linked)
    have := h.rank_sub linked
    omega
  have finished := walk?_isSome (fun a => f.size - f.level a) falls f.steps c (by simp only [steps]; omega)
  obtain ⟨path, walked⟩ := Option.isSome_iff_exists.mp finished
  refine ⟨path, walked, ?_, ?_, h.initial_none_iff.mp (ends _ (walk?_ends walked s).stops)⟩
  · have chain := (walk?_isChain walked).imp down
    have starts := walk?_starts walked
    cases path with
    | nil => simp at starts
    | cons c' rest =>
      cases starts
      exact .cons_cons link chain
  · rintro rfl
    exact absurd (walk?_starts walked) (by simp)

theorem resume_down (h : f.WellFormed) (fits : f.MemoryFits memory) :
    ∀ a b, f.resume? memory a = some b → f.super? b = some a := by
  intro a b found
  rcases Option.or_eq_some_iff.mp found with remembered | ⟨_, initial⟩
  · exact fits a b remembered
  · exact h.initial_sub initial

theorem resume_ends : ∀ a, f.resume? memory a = none → f.initial? a = none := by
  intro a absent
  exact (Option.or_eq_none_iff.mp absent).2

theorem remembered_sub (h : f.WellFormed) (fits : f.MemoryFits memory) (initial : f.initial? s = some c) :
    f.super? ((memory.get? s).getD c) = some s := by
  cases found : memory.get? s with
  | none => exact h.initial_sub initial
  | some remembered => exact fits s remembered found

theorem descent_path (h : f.WellFormed) (fits : f.MemoryFits memory) (s : S) :
    f.descent? memory s = some (f.descent memory s) ∧
      (s :: f.descent memory s).IsChain (fun a b => f.super? b = some a) ∧
      f.isComposite ((f.descent memory s).getLastD s) = false := by
  suffices ∃ path, f.descent? memory s = some path ∧ (s :: path).IsChain (fun a b => f.super? b = some a) ∧
      f.isComposite (path.getLastD s) = false by
    obtain ⟨path, descended, rest⟩ := this
    have same : f.descent memory s = path := by rw [descent, descended]; rfl
    rw [same]
    exact ⟨descended, rest⟩
  cases initial : f.initial? s with
  | none => exact ⟨[], by simp [descent?, initial], .singleton s, h.initial_none_iff.mp initial⟩
  | some c =>
    have remembered := h.remembered_sub fits initial
    cases history : (f.node s).history with
    | none =>
      obtain ⟨path, walked, chain, _, leaf⟩ :=
        h.walk_down (fun _ _ => h.initial_sub) (fun _ => id) (h.initial_sub initial)
      exact ⟨path, by simp only [descent?, initial, history, walked], chain, leaf⟩
    | shallow =>
      obtain ⟨path, walked, chain, _, leaf⟩ := h.walk_down (fun _ _ => h.initial_sub) (fun _ => id) remembered
      exact ⟨path, by simp only [descent?, initial, history, walked], chain, leaf⟩
    | deep =>
      obtain ⟨path, walked, chain, _, leaf⟩ := h.walk_down (h.resume_down fits) resume_ends remembered
      exact ⟨path, by simp only [descent?, initial, history, walked], chain, leaf⟩

end WellFormed

theorem Ranked.branch_descend {rank : S → Nat} (h : f.Ranked rank) {below : List S} {t : S}
    (chain : (t :: below).IsChain fun a b => f.super? b = some a) (above : ∀ p ∈ stop?, p ∈ f.lineage t) :
    f.branch stop? (below.getLastD t) = below.reverse ++ f.branch stop? t := by
  induction below generalizing t with
  | nil => rfl
  | cons c below ih =>
    obtain ⟨link, chain⟩ := List.isChain_cons_cons.mp chain
    have passed : stop? ≠ some c := by
      rintro rfl
      have := h.rank_le_of_mem (above c rfl)
      have := h.rank_sub link
      omega
    have rest := ih chain fun p inStop => (h.mem_lineage_iff link).mpr (.inr (above p inStop))
    rw [List.getLastD_cons, rest, h.branch_sub link passed]
    simp

theorem Ranked.lineage_descend {rank : S → Nat} (h : f.Ranked rank) {below : List S} {t : S}
    (chain : (t :: below).IsChain fun a b => f.super? b = some a) :
    f.lineage (below.getLastD t) = below.reverse ++ f.lineage t := by
  rw [← branch_none, ← branch_none]
  exact h.branch_descend chain (by simp)

end Forest

end Statechart
