import Mathlib.Data.List.Chain
import Statechart.Walk

namespace Statechart

variable {α : Type} {next : α → Option α}

theorem walk?_end {s : α} (last : next s = none) (steps : Nat) : walk? next (steps + 1) s = some [s] := by
  simp only [walk?, last]

theorem walk?_link {s t : α} (link : next s = some t) (steps : Nat) :
    walk? next (steps + 1) s = (walk? next steps t).map (s :: ·) := by
  simp only [walk?, link]

theorem walk?_isSome (size : α → Nat) (falls : ∀ s t, next s = some t → size t < size s) :
    ∀ (steps : Nat) (s : α), size s < steps → (walk? next steps s).isSome := by
  intro steps
  induction steps with
  | zero => intro s bound; omega
  | succ steps ih =>
    intro s bound
    cases link : next s with
    | none => rw [walk?_end link]; rfl
    | some t =>
      have smaller := falls s t link
      have rest := ih t (by omega)
      rw [walk?_link link, Option.isSome_map]
      exact rest

theorem walk?_more_steps {steps more : Nat} {s : α} {path : List α} (finished : walk? next steps s = some path)
    (le : steps ≤ more) : walk? next more s = some path := by
  induction steps generalizing more s path with
  | zero => simp [walk?] at finished
  | succ steps ih =>
    obtain ⟨more, rfl⟩ : ∃ n, more = n + 1 := ⟨more - 1, by omega⟩
    cases link : next s with
    | none => rw [walk?_end link] at finished ⊢; exact finished
    | some t =>
      rw [walk?_link link] at finished ⊢
      obtain ⟨rest, walked, rfl⟩ := Option.map_eq_some_iff.mp finished
      rw [ih walked (by omega)]
      rfl

theorem walk?_starts {steps : Nat} {s : α} {path : List α} (finished : walk? next steps s = some path) :
    path.head? = some s := by
  cases steps with
  | zero => simp [walk?] at finished
  | succ steps =>
    cases link : next s with
    | none => rw [walk?_end link] at finished; cases finished; rfl
    | some t =>
      rw [walk?_link link] at finished
      obtain ⟨rest, _, rfl⟩ := Option.map_eq_some_iff.mp finished
      rfl

theorem walk?_isChain {steps : Nat} {s : α} {path : List α} (finished : walk? next steps s = some path) :
    path.IsChain fun a b => next a = some b := by
  induction steps generalizing s path with
  | zero => simp [walk?] at finished
  | succ steps ih =>
    cases link : next s with
    | none => rw [walk?_end link] at finished; cases finished; exact .singleton s
    | some t =>
      rw [walk?_link link] at finished
      obtain ⟨rest, walked, rfl⟩ := Option.map_eq_some_iff.mp finished
      have starts := walk?_starts walked
      cases rest with
      | nil => simp at starts
      | cons t' rest =>
        cases starts
        exact .cons_cons link (ih walked)

inductive Ends (next : α → Option α) : α → α → Prop where
  | here {s : α} (last : next s = none) : Ends next s s
  | link {s t l : α} (link : next s = some t) (rest : Ends next t l) : Ends next s l

theorem walk?_ends {steps : Nat} {s : α} {path : List α} (finished : walk? next steps s = some path) (d : α) :
    Ends next s (path.getLastD d) := by
  induction steps generalizing s path d with
  | zero => simp [walk?] at finished
  | succ steps ih =>
    cases link : next s with
    | none => rw [walk?_end link] at finished; cases finished; exact .here link
    | some t =>
      rw [walk?_link link] at finished
      obtain ⟨rest, walked, rfl⟩ := Option.map_eq_some_iff.mp finished
      rw [List.getLastD_cons]
      exact .link link (ih walked s)

namespace Ends

variable {next' : α → Option α} {s l l' : α}

theorem stops (ends : Ends next s l) : next l = none := by
  induction ends with
  | here last => exact last
  | link link rest ih => exact ih

theorem unique (ends : Ends next s l) (ends' : Ends next s l') : l = l' := by
  induction ends with
  | here last =>
    cases ends' with
    | here last' => rfl
    | link link' rest' =>
      rw [last] at link'
      cases link'
  | link link rest ih =>
    cases ends' with
    | here last' =>
      rw [link] at last'
      cases last'
    | link link' rest' =>
      rw [link] at link'
      cases link'
      exact ih rest'

theorem congr {r : α → Prop} (closed : ∀ a b, r a → next a = some b → r b)
    (same : ∀ a, r a → next' a = next a) (inside : r s) (ends : Ends next s l) : Ends next' s l := by
  induction ends with
  | here last => exact .here ((same _ inside).trans last)
  | link link rest ih => exact .link ((same _ inside).trans link) (ih (closed _ _ inside link))

end Ends

inductive Trail (next : α → Option α) : α → List α → Prop where
  | last {s : α} (last : next s = none) : Trail next s [s]
  | link {s t : α} {path : List α} (link : next s = some t) (rest : Trail next t path) : Trail next s (s :: path)

theorem trail_last_iff {s : α} {path : List α} (last : next s = none) : Trail next s path ↔ path = [s] := by
  constructor
  · rintro (_ | ⟨link, _⟩)
    · rfl
    · rw [last] at link
      cases link
  · rintro rfl
    exact .last last

theorem trail_link_iff {s t : α} {path : List α} (link : next s = some t) :
    Trail next s path ↔ ∃ rest, path = s :: rest ∧ Trail next t rest := by
  constructor
  · rintro (last | ⟨link', rest⟩)
    · rw [last] at link
      cases link
    · rw [link'] at link
      cases link
      exact ⟨_, rfl, rest⟩
  · rintro ⟨rest, rfl, trail⟩
    exact .link link trail

/-- An answer is the whole trail, and there is one when enough steps are allowed. -/
theorem walk?_eq_some_iff {steps : Nat} {s : α} {path : List α} :
    walk? next steps s = some path ↔ Trail next s path ∧ path.length ≤ steps := by
  induction steps generalizing s path with
  | zero =>
    refine ⟨fun answer => (by cases answer), ?_⟩
    rintro ⟨_ | _, short⟩ <;> simp at short
  | succ steps ih =>
    cases link : next s with
    | none =>
      rw [walk?_end link, trail_last_iff link, Option.some.injEq, eq_comm]
      refine ⟨fun same => ⟨same, by simp [same]⟩, And.left⟩
    | some t =>
      rw [walk?_link link, trail_link_iff link]
      constructor
      · intro answer
        obtain ⟨rest, walked, rfl⟩ := Option.map_eq_some_iff.mp answer
        obtain ⟨trail, short⟩ := ih.mp walked
        exact ⟨⟨rest, rfl, trail⟩, by simpa using short⟩
      · rintro ⟨⟨rest, rfl, trail⟩, short⟩
        rw [ih.mpr ⟨trail, by simpa using short⟩]
        rfl

theorem Trail.forall_mem {inside : α → Prop} (closed : ∀ a b, inside a → next a = some b → inside b) {s : α}
    {path : List α} (trail : Trail next s path) (here : inside s) : ∀ a ∈ path, inside a := by
  induction trail with
  | last last => exact List.forall_mem_singleton.mpr here
  | link link rest ih => exact List.forall_mem_cons.mpr ⟨here, ih (closed _ _ here link)⟩

theorem exists_trail {inside : α → Prop} (size : α → Nat)
    (falls : ∀ a b, inside a → next a = some b → inside b ∧ size b < size a) {s : α} (here : inside s) :
    ∃ path last, Trail next s (path ++ [last]) ∧ next last = none ∧ ∀ a ∈ path ++ [last], inside a := by
  generalize bound : size s = n
  induction n using Nat.strong_induction_on generalizing s with
  | _ n ih =>
    cases link : next s with
    | none => exact ⟨[], s, .last link, link, by simpa using here⟩
    | some t =>
      obtain ⟨there, smaller⟩ := falls s t here link
      obtain ⟨path, last, trail, stops, all⟩ := ih (size t) (bound ▸ smaller) there rfl
      exact ⟨s :: path, last, .link link trail, stops, List.forall_mem_cons.mpr ⟨here, all⟩⟩

end Statechart
