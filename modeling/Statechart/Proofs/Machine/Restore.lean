import Statechart.Checkpoint
import Statechart.Proofs.Machine.Move

namespace Statechart

theorem ok_of_bind {α β ε : Type} {first : Except ε α} {next : α → Except ε β} {answer : β}
    (both : first >>= next = .ok answer) : ∃ middle, first = .ok middle ∧ next middle = .ok answer := by
  cases first with
  | error error => cases both
  | ok middle => exact ⟨middle, rfl, both⟩

theorem forM_ok_iff {α ε : Type} {check : α → Except ε Unit} {items : List α} :
    items.forM check = .ok () ↔ ∀ item ∈ items, check item = .ok () := by
  induction items with
  | nil => exact ⟨fun _ _ member => absurd member List.not_mem_nil, fun _ => rfl⟩
  | cons first rest ih =>
    have unrolled : (first :: rest).forM check = check first >>= fun _ => rest.forM check := rfl
    rw [unrolled, List.forall_mem_cons]
    constructor
    · intro passed
      obtain ⟨_, checked, passed⟩ := ok_of_bind passed
      exact ⟨checked, ih.mp passed⟩
    · rintro ⟨checked, passed⟩
      rw [checked]
      exact ih.mpr passed

namespace Machine

variable {S E F X L W : Type} [DecidableEq S] {m m' : Machine S E F X L} {s : S} {host host' : Host S E F X L W}
  {c : Checkpoint S} {entry : HistoryEntry S}

theorem checkKnown_ok_iff : m.checkKnown s = .ok () ↔ s ∈ m.forest.keys := by
  rw [← Table.contains_iff]
  unfold checkKnown
  cases m.forest.contains s <;> simp

theorem checkCurrent_ok_iff :
    m.checkCurrent s = .ok () ↔ s ∈ m.forest.keys ∧ m.forest.isComposite s = false := by
  rw [← checkKnown_ok_iff]
  unfold checkCurrent
  cases m.checkKnown s with
  | error error => simp [bind, Except.bind]
  | ok known => cases composite : m.forest.isComposite s <;> simp [bind, Except.bind]

theorem checkHistory_ok_iff :
    m.checkHistory entry = .ok () ↔ entry.superState ∈ m.forest.keys ∧ entry.lastActive ∈ m.forest.keys ∧
      m.forest.super? entry.lastActive = some entry.superState := by
  rw [← checkKnown_ok_iff, ← checkKnown_ok_iff]
  unfold checkHistory
  cases m.checkKnown entry.superState with
  | error error => simp [bind, Except.bind]
  | ok known =>
    cases m.checkKnown entry.lastActive with
    | error error => simp [bind, Except.bind]
    | ok known' =>
      by_cases linked : m.forest.super? entry.lastActive = some entry.superState <;> simp [bind, Except.bind, linked]

theorem load_ok (loaded : m.load c host = .ok (m', host')) :
    m.isInitialized = false ∧ (m' = m ∧ c.current? = none ∨ ∃ initial ∈ m.forest.keys,
      m' = { m with
        memory := c.history.foldl (fun memory entry => memory.insert entry.superState entry.lastActive) m.memory
        initial? := some initial, current? := c.current? } ∧
      (∀ s ∈ c.current?, s ∈ m.forest.keys ∧ m.forest.isComposite s = false) ∧
      ∀ entry ∈ c.history, m.forest.super? entry.lastActive = some entry.superState) := by
  unfold load at loaded
  cases fresh : m.isInitialized with
  | true =>
    rw [fresh] at loaded
    cases loaded
  | false =>
    rw [fresh] at loaded
    obtain ⟨_, _, loaded⟩ := ok_of_bind loaded
    refine ⟨rfl, ?_⟩
    split at loaded
    · split at loaded
      · cases loaded
      · rename_i nowhere
        cases loaded
        exact .inl ⟨rfl, by simpa using nowhere⟩
    · rename_i initial _
      obtain ⟨_, known, loaded⟩ := ok_of_bind loaded
      obtain ⟨_, currently, loaded⟩ := ok_of_bind loaded
      obtain ⟨_, recorded, loaded⟩ := ok_of_bind loaded
      cases loaded
      refine .inr ⟨initial, checkKnown_ok_iff.mp known, rfl, ?_, fun entry member =>
        (checkHistory_ok_iff.mp (forM_ok_iff.mp recorded entry member)).2.2⟩
      intro s stands
      rw [Option.mem_def.mp stands] at currently
      exact checkCurrent_ok_iff.mp currently

theorem load_host (loaded : m.load c host = .ok (m', host')) :
    host' = host ∨ host' = host.log (.loadedCheckpoint m.name c.id c.current?) := by
  unfold load at loaded
  cases fresh : m.isInitialized with
  | true =>
    rw [fresh] at loaded
    cases loaded
  | false =>
    rw [fresh] at loaded
    obtain ⟨_, _, loaded⟩ := ok_of_bind loaded
    split at loaded
    · split at loaded
      · cases loaded
      · cases loaded
        exact .inl rfl
    · obtain ⟨_, _, loaded⟩ := ok_of_bind loaded
      obtain ⟨_, _, loaded⟩ := ok_of_bind loaded
      obtain ⟨_, _, loaded⟩ := ok_of_bind loaded
      cases loaded
      exact .inr rfl

theorem fits_restored {f : Forest S E F} {memory : Memory S} {history : List (HistoryEntry S)}
    (fits : f.MemoryFits memory)
    (subs : ∀ entry ∈ history, f.super? entry.lastActive = some entry.superState) :
    f.MemoryFits (history.foldl (fun memory entry => memory.insert entry.superState entry.lastActive) memory) := by
  induction history generalizing memory with
  | nil => exact fits
  | cons entry rest ih =>
    refine ih ?_ fun other member => subs other (List.mem_cons_of_mem _ member)
    intro p c found
    rw [Table.get?_insert] at found
    split at found
    · rename_i same
      cases found
      rw [same]
      exact subs entry List.mem_cons_self
    · exact fits p c found

theorem WellFormed.load (wf : m.WellFormed) (loaded : m.load c host = .ok (m', host')) : m'.WellFormed := by
  obtain ⟨_, ⟨same, _⟩ | ⟨initial, known, rfl, standing, subs⟩⟩ := load_ok loaded
  · rw [same]
    exact wf
  · refine ⟨wf.tree, fits_restored wf.memory subs, ?_, fun s stands => (standing s stands).1, fun _ => rfl⟩
    rintro s ⟨⟩
    exact known

end Machine

end Statechart
