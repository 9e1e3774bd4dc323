import Statechart.Proofs.Machine.Transition

namespace Statechart.Machine

variable {S E F X L W : Type} {m m' m'' : Machine S E F X L}

/-- What an operation on a machine leaves alone: all but where the machine stands and what it remembers. -/
def Resembles (m m' : Machine S E F X L) : Prop :=
  ∃ memory current?, m' = { m with memory := memory, current? := current? }

theorem Resembles.refl (m : Machine S E F X L) : m.Resembles m := ⟨m.memory, m.current?, rfl⟩

theorem Resembles.isInitialized (alike : m.Resembles m') : m'.isInitialized = m.isInitialized := by
  obtain ⟨_, _, rfl⟩ := alike
  rfl

variable [DecidableEq S] {b : Behaviour S E F X W} {signal : Signal E} {host host' : Host S E F X L W}
  {done : Completed S E F X L W} {s : S}

theorem initializeAt_ok (initialized : m.initializeAt b s host = .ok (m', host')) :
    m.isInitialized = false ∧ m'.isInitialized ∧ m'.hasEntered = m.hasEntered := by
  unfold initializeAt at initialized
  split at initialized
  · cases initialized
  · rename_i fresh
    cases initialized
    exact ⟨by simpa using fresh, rfl, rfl⟩

theorem initializeAt_current (initialized : m.initializeAt b s host = .ok (m', host')) : m'.current? = m.current? := by
  unfold initializeAt at initialized
  split at initialized
  · cases initialized
  · cases initialized
    rfl

theorem resembles_switchTo (memory : Memory S) (state : S) (host : Host S E F X L W) :
    m.Resembles ({ m with memory := memory }.switchTo state host).1 ∧
      ({ m with memory := memory }.switchTo state host).1.hasEntered := by
  rw [switchTo_fst]
  exact ⟨⟨memory, some state, rfl⟩, rfl⟩

theorem enterInitialState_uninitialized (unready : m.isInitialized = false) :
    m.enterInitialState b host = .error .notInitialized := by
  unfold isInitialized at unready
  unfold enterInitialState
  split
  · rfl
  · rename_i found
    rw [found] at unready
    cases unready

theorem enterInitialState_entered (ready : m.isInitialized) (entered : m.hasEntered) :
    m.enterInitialState b host = .error .initialStateAlreadyEntered := by
  unfold isInitialized at ready
  unfold enterInitialState
  split
  · rename_i found
    rw [found] at ready
    cases ready
  · rw [if_pos entered]

theorem enterInitialState_unentered (ready : m.isInitialized) (unentered : m.hasEntered = false)
    (b : Behaviour S E F X W) (host : Host S E F X L W) :
    ∃ done, m.enterInitialState b host = .ok done ∧ m.Resembles done.machine ∧ done.machine.hasEntered := by
  unfold isInitialized at ready
  unfold enterInitialState
  split
  · rename_i found
    rw [found] at ready
    cases ready
  · rw [if_neg (by simp [unentered])]
    exact ⟨_, rfl, resembles_switchTo _ _ _⟩

theorem enterInitialState_accepted (entered : m.enterInitialState b host = .ok done) :
    m.isInitialized ∧ m.hasEntered = false := by
  cases ready : m.isInitialized with
  | false =>
    rw [enterInitialState_uninitialized ready] at entered
    cases entered
  | true =>
    cases stands : m.hasEntered with
    | true =>
      rw [enterInitialState_entered ready stands] at entered
      cases entered
    | false => exact ⟨rfl, rfl⟩

theorem enterInitialState_resembles (entered : m.enterInitialState b host = .ok done) :
    m.Resembles done.machine ∧ done.machine.hasEntered := by
  obtain ⟨ready, unentered⟩ := enterInitialState_accepted entered
  obtain ⟨done', entered', alike⟩ := enterInitialState_unentered ready unentered b host
  rw [entered] at entered'
  cases entered'
  exact alike

variable [DecidableEq E]

theorem fire_uninitialized (unready : m.isInitialized = false) :
    m.fire b signal host = .error .notInitialized := by
  unfold fire
  rw [if_pos (by simp [unready])]

theorem fire_unentered (ready : m.isInitialized) (unentered : m.hasEntered = false) :
    m.fire b signal host = .error .initialStateNotEntered := by
  unfold hasEntered at unentered
  unfold fire
  rw [if_neg (by simp [ready])]
  split
  · rfl
  · rename_i found
    rw [found] at unentered
    cases unentered

theorem fire_entered (ready : m.isInitialized) (entered : m.hasEntered) (b : Behaviour S E F X W)
    (signal : Signal E) (host : Host S E F X L W) :
    ∃ done, m.fire b signal host = .ok done ∧ m.Resembles done.machine ∧ done.machine.hasEntered := by
  unfold fire
  rw [if_neg (by simp [ready])]
  split
  · rename_i found
    unfold hasEntered at entered
    rw [found] at entered
    cases entered
  · simp only
    split
    · exact ⟨_, rfl, resembles_switchTo _ _ _⟩
    · exact ⟨_, rfl, .refl m, entered⟩

theorem fire_resembles (fired : m.fire b signal host = .ok done) :
    m.isInitialized ∧ m.hasEntered ∧ m.Resembles done.machine ∧ done.machine.hasEntered := by
  cases ready : m.isInitialized with
  | false =>
    rw [fire_uninitialized ready] at fired
    cases fired
  | true =>
    cases stands : m.hasEntered with
    | false =>
      rw [fire_unentered ready stands] at fired
      cases fired
    | true =>
      obtain ⟨done', fired', alike⟩ := fire_entered ready stands b signal host
      rw [fired] at fired'
      cases fired'
      exact ⟨rfl, rfl, alike⟩

end Statechart.Machine
