import Statechart.Host

namespace Statechart

variable {S E F X L W : Type}

inductive Routine (F : Type) where
  | guard (callable : Callable F)
  | action (callable : Callable F)

namespace Routine

def callable : Routine F → Callable F
  | guard callable | action callable => callable

def run (b : Behaviour S E F X W) (routine : Routine F) (input : Input) (world : W) : List (Post E) × W :=
  match routine with
  | guard callable => ((b.guard callable.code input world).sent, (b.guard callable.code input world).world)
  | action callable => ((b.action callable.code input world).sent, (b.action callable.code input world).world)

end Routine

structure Sending (E : Type) where
  place : Nat
  posts : List (Post E)

section Sendings

def sentBy (place : Nat) (sendings : List (Sending E)) : List (Post E) :=
  (sendings.filter (·.place = place)).flatMap Sending.posts

def sentBelow (place : Nat) (sendings : List (Sending E)) : List (Post E) :=
  (sendings.filter (·.place < place)).flatMap Sending.posts

theorem length_sentBelow_succ (place : Nat) (sendings : List (Sending E)) :
    (sentBelow (place + 1) sendings).length = (sentBelow place sendings).length + (sentBy place sendings).length := by
  unfold sentBelow sentBy
  induction sendings with
  | nil => rfl
  | cons sending rest ih =>
    by_cases same : sending.place = place
    · simp only [List.filter_cons, same, Nat.lt_succ_self, Nat.lt_irrefl, decide_true, decide_false, if_true,
        Bool.false_eq_true, if_false, List.flatMap_cons, List.length_append, ih]
      omega
    · have next : sending.place < place + 1 ↔ sending.place < place := by omega
      simp only [List.filter_cons, same, next, decide_false, Bool.false_eq_true, if_false]
      split
      · rw [List.flatMap_cons, List.flatMap_cons, List.length_append, List.length_append, ih, Nat.add_assoc]
      · exact ih

theorem sentBy_append (place : Nat) (sendings more : List (Sending E)) :
    sentBy place (sendings ++ more) = sentBy place sendings ++ sentBy place more := by
  unfold sentBy
  rw [List.filter_append, List.flatMap_append]

end Sendings

namespace Behaviour

inductive Calls (b : Behaviour S E F X W) (routines : List (Routine F)) : W → List (Sending E) → W → Prop where
  | none (world : W) : Calls b routines world [] world
  | next {world world' : W} {place : Nat} {routine : Routine F} {arguments : Arguments} {input : Input}
      {sendings : List (Sending E)} (employed : routines[place]? = some routine)
      (received : routine.callable.receive arguments = .ok input)
      (rest : Calls b routines (routine.run b input world).2 sendings world') :
      Calls b routines world (⟨place, (routine.run b input world).1⟩ :: sendings) world'

variable {b : Behaviour S E F X W} {routines : List (Routine F)} {world world' world'' : W}
  {sendings more : List (Sending E)}

theorem Calls.append (first : b.Calls routines world sendings world') (second : b.Calls routines world' more world'') :
    b.Calls routines world (sendings ++ more) world'' := by
  induction first with
  | none => exact second
  | next employed received _ ih => exact .next employed received (ih second)

theorem Calls.place_lt (calls : b.Calls routines world sendings world') :
    ∀ sending ∈ sendings, sending.place < routines.length := by
  induction calls with
  | none => simp
  | next employed _ _ ih =>
    rw [List.forall_mem_cons]
    exact ⟨(List.getElem?_eq_some_iff.mp employed).1, ih⟩

/-- Each routine has a budget: however routines are called from now on, it sends no more than that. -/
def Frugal (b : Behaviour S E F X W) (routines : List (Routine F)) (world : W) : Prop :=
  ∀ place < routines.length, ∃ budget, ∀ sendings world', b.Calls routines world sendings world' →
    (sentBy place sendings).length ≤ budget

theorem Frugal.after (frugal : b.Frugal routines world) (calls : b.Calls routines world sendings world') :
    b.Frugal routines world' := by
  intro place known
  obtain ⟨budget, within⟩ := frugal place known
  refine ⟨budget, fun more world'' later => ?_⟩
  have whole := within _ _ (calls.append later)
  rw [sentBy_append, List.length_append] at whole
  exact Nat.le_trans (Nat.le_add_left _ _) whole

theorem Frugal.total (frugal : b.Frugal routines world) : ∃ most, ∀ sendings world',
    b.Calls routines world sendings world' → (sendings.flatMap Sending.posts).length ≤ most := by
  have upTo (place : Nat) (known : place ≤ routines.length) : ∃ most, ∀ sendings world',
      b.Calls routines world sendings world' → (sentBelow place sendings).length ≤ most := by
    induction place with
    | zero =>
      refine ⟨0, fun sendings _ _ => ?_⟩
      rw [sentBelow, List.filter_eq_nil_iff.mpr fun sending _ => by simp]
      exact Nat.le_refl 0
    | succ place ih =>
      obtain ⟨most, below⟩ := ih (Nat.le_of_succ_le known)
      obtain ⟨budget, within⟩ := frugal place known
      refine ⟨most + budget, fun sendings world' calls => ?_⟩
      rw [length_sentBelow_succ]
      exact Nat.add_le_add (below sendings world' calls) (within sendings world' calls)
  obtain ⟨most, all⟩ := upTo routines.length (Nat.le_refl _)
  refine ⟨most, fun sendings world' calls => ?_⟩
  have sent := all sendings world' calls
  rwa [sentBelow, List.filter_eq_self.mpr fun sending member => by simpa using calls.place_lt sending member] at sent

/-- Code that pays for whatever it sends out of one fund is frugal. -/
theorem frugal_of_fund (fund : W → Nat) (pays : ∀ routine ∈ routines, ∀ input world,
    (routine.run b input world).1.length + fund (routine.run b input world).2 ≤ fund world) (world : W) :
    b.Frugal routines world := by
  intro place _
  refine ⟨fund world, fun sendings world' calls => ?_⟩
  suffices paid : (sentBy place sendings).length + fund world' ≤ fund world by omega
  induction calls with
  | none => exact Nat.le_of_eq (Nat.zero_add _)
  | @next world world' place' routine arguments input sendings employed received _ ih =>
    have cost := pays routine (List.mem_of_getElem? employed) input world
    have own : (sentBy place (⟨place', (routine.run b input world).1⟩ :: sendings)).length ≤
        (routine.run b input world).1.length + (sentBy place sendings).length := by
      unfold sentBy
      rw [List.filter_cons]
      split
      · exact Nat.le_of_eq List.length_append
      · exact Nat.le_add_left _ _
    omega

end Behaviour

end Statechart
