import Mathlib.Data.List.Basic

namespace Statechart

/-- A condition that a call makes, and what the call is refused with where the condition does not hold. -/
structure Demand (ε : Type) where
  holds : Bool
  refusal : ε

namespace Demand

variable {ε : Type} {demands : List (Demand ε)} {answer : ε}

def unmet (demands : List (Demand ε)) : List ε := (demands.filter fun demand => !demand.holds).map refusal

def check (demand : Demand ε) : Except ε Unit := if demand.holds then .ok () else .error demand.refusal

theorem unmet_append (demands more : List (Demand ε)) : unmet (demands ++ more) = unmet demands ++ unmet more := by
  simp only [unmet, List.filter_append, List.map_append]

theorem unmet_flatMap {α : Type} (ask : α → List (Demand ε)) (items : List α) :
    unmet (items.flatMap ask) = items.flatMap fun item => unmet (ask item) := by
  induction items with
  | nil => rfl
  | cons item rest ih => rw [List.flatMap_cons, unmet_append, ih, List.flatMap_cons]

theorem unmet_cons (demand : Demand ε) (rest : List (Demand ε)) :
    unmet (demand :: rest) = (if demand.holds then [] else [demand.refusal]) ++ unmet rest := by
  cases holds : demand.holds <;> simp [unmet, holds]

theorem unmet_eq_nil_iff : unmet demands = [] ↔ ∀ demand ∈ demands, demand.holds := by
  simp only [unmet, List.map_eq_nil_iff, List.filter_eq_nil_iff, Bool.not_eq_true', Bool.not_eq_false]

theorem forM_check (demands : List (Demand ε)) : demands.forM check = (unmet demands).head?.elim (.ok ()) .error := by
  induction demands with
  | nil => rfl
  | cons demand rest ih =>
    have unrolled : (demand :: rest).forM check = check demand >>= fun _ => rest.forM check := rfl
    rw [unrolled, ih, unmet_cons, check]
    cases demand.holds <;> rfl

theorem forM_check_ok_iff : demands.forM check = .ok () ↔ unmet demands = [] := by
  rw [forM_check]
  cases unmet demands <;> simp

theorem forM_check_error_iff : demands.forM check = .error answer ↔ (unmet demands).head? = some answer := by
  rw [forM_check]
  cases unmet demands <;> simp

theorem forM_append (demands more : List (Demand ε)) :
    (demands ++ more).forM check = demands.forM check >>= fun _ => more.forM check := by
  rw [forM_check, unmet_append, forM_check, forM_check]
  cases unmet demands <;> rfl

theorem forM_flatMap {α : Type} {test : α → Except ε Unit} {ask : α → List (Demand ε)}
    (asks : ∀ item, test item = (ask item).forM check) (items : List α) :
    items.forM test = (items.flatMap ask).forM check := by
  induction items with
  | nil => rfl
  | cons item rest ih =>
    have unrolled : (item :: rest).forM test = test item >>= fun _ => rest.forM test := rfl
    rw [unrolled, asks, ih, List.flatMap_cons, forM_append]

end Demand

/-- A computation that writes to a state as it goes. A refusal takes nothing back that was written before it. -/
abbrev InPlace (ε σ : Type) : Type → Type := ExceptT ε (StateM σ)

namespace InPlace

variable {ε σ α : Type}

def check (test : σ → Except ε Unit) : InPlace ε σ Unit := do
  liftExcept (test (← get))

def require (find? : σ → Option α) (missing : ε) : InPlace ε σ α := do
  match find? (← get) with
  | some found => pure found
  | none => throw missing

def allOrNothing (state : σ) : Except ε σ → Except ε Unit × σ
  | .ok written => (.ok (), written)
  | .error error => (.error error, state)

theorem run_check (test : σ → Except ε Unit) (next : Unit → InPlace ε σ Unit) (state : σ) :
    (check test >>= next).run.run state = match test state with
      | .ok _ => (next ()).run.run state
      | .error error => (.error error, state) := by
  have opened : (check test >>= next).run.run state = (liftExcept (test state) >>= next : InPlace ε σ Unit).run.run state :=
    rfl
  rw [opened]
  cases test state <;> rfl

theorem run_require {β : Type} (find? : σ → Option β) (missing : ε) (next : β → InPlace ε σ α) (state : σ) :
    (require find? missing >>= next).run.run state = match find? state with
      | some found => (next found).run.run state
      | none => (.error missing, state) := by
  have opened : (require find? missing >>= next).run.run state =
      ((match find? state with
        | some found => pure found
        | none => throw missing : InPlace ε σ β) >>= next).run.run state := rfl
  rw [opened]
  cases find? state <;> rfl

theorem run_get (next : σ → InPlace ε σ α) (state : σ) :
    ((get : InPlace ε σ σ) >>= next).run.run state = (next state).run.run state := rfl

theorem run_modify (change : σ → σ) (next : Unit → InPlace ε σ α) (state : σ) :
    ((modify change : InPlace ε σ Unit) >>= next).run.run state = (next ()).run.run (change state) := rfl

theorem run_modifyGet {β : Type} (change : σ → β × σ) (next : β → InPlace ε σ α) (state : σ) :
    ((modifyGet change : InPlace ε σ β) >>= next).run.run state = (next (change state).1).run.run (change state).2 :=
  rfl

theorem run_checkAll (test : σ → α → Except ε Unit) (next : Unit → InPlace ε σ Unit) (items : List α) (state : σ) :
    ((items.forM fun item => check fun state => test state item) >>= next).run.run state =
      match items.forM (test state) with
      | .ok _ => (next ()).run.run state
      | .error error => (.error error, state) := by
  induction items with
  | nil => rfl
  | cons item rest ih =>
    have unrolled : (item :: rest).forM (test state) = test state item >>= fun _ => rest.forM (test state) := rfl
    have first := run_check (fun state => test state item)
      (fun _ => (rest.forM fun item => check fun state => test state item) >>= next) state
    rw [ih] at first
    have assoc : ((item :: rest).forM fun item => check fun state => test state item) >>= next =
        (check fun state => test state item) >>=
          fun _ => (rest.forM fun item => check fun state => test state item) >>= next := bind_assoc _ _ _
    rw [assoc, first, unrolled]
    cases test state item <;> rfl

theorem run_modifyAll (change : σ → α → σ) (next : Unit → InPlace ε σ Unit) (items : List α) (state : σ) :
    ((items.forM fun item => modify fun state => change state item) >>= next).run.run state =
      (next ()).run.run (items.foldl change state) := by
  induction items generalizing state with
  | nil => rfl
  | cons item rest ih => exact ih (change state item)

end InPlace

end Statechart
