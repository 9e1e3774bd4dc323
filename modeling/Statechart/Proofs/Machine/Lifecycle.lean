import Statechart.Proofs.Machine.Amendment
import Statechart.Proofs.Machine.InPlace

namespace Statechart

variable {S E F X L W : Type}

inductive Lifecycle where
  | uninitialized | initialized | entered
deriving DecidableEq

namespace Lifecycle

def rank : Lifecycle → Nat
  | uninitialized => 0
  | initialized => 1
  | entered => 2

instance : Preorder Lifecycle := .lift rank

/-- What a call is answered as far as it is for the phase of a machine to say. -/
def verdict : Lifecycle → Call S E F X L → Except (MachineError S E) Unit
  | uninitialized, .enterInitialState | uninitialized, .fire _ => .error (.misuse .notInitialized)
  | initialized, .fire _ => .error (.misuse .initialStateNotEntered)
  | entered, .enterInitialState => .error (.misuse .initialStateAlreadyEntered)
  | initialized, .initializeAt _ | entered, .initializeAt _ => .error (.misuse .alreadyInitialized)
  | initialized, .load _ | entered, .load _ => .error (.checkpoint .alreadyInitialized)
  | _, _ => .ok ()

end Lifecycle

namespace Call

def initializes : Call S E F X L → Bool
  | .initializeAt _ => true
  | .load c => c.initial?.isSome
  | _ => false

def enters : Call S E F X L → Bool
  | .enterInitialState => true
  | .load c => c.current?.isSome
  | _ => false

theorem idle_of_isDefinition {call : Call S E F X L} (definition : call.isDefinition) :
    call.initializes = false ∧ call.enters = false := by
  cases call <;> first | exact ⟨rfl, rfl⟩ | cases definition

end Call

namespace Machine

variable {m m' : Machine S E F X L}

def lifecycle (m : Machine S E F X L) : Lifecycle :=
  if m.hasEntered then .entered else if m.isInitialized then .initialized else .uninitialized

theorem lifecycle_entered_iff : m.lifecycle = .entered ↔ m.hasEntered := by
  unfold lifecycle
  cases m.hasEntered <;> cases m.isInitialized <;> decide

section WellFormed

variable [DecidableEq S]

theorem WellFormed.unentered (wf : m.WellFormed) (fresh : m.isInitialized = false) : m.hasEntered = false := by
  rw [hasEntered, wf.nowhere fresh]
  rfl

theorem WellFormed.lifecycle_uninitialized_iff (wf : m.WellFormed) :
    m.lifecycle = .uninitialized ↔ m.isInitialized = false := by
  unfold lifecycle
  cases fresh : m.isInitialized with
  | false => simp [wf.unentered fresh]
  | true => cases m.hasEntered <;> simp

theorem WellFormed.lifecycle_cases (wf : m.WellFormed) :
    m.lifecycle = .uninitialized ∧ m.isInitialized = false ∨
      m.lifecycle = .initialized ∧ m.isInitialized ∧ m.hasEntered = false ∨
      m.lifecycle = .entered ∧ m.isInitialized ∧ m.hasEntered := by
  cases fresh : m.isInitialized with
  | false => exact .inl ⟨wf.lifecycle_uninitialized_iff.mpr fresh, rfl⟩
  | true =>
    cases stands : m.hasEntered with
    | false => exact .inr (.inl ⟨by rw [lifecycle, stands, fresh]; rfl, rfl, rfl⟩)
    | true => exact .inr (.inr ⟨lifecycle_entered_iff.mpr stands, rfl, rfl⟩)

theorem WellFormed.rank_lifecycle (wf : m.WellFormed) :
    m.lifecycle.rank = m.isInitialized.toNat + m.hasEntered.toNat := by
  rcases wf.lifecycle_cases with ⟨phase, fresh⟩ | ⟨phase, ready, unentered⟩ | ⟨phase, ready, stands⟩
  · rw [phase, fresh, wf.unentered fresh]
    rfl
  · rw [phase, ready, unentered]
    rfl
  · rw [phase, ready, stands]
    rfl

end WellFormed

/-- What a call may do to how far a machine has come, by the call that was accepted, if it was. -/
inductive Advances (m m' : Machine S E F X L) : Option (Call S E F X L) → Prop where
  | stays {accepted? : Option (Call S E F X L)} (initial : m'.initial? = m.initial?)
      (current : m'.hasEntered = m.hasEntered)
      (idle : ∀ call ∈ accepted?, call.initializes = false ∧ call.enters = false) : Advances m m' accepted?
  | initializes {call : Call S E F X L} (fresh : m.isInitialized = false) (unentered : m.hasEntered = false)
      (ready : m'.isInitialized) (initializing : call.initializes) (current : m'.hasEntered = call.enters) :
      Advances m m' (some call)
  | enters (unentered : m.hasEntered = false) (initial : m'.initial? = m.initial?) (entered : m'.hasEntered) :
      Advances m m' (some .enterInitialState)

namespace Advances

variable {accepted? : Option (Call S E F X L)}

theorem initial_kept (advances : m.Advances m' accepted?) (ready : m.isInitialized) : m'.initial? = m.initial? := by
  cases advances with
  | stays initial _ _ => exact initial
  | initializes fresh _ _ _ _ =>
    rw [ready] at fresh
    cases fresh
  | enters _ initial _ => exact initial

theorem entered_kept (advances : m.Advances m' accepted?) (stands : m.hasEntered) : m'.hasEntered := by
  cases advances with
  | stays _ current _ => exact current.trans stands
  | initializes _ unentered _ _ _ =>
    rw [stands] at unentered
    cases unentered
  | enters _ _ entered => exact entered

theorem countP_idle {earns : Call S E F X L → Bool} (idle : ∀ call ∈ accepted?, earns call = false) :
    accepted?.toList.countP earns = 0 := by
  rw [List.countP_eq_zero]
  intro call accepted
  rw [idle call (Option.mem_toList.mp accepted)]
  exact Bool.false_ne_true

theorem isInitialized_credit (advances : m.Advances m' accepted?) :
    m'.isInitialized.toNat = m.isInitialized.toNat + accepted?.toList.countP Call.initializes := by
  cases advances with
  | stays initial _ idle =>
    rw [isInitialized, initial, countP_idle fun call accepted => (idle call accepted).1]
    rfl
  | initializes fresh _ ready initializing _ => simp [fresh, ready, initializing]
  | enters _ initial _ =>
    rw [isInitialized, initial]
    rfl

theorem hasEntered_credit (advances : m.Advances m' accepted?) :
    m'.hasEntered.toNat = m.hasEntered.toNat + accepted?.toList.countP Call.enters := by
  cases advances with
  | stays _ current idle =>
    rw [current, countP_idle fun call accepted => (idle call accepted).2]
    rfl
  | @initializes call _ unentered _ _ current =>
    rw [current, unentered]
    cases entering : call.enters <;> simp [entering]
  | enters unentered _ entered =>
    rw [unentered, entered]
    rfl

end Advances

theorem Advances.lifecycle_le [DecidableEq S] {accepted? : Option (Call S E F X L)} (advances : m.Advances m' accepted?)
    (wf : m.WellFormed) (wf' : m'.WellFormed) : m.lifecycle ≤ m'.lifecycle := by
  show m.lifecycle.rank ≤ m'.lifecycle.rank
  rw [wf.rank_lifecycle, wf'.rank_lifecycle, advances.isInitialized_credit, advances.hasEntered_credit]
  omega

theorem WellFormed.load_advances [DecidableEq S] {c : Checkpoint S} {host host' : Host S E F X L W} (wf : m.WellFormed)
    (loaded : m.load c host = .ok (m', host')) : m.Advances m' (some (.load c)) := by
  obtain ⟨met, taken⟩ := load_ok_iff.mp loaded
  obtain ⟨fresh, _, blank⟩ := checkpointDemands_met_iff.mp met
  unfold takeOver at taken
  cases found : c.initial? with
  | none =>
    rw [found] at taken
    cases taken
    refine .stays rfl rfl fun call accepted => ?_
    cases accepted
    -- without an initial state a checkpoint has no current state either, or it is refused
    obtain ⟨_, nowhere⟩ | ⟨⟨initial, saved, _⟩, _⟩ := blank
    · simp [Call.initializes, Call.enters, found, nowhere]
    · rw [found] at saved
      cases saved
  | some initial =>
    rw [found] at taken
    cases taken
    exact .initializes fresh (wf.unentered fresh) rfl (by rw [Call.initializes, found]; rfl) rfl

end Machine

namespace Run

variable [DecidableEq S] [DecidableEq E] [DecidableEq X] {r : Run S E F X L W} {call : Call S E F X L}
  {calls : List (Call S E F X L)} {error : MachineError S E} {b : Behaviour S E F X W}

omit [DecidableEq S] [DecidableEq E] [DecidableEq X] in
theorem ok_of_discard {ε α : Type} {answered : Except ε α} {refuse : ε → MachineError S E}
    (accepted : discard (answered.mapError refuse) = .ok ()) : ∃ done, answered = .ok done := by
  cases answered with
  | ok done => exact ⟨done, rfl⟩
  | error error => cases accepted

omit [DecidableEq S] [DecidableEq E] [DecidableEq X] in
theorem error_of_discard {ε α : Type} {answered : Except ε α} {refuse : ε → MachineError S E}
    (refused : discard (answered.mapError refuse) = .error error) : ∃ cause, answered = .error cause := by
  cases answered with
  | ok done => cases refused
  | error cause => exact ⟨cause, rfl⟩

theorem call_eq_of_refused (operates : call.isDefinition = false) (refused : r.answer b call = .error error) :
    r.call b call = r := by
  cases call with
  | initializeAt s =>
    obtain ⟨cause, failed⟩ := error_of_discard refused
    rw [call_initializeAt_eq, failed]
    rfl
  | enterInitialState =>
    obtain ⟨cause, failed⟩ := error_of_discard refused
    show r.after _ = r
    rw [failed]
    rfl
  | fire signal =>
    obtain ⟨cause, failed⟩ := error_of_discard refused
    show r.after _ = r
    rw [failed]
    rfl
  | load c =>
    obtain ⟨cause, failed⟩ := error_of_discard refused
    rw [call_load_eq, failed]
    rfl
  | _ => cases operates

theorem call_defined (definition : call.isDefinition) (b : Behaviour S E F X W) (r : Run S E F X L W) :
    (r.call b call).machine.initial? = r.machine.initial? ∧ (r.call b call).machine.current? = r.machine.current? := by
  cases call with
  | define superState initial history subs =>
    rw [Run.call.eq_def]
    simp only [Machine.define]
    cases r.machine.forest.define? superState initial history subs <;> exact ⟨rfl, rfl⟩
  | addTransition source event draft => exact ⟨rfl, rfl⟩
  | addEntryAction s action => exact ⟨rfl, rfl⟩
  | addExitAction s action => exact ⟨rfl, rfl⟩
  | configure change => cases change <;> exact ⟨rfl, rfl⟩
  | _ => cases definition

def accepted? (b : Behaviour S E F X W) (r : Run S E F X L W) (call : Call S E F X L) : Option (Call S E F X L) :=
  match r.answer b call with
  | .ok () => some call
  | .error _ => none

def accepted (b : Behaviour S E F X W) (r : Run S E F X L W) (calls : List (Call S E F X L)) :
    List (Call S E F X L) := yields (accepted? b) b r calls

omit [DecidableEq X] in
theorem eq_of_accepted {other : Call S E F X L} (accepted : other ∈ r.accepted? b call) : other = call := by
  unfold accepted? at accepted
  split at accepted
  · exact (Option.some.inj accepted).symm
  · cases accepted

theorem call_advances (wf : r.machine.WellFormed) (b : Behaviour S E F X W) (call : Call S E F X L) :
    r.machine.Advances (r.call b call).machine (r.accepted? b call) := by
  cases definition : call.isDefinition with
  | true =>
    obtain ⟨initial, current⟩ := call_defined definition b r
    refine .stays initial (congrArg Option.isSome current) fun other accepted => ?_
    rw [eq_of_accepted accepted]
    exact Call.idle_of_isDefinition definition
  | false =>
    cases answered : r.answer b call with
    | error error =>
      rw [call_eq_of_refused definition answered]
      rw [accepted?, answered]
      exact .stays rfl rfl fun _ accepted => by cases accepted
    | ok _ =>
      rw [accepted?, answered]
      cases call with
      | initializeAt s =>
        obtain ⟨⟨m', host'⟩, initialized⟩ := ok_of_discard answered
        obtain ⟨fresh, ready, current⟩ := Machine.initializeAt_ok initialized
        rw [call_initializeAt_eq, initialized]
        exact .initializes fresh (wf.unentered fresh) ready rfl (current.trans (wf.unentered fresh))
      | enterInitialState =>
        obtain ⟨done, entered⟩ := ok_of_discard answered
        obtain ⟨⟨_, _, same⟩, stands⟩ := Machine.enterInitialState_resembles entered
        show r.machine.Advances (r.after _).machine _
        rw [entered]
        refine .enters (Machine.enterInitialState_accepted entered).2 ?_ stands
        show done.machine.initial? = _
        rw [same]
      | fire signal =>
        obtain ⟨done, fired⟩ := ok_of_discard answered
        obtain ⟨_, stood, ⟨_, _, same⟩, stands⟩ := Machine.fire_resembles fired
        show r.machine.Advances (r.after _).machine _
        rw [fired]
        refine .stays ?_ (stands.trans stood.symm) fun other accepted => ?_
        · show done.machine.initial? = _
          rw [same]
        · cases accepted
          exact ⟨rfl, rfl⟩
      | load c =>
        obtain ⟨⟨m', host'⟩, loaded⟩ := ok_of_discard answered
        rw [call_load_eq, loaded]
        exact wf.load_advances loaded
      | _ => cases definition

theorem follow_advances (wf : r.machine.WellFormed) (script : List (Behaviour S E F X W × Call S E F X L)) :
    r.machine.lifecycle ≤ (r.follow script).machine.lifecycle ∧
      (r.machine.isInitialized → (r.follow script).machine.initial? = r.machine.initial?) ∧
      (r.machine.hasEntered → (r.follow script).machine.hasEntered) := by
  unfold follow
  induction script generalizing r with
  | nil => exact ⟨le_refl _, fun _ => rfl, id⟩
  | cons step rest ih =>
    have next := call_wellFormed step.1 wf step.2
    have advances := call_advances wf step.1 step.2
    obtain ⟨further, kept, stands⟩ := ih next
    refine ⟨(advances.lifecycle_le wf next).trans further, fun ready => ?_,
      fun entered => stands (advances.entered_kept entered)⟩
    have same := advances.initial_kept ready
    exact (kept (by rw [Machine.isInitialized, same]; exact ready)).trans same

theorem callAll_credit (credit : Machine S E F X L → Nat) {earns : Call S E F X L → Bool}
    (step : ∀ {m m' accepted?}, m.Advances m' accepted? → credit m' = credit m + accepted?.toList.countP earns)
    (wf : r.machine.WellFormed) (b : Behaviour S E F X W) (calls : List (Call S E F X L)) :
    credit (r.callAll b calls).machine = credit r.machine + (accepted b r calls).countP earns := by
  unfold callAll accepted
  induction calls generalizing r with
  | nil => rfl
  | cons call rest ih =>
    rw [List.foldl_cons, ih (call_wellFormed b wf call), step (call_advances wf b call), yields, List.countP_append,
      Nat.add_assoc]

theorem callAll_isInitialized (wf : r.machine.WellFormed) (b : Behaviour S E F X W) (calls : List (Call S E F X L)) :
    (r.callAll b calls).machine.isInitialized.toNat =
      r.machine.isInitialized.toNat + (accepted b r calls).countP Call.initializes :=
  callAll_credit (fun m => m.isInitialized.toNat) Machine.Advances.isInitialized_credit wf b calls

theorem callAll_hasEntered (wf : r.machine.WellFormed) (b : Behaviour S E F X W) (calls : List (Call S E F X L)) :
    (r.callAll b calls).machine.hasEntered.toNat =
      r.machine.hasEntered.toNat + (accepted b r calls).countP Call.enters :=
  callAll_credit (fun m => m.hasEntered.toNat) Machine.Advances.hasEntered_credit wf b calls

omit [DecidableEq X] in
theorem answer_verdict (wf : r.machine.WellFormed) (b : Behaviour S E F X W) (operates : call.isDefinition = false)
    (late : ∀ c, call = .load c → r.machine.lifecycle ≠ .uninitialized) :
    r.answer b call = r.machine.lifecycle.verdict call := by
  cases call with
  | initializeAt s =>
    dsimp only [answer]
    unfold Machine.initializeAt
    rcases wf.lifecycle_cases with ⟨phase, fresh⟩ | ⟨phase, ready, _⟩ | ⟨phase, ready, _⟩
    · rw [phase, fresh]
      rfl
    · rw [phase, ready]
      rfl
    · rw [phase, ready]
      rfl
  | enterInitialState =>
    dsimp only [answer]
    rcases wf.lifecycle_cases with ⟨phase, fresh⟩ | ⟨phase, ready, unentered⟩ | ⟨phase, ready, stands⟩
    · rw [phase, Machine.enterInitialState_uninitialized fresh]
      rfl
    · obtain ⟨done, entered, _⟩ := Machine.enterInitialState_unentered ready unentered b r.host
      rw [phase, entered]
      rfl
    · rw [phase, Machine.enterInitialState_entered ready stands]
      rfl
  | fire signal =>
    dsimp only [answer]
    rcases wf.lifecycle_cases with ⟨phase, fresh⟩ | ⟨phase, ready, unentered⟩ | ⟨phase, ready, stands⟩
    · rw [phase, Machine.fire_uninitialized fresh]
      rfl
    · rw [phase, Machine.fire_unentered ready unentered]
      rfl
    · obtain ⟨done, fired, _⟩ := Machine.fire_entered ready stands b signal r.host
      rw [phase, fired]
      rfl
  | load c =>
    dsimp only [answer]
    unfold Machine.load
    rcases wf.lifecycle_cases with ⟨phase, _⟩ | ⟨phase, ready, _⟩ | ⟨phase, ready, _⟩
    · exact absurd phase (late c rfl)
    · rw [phase, ready]
      rfl
    · rw [phase, ready]
      rfl
  | _ => cases operates

/-- However a machine is used, it only goes forward from being defined to being initialized and being entered. It is
    given an initial state once and a first current state once, and keeps them from then on. Calls that come too early
    or too late are refused, and a refused call does nothing, also where it is made step by step. -/
theorem callAll_lifecycle (config : Config) (host : Host S E F X L W) (b : Behaviour S E F X W)
    (calls : List (Call S E F X L)) :
    let r := (start config host).callAll b calls
    let accepted := accepted b (start config host) calls
    (r.machine.lifecycle = .uninitialized ↔ r.machine.initial? = none) ∧
    (r.machine.lifecycle = .entered ↔ r.machine.current? ≠ none) ∧
    (∀ later : List (Call S E F X L), r.machine.lifecycle ≤ (r.callAll b later).machine.lifecycle ∧
      (r.machine.initial? ≠ none → (r.callAll b later).machine.initial? = r.machine.initial?) ∧
      (r.machine.current? ≠ none → (r.callAll b later).machine.current? ≠ none)) ∧
    (accepted.countP Call.initializes ≤ 1 ∧ accepted.countP Call.enters ≤ 1) ∧
    (∀ call : Call S E F X L, call.isDefinition = false →
      (∀ c, call = .load c → r.machine.lifecycle ≠ .uninitialized) →
      r.answer b call = r.machine.lifecycle.verdict call) ∧
    (∀ call : Call S E F X L, (callInPlace b call).run.run (r.machine, r.host) =
      (r.answer b call, (r.call b call).machine, (r.call b call).host)) ∧
    ∀ call : Call S E F X L, call.isDefinition = false → ∀ error, r.answer b call = .error error → r.call b call = r := by
  have new : (start config host).machine.WellFormed := Machine.wellFormed_ofConfig config
  have wf := callAll_wellFormed b new calls
  have initialized := callAll_isInitialized new b calls
  have entered := callAll_hasEntered new b calls
  intro r accepted
  have unset : r.machine.isInitialized = false ↔ r.machine.initial? = none :=
    Option.isSome_eq_false_iff.trans Option.isNone_iff_eq_none
  refine ⟨wf.lifecycle_uninitialized_iff.trans unset, Machine.lifecycle_entered_iff.trans Option.isSome_iff_ne_none,
    fun later => ?_, ⟨?_, ?_⟩, fun call => answer_verdict wf b, run_callInPlace b r,
    fun call operates error => call_eq_of_refused operates⟩
  · obtain ⟨forward, kept, stands⟩ := follow_advances wf (later.map (b, ·))
    rw [← callAll_eq_follow] at forward kept stands
    exact ⟨forward, fun set => kept (Option.isSome_iff_ne_none.mpr set),
      fun set => Option.isSome_iff_ne_none.mp (stands (Option.isSome_iff_ne_none.mpr set))⟩
  · calc accepted.countP Call.initializes
        ≤ (start config host).machine.isInitialized.toNat + accepted.countP Call.initializes := Nat.le_add_left _ _
      _ = r.machine.isInitialized.toNat := initialized.symm
      _ ≤ 1 := Bool.toNat_le _
  · calc accepted.countP Call.enters
        ≤ (start config host).machine.hasEntered.toNat + accepted.countP Call.enters := Nat.le_add_left _ _
      _ = r.machine.hasEntered.toNat := entered.symm
      _ ≤ 1 := Bool.toNat_le _

end Run

end Statechart
