import Statechart.Proofs.Refusal
import Statechart.Proofs.Forest.Outline
import Statechart.Proofs.Machine.Run

namespace Statechart.Machine

variable {S E F X L W : Type} [DecidableEq S] {m m' : Machine S E F X L} {c : Checkpoint S} {host host' : Host S E F X L W}
  {s p : S}

def knownDemand (m : Machine S E F X L) (s : S) : Demand (CheckpointError S) :=
  ⟨m.forest.contains s, .unknownState s⟩

def currentDemands (m : Machine S E F X L) (s : S) : List (Demand (CheckpointError S)) :=
  [m.knownDemand s, ⟨!m.forest.isComposite s, .currentNotLeaf s⟩]

def historyDemands (m : Machine S E F X L) (entry : HistoryEntry S) : List (Demand (CheckpointError S)) :=
  [m.knownDemand entry.superState, m.knownDemand entry.lastActive,
    ⟨m.forest.super? entry.lastActive = some entry.superState, .notSubState entry.lastActive entry.superState⟩]

/-- What a machine demands of a checkpoint that it is to take over, in the order in which it looks. -/
def checkpointDemands (m : Machine S E F X L) (c : Checkpoint S) : List (Demand (CheckpointError S)) :=
  [⟨!m.isInitialized, .alreadyInitialized⟩, ⟨c.version = checkpointVersion, .unsupportedVersion c.version⟩] ++
    match c.initial? with
    | none => [⟨c.current?.isNone, .currentWithoutInitial⟩]
    | some initial =>
      m.knownDemand initial :: (c.current?.toList.flatMap m.currentDemands ++ c.history.flatMap m.historyDemands)

theorem checkKnown_eq (m : Machine S E F X L) (s : S) : m.checkKnown s = (m.knownDemand s).check := rfl

theorem checkCurrent_eq (m : Machine S E F X L) (s : S) :
    m.checkCurrent s = (m.currentDemands s).forM Demand.check := by
  unfold checkCurrent currentDemands
  rw [checkKnown_eq]
  cases composite : m.forest.isComposite s <;> rfl

theorem checkHistory_eq (m : Machine S E F X L) (entry : HistoryEntry S) :
    m.checkHistory entry = (m.historyDemands entry).forM Demand.check := by
  unfold checkHistory historyDemands
  rw [checkKnown_eq, checkKnown_eq]
  by_cases linked : m.forest.super? entry.lastActive = some entry.superState
  · simp only [linked]
    rfl
  · simp only [linked]
    rfl

def takeOver (m : Machine S E F X L) (c : Checkpoint S) (host : Host S E F X L W) :
    Machine S E F X L × Host S E F X L W :=
  match c.initial? with
  | none => (m, host)
  | some initial =>
    let memory := c.history.foldl (fun memory entry => memory.insert entry.superState entry.lastActive) m.memory
    ({ m with memory := memory, initial? := some initial, current? := c.current? },
      host.log (.loadedCheckpoint m.name c.id c.current?))

theorem checkStanding_eq (m : Machine S E F X L) (current? : Option S) :
    current?.forM m.checkCurrent = (current?.toList.flatMap m.currentDemands).forM Demand.check := by
  rw [← Demand.forM_flatMap m.checkCurrent_eq]
  cases current? with
  | none => rfl
  | some s =>
    show m.checkCurrent s = (m.checkCurrent s >>= fun _ => pure ())
    cases m.checkCurrent s <;> rfl

theorem load_eq (m : Machine S E F X L) (c : Checkpoint S) (host : Host S E F X L W) :
    m.load c host = ((m.checkpointDemands c).forM Demand.check).map fun _ => m.takeOver c host := by
  unfold load checkpointDemands takeOver Checkpoint.checkVersion
  rw [Demand.forM_append]
  cases m.isInitialized with
  | true => rfl
  | false =>
    by_cases supported : c.version = checkpointVersion
    · rw [if_pos supported]
      simp only [supported, decide_true]
      cases c.initial? with
      | none => cases c.current? <;> rfl
      | some initial =>
        have first : (m.knownDemand initial :: (c.current?.toList.flatMap m.currentDemands ++
            c.history.flatMap m.historyDemands)).forM Demand.check = m.checkKnown initial >>= fun _ =>
              c.current?.forM m.checkCurrent >>= fun _ => c.history.forM m.checkHistory := by
          rw [checkStanding_eq, Demand.forM_flatMap m.checkHistory_eq, ← Demand.forM_append]
          rfl
        dsimp only
        rw [first]
        -- each check either ends both sides or lets both go on
        cases m.checkKnown initial with
        | error error => rfl
        | ok _ =>
          cases c.current?.forM m.checkCurrent with
          | error error => rfl
          | ok _ => cases c.history.forM m.checkHistory <;> rfl
    · rw [if_neg supported]
      simp only [supported, decide_false]
      rfl

theorem knownDemand_met : (m.knownDemand s).holds ↔ s ∈ m.forest.keys := Table.contains_iff

theorem checkpointDemands_met_iff : (∀ demand ∈ m.checkpointDemands c, demand.holds) ↔
    m.isInitialized = false ∧ c.version = checkpointVersion ∧
      (c.initial? = none ∧ c.current? = none ∨ (∃ initial ∈ c.initial?, initial ∈ m.forest.keys) ∧
        (∀ s ∈ c.current?, s ∈ m.forest.keys ∧ m.forest.isComposite s = false) ∧
        ∀ entry ∈ c.history, entry.superState ∈ m.forest.keys ∧ entry.lastActive ∈ m.forest.keys ∧
          m.forest.super? entry.lastActive = some entry.superState) := by
  have current : ∀ s, (∀ demand ∈ m.currentDemands s, demand.holds) ↔
      s ∈ m.forest.keys ∧ m.forest.isComposite s = false := by
    intro s
    simp [currentDemands, knownDemand_met]
  have history : ∀ entry, (∀ demand ∈ m.historyDemands entry, demand.holds) ↔
      entry.superState ∈ m.forest.keys ∧ entry.lastActive ∈ m.forest.keys ∧
        m.forest.super? entry.lastActive = some entry.superState := by
    intro entry
    simp [historyDemands, knownDemand_met]
  unfold checkpointDemands
  cases c.initial? with
  | none => simp
  | some initial =>
    simp only [List.cons_append, List.nil_append, List.forall_mem_cons, List.forall_mem_append, List.forall_mem_flatMap,
      Option.mem_toList, Bool.not_eq_true', decide_eq_true_eq, knownDemand_met, current, history]
    simp

theorem get?_takenOver (history : List (HistoryEntry S)) (memory : Memory S) (p : S) :
    (history.foldl (fun memory entry => memory.insert entry.superState entry.lastActive) memory).get? p =
      ((history.findRev? fun entry => entry.superState = p).map HistoryEntry.lastActive).or (memory.get? p) := by
  induction history generalizing memory with
  | nil => rfl
  | cons entry rest ih =>
    rw [List.foldl_cons, ih, Table.get?_insert, List.findRev?]
    cases rest.findRev? fun entry => entry.superState = p with
    | some later => rfl
    | none => by_cases here : p = entry.superState <;> simp [here, eq_comm]

/-- Loading step by step, where later checks see what was written before them. -/
def loadInPlace (c : Checkpoint S) : InPlace (CheckpointError S) (Machine S E F X L × Host S E F X L W) Unit := do
  InPlace.check fun (m, _) => if m.isInitialized then .error .alreadyInitialized else .ok ()
  InPlace.check fun _ => c.checkVersion
  match c.initial? with
  | none => InPlace.check fun _ => if c.current?.isSome then .error .currentWithoutInitial else .ok ()
  | some initial =>
    InPlace.check fun (m, _) => m.checkKnown initial
    InPlace.check fun (m, _) => c.current?.forM m.checkCurrent
    c.history.forM fun entry => InPlace.check fun (m, _) => m.checkHistory entry
    c.history.forM fun entry => modify fun (m, host) =>
      ({ m with memory := m.memory.insert entry.superState entry.lastActive }, host)
    modify fun (m, host) => ({ m with initial? := some initial, current? := c.current? },
      host.log (.loadedCheckpoint m.name c.id c.current?))

theorem foldl_remember (history : List (HistoryEntry S)) (m : Machine S E F X L) (host : Host S E F X L W) :
    history.foldl (fun (m, host) entry =>
      ({ m with memory := m.memory.insert entry.superState entry.lastActive }, host)) (m, host) =
    ({ m with memory := history.foldl (fun memory entry => memory.insert entry.superState entry.lastActive) m.memory },
      host) := by
  induction history generalizing m with
  | nil => rfl
  | cons entry rest ih => exact ih { m with memory := m.memory.insert entry.superState entry.lastActive }

theorem run_loadInPlace (m : Machine S E F X L) (c : Checkpoint S) (host : Host S E F X L W) :
    (loadInPlace c).run.run (m, host) = InPlace.allOrNothing (m, host) (m.load c host) := by
  unfold loadInPlace load
  rw [InPlace.run_check]
  dsimp only
  cases m.isInitialized with
  | true => rfl
  | false =>
    simp only [Bool.false_eq_true, if_false]
    rw [InPlace.run_check]
    cases c.checkVersion with
    | error error => rfl
    | ok _ =>
      cases c.initial? with
      | none => cases c.current? <;> rfl
      | some initial =>
        dsimp only
        rw [InPlace.run_check]
        dsimp only
        cases m.checkKnown initial with
        | error error => rfl
        | ok _ =>
          dsimp only
          rw [InPlace.run_check]
          dsimp only
          cases c.current?.forM m.checkCurrent with
          | error error => rfl
          | ok _ =>
            dsimp only
            rw [InPlace.run_checkAll]
            dsimp only
            cases c.history.forM m.checkHistory with
            | error error => rfl
            | ok _ =>
              dsimp only
              rw [InPlace.run_modifyAll, foldl_remember]
              rfl

theorem load_error_iff {error : CheckpointError S} :
    m.load c host = .error error ↔ (Demand.unmet (m.checkpointDemands c)).head? = some error := by
  rw [← Demand.forM_check_error_iff, load_eq]
  cases (m.checkpointDemands c).forM Demand.check <;> simp [Except.map]

theorem load_ok_iff : m.load c host = .ok (m', host') ↔
    (∀ demand ∈ m.checkpointDemands c, demand.holds) ∧ m.takeOver c host = (m', host') := by
  rw [← Demand.unmet_eq_nil_iff, ← Demand.forM_check_ok_iff, load_eq]
  cases (m.checkpointDemands c).forM Demand.check <;> simp [Except.map]

/-- A checkpoint is accepted exactly when it fits the machine, and is refused for the first thing that does not fit.
    Refusing it changes nothing, also where it is written to the machine piece by piece, and accepting it changes where
    the machine stands and what its composite states remember. -/
theorem load_exact (m : Machine S E F X L) (c : Checkpoint S) (host : Host S E F X L W) :
    ((m.load c host).isOk ↔ m.isInitialized = false ∧ c.version = checkpointVersion ∧
      (c.initial? = none ∧ c.current? = none ∨ (∃ initial ∈ c.initial?, initial ∈ m.forest.keys) ∧
        (∀ s ∈ c.current?, s ∈ m.forest.keys ∧ m.forest.isComposite s = false) ∧
        ∀ entry ∈ c.history, entry.superState ∈ m.forest.keys ∧ entry.lastActive ∈ m.forest.keys ∧
          m.forest.super? entry.lastActive = some entry.superState)) ∧
    (∀ error, m.load c host = .error error ↔ (Demand.unmet (m.checkpointDemands c)).head? = some error) ∧
    (loadInPlace c).run.run (m, host) = InPlace.allOrNothing (m, host) (m.load c host) ∧
    ∀ m' host', m.load c host = .ok (m', host') →
      m' = { m with memory := m'.memory, initial? := m'.initial?, current? := m'.current? } ∧
      (c.initial? = none → m' = m) ∧
      (c.initial? ≠ none → m'.initial? = c.initial? ∧ m'.current? = c.current? ∧
        ∀ p, m'.memory.get? p = ((c.history.findRev? fun entry => entry.superState = p).map
          HistoryEntry.lastActive).or (m.memory.get? p)) := by
  refine ⟨?_, fun _ => load_error_iff, run_loadInPlace m c host, ?_⟩
  · rw [← checkpointDemands_met_iff, isOk_iff_exists]
    constructor
    · rintro ⟨⟨m', host'⟩, loaded⟩
      exact (load_ok_iff.mp loaded).1
    · intro met
      exact ⟨m.takeOver c host, load_ok_iff.mpr ⟨met, rfl⟩⟩
  · intro m' host' loaded
    have taken := (load_ok_iff.mp loaded).2
    unfold takeOver at taken
    cases found : c.initial? with
    | none =>
      rw [found] at taken
      cases taken
      exact ⟨rfl, fun _ => rfl, fun present => absurd rfl present⟩
    | some initial =>
      rw [found] at taken
      cases taken
      refine ⟨rfl, fun absent => ?_, fun _ => ⟨rfl, rfl, get?_takenOver c.history m.memory⟩⟩
      cases absent

def blankLamp : Machine Lamp Switch Unit Empty Empty :=
  ((Run.start .standard (.ofWorld ())).callAll Lamp.quiet Lamp.definition.dropLast).machine

theorem load_exact_lamp :
    let c : Checkpoint Lamp := ⟨1, "saved", ⟨⟨2024, 1, 2⟩, ⟨0, 0⟩, by decide⟩, "lamp", some .supply, some .off,
      [⟨.on, .bright⟩, ⟨.on, .dim⟩]⟩
    let lost : Checkpoint Lamp := { c with history := [⟨.on, .bright⟩, ⟨.on, .off⟩, ⟨.dim, .supply⟩] }
    (∃ m' host', blankLamp.load c (.ofWorld ()) = .ok (m', host') ∧ m'.current? = some .off ∧
      m'.memory.get? .on = some .dim ∧ m'.memory.get? .supply = none) ∧
    (loadInPlace lost).run.run (blankLamp, .ofWorld ()) = (.error (.notSubState .off .on), blankLamp, .ofWorld ()) := by
  intro c lost
  constructor
  · obtain ⟨accepted, _, _, taken⟩ := load_exact blankLamp c (.ofWorld ())
    obtain ⟨⟨m', host'⟩, loaded⟩ := isOk_iff_exists.mp (accepted.mpr (by decide +kernel))
    obtain ⟨_, _, stands⟩ := taken m' host' loaded
    obtain ⟨_, current, memory⟩ := stands (by decide)
    refine ⟨m', host', loaded, current, ?_, ?_⟩
    · rw [memory]
      decide +kernel
    · rw [memory]
      decide +kernel
  · obtain ⟨_, refused, inPlace, _⟩ := load_exact blankLamp lost (.ofWorld ())
    rw [inPlace, (refused (.notSubState .off .on)).mpr (by decide +kernel)]
    rfl

end Statechart.Machine
