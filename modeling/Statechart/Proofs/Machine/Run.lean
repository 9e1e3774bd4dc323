import Statechart.Active
import Statechart.Proofs.Forest.Definition
import Statechart.Proofs.Machine.Phase
import Statechart.Proofs.Machine.Restore

namespace Statechart

inductive Call (S E F X L : Type) where
  | define (superState initial : S) (history : HistoryType) (subs : List S)
  | addTransition (source : S) (event : E) (draft : Draft S F)
  | addEntryAction (s : S) (action : Callable F)
  | addExitAction (s : S) (action : Callable F)
  | configure (change : Change X L)
  | initializeAt (s : S)
  | enterInitialState
  | fire (signal : Signal E)
  | load (checkpoint : Checkpoint S)

/-- A machine in use: where it runs, and what each initial entry and each firing that was accepted has done. -/
structure Run (S E F X L W : Type) where
  machine : Machine S E F X L
  host : Host S E F X L W
  contexts : List (Context S E)

namespace Run

variable {S E F X L W : Type}

def start (config : Config) (host : Host S E F X L W) : Run S E F X L W := ⟨.ofConfig config, host, []⟩

def records (r : Run S E F X L W) : List (Record S) := r.contexts.flatMap Context.records

def after (r : Run S E F X L W) : Except Misuse (Completed S E F X L W) → Run S E F X L W
  | .ok done => ⟨done.machine, done.host, r.contexts ++ [done.context]⟩
  | .error _ => r

def adopt {ε : Type} (r : Run S E F X L W) : Except ε (Machine S E F X L × Host S E F X L W) → Run S E F X L W
  | .ok (machine, host) => { r with machine := machine, host := host }
  | .error _ => r

variable [DecidableEq S] [DecidableEq E] [DecidableEq X]

/-- Makes a call. A call that fails leaves everything as it was, except that a refused transition may have
    mentioned states. -/
def call (b : Behaviour S E F X W) (r : Run S E F X L W) : Call S E F X L → Run S E F X L W
  | .define superState initial history subs =>
    match r.machine.define superState initial history subs with
    | .ok machine => { r with machine := machine }
    | .error _ => r
  | .addTransition source event draft => { r with machine := (r.machine.addTransition source event draft).2 }
  | .addEntryAction s action => { r with machine := r.machine.addEntryAction s action }
  | .addExitAction s action => { r with machine := r.machine.addExitAction s action }
  | .configure change => { r with machine := change.apply r.machine }
  | .initializeAt s =>
    match r.machine.initializeAt b s r.host with
    | .ok (machine, host) => { r with machine := machine, host := host }
    | .error _ => r
  | .enterInitialState => r.after (r.machine.enterInitialState b r.host)
  | .fire signal => r.after (r.machine.fire b signal r.host)
  | .load checkpoint =>
    match r.machine.load checkpoint r.host with
    | .ok (machine, host) => { r with machine := machine, host := host }
    | .error _ => r

def callAll (b : Behaviour S E F X W) (r : Run S E F X L W) (calls : List (Call S E F X L)) : Run S E F X L W :=
  calls.foldl (call b) r

/-- Makes calls one after the other. Extensions that remember what they were told answer in each call as others would. -/
def follow (r : Run S E F X L W) (script : List (Behaviour S E F X W × Call S E F X L)) : Run S E F X L W :=
  script.foldl (fun r step => r.call step.1 step.2) r

theorem callAll_eq_follow (b : Behaviour S E F X W) (r : Run S E F X L W) (calls : List (Call S E F X L)) :
    r.callAll b calls = r.follow (calls.map (b, ·)) := by
  rw [follow, List.foldl_map]
  rfl

theorem follow_append (r : Run S E F X L W) (first second : List (Behaviour S E F X W × Call S E F X L)) :
    r.follow (first ++ second) = (r.follow first).follow second := List.foldl_append ..

theorem call_initializeAt_eq (b : Behaviour S E F X W) (r : Run S E F X L W) (s : S) :
    r.call b (.initializeAt s) = r.adopt (r.machine.initializeAt b s r.host) := by
  rw [Run.call.eq_def]
  simp only
  cases r.machine.initializeAt b s r.host <;> rfl

theorem call_load_eq (b : Behaviour S E F X W) (r : Run S E F X L W) (c : Checkpoint S) :
    r.call b (.load c) = r.adopt (r.machine.load c r.host) := by
  rw [Run.call.eq_def]
  simp only
  cases r.machine.load c r.host <;> rfl

end Run

namespace Machine

variable {S E F X L W : Type} [DecidableEq S] {b : Behaviour S E F X W} {m m' : Machine S E F X L} {s : S}
  {g : Forest S E F} {host host' : Host S E F X L W}

theorem wellFormed_empty : Forest.WellFormed (.empty : Forest S E F) where
  keys_nodup := .nil
  super_mem link := by cases link
  sub_iff := by
    intro p c
    constructor <;> intro found <;> cases found
  subs_nodup _ := .nil
  rank_root _ := rfl
  rank_sub link := by cases link
  initial_sub found := by cases found
  initial_isSome link := by cases link
  edges _ _ member := by cases member

theorem wellFormed_ofConfig (config : Config) : (ofConfig config : Machine S E F X L).WellFormed where
  tree := wellFormed_empty
  memory _ _ found := by cases found
  initial_mem _ found := by cases found
  current_mem _ found := by cases found
  ready stands := by cases stands

theorem WellFormed.grow (wf : m.WellFormed) (grown : m.forest.Grown g) : WellFormed { m with forest := g } where
  tree := grown.toWellFormed
  memory p c found := grown.kept c p (wf.memory p c found)
  initial_mem s found := grown.known s (wf.initial_mem s found)
  current_mem s found := grown.known s (wf.current_mem s found)
  ready := wf.ready

theorem WellFormed.define {superState initial : S} {history : HistoryType} {subs : List S} (wf : m.WellFormed)
    (defined : m.define superState initial history subs = .ok m') : m'.WellFormed := by
  unfold Machine.define at defined
  cases built : m.forest.define? superState initial history subs with
  | error errors =>
    rw [built] at defined
    cases defined
  | ok g =>
    rw [built] at defined
    cases defined
    exact wf.grow (wf.tree.define? built)

theorem WellFormed.initializeAt (wf : m.WellFormed) (initialized : m.initializeAt b s host = .ok (m', host')) :
    m'.WellFormed := by
  unfold Machine.initializeAt at initialized
  split at initialized
  · cases initialized
  · cases initialized
    have grown := wf.grow (wf.tree.mention (Host.consult m.info .initializing
      (fun extension current => b.initialState extension m.info current) m.extensions s host).1)
    refine ⟨grown.tree, grown.memory, ?_, grown.current_mem, fun _ => rfl⟩
    rintro a ⟨⟩
    exact Forest.mem_keys_mention.mpr (.inr rfl)

variable [DecidableEq E] {done : Completed S E F X L W} {signal : Signal E}

theorem fire_ok (wf : m.WellFormed) (fired : m.fire b signal host = .ok done) :
    m.isInitialized ∧ done.machine.current?.isSome ∧ m.Moves done.machine done.context.records ∧
      done.context.state? = m.current? := by
  cases standing : m.current? with
  | none =>
    unfold Machine.fire at fired
    split at fired
    · cases fired
    · simp only [standing] at fired
      cases fired
  | some current =>
    obtain ⟨done', fired', moved, state⟩ := fire_moves wf standing b signal host
    rw [fired] at fired'
    cases fired'
    exact ⟨wf.ready (by rw [standing]; rfl), moved.stands (by rw [standing]; rfl), moved, state⟩

omit [DecidableEq E] in
theorem enterInitialState_ok (wf : m.WellFormed) (entered : m.enterInitialState b host = .ok done) :
    m.isInitialized ∧ done.machine.current?.isSome ∧ m.Moves done.machine done.context.records ∧
      done.context.state? = m.current? := by
  cases ready : m.initial? with
  | none =>
    unfold Machine.enterInitialState at entered
    split at entered
    · cases entered
    · rename_i found
      rw [ready] at found
      cases found
  | some initial =>
    cases standing : m.current? with
    | some current =>
      unfold Machine.enterInitialState at entered
      split at entered
      · cases entered
      · simp only [hasEntered, standing] at entered
        cases entered
    | none =>
      obtain ⟨done', entered', moved, ⟨reached, stands⟩, state⟩ := enter_moves wf ready standing b host
      rw [entered] at entered'
      cases entered'
      exact ⟨by rw [isInitialized, ready]; rfl, by rw [stands]; rfl, moved, state⟩

end Machine

namespace Run

variable {S E F X L W : Type} [DecidableEq S] [DecidableEq E] [DecidableEq X] {r : Run S E F X L W}

theorem call_wellFormed (b : Behaviour S E F X W) (wf : r.machine.WellFormed) (call : Call S E F X L) :
    (r.call b call).machine.WellFormed := by
  cases call with
  | define superState initial history subs =>
    rw [Run.call.eq_def]
    simp only
    split
    · rename_i defined
      exact wf.define defined
    · exact wf
  | addTransition source event draft => exact wf.grow (wf.tree.addTransition source event draft)
  | addEntryAction s action => exact wf.grow (wf.tree.addEntryAction s action)
  | addExitAction s action => exact wf.grow (wf.tree.addExitAction s action)
  | configure change =>
    cases change <;> exact ⟨wf.tree, wf.memory, wf.initial_mem, wf.current_mem, wf.ready⟩
  | initializeAt s =>
    rw [Run.call.eq_def]
    simp only
    split
    · rename_i initialized
      exact wf.initializeAt initialized
    · exact wf
  | enterInitialState =>
    rw [Run.call.eq_def]
    unfold after
    simp only
    split
    · rename_i entered
      obtain ⟨ready, _, moved, _⟩ := Machine.enterInitialState_ok wf entered
      exact wf.moves ready moved
    · exact wf
  | fire signal =>
    rw [Run.call.eq_def]
    unfold after
    simp only
    split
    · rename_i fired
      obtain ⟨ready, _, moved, _⟩ := Machine.fire_ok wf fired
      exact wf.moves ready moved
    · exact wf
  | load checkpoint =>
    rw [Run.call.eq_def]
    simp only
    split
    · rename_i loaded
      exact wf.load loaded
    · exact wf

theorem call_standing (b : Behaviour S E F X W) (r : Run S E F X L W) (call : Call S E F X L) :
    let m' := (r.call b call).machine
    m'.isInitialized = r.machine.isInitialized ∧ m'.hasEntered = r.machine.hasEntered ∨
      m'.isInitialized ∧ ((∃ s, call = .initializeAt s) ∨ call = .enterInitialState ∨
        ∃ c, call = .load c ∧ r.machine.isInitialized = false ∧ m'.hasEntered = c.current?.isSome) := by
  cases call with
  | define superState initial history subs =>
    left
    rw [Run.call.eq_def]
    simp only [Machine.define]
    cases r.machine.forest.define? superState initial history subs with
    | ok forest => exact ⟨rfl, rfl⟩
    | error errors => exact ⟨rfl, rfl⟩
  | addTransition source event draft => exact .inl ⟨rfl, rfl⟩
  | addEntryAction s action => exact .inl ⟨rfl, rfl⟩
  | addExitAction s action => exact .inl ⟨rfl, rfl⟩
  | configure change =>
    left
    cases change <;> exact ⟨rfl, rfl⟩
  | initializeAt s =>
    rw [Run.call.eq_def]
    simp only
    split
    · rename_i initialized
      exact .inr ⟨(Machine.initializeAt_ok initialized).2.1, .inl ⟨s, rfl⟩⟩
    · exact .inl ⟨rfl, rfl⟩
  | enterInitialState =>
    rw [Run.call.eq_def]
    unfold after
    simp only
    split
    · rename_i done entered
      obtain ⟨ready, _⟩ := Machine.enterInitialState_accepted entered
      obtain ⟨alike, _⟩ := Machine.enterInitialState_resembles entered
      exact .inr ⟨alike.isInitialized.trans ready, .inr (.inl trivial)⟩
    · exact .inl ⟨rfl, rfl⟩
  | fire signal =>
    left
    rw [Run.call.eq_def]
    unfold after
    simp only
    split
    · rename_i fired
      obtain ⟨_, stood, alike, stands⟩ := Machine.fire_resembles fired
      exact ⟨alike.isInitialized, stands.trans stood.symm⟩
    · exact ⟨rfl, rfl⟩
  | load checkpoint =>
    rw [Run.call.eq_def]
    simp only
    split
    · rename_i loaded
      obtain ⟨fresh, ⟨rfl, _⟩ | ⟨initial, _, rfl, _⟩⟩ := Machine.load_ok loaded
      · exact .inl ⟨rfl, rfl⟩
      · exact .inr ⟨rfl, .inr (.inr ⟨checkpoint, rfl, fresh, rfl⟩)⟩
    · exact .inl ⟨rfl, rfl⟩

theorem follow_wellFormed (wf : r.machine.WellFormed) (script : List (Behaviour S E F X W × Call S E F X L)) :
    (r.follow script).machine.WellFormed := by
  unfold follow
  induction script generalizing r with
  | nil => exact wf
  | cons step rest ih => exact ih (call_wellFormed step.1 wf step.2)

theorem callAll_wellFormed (b : Behaviour S E F X W) (wf : r.machine.WellFormed) (calls : List (Call S E F X L)) :
    (r.callAll b calls).machine.WellFormed := by
  rw [callAll_eq_follow]
  exact follow_wellFormed wf _

/-- Whatever is called on a machine, and in whatever order, its state tree stays in order. -/
theorem callAll_forest (config : Config) (host : Host S E F X L W) (b : Behaviour S E F X W)
    (calls : List (Call S E F X L)) :
    let m := ((start config host).callAll b calls).machine
    (∀ s i, m.forest.position? s = some i ↔ m.forest.keys[i]? = some s) ∧
    (∀ c p, m.forest.super? c = some p → c ∈ m.forest.keys ∧ p ∈ m.forest.keys) ∧
    (∀ s, ¬Relation.TransGen (fun c p => m.forest.super? c = some p) s s) ∧
    (∀ p c, (m.forest.subs p).count c = if m.forest.super? c = some p then 1 else 0) ∧
    (∀ p, (m.forest.initial? p).isSome ↔ m.forest.subs p ≠ []) ∧
    (∀ p c, m.forest.initial? p = some c → c ∈ m.forest.subs p) ∧
    (∀ s, m.forest.level s = (m.forest.ancestors s).length ∧ (m.forest.ancestors s).Nodup ∧
      ∀ a, a ∈ m.forest.ancestors s ↔ Relation.TransGen (fun c p => m.forest.super? c = some p) s a) ∧
    (∀ p c, m.memory.get? p = some c → c ∈ m.forest.subs p) ∧
    (∀ s, ∀ edge ∈ TransitionTable.edges (m.forest.node s).transitions,
      edge.2.source = s ∧ ∀ t ∈ edge.2.target?, t ∈ m.forest.keys) := by
  have wf := callAll_wellFormed b (r := start config host) (Machine.wellFormed_ofConfig config) calls
  intro m
  have tree : m.forest.WellFormed := wf.tree
  refine ⟨fun s i => Table.position?_eq_some_iff tree.keys_nodup, ?_, ?_, tree.count_subs, ?_, ?_, ?_, ?_, tree.edges⟩
  · intro c p link
    exact ⟨Forest.mem_of_super link, tree.super_mem link⟩
  · intro s loop
    exact Nat.lt_irrefl _ (tree.rank_lt_of_transGen loop)
  · intro p
    have leaf := tree.initial_none_iff (s := p)
    rw [← not_iff_not, Option.not_isSome_iff_eq_none, leaf]
    simp [Forest.isComposite]
  · intro p c found
    exact tree.sub_iff.mpr (tree.initial_sub found)
  · intro s
    have whole := tree.lineage_eq_cons s
    have length := tree.length_lineage s
    have distinct := tree.nodup_lineage s
    rw [whole] at length distinct
    exact ⟨(Nat.succ.inj length).symm, (List.nodup_cons.mp distinct).2, tree.mem_ancestors_iff s⟩
  · intro p c found
    exact tree.sub_iff.mpr (wf.memory p c found)

end Run

/-- The states of a lamp that remembers how bright it was. -/
inductive Lamp where
  | supply | off | on | dim | bright
deriving DecidableEq

inductive Switch where
  | toggle | turn
deriving DecidableEq

namespace Lamp

def quiet : Behaviour Lamp Switch Unit Empty Unit where
  guard _ _ _ := ⟨.done true, [], ()⟩
  action _ _ _ := ⟨.done (), [], ()⟩
  initialState x := x.elim
  signal x := x.elim
  exception x := x.elim

def stuck : Behaviour Lamp Switch Unit Empty Unit :=
  { quiet with action := fun _ _ _ => ⟨.failed (.custom "stuck"), [], ()⟩ }

def definition : List (Call Lamp Switch Unit Empty Empty) :=
  [.define .supply .off .none [.off, .on], .define .on .dim .deep [.dim, .bright],
    .addTransition .off .toggle (.goto .on), .addTransition .on .toggle (.goto .off),
    .addTransition .dim .turn ((Draft.goto .bright).acting ⟨"turn", .noArgument, ()⟩), .initializeAt .supply]

def press (buttons : List Switch) : Run Lamp Switch Unit Empty Empty Unit :=
  (Run.start .standard (.ofWorld ())).callAll quiet
    (definition ++ .enterInitialState :: buttons.map fun button => .fire ⟨button, []⟩)

end Lamp

end Statechart
