import Statechart.Proofs.Forest.Dictionary
import Statechart.Proofs.Machine.Amendment
import Statechart.Proofs.Machine.Selection

namespace Statechart

variable {S E F X L W : Type}

/-- Guards answer what was laid down in advance, one answer for each time that a guard is asked. -/
def Behaviour.scripted : Behaviour S E F X (List Bool) where
  guard _ _ script := ⟨.done (script.headD true), [], script.tail⟩
  action _ _ script := ⟨.done (), [], script⟩
  initialState _ _ _ := none
  signal _ _ _ := none
  exception _ _ _ _ _ := none

def ArgumentType.sample : ArgumentType → Argument
  | u8 => .u8 0
  | u16 => .u16 0
  | u32 => .u32 0
  | u64 => .u64 0
  | i8 => .i8 0
  | i16 => .i16 0
  | i32 => .i32 0
  | i64 => .i64 0
  | usize => .usize 0
  | bool => .bool false
  | char => .char ' '
  | string => .string ""
  | str => .str ""
  | unit => .unit
  | vecI32 => .vecI32 []

theorem ArgumentType.type_sample (type : ArgumentType) : type.sample.type = type := by
  cases type <;> rfl

namespace Callable

def takes (callable : Callable F) (arguments : Arguments) : Bool := (callable.receive arguments).isOk

theorem exists_takes (callable : Callable F) : ∃ arguments, callable.takes arguments := by
  unfold takes receive
  cases callable.signature with
  | noArgument => exact ⟨[], rfl⟩
  | passThrough => exact ⟨[], rfl⟩
  | typed type =>
    refine ⟨[type.sample], ?_⟩
    simp only [ArgumentType.type_sample, if_true]
    rfl

end Callable

def Transition.takes (transition : Transition S F) (arguments : Arguments) : Bool :=
  transition.guard?.all fun guard => guard.takes arguments

theorem Transition.exists_takes (transition : Transition S F) : ∃ arguments, transition.takes arguments := by
  unfold takes
  cases transition.guard? with
  | none => exact ⟨[], rfl⟩
  | some guard => exact guard.exists_takes

namespace Machine

theorem world_handleException (b : Behaviour S E F X W) (m : Machine S E F X L) (fault : Fault S E)
    (exception : Exception) (p : Progress S E F X L W) :
    (m.handleException b fault exception p).host.world = p.host.world := by
  unfold handleException announce Host.log Host.write
  simp only [Host.announce_eq, Host.publish_eq, Host.consult_eq, Host.writeAll]

variable {b : Behaviour S E F X W} {m : Machine S E F X L} {event : E} {before after : List (Transition S F)}
  {candidate : Transition S F} {p : Progress S E F X L W}

theorem select_cons (b : Behaviour S E F X W) (m : Machine S E F X L) (event : E) (candidate : Transition S F)
    (rest : List (Transition S F)) (p : Progress S E F X L W) :
    let asked := m.guardPasses b ⟨candidate.source, event, candidate.target?⟩ candidate.guard? p
    m.select b event (candidate :: rest) p = if asked.1 then (some candidate, asked.2) else m.select b event rest asked.2 :=
  rfl

theorem select_append_of_some (taken : (m.select b event before p).1.isSome) (after : List (Transition S F)) :
    m.select b event (before ++ after) p = m.select b event before p := by
  induction before generalizing p with
  | nil => cases taken
  | cons first rest ih =>
    rw [select_cons] at taken
    rw [List.cons_append, select_cons, select_cons]
    split
    · rfl
    · rename_i refused
      rw [if_neg refused] at taken
      exact ih taken

theorem select_append_of_none (refused : (m.select b event before p).1 = none) (after : List (Transition S F)) :
    m.select b event (before ++ after) p = m.select b event after (m.select b event before p).2 := by
  induction before generalizing p with
  | nil => rfl
  | cons first rest ih =>
    rw [select_cons] at refused
    rw [List.cons_append, select_cons, select_cons]
    split at refused
    · cases refused
    · rename_i passedOver
      rw [if_neg passedOver, if_neg passedOver]
      exact ih refused

theorem select_of_unguarded (b : Behaviour S E F X W) (m : Machine S E F X L) (event : E) (p : Progress S E F X L W)
    (unguarded : ∃ candidate ∈ before, candidate.guard? = none) : (m.select b event before p).1.isSome := by
  induction before generalizing p with
  | nil =>
    obtain ⟨_, member, _⟩ := unguarded
    cases member
  | cons first rest ih =>
    rw [select_cons]
    split
    · rfl
    · rename_i passedOver
      obtain ⟨candidate, member, free⟩ := unguarded
      rcases List.mem_cons.mp member with rfl | later
      · rw [free] at passedOver
        exact absurd rfl passedOver
      · exact ih _ ⟨candidate, later, free⟩

theorem guardPasses_scripted (m : Machine S E F X L) (edge : Edge S E) (guard : Callable F)
    (p : Progress S E F X L (List Bool)) (answer : Bool) (script : List Bool)
    (laidDown : p.host.world = if guard.takes p.context.arguments then answer :: script else script) :
    (m.guardPasses .scripted edge (some guard) p).1 = (guard.takes p.context.arguments && answer) ∧
      (m.guardPasses .scripted edge (some guard) p).2.host.world = script := by
  unfold Callable.takes at laidDown ⊢
  cases received : guard.receive p.context.arguments with
  | error error =>
    rw [received] at laidDown
    simp only [guardPasses, Host.call, received]
    exact ⟨rfl, (world_handleException ..).trans laidDown⟩
  | ok input =>
    rw [received] at laidDown
    have answered : p.host.world = answer :: script := laidDown
    simp only [guardPasses, Host.call, received, Behaviour.scripted, answered]
    exact ⟨rfl, rfl⟩

theorem select_scripted_none (guarded : ∀ candidate ∈ before, candidate.guard?.isSome) (arguments : Arguments) :
    ∃ answers, ∀ (m : Machine S E F X L) (event : E) (p : Progress S E F X L (List Bool)) (script : List Bool),
      p.context.arguments = arguments → p.host.world = answers ++ script →
        let q := m.select .scripted event before p
        q.1 = none ∧ q.2.context.arguments = arguments ∧ q.2.host.world = script := by
  induction before with
  | nil => exact ⟨[], fun _ _ _ _ given laidDown => ⟨rfl, given, laidDown⟩⟩
  | cons candidate rest ih =>
    obtain ⟨answers, refused⟩ := ih fun other member => guarded other (List.mem_cons_of_mem _ member)
    obtain ⟨guard, has⟩ := Option.isSome_iff_exists.mp (guarded candidate (List.mem_cons_self ..))
    refine ⟨if guard.takes arguments then false :: answers else answers, fun m event p script given laidDown => ?_⟩
    have asked := m.guardPasses_scripted ⟨candidate.source, event, candidate.target?⟩ guard p false (answers ++ script)
      (by rw [laidDown, given]; split <;> rfl)
    have kept := m.guardPasses_extends .scripted ⟨candidate.source, event, candidate.target?⟩ (some guard) p
    rw [select_cons, has]
    simp only [asked.1, Bool.and_false, Bool.false_eq_true, if_false]
    exact refused m event _ script (kept.arguments.trans given) asked.2

theorem select_scripted (guarded : ∀ candidate ∈ before, candidate.guard?.isSome) {arguments : Arguments}
    (takes : candidate.takes arguments) : ∃ script, ∀ (m : Machine S E F X L) (event : E)
      (p : Progress S E F X L (List Bool)) (after : List (Transition S F)),
      p.context.arguments = arguments → p.host.world = script →
        (m.select .scripted event before p).1 = none ∧
          (m.select .scripted event (before ++ candidate :: after) p).1 = some candidate := by
  obtain ⟨answers, refused⟩ := select_scripted_none (E := E) (X := X) (L := L) guarded arguments
  refine ⟨answers ++ [true], fun m event p after given laidDown => ?_⟩
  obtain ⟨none, kept, left⟩ := refused m event p [true] given laidDown
  refine ⟨none, ?_⟩
  rw [select_append_of_none none, select_cons]
  unfold Transition.takes at takes
  cases has : candidate.guard? with
  | none => rfl
  | some guard =>
    rw [has, ← kept] at takes
    have asked := m.guardPasses_scripted ⟨candidate.source, event, candidate.target?⟩ guard
      (m.select .scripted event before p).2 true [] (by rw [left, if_pos (by simpa using takes)])
    simp only [asked.1, Bool.and_true]
    rw [if_pos (by simpa using takes)]

variable [DecidableEq S] [DecidableEq E] {s : S}

/-- The transition that an event selects from a state, if there is one. -/
def dispatch (b : Behaviour S E F X W) (m : Machine S E F X L) (current : S) (event : E) (p : Progress S E F X L W) :
    Option (Transition S F) × Progress S E F X L W := m.select b event (m.candidates current event) p

/-- An event that a state deals with can be made to select a candidate: the guards before it are asked and say no, and
    its own says yes. -/
def Selectable (m : Machine S E F X L) (s : S) (event : E) (before : List (Transition S F))
    (candidate : Transition S F) : Prop :=
  m.handler? s event = some s ∧ (∃ arguments, candidate.takes arguments) ∧
  ∀ arguments, candidate.takes arguments → ∃ script, ∀ current, m.handler? current event = some s →
    ∀ p : Progress S E F X L (List Bool), p.context.arguments = arguments → p.host.world = script →
      (m.select .scripted event before p).1 = none ∧ (m.dispatch .scripted current event p).1 = some candidate

/-- A transition makes no difference behind the candidates of an event, whatever is said to it. -/
def Unselectable (m : Machine S E F X L) (s : S) (event : E) (transition : Transition S F) : Prop :=
  ∀ (W : Type) (b : Behaviour S E F X W) (p : Progress S E F X L W) (later : List (Transition S F)),
    let listed := m.forest.registered s event
    (m.select b event listed p).1.isSome ∧
      m.select b event (listed ++ transition :: later) p = m.select b event listed p

theorem selectable (tree : m.forest.WellFormed) (filled : ∀ s, (m.forest.node s).transitions.Filled)
    (listed : m.forest.registered s event = before ++ candidate :: after)
    (guarded : ∀ other ∈ before, other.guard?.isSome) : m.Selectable s event before candidate := by
  refine ⟨?_, candidate.exists_takes, fun arguments takes => ?_⟩
  · unfold handler?
    rw [List.find?_cons, listed]
    cases before <;> rfl
  · obtain ⟨script, selects⟩ := select_scripted (E := E) (X := X) (L := L) guarded takes
    refine ⟨script, fun current handler p given laidDown => ?_⟩
    unfold dispatch
    rw [candidates_eq tree filled, handler]
    dsimp only [Option.elim]
    rw [listed]
    exact selects m event p after given laidDown

theorem addTransition_judged {d : Dictionary S E F} (represents : d.Represents (m.forest.node s).transitions) (event : E)
    (draft : Draft S F) :
    let transition : Transition S F := ⟨s, draft.target?, draft.guard?, draft.actions⟩
    (m.addTransition s event draft).1 = .error (.duplicateTransition s event) ∧ (d.add event transition).1 = false ∧
        (∃ candidate ∈ m.forest.registered s event, candidate.guard? = none) ∧ m.Unselectable s event transition ∨
      (m.addTransition s event draft).1 = .ok () ∧ (d.add event transition).1 ∧
        ∀ candidate ∈ m.forest.registered s event, candidate.guard?.isSome := by
  intro transition
  have answer : (m.addTransition s event draft).1 = _ := m.forest.addTransition_answer s event draft
  have added := (represents.add event transition).1
  cases shadowed : (m.forest.node s).transitions.isShadowed event with
  | true =>
    rw [shadowed] at answer added
    obtain ⟨candidate, member, free⟩ := List.any_eq_true.mp shadowed
    have unguarded : ∃ candidate ∈ m.forest.registered s event, candidate.guard? = none :=
      ⟨candidate, member, Option.isNone_iff_eq_none.mp free⟩
    refine .inl ⟨answer, added, unguarded, fun W b p later => ?_⟩
    have taken := m.select_of_unguarded b event p unguarded
    exact ⟨taken, select_append_of_some taken _⟩
  | false =>
    rw [shadowed] at answer added
    refine .inr ⟨answer, added, fun candidate member => ?_⟩
    simpa [Option.isSome_iff_ne_none] using List.any_eq_false.mp shadowed candidate member

end Machine

def Call.attempt? [DecidableEq S] (s : S) : Call S E F X L → Option (E × Transition S F)
  | .addTransition source event draft =>
    if source = s then some (event, ⟨source, draft.target?, draft.guard?, draft.actions⟩) else none
  | _ => none

namespace Run

variable [DecidableEq S] [DecidableEq E] [DecidableEq X] {r : Run S E F X L W} {d : Dictionary S E F} {s : S}

omit [DecidableEq X] in
theorem registered?_addTransition (r : Run S E F X L W) (source : S) (event : E) (draft : Draft S F) :
    r.registered? (.addTransition source event draft) =
      if (r.machine.forest.node source).transitions.isShadowed event then none
      else some (event, ⟨source, draft.target?, draft.guard?, draft.actions⟩) := by
  simp only [registered?, Machine.addTransition, Forest.addTransition_answer]
  cases (r.machine.forest.node source).transitions.isShadowed event <;> rfl

theorem call_represents (b : Behaviour S E F X W) (wf : r.machine.WellFormed)
    (h : d.Represents (r.machine.forest.node s).transitions) (call : Call S E F X L) :
    ((call.attempt? s).elim d fun attempt => (d.add attempt.1 attempt.2).2).Represents
      ((r.call b call).machine.forest.node s).transitions := by
  rw [call_transitions b wf]
  cases call with
  | addTransition source event draft =>
    rw [registered?_addTransition]
    by_cases here : source = s
    · subst here
      have added := (h.add event ⟨source, draft.target?, draft.guard?, draft.actions⟩).2
      simp only [Call.attempt?, if_true, Option.elim]
      cases shadowed : (r.machine.forest.node source).transitions.isShadowed event with
      | true =>
        rw [if_pos shadowed] at added
        exact added
      | false =>
        rw [if_neg (by simp [shadowed])] at added
        simpa [group, TransitionTable.registerAll] using added
    · have apart : group (fun edge => edge.2.source) (if (r.machine.forest.node source).transitions.isShadowed event then
          none else some (event, ⟨source, draft.target?, draft.guard?, draft.actions⟩)).toList s =
            ([] : List (E × Transition S F)) := by
        split
        · rfl
        · simp [group, here]
      rw [apart]
      simpa [Call.attempt?, here, TransitionTable.registerAll] using h
  | _ => exact h

theorem callAll_represents (b : Behaviour S E F X W) (wf : r.machine.WellFormed)
    (h : d.Represents (r.machine.forest.node s).transitions) (calls : List (Call S E F X L)) :
    ((calls.filterMap (Call.attempt? s)).foldl (fun d attempt => (d.add attempt.1 attempt.2).2) d).Represents
      ((r.callAll b calls).machine.forest.node s).transitions := by
  unfold callAll
  induction calls generalizing r d with
  | nil => exact h
  | cons call rest ih =>
    have next := ih (call_wellFormed b wf call) (call_represents b wf h call)
    cases attempted : call.attempt? s with
    | none =>
      rw [attempted] at next
      rwa [List.filterMap_cons_none attempted]
    | some attempt =>
      rw [attempted] at next
      rwa [List.filterMap_cons_some attempted]

theorem callAll_accepted (config : Config) (host : Host S E F X L W) (b : Behaviour S E F X W)
    (calls : List (Call S E F X L)) (s : S) :
    (((start config host).callAll b calls).machine.forest.node s).transitions = TransitionTable.registerAll .empty
      (group (fun edge => edge.2.source) (registrations b (start config host) calls) s) :=
  callAll_transitions b (Machine.wellFormed_ofConfig config) calls s

/-- A transition is refused exactly behind an unguarded one, where it could never be selected. Those that are accepted
    stay in the order of the calls, each of them can be selected, and what a state lists are these and no others. -/
theorem callAll_registers (config : Config) (host : Host S E F X L W) (b : Behaviour S E F X W)
    (calls : List (Call S E F X L)) (s : S) :
    let m := ((start config host).callAll b calls).machine
    let accepted := group (fun edge => edge.2.source) (registrations b (start config host) calls) s
    let d := Dictionary.addAll (calls.filterMap (Call.attempt? s))
    let listed := TransitionTable.candidatesOf accepted
    (∀ event draft, let transition : Transition S F := ⟨s, draft.target?, draft.guard?, draft.actions⟩
      (m.addTransition s event draft).1 = .error (.duplicateTransition s event) ∧
          (d.add event transition).1 = false ∧ (∃ edge ∈ accepted, edge.1 = event ∧ edge.2.guard? = none) ∧
          m.Unselectable s event transition ∨
        (m.addTransition s event draft).1 = .ok () ∧ (d.add event transition).1 ∧
          ∀ edge ∈ accepted, edge.1 = event → edge.2.guard?.isSome) ∧
    (∀ event, (m.forest.node s).transitions.get? event =
      if event ∈ accepted.map Prod.fst then some (listed event) else none) ∧
    (∀ event candidates, (m.forest.node s).transitions.get? event = some candidates →
      candidates ≠ [] ∧ ∀ candidate ∈ candidates.dropLast, candidate.guard?.isSome) ∧
    (∀ event before candidate after, listed event = before ++ candidate :: after →
      m.Selectable s event before candidate) ∧
    d.Represents (m.forest.node s).transitions ∧ d.order.Nodup ∧ (∀ event, event ∈ d.order ↔ event ∈ d.candidates) ∧
    d.iter.Perm accepted ∧ d.len = accepted.length := by
  intro m accepted d listed
  have wf : m.WellFormed := callAll_wellFormed b (r := start config host) (Machine.wellFormed_ofConfig config) calls
  have table : (m.forest.node s).transitions = TransitionTable.registerAll .empty accepted :=
    callAll_accepted config host b calls s
  have filled : ∀ s, (m.forest.node s).transitions.Filled := callAll_tables TransitionTable.Filled.add? b
    (r := start config host) (Machine.wellFormed_ofConfig config) (fun _ => TransitionTable.filled_empty) calls
  have unshadowed : ∀ s, (m.forest.node s).transitions.Unshadowed := callAll_tables TransitionTable.Unshadowed.add? b
    (r := start config host) (Machine.wellFormed_ofConfig config) (fun _ => TransitionTable.unshadowed_empty) calls
  have represents : d.Represents (m.forest.node s).transitions := callAll_represents b (r := start config host)
    (Machine.wellFormed_ofConfig config) Dictionary.represents_empty calls
  have registered : ∀ event, m.forest.registered s event = listed event := fun event => by
    rw [Forest.registered, table, TransitionTable.getD_registerAll]
  have accepts : ∀ edge, edge ∈ accepted ↔ edge.2 ∈ m.forest.registered s edge.1 := fun edge => by
    rw [registered, TransitionTable.mem_candidatesOf]
  have distinct : (m.forest.node s).transitions.keys.Nodup := by
    rw [table, TransitionTable.keys_registerAll]
    exact nodup_eraseDups _
  have iterates : d.iter = grouped Prod.fst accepted := by
    rw [represents.iter_eq distinct, table, TransitionTable.edges_registerAll]
  refine ⟨?_, fun event => ?_, ?_, ?_, represents, ?_, fun event => represents.mem_order_iff, ?_, ?_⟩
  · intro event draft transition
    rcases m.addTransition_judged represents event draft with
      ⟨refused, unadded, ⟨candidate, member, free⟩, idle⟩ | ⟨answered, added, guarded⟩
    · exact .inl ⟨refused, unadded, ⟨(event, candidate), (accepts _).mpr member, rfl, free⟩, idle⟩
    · refine .inr ⟨answered, added, ?_⟩
      rintro edge member rfl
      exact guarded edge.2 ((accepts edge).mp member)
  · rw [table, TransitionTable.get?_registerAll]
  · intro event candidates found
    exact ⟨fun none => filled s event (none ▸ found), unshadowed s event candidates found⟩
  · intro event before candidate after split
    have whole := (registered event).trans split
    refine Machine.selectable wf.tree filled whole fun other member => ?_
    cases found : (m.forest.node s).transitions.get? event with
    | none => simp [Forest.registered, found] at whole
    | some candidates =>
      have all : candidates = before ++ candidate :: after := by simpa [Forest.registered, found] using whole
      exact unshadowed s event candidates found other (by simp [all, member])
  · exact represents.order ▸ distinct
  · rw [iterates]
    exact grouped_perm Prod.fst accepted
  · rw [represents.len_eq distinct, iterates]
    exact (grouped_perm Prod.fst accepted).length_eq

end Run

end Statechart
