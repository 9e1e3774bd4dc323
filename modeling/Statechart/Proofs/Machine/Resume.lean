import Statechart.Proofs.Host.Parallel
import Statechart.Proofs.Machine.Checkpoint
import Statechart.Proofs.Machine.Simulation

namespace Statechart

variable {S E F F' X L W W' O α : Type}

structure Reply.Agrees (Same : W → W' → Prop) (reply : Reply E W α) (reply' : Reply E W' α) : Prop where
  outcome : reply'.outcome = reply.outcome
  sent : reply'.sent = reply.sent
  world : Same reply.world reply'.world

/-- Code that cannot tell worlds apart that match. -/
structure Behaviour.Agrees (Same : W → W' → Prop) (b : Behaviour S E F X W) (b' : Behaviour S E F X W') : Prop where
  guard : ∀ code input {w w'}, Same w w' → (b.guard code input w).Agrees Same (b'.guard code input w')
  action : ∀ code input {w w'}, Same w w' → (b.action code input w).Agrees Same (b'.action code input w')
  signal : b'.signal = b.signal
  exception : b'.exception = b.exception

/-- Two machines that differ at most in how their memories list what is remembered. -/
structure Machine.Twins [DecidableEq S] (m m' : Machine S E F X L) : Prop where
  parts : ∃ memory, m' = { m with memory := memory }
  memory : ∀ s, m'.memory.get? s = m.memory.get? s

namespace Host

variable {Same : W → W' → Prop} {start host : Host S E F X L W} {start' host' : Host S E F X L W'}

abbrev InStep (Same : W → W' → Prop) (start : Host S E F X L W) (start' : Host S E F X L W') (host : Host S E F X L W)
    (host' : Host S E F X L W') : Prop := Parallel Same some some (fun _ => true) start start' host host'

theorem InStep.call (inStep : InStep Same start start' host host') {run : F → Input → W → Reply E W α}
    {run' : F → Input → W' → Reply E W' α}
    (agrees : ∀ code input {w w'}, Same w w' → (run code input w).Agrees Same (run' code input w'))
    (entry : Callable F → Arguments → Outcome α → List (Post E) → JournalEntry S E F X L) (callable : Callable F)
    (arguments : Arguments) :
    (Host.call run' entry callable arguments host').1 = (Host.call run entry callable arguments host).1 ∧
      InStep Same start start' (Host.call run entry callable arguments host).2
        (Host.call run' entry callable arguments host').2 := by
  unfold Host.call
  cases callable.receive arguments with
  | error error => exact ⟨rfl, inStep.writeAll rfl⟩
  | ok input =>
    have reply := agrees callable.code input inStep.world
    refine ⟨reply.outcome, inStep.accept reply.world reply.sent ?_⟩
    simp only [reply.outcome, reply.sent]

end Host

structure Progress.Twins [DecidableEq S] (Same : W → W' → Prop) (start : Host S E F X L W) (start' : Host S E F X L W')
    (p : Progress S E F X L W) (p' : Progress S E F X L W') : Prop where
  host : Host.InStep Same start start' p.host p'.host
  context : p'.context = p.context
  memory : ∀ s, p'.memory.get? s = p.memory.get? s

namespace Machine

variable [DecidableEq S] {Same : W → W' → Prop} {start host : Host S E F X L W} {start' host' : Host S E F X L W'}
  {b : Behaviour S E F X W} {b' : Behaviour S E F X W'} {m m' : Machine S E F X L} {p : Progress S E F X L W}
  {p' : Progress S E F X L W'}

theorem handleException_twins (agrees : b.Agrees Same b') (twins : p.Twins Same start start' p') (memory : Memory S)
    (fault : Fault S E) (exception : Exception) :
    (m.handleException b fault exception p).Twins Same start start'
      ({ m with memory := memory }.handleException b' fault exception p') := by
  obtain ⟨host', context, memory'⟩ := p'
  obtain ⟨inStep, rfl, remembered⟩ := twins
  rw [handleException_eq, handleException_eq]
  unfold reported
  rw [agrees.exception]
  refine ⟨?_, rfl, remembered⟩
  apply Host.Parallel.announce
  · apply Host.Parallel.publish
    · exact (inStep.writeAll rfl).log rfl
    · exact fun _ => rfl
    · rfl
  · exact fun _ => rfl

theorem Twins.simulation (twins : m.Twins m') (agrees : b.Agrees Same b') (start : Host S E F X L W)
    (start' : Host S E F X L W') : Simulation b b' m m' id (Progress.Twins Same start start') := by
  obtain ⟨⟨memory, rfl⟩, _⟩ := twins
  exact {
    forest := Forest.mirrors_refl m.forest
    arguments := fun twins => congrArg Context.arguments twins.context
    memory := fun twins => twins.memory
    record := fun kind s twins => ⟨twins.host, congrArg (·.addRecord kind s) twins.context, twins.memory⟩
    remember := fun s twins => ⟨twins.host, twins.context, m.forest.remember_congr twins.memory s⟩
    begin := by
      intro p p' current event twins
      refine ⟨?_, twins.context, twins.memory⟩
      unfold Machine.begin
      rw [twins.context]
      exact twins.host.publish m.subscribers (fun _ => rfl) rfl
    perform := by
      intro p p' fault arguments action twins
      obtain ⟨outcome, called⟩ := twins.host.call agrees.action .action action arguments
      apply perform_related outcome
      · exact ⟨called, twins.context, twins.memory⟩
      · exact fun exception _ _ twins => handleException_twins agrees twins memory fault exception
    guard := by
      intro p p' edge guard twins
      obtain ⟨outcome, called⟩ := twins.host.call agrees.guard .guard guard p.context.arguments
      apply guardPasses_related (congrArg Context.arguments twins.context) outcome
      · exact ⟨called, twins.context, twins.memory⟩
      · exact fun exception _ _ twins => handleException_twins agrees twins memory (.guard edge) exception }

structure EndTwins (Same : W → W' → Prop) (start : Host S E F X L W) (start' : Host S E F X L W')
    (done : Completed S E F X L W) (done' : Completed S E F X L W') : Prop where
  machine : done.machine.Twins done'.machine
  context : done'.context = done.context
  host : Host.InStep Same start start' done.host done'.host

theorem Twins.conclude (twins : m.Twins m') (current : S) (event : E) {out : Option S × Progress S E F X L W}
    {out' : Option S × Progress S E F X L W'} (same : out'.1 = out.1)
    (related : out.2.Twins Same start start' out'.2) :
    EndTwins Same start start' (m.conclude current event out) (m'.conclude current event out') := by
  obtain ⟨⟨memory, rfl⟩, remembered⟩ := twins
  obtain ⟨reached?, p⟩ := out
  obtain ⟨reached?', host', context, memory'⟩ := out'
  obtain rfl : reached?' = reached? := same
  obtain rfl : context = p.context := related.context
  cases reached?' with
  | none => exact ⟨⟨⟨memory, rfl⟩, remembered⟩, rfl, (related.host.log rfl).publish m.subscribers (fun _ => rfl) rfl⟩
  | some reached =>
    refine ⟨⟨⟨memory', rfl⟩, related.memory⟩, rfl, ?_⟩
    apply Host.Parallel.publish
    · apply Host.Parallel.announce
      · apply Host.Parallel.log
        · apply Host.Parallel.switchTo related.host <;> intros <;> rfl
        · rfl
      · exact fun _ => rfl
    · exact fun _ => rfl
    · rfl

theorem Twins.arrive (twins : m.Twins m') {out : S × Progress S E F X L W} {out' : S × Progress S E F X L W'}
    (same : out'.1 = out.1) (related : out.2.Twins Same start start' out'.2) :
    EndTwins Same start start' (m.arrive out) (m'.arrive out') := by
  obtain ⟨⟨memory, rfl⟩, _⟩ := twins
  obtain ⟨leaf, p⟩ := out
  obtain ⟨leaf', host', context, memory'⟩ := out'
  obtain rfl : leaf' = leaf := same
  obtain rfl : context = p.context := related.context
  refine ⟨⟨⟨memory', rfl⟩, related.memory⟩, rfl, ?_⟩
  apply Host.Parallel.announce
  · apply Host.Parallel.log
    · apply Host.Parallel.switchTo related.host <;> intros <;> rfl
    · rfl
  · exact fun _ => rfl

theorem Twins.initial? (twins : m.Twins m') : m'.initial? = m.initial? := by
  obtain ⟨memory, rfl⟩ := twins.parts
  rfl

theorem Twins.current? (twins : m.Twins m') : m'.current? = m.current? := by
  obtain ⟨memory, rfl⟩ := twins.parts
  rfl

theorem Twins.enterInitialState (twins : m.Twins m') (agrees : b.Agrees Same b')
    (inStep : Host.InStep Same start start' host host') :
    Answered (EndTwins Same start start') (m.enterInitialState b host) (m'.enterInitialState b' host') := by
  refine (twins.simulation agrees start start').enterInitialState twins.initial? twins.current? ?_ fun _ _ => twins.arrive
  intro initial
  have remembered := twins.memory
  obtain ⟨memory, rfl⟩ := twins.parts
  exact ⟨inStep.announce m.extensions fun _ => rfl, rfl, remembered⟩

theorem Twins.fire [DecidableEq E] (twins : m.Twins m') (agrees : b.Agrees Same b')
    (inStep : Host.InStep Same start start' host host') (signal : Signal E) :
    Answered (EndTwins Same start start') (m.fire b signal host) (m'.fire b' signal host') := by
  refine (twins.simulation agrees start start').fire (congrArg Option.isSome twins.initial?) twins.current? ?_ ?_
    fun current event _ _ => twins.conclude current event
  · obtain ⟨memory, rfl⟩ := twins.parts
    unfold asked
    rw [agrees.signal]
    rfl
  · intro current
    have remembered := twins.memory
    obtain ⟨memory, rfl⟩ := twins.parts
    refine ⟨?_, rfl, remembered⟩
    rw [resolve_eq, resolve_eq, agrees.signal]
    exact inStep.writeAll rfl

end Machine

namespace Run

variable [DecidableEq S] {Same : W → W' → Prop} {r t : Run S E F X L W} {r' t' : Run S E F X L W'}
  {b : Behaviour S E F X W} {b' : Behaviour S E F X W'}

structure InStep (Same : W → W' → Prop) (r : Run S E F X L W) (r' : Run S E F X L W') (t : Run S E F X L W)
    (t' : Run S E F X L W') : Prop where
  machine : t.machine.Twins t'.machine
  host : Host.InStep Same r.host r'.host t.host t'.host
  contexts : ∃ made, t.contexts = r.contexts ++ made ∧ t'.contexts = r'.contexts ++ made

theorem InStep.after (inStep : InStep Same r r' t t') {answer : Except Misuse (Completed S E F X L W)}
    {answer' : Except Misuse (Completed S E F X L W')}
    (answered : Answered (Machine.EndTwins Same r.host r'.host) answer answer') :
    InStep Same r r' (t.after answer) (t'.after answer') := by
  cases answered with
  | refused error => exact inStep
  | @accepted done done' ended =>
    obtain ⟨made, here, there⟩ := inStep.contexts
    refine ⟨ended.machine, ended.host, made ++ [done.context], ?_, ?_⟩
    · rw [← List.append_assoc, ← here]
      rfl
    · rw [← List.append_assoc, ← there, ← ended.context]
      rfl

variable [DecidableEq E] [DecidableEq X] {ops : List (Call S E F X L)}

theorem InStep.callAll (inStep : InStep Same r r' t t') (agrees : b.Agrees Same b')
    (operations : ∀ op ∈ ops, op.isOperation) : InStep Same r r' (t.callAll b ops) (t'.callAll b' ops) := by
  induction ops generalizing t t' with
  | nil => exact inStep
  | cons op rest ih =>
    refine ih ?_ fun op member => operations op (List.mem_cons_of_mem _ member)
    have operation := operations op List.mem_cons_self
    cases op with
    | enterInitialState => exact inStep.after (inStep.machine.enterInitialState agrees inStep.host)
    | fire signal => exact inStep.after (inStep.machine.fire agrees inStep.host signal)
    | _ => cases operation

/-- A machine that took over what was saved stands and remembers as the saved one does, nothing was run to get
    there, and from there on the two do the same, whatever is called, as long as code answers the same. -/
theorem callAll_resumed (config : Config) (host : Host S E F X L W) (host' : Host S E F X L W')
    (b : Behaviour S E F X W) (b' : Behaviour S E F X W') (agrees : b.Agrees Same b')
    (setup ops : List (Call S E F X L)) (s : S) (id : String) (time : Timestamp)
    (definitions : ∀ call ∈ setup, call.isDefinition) (operations : ∀ op ∈ ops, op.isOperation) :
    let used := (start config host).callAll b (setup ++ .initializeAt s :: ops)
    let fresh := (start config host').callAll b' setup
    ∀ restored after, fresh.machine.load (used.machine.save id time) fresh.host = .ok (restored, after) →
      restored.initial? = used.machine.initial? ∧ restored.current? = used.machine.current? ∧
      (∀ s, restored.memory.get? s = used.machine.memory.get? s) ∧
      after = host'.log (.loadedCheckpoint fresh.machine.name id used.machine.current?) ∧
      (Same used.host.world host'.world → ∀ later : List (Call S E F X L), (∀ op ∈ later, op.isOperation) →
        let goesOn := used.callAll b later
        let resumed := (⟨restored, after, []⟩ : Run S E F X L W').callAll b' later
        resumed.machine.current? = goesOn.machine.current? ∧
        (∀ s, resumed.machine.memory.get? s = goesOn.machine.memory.get? s) ∧
        Same goesOn.host.world resumed.host.world ∧
        ∃ contexts entries sent failed, goesOn.contexts = used.contexts ++ contexts ∧ resumed.contexts = contexts ∧
          goesOn.host.journal = used.host.journal ++ entries ∧ resumed.host.journal = after.journal ++ entries ∧
          goesOn.host.outbox = used.host.outbox ++ sent ∧ resumed.host.outbox = after.outbox ++ sent ∧
          goesOn.host.failures = used.host.failures ++ failed ∧ resumed.host.failures = after.failures ++ failed) := by
  intro used fresh restored after loaded
  obtain ⟨unused, blank, inUse⟩ := callAll_put_to_use config host host' b b' s definitions operations
  -- only a machine that knows where the saved one was initialized takes anything over
  by_cases known : fresh.machine.initialFor b s ∈ fresh.machine.forest.keys
  · obtain ⟨restored', accepted, parts, remembered⟩ := inUse.load_save blank known id time fresh.host
    obtain ⟨rfl, logged⟩ := Prod.mk.inj (Except.ok.inj (accepted.symm.trans loaded))
    rw [show fresh.host = host' from unused] at logged
    have twins : used.machine.Twins restored' := ⟨parts, remembered⟩
    refine ⟨twins.initial?, twins.current?, remembered, logged.symm, fun same later moving => ?_⟩
    rw [show host'.world = after.world by rw [← logged]; rfl] at same
    intro goesOn resumed
    have begun : InStep Same used ⟨restored', after, []⟩ used ⟨restored', after, []⟩ :=
      ⟨twins, .refl same, [], (List.append_nil _).symm, rfl⟩
    have inStep := begun.callAll agrees moving
    obtain ⟨made, here, there⟩ := inStep.contexts
    obtain ⟨entries, wrote, wrote'⟩ := inStep.host.seen
    obtain ⟨sent, posted, posted'⟩ := inStep.host.outbox
    obtain ⟨failed, kept, kept'⟩ := inStep.host.failures
    unfold Host.seen at wrote wrote'
    simp only [List.filterMap_some] at wrote wrote'
    simp only [List.filter_true] at kept kept'
    exact ⟨inStep.machine.current?, inStep.machine.memory, inStep.host.world, made, entries, sent, failed, here, there,
      wrote, wrote', posted, posted', kept, kept'⟩
  · rw [inUse.load_save_unknown blank known] at loaded
    cases loaded

theorem callAll_resumed_lamp :
    let used := (start .standard (.ofWorld ())).callAll Lamp.quiet
      (Lamp.definition ++ [.enterInitialState, .fire ⟨.toggle, []⟩, .fire ⟨.turn, []⟩, .fire ⟨.toggle, []⟩])
    let fresh := (start .standard (.ofWorld ())).callAll Lamp.quiet Lamp.definition.dropLast
    ∃ restored after, fresh.machine.load (used.machine.save "saved" ⟨⟨2024, 1, 2⟩, ⟨0, 0⟩, by decide⟩) fresh.host =
        .ok (restored, after) ∧ restored.current? = some .off ∧ restored.memory.get? .on = some .bright ∧
      ((⟨restored, after, []⟩ : Run Lamp Switch Unit Empty Empty Unit).callAll Lamp.quiet
        [.fire ⟨.toggle, []⟩]).machine.current? = some .bright := by
  intro used fresh
  have agrees : Lamp.quiet.Agrees Eq Lamp.quiet := by
    refine ⟨fun _ _ _ _ _ => ⟨rfl, rfl, rfl⟩, fun _ _ _ _ _ => ⟨rfl, rfl, rfl⟩, rfl, rfl⟩
  have law := callAll_resumed .standard (.ofWorld ()) (.ofWorld ()) Lamp.quiet Lamp.quiet agrees
    Lamp.definition.dropLast [.enterInitialState, .fire ⟨.toggle, []⟩, .fire ⟨.turn, []⟩, .fire ⟨.toggle, []⟩]
    .supply "saved" ⟨⟨2024, 1, 2⟩, ⟨0, 0⟩, by decide⟩ (by decide) (by decide)
  cases loaded : fresh.machine.load (used.machine.save "saved" ⟨⟨2024, 1, 2⟩, ⟨0, 0⟩, by decide⟩) fresh.host with
  | error error =>
    have accepted : (fresh.machine.load
        (used.machine.save "saved" ⟨⟨2024, 1, 2⟩, ⟨0, 0⟩, by decide⟩) fresh.host).isOk := by decide +kernel
    rw [loaded] at accepted
    cases accepted
  | ok taken =>
    obtain ⟨_, stands, remembered, _, follows⟩ := law taken.1 taken.2 loaded
    have later := (follows (Subsingleton.elim _ _) [.fire ⟨.toggle, []⟩] (by decide)).1
    refine ⟨taken.1, taken.2, rfl, stands.trans ?_, (remembered .on).trans ?_, later.trans ?_⟩
    · decide +kernel
    · decide +kernel
    · decide +kernel

end Run

end Statechart
