import Statechart.Proofs.Active.Step
import Statechart.Proofs.Machine.Run

namespace Statechart

variable {S E F X L W : Type}

theorem toOption_eq_some_iff {ε α : Type} {answer : Except ε α} {a : α} : answer.toOption = some a ↔ answer = .ok a := by
  cases answer <;> simp [Except.toOption]

/-- A call on the machine inside, past the worker that owns it: the machine before the call and after it. -/
structure Touch (S E F X L : Type) where
  before : Machine S E F X L
  after : Machine S E F X L

namespace Touch

def Readies (touch : Touch S E F X L) : Prop := touch.after.isInitialized ≠ touch.before.isInitialized

def Moves (touch : Touch S E F X L) : Prop := touch.after.current? ≠ touch.before.current?

end Touch

namespace Active

def worker? (a : Active S E F X L) : Option (Worker S E F X L) :=
  match a.runtime with
  | .running worker _ _ | .stopped worker => some worker
  | .lost | .terminated => none

variable {b : Behaviour S E F X W} {a a' a'' : Active S E F X L} {host host' host'' : Host S E F X L W}
  {worker worker' : Worker S E F X L} {touches touches' : List (Touch S E F X L)} {message : Message E X L}

theorem kept_of_worker? (owns : a.worker? = some worker) : a.runtime ≠ .lost := by
  intro lost
  rw [worker?, lost] at owns
  cases owns

/-- How much the owner of a machine knows of it. The owner takes it to be initialized when it is, unless a call on the
    machine inside has made it so, and knows where it stands unless such a call has moved it. -/
structure InTouch (touches : List (Touch S E F X L)) (a : Active S E F X L) (worker : Worker S E F X L) : Prop where
  ready : (∃ touch ∈ touches, touch.Readies) → worker.machine.isInitialized
  known : a.isInitialized ↔ worker.machine.isInitialized ∧ ∀ touch ∈ touches, ¬touch.Readies
  published : (∀ touch ∈ touches, ¬touch.Moves) → a.published? = worker.machine.current?

theorem inTouch_ofMachine (m : Machine S E F X L) (owns : (ofMachine m).worker? = some worker) :
    InTouch [] (ofMachine m) worker := by
  cases owns
  refine ⟨fun ⟨_, member, _⟩ => absurd member List.not_mem_nil, ?_, fun _ => rfl⟩
  simp [ofMachine]

structure Undisturbed (a : Active S E F X L) (worker : Worker S E F X L) (a' : Active S E F X L)
    (worker' : Worker S E F X L) : Prop where
  handle : a'.isInitialized = a.isInitialized
  machine : worker'.machine.isInitialized = worker.machine.isInitialized
  published : a.published? = worker.machine.current? → a'.published? = worker'.machine.current?

theorem InTouch.undisturbed (inTouch : a.InTouch touches worker) (undisturbed : Undisturbed a worker a' worker') :
    a'.InTouch touches worker' := by
  refine ⟨?_, ?_, undisturbed.published ∘ inTouch.published⟩
  · rw [undisturbed.machine]
    exact inTouch.ready
  · rw [undisturbed.handle, undisturbed.machine]
    exact inTouch.known

theorem send_undisturbed (sent : a.send message = .ok a') (owns : a'.worker? = some worker) :
    a.worker? = some worker ∧ Undisturbed a worker a' worker := by
  unfold send at sent
  split at sent
  · cases sent
    exact ⟨owns, rfl, rfl, fun same => same⟩
  · cases sent

theorem accept_undisturbed [DecidableEq X] (message : Message E X L) (host : Host S E F X L W)
    (owns : (a.accept worker message host).1.worker? = some worker') :
    Undisturbed a worker (a.accept worker message host).1 worker' := by
  cases message with
  | post post =>
    cases owns
    exact ⟨rfl, rfl, fun same => same⟩
  | configure change =>
    cases owns
    refine ⟨rfl, ?_, fun _ => rfl⟩
    cases change <;> rfl
  | stop =>
    cases owns
    exact ⟨rfl, rfl, fun same => same⟩

variable [DecidableEq S] [DecidableEq E]

omit [DecidableEq E] in
theorem beginRun_undisturbed {stopping : Bool} (owns : (a.beginRun b worker stopping host).1.worker? = some worker') :
    Undisturbed a worker (a.beginRun b worker stopping host).1 worker' := by
  obtain ⟨machine, published?, alike, published, begun⟩ := beginRun_publishes (kept_of_worker? owns)
  rw [begun] at owns ⊢
  cases owns
  refine ⟨rfl, alike.isInitialized, fun same => ?_⟩
  rcases published with published | ⟨unchanged, rfl⟩
  · exact published
  · exact unchanged.trans same

theorem fireNext_undisturbed {stopping : Bool} {signal : Signal E}
    (owns : (a.fireNext b worker stopping signal host).1.worker? = some worker') :
    Undisturbed a worker (a.fireNext b worker stopping signal host).1 worker' := by
  obtain ⟨machine, alike, fired⟩ := fireNext_publishes (kept_of_worker? owns)
  rw [fired] at owns ⊢
  cases owns
  exact ⟨rfl, alike.isInitialized, fun _ => rfl⟩

variable [DecidableEq X]

theorem turn?_undisturbed (turned : a.turn? b host = some (a', host')) (owns : a'.worker? = some worker') :
    ∃ worker, a.worker? = some worker ∧ Undisturbed a worker a' worker' := by
  obtain ⟨_, turned⟩ := turn?_eq_some_iff.mp turned
  unfold worker?
  cases turned with
  | deliver sent => exact ⟨worker', owns, rfl, rfl, fun same => same⟩
  | begin quiet stands =>
    rw [stands]
    exact ⟨_, rfl, beginRun_undisturbed owns⟩
  | take quiet stands looks next =>
    rw [stands]
    have undisturbed := accept_undisturbed _ host owns
    exact ⟨_, rfl, undisturbed.handle, undisturbed.machine, undisturbed.published⟩
  | look quiet stands drained =>
    rw [stands]
    cases owns
    exact ⟨_, rfl, rfl, rfl, fun same => same⟩
  | fire quiet stands waits =>
    rw [stands]
    have undisturbed := fireNext_undisturbed owns
    exact ⟨_, rfl, undisturbed.handle, undisturbed.machine, undisturbed.published⟩
  | finish quiet stands empty =>
    rw [stands]
    cases owns
    exact ⟨_, rfl, rfl, rfl, fun same => same⟩

/-- What may happen to an active machine: its worker takes a turn, anyone sends, code elsewhere changes the world, and
    its owner makes a call, also on the machine inside while no worker runs. What code sends in such a call goes into
    the channel. A call that is refused changes nothing. -/
inductive Act (b : Behaviour S E F X W) (a : Active S E F X L) (host : Host S E F X L W) :
    List (Touch S E F X L) → Active S E F X L → Host S E F X L W → Prop where
  | turn {a' : Active S E F X L} {host' : Host S E F X L W} (turned : a.turn? b host = some (a', host')) :
      Act b a host [] a' host'
  | send {a' : Active S E F X L} (message : Message E X L) (sent : a.send message = .ok a') : Act b a host [] a' host
  | outside (world : W) : Act b a host [] a { host with world := world }
  | initializeAt {a' : Active S E F X L} {host' : Host S E F X L W} (s : S)
      (initialized : a.initializeAt b s host = .ok (a', host')) : Act b a host [] a' host'
  | start {a' : Active S E F X L} {host' : Host S E F X L W} (started : a.start host = .ok (a', host')) :
      Act b a host [] a' host'
  | configure {a' : Active S E F X L} (change : Change X L) (configured : a.configure change = .ok a') :
      Act b a host [] a' host
  | joined {worker : Worker S E F X L} (stands : a.runtime = .stopped worker) :
      Act b a host [] a (host.log (.workerStopped a.name))
  | buried (lost : a.runtime = .lost) : Act b a host [] { a with runtime := .terminated } host
  | reach {worker : Worker S E F X L} (stands : a.runtime = .stopped worker) (call : Call S E F X L)
      {r : Run S E F X L W} (called : Run.call b ⟨worker.machine, host, []⟩ call = r) :
      Act b a host [⟨worker.machine, r.machine⟩]
        { a with runtime := .stopped { worker with machine := r.machine }
                 channel := a.channel ++ r.host.outbox.map .post }
        { r.host with outbox := [] }

inductive Acts (b : Behaviour S E F X W) (a : Active S E F X L) (host : Host S E F X L W) :
    List (Touch S E F X L) → Active S E F X L → Host S E F X L W → Prop where
  | none : Acts b a host [] a host
  | more {touches touches' : List (Touch S E F X L)} {a' a'' : Active S E F X L} {host' host'' : Host S E F X L W}
      (before : Acts b a host touches a' host') (act : Act b a' host' touches' a'' host'') :
      Acts b a host (touches ++ touches') a'' host''

omit [DecidableEq E] [DecidableEq X] in
theorem initializeAt_accepted {s : S} (initialized : a.initializeAt b s host = .ok (a', host')) :
    ∃ worker machine, a.runtime = .stopped worker ∧ worker.machine.initializeAt b s host = .ok (machine, host') ∧
      a' = { a with
        isInitialized := true
        runtime := .stopped { worker with machine := machine, pending := true } } := by
  unfold Active.initializeAt at initialized
  split at initialized
  · cases initialized
  · split at initialized
    · rename_i worker stands
      cases done : worker.machine.initializeAt b s host with
      | error error =>
        rw [done] at initialized
        cases initialized
      | ok done' =>
        rw [done] at initialized
        cases initialized
        exact ⟨worker, done'.1, stands, done, rfl⟩
    · cases initialized
    · cases initialized
    · cases initialized

omit [DecidableEq E] [DecidableEq X] in
theorem InTouch.initializeAt {s : S} {machine : Machine S E F X L} (inTouch : a.InTouch touches worker)
    (initialized : worker.machine.initializeAt b s host = .ok (machine, host')) :
    InTouch touches { a with
      isInitialized := true
      runtime := .stopped { worker with machine := machine, pending := true } }
      { worker with machine := machine, pending := true } := by
  obtain ⟨fresh, ready, _⟩ := Machine.initializeAt_ok initialized
  have steady : ∀ touch ∈ touches, ¬touch.Readies := by
    intro touch member readies
    have already := inTouch.ready ⟨touch, member, readies⟩
    rw [fresh] at already
    cases already
  refine ⟨fun _ => ready, ⟨fun _ => ⟨ready, steady⟩, fun _ => rfl⟩, fun still => ?_⟩
  exact (inTouch.published still).trans (Machine.initializeAt_current initialized).symm

theorem InTouch.reach (inTouch : a.InTouch touches worker) (call : Call S E F X L) {r : Run S E F X L W}
    (called : Run.call b ⟨worker.machine, host, []⟩ call = r) (channel : List (Message E X L)) :
    InTouch (touches ++ [⟨worker.machine, r.machine⟩])
      { a with runtime := .stopped { worker with machine := r.machine }, channel := channel }
      { worker with machine := r.machine } := by
  have standing : r.machine.isInitialized = worker.machine.isInitialized ∨ r.machine.isInitialized := by
    rcases Run.call_standing b ⟨worker.machine, host, []⟩ call with ⟨same, _⟩ | ⟨ready, _⟩
    · exact .inl (called ▸ same)
    · exact .inr (called ▸ ready)
  have kept : worker.machine.isInitialized → r.machine.isInitialized := by
    intro ready
    rcases standing with same | ready'
    · exact same.trans ready
    · exact ready'
  refine ⟨?_, ?_, ?_⟩
  · rintro ⟨touch, member, readies⟩
    rcases List.mem_append.mp member with earlier | new
    · exact kept (inTouch.ready ⟨touch, earlier, readies⟩)
    · rw [List.mem_singleton.mp new] at readies
      exact standing.resolve_left readies
  · rw [List.forall_mem_append, List.forall_mem_singleton]
    constructor
    · intro known
      obtain ⟨ready, steady⟩ := inTouch.known.mp known
      exact ⟨kept ready, steady, fun readies => readies ((kept ready).trans ready.symm)⟩
    · rintro ⟨ready, steady, same⟩
      exact inTouch.known.mpr ⟨(not_not.mp same).symm.trans ready, steady⟩
  · intro still
    rw [List.forall_mem_append, List.forall_mem_singleton] at still
    exact (inTouch.published still.1).trans (not_not.mp still.2).symm

theorem Act.inTouch (inTouch : ∀ worker, a.worker? = some worker → a.InTouch touches worker)
    (act : Act b a host touches' a' host') (owns : a'.worker? = some worker') :
    a'.InTouch (touches ++ touches') worker' := by
  cases act with
  | turn turned =>
    obtain ⟨worker, owned, undisturbed⟩ := turn?_undisturbed turned owns
    rw [List.append_nil]
    exact (inTouch worker owned).undisturbed undisturbed
  | send message sent =>
    obtain ⟨owned, undisturbed⟩ := send_undisturbed sent owns
    rw [List.append_nil]
    exact (inTouch worker' owned).undisturbed undisturbed
  | outside world =>
    rw [List.append_nil]
    exact inTouch worker' owns
  | initializeAt s initialized =>
    obtain ⟨worker, machine, stands, accepted, rfl⟩ := initializeAt_accepted initialized
    have owned : a.worker? = some worker := by rw [worker?, stands]
    cases owns
    rw [List.append_nil]
    exact (inTouch worker owned).initializeAt accepted
  | start started =>
    rw [List.append_nil]
    unfold Active.start at started
    split at started
    · cases started
    · split at started
      · rename_i worker stands
        have owned : a.worker? = some worker := by rw [worker?, stands]
        cases started
        cases owns
        exact (inTouch worker' owned).undisturbed ⟨rfl, rfl, fun same => same⟩
      · cases started
        exact inTouch worker' owns
      · cases started
        exact inTouch worker' owns
      · cases started
  | configure change configured =>
    rw [List.append_nil]
    unfold Active.configure at configured
    split at configured
    · rename_i worker stands
      have owned : a.worker? = some worker := by rw [worker?, stands]
      unfold withMachine at configured
      rw [stands] at configured
      cases configured
      cases owns
      refine (inTouch worker owned).undisturbed ⟨rfl, ?_, ?_⟩
      · cases change <;> rfl
      · cases change <;> exact fun same => same
    · obtain ⟨owned, undisturbed⟩ := send_undisturbed configured owns
      exact (inTouch worker' owned).undisturbed undisturbed
    · cases configured
    · cases configured
  | joined stands =>
    rw [List.append_nil]
    exact inTouch worker' owns
  | buried lost => cases owns
  | reach stands call called =>
    rename_i worker r
    have owned : a.worker? = some worker := by rw [worker?, stands]
    cases owns
    exact (inTouch worker owned).reach call called _

theorem Acts.trans (first : a.Acts b host touches a' host') (second : a'.Acts b host' touches' a'' host'') :
    a.Acts b host (touches ++ touches') a'' host'' := by
  induction second with
  | none => rwa [List.append_nil]
  | more before act ih =>
    rw [← List.append_assoc]
    exact ih.more act

theorem acts_of_settle? {turns : Nat} (settled : settle? b turns a host = some (a', host')) :
    a.Acts b host [] a' host' := by
  induction turns generalizing a host with
  | zero => cases settled
  | succ turns ih =>
    unfold settle? at settled
    split at settled
    · cases settled
      exact .none
    · rename_i turned
      exact (Acts.none.more (.turn turned)).trans (ih settled)

def Told (a : Active S E F X L) : Prop :=
  match a.runtime with
  | .running _ _ stopping => stopping = true ∨ .stop ∈ a.channel
  | .stopped _ | .lost => True
  | .terminated => False

omit [DecidableEq S] [DecidableEq E] [DecidableEq X] in
theorem Told.hears (told : a.Told) (runs : a.runtime = .running worker phase stopping) :
    stopping = true ∨ .stop ∈ a.channel := by
  rwa [Told, runs] at told

omit [DecidableEq S] [DecidableEq E] [DecidableEq X] in
theorem resume_told (hears : stopping = true ∨ .stop ∈ a.channel) : (a.resume worker stopping host).1.Told := by
  unfold resume
  split
  · trivial
  · exact hears

theorem Turn.told (turned : a.Turn b host deeds a' host') (told : a.Told) : a'.Told := by
  cases turned with
  | @deliver post rest sent =>
    cases stands : a.runtime with
    | running worker phase stopping =>
      simp only [Told, List.mem_append]
      exact (told.hears stands).imp_right .inl
    | stopped | lost => trivial
    | terminated =>
      rw [Told, stands] at told
      cases told
  | begin quiet stands =>
    unfold beginRun
    simp only
    split
    · split <;> exact resume_told (told.hears stands)
    · exact told.hears stands
  | @take worker phase message rest quiet stands looks next =>
    obtain waits := (told.hears stands).resolve_left (by simp)
    rw [next] at waits
    cases message with
    | stop => exact .inl rfl
    | post | configure => exact .inr ((List.mem_cons.mp waits).resolve_left (by simp))
  | look quiet stands => exact told.hears stands
  | fire quiet stands waits =>
    unfold fireNext
    split <;> exact resume_told (told.hears stands)
  | finish => trivial

theorem Told.over (told : a.Told) (stuck : a.turn? b host = none) :
    (∃ worker, a.runtime = .stopped worker) ∨ a.runtime = .lost := by
  cases stands : a.runtime with
  | stopped worker => exact .inl ⟨worker, rfl⟩
  | lost => exact .inr rfl
  | terminated =>
    rw [Told, stands] at told
    cases told
  | running worker phase stopping =>
    obtain ⟨_, untold, _, empty⟩ := waits_of_turn? stuck stands
    rcases told.hears stands with hears | waiting
    · rw [untold] at hears
      cases hears
    · rw [empty] at waiting
      cases waiting

theorem Told.settle {turns : Nat} (told : a.Told) (settled : settle? b turns a host = some (a', host')) :
    (∃ worker, a'.runtime = .stopped worker) ∨ a'.runtime = .lost := by
  induction turns generalizing a host with
  | zero => cases settled
  | succ turns ih =>
    unfold settle? at settled
    split at settled
    · rename_i stuck
      cases settled
      exact told.over stuck
    · rename_i turned
      obtain ⟨_, turned⟩ := turn?_eq_some_iff.mp turned
      exact ih (turned.told told) settled

/-- A running worker that is asked to stop has stopped in the end, or it crashed on the way and is gone for good. -/
theorem stop?_running {turns : Nat} {answer : Except Misuse Unit} (runs : a.runtime = .running worker phase stopping)
    (asked : a.stop? b turns host = some (answer, a', host')) :
    answer = .ok () ∧ (∃ worker', a'.runtime = .stopped worker') ∨
      answer = .error .workerPanicked ∧ a'.runtime = .terminated := by
  unfold stop? at asked
  rw [runs] at asked
  obtain ⟨⟨last, host''⟩, settled, joins⟩ := Option.map_eq_some_iff.mp asked
  have told : Told { a with channel := a.channel ++ [.stop], runtime := .running worker phase stopping } :=
    .inr (by simp)
  rcases told.settle settled with ⟨worker', stands⟩ | lost
  · simp only [stands] at joins
    cases joins
    exact .inl ⟨rfl, worker', stands⟩
  · simp only [lost] at joins
    cases joins
    exact .inr ⟨rfl, rfl⟩

theorem acts_of_stop? {turns : Nat} (stopped : a.stop? b turns host = some (.ok (), a', host')) :
    a.Acts b host [] a' host' := by
  unfold stop? at stopped
  split at stopped
  · rename_i stands
    obtain ⟨⟨rest, last⟩, settled, joins⟩ := Option.map_eq_some_iff.mp stopped
    have sent : a.send .stop = .ok { a with channel := a.channel ++ [.stop] } := by
      unfold Active.send isOpen
      rw [stands]
      rfl
    have acts := (Acts.none.more (.send .stop sent)).trans (acts_of_settle? settled)
    simp only at joins
    split at joins
    · rename_i stands
      cases joins
      exact acts.more (.joined stands)
    · cases joins
  · cases stopped
  · cases stopped
    exact .none
  · cases stopped
    exact .none

theorem Acts.inTouch {m : Machine S E F X L} (acts : (ofMachine m).Acts b host touches a host')
    (owns : a.worker? = some worker) : a.InTouch touches worker := by
  induction acts generalizing worker with
  | none => exact inTouch_ofMachine m owns
  | more before act ih => exact act.inTouch (fun _ => ih) owns

omit [DecidableEq E] [DecidableEq X] in
theorem initializeAt_refused (stands : a.runtime = .stopped worker) (ready : worker.machine.isInitialized) (s : S) :
    a.initializeAt b s host = .error .alreadyInitialized := by
  unfold Active.initializeAt Machine.initializeAt
  split
  · rfl
  · rw [stands]
    simp only [ready, if_true]
    rfl

omit [DecidableEq E] [DecidableEq X] in
theorem initializeAt_isOk_iff (stands : a.runtime = .stopped worker)
    (known : a.isInitialized → worker.machine.isInitialized) (s : S) :
    (a.initializeAt b s host).isOk ↔ worker.machine.isInitialized = false := by
  cases ready : worker.machine.isInitialized with
  | true =>
    rw [initializeAt_refused stands ready]
    exact ⟨fun accepted => (by cases accepted), fun unready => (by cases unready)⟩
  | false =>
    have unknown : ¬a.isInitialized := fun claimed => by simpa [ready] using known claimed
    rw [Active.initializeAt, if_neg unknown, stands]
    simp only [Machine.initializeAt, ready, Bool.false_eq_true, if_false]
    exact ⟨fun _ => trivial, fun _ => rfl⟩

/-- A stopped machine lets itself be initialized exactly when it is not. It starts when it is, and its owner knows where
    it stands, unless a call on the machine inside has seen to either. -/
theorem acts_agree {m : Machine S E F X L} (acts : (ofMachine m).Acts b host touches a host')
    (stands : a.runtime = .stopped worker) :
    (∀ s, (a.initializeAt b s host').isOk ↔ worker.machine.isInitialized = false) ∧
    ((a.start host').isOk ↔ worker.machine.isInitialized ∧ ∀ touch ∈ touches, ¬touch.Readies) ∧
    ((∀ touch ∈ touches, ¬touch.Moves) → a.published? = worker.machine.current?) := by
  have owned : a.worker? = some worker := by rw [worker?, stands]
  have inTouch := acts.inTouch owned
  refine ⟨fun s => initializeAt_isOk_iff stands (fun known => (inTouch.known.mp known).1) s, ?_, inTouch.published⟩
  rw [← inTouch.known, Active.start, stands]
  cases a.isInitialized with
  | true => exact ⟨fun _ => rfl, fun _ => rfl⟩
  | false => exact ⟨fun accepted => (by cases accepted), fun known => (by cases known)⟩

omit [DecidableEq S] [DecidableEq E] [DecidableEq X] in
theorem stopped_of_machine? {m : Machine S E F X L} (owned : a.machine? = some m) :
    ∃ worker, a.runtime = .stopped worker ∧ worker.machine = m := by
  unfold machine? at owned
  split at owned
  · rename_i worker stands
    exact ⟨worker, stands, Option.some.inj owned⟩
  · cases owned

def builtLamp : Machine Lamp Switch Unit Empty Empty :=
  ((Run.start .standard (.ofWorld ())).callAll Lamp.quiet Lamp.definition.dropLast).machine

def visitLamp : Option (Active Lamp Switch Unit Empty Empty × Host Lamp Switch Unit Empty Empty Unit) := do
  let (a, host) ← ((ofMachine builtLamp).initializeAt Lamp.quiet .supply (.ofWorld ())).toOption
  let (a, host) ← (a.start host).toOption
  let a ← (a.send (.post ⟨⟨.toggle, []⟩, false⟩)).toOption
  let (result, a, host) ← a.stop? Lamp.quiet 20 host
  if result.isOk then some (a, host) else none

theorem acts_visitLamp {a : Active Lamp Switch Unit Empty Empty} {host : Host Lamp Switch Unit Empty Empty Unit}
    (visit : visitLamp = some (a, host)) : (ofMachine builtLamp).Acts Lamp.quiet (.ofWorld ()) [] a host := by
  simp only [visitLamp, Option.bind_eq_bind, Option.bind_eq_some_iff, Prod.exists, toOption_eq_some_iff] at visit
  obtain ⟨_, _, initialized, _, _, started, _, sent, result, _, _, stopped, ends⟩ := visit
  have ready := Acts.none.more (Act.initializeAt Lamp.supply initialized)
  have owned := (ready.more (Act.start started)).more (Act.send _ sent)
  cases result with
  | error error => cases ends
  | ok _ =>
    cases ends
    exact owned.trans (acts_of_stop? stopped)

theorem acts_agree_lamp : ∃ a host worker, visitLamp = some (a, host) ∧ a.runtime = .stopped worker ∧
    (a.start host).isOk ∧ a.published? = some .dim ∧ worker.machine.current? = some .dim := by
  have visited : visitLamp.any (fun visit => visit.1.machine?.any fun m => m.isInitialized ∧ m.current? = some .dim) =
      true := by decide +kernel
  obtain ⟨⟨a, host⟩, visit, found⟩ := (Option.any_eq_true _ _).mp visited
  obtain ⟨m, owned, stands⟩ := (Option.any_eq_true _ _).mp found
  obtain ⟨ready, current⟩ := of_decide_eq_true stands
  obtain ⟨worker, stopped, rfl⟩ := stopped_of_machine? owned
  obtain ⟨_, starts, published⟩ := acts_agree (acts_visitLamp visit) stopped
  refine ⟨a, host, worker, visit, stopped, starts.mpr ⟨ready, ?_⟩, (published ?_).trans current, current⟩
  · exact fun _ member => absurd member List.not_mem_nil
  · exact fun _ member => absurd member List.not_mem_nil

/-- A lamp that is initialized and entered behind the back of its owner can neither be started nor initialized any
    more, and its owner does not know where it stands. -/
theorem acts_disagree_lamp : ∃ touches a host worker,
    (ofMachine builtLamp).Acts Lamp.quiet (.ofWorld ()) touches a host ∧ a.runtime = .stopped worker ∧
    worker.machine.isInitialized ∧ a.start host = .error .notInitialized ∧
    (∀ s, a.initializeAt Lamp.quiet s host = .error .alreadyInitialized) ∧
    worker.machine.current? = some .off ∧ a.published? = none := by
  refine ⟨_, _, _, _, (Acts.none.more (.reach rfl (.initializeAt .supply) rfl)).more (.reach rfl .enterInitialState rfl),
    rfl, ?_, ?_, ?_, ?_, ?_⟩
  · decide +kernel
  · exact if_pos (by decide +kernel)
  · exact fun s => initializeAt_refused rfl (by decide +kernel) s
  · decide +kernel
  · decide +kernel

end Active

end Statechart
