import Statechart.Proofs.Active.Owner

namespace Statechart

variable {S E F X L W : Type}

/-- A call that moves a machine which had entered its initial state before. -/
def Touch.Shifts (touch : Touch S E F X L) : Prop :=
  touch.before.isInitialized ∧ touch.before.hasEntered ∧ touch.after.current? ≠ touch.before.current?

theorem Change.apply_place [DecidableEq X] (change : Change X L) (m : Machine S E F X L) :
    (change.apply m).initial? = m.initial? ∧ (change.apply m).current? = m.current? := by
  cases change <;> exact ⟨rfl, rfl⟩

variable [DecidableEq S] [DecidableEq E] [DecidableEq X]

namespace Run

variable {r : Run S E F X L W} {b : Behaviour S E F X W} {call : Call S E F X L}

theorem call_current (ready : r.machine.isInitialized) (entered : r.machine.hasEntered)
    (other : ∀ signal, call ≠ .fire signal) : (r.call b call).machine.current? = r.machine.current? := by
  rw [Run.call.eq_def]
  cases call with
  | define parent initial history subs =>
    simp only [Machine.define]
    cases r.machine.forest.define? parent initial history subs <;> rfl
  | addTransition | addEntryAction | addExitAction => rfl
  | configure change => exact (change.apply_place r.machine).2
  | initializeAt s =>
    have refused : r.machine.initializeAt b s r.host = .error .alreadyInitialized := if_pos ready
    simp only [refused]
  | enterInitialState =>
    simp only [Machine.enterInitialState_entered ready entered]
    rfl
  | fire signal => exact absurd rfl (other signal)
  | load checkpoint =>
    cases loaded : r.machine.load checkpoint r.host with
    | error error => simp only [loaded]
    | ok done =>
      obtain ⟨m', host'⟩ := done
      have fresh := (Machine.load_ok loaded).1
      rw [ready] at fresh
      cases fresh

theorem call_entered (ready : r.machine.isInitialized) (entered : r.machine.hasEntered) (b : Behaviour S E F X W)
    (call : Call S E F X L) : (r.call b call).machine.hasEntered := by
  by_cases fires : ∃ signal, call = .fire signal
  · obtain ⟨signal, rfl⟩ := fires
    obtain ⟨done, fired, _, stands⟩ := Machine.fire_entered ready entered b signal r.host
    rw [Run.call.eq_def]
    simp only [fired]
    exact stands
  · have current := call_current (b := b) ready entered fun signal same => fires ⟨signal, same⟩
    exact (congrArg Option.isSome current).trans entered

theorem call_initialized (ready : r.machine.isInitialized) (b : Behaviour S E F X W) (call : Call S E F X L) :
    (r.call b call).machine.isInitialized := by
  rcases call_standing b r call with ⟨same, _⟩ | ⟨yes, _⟩
  · exact same.trans ready
  · exact yes

theorem call_enters (ready : r.machine.isInitialized) (b : Behaviour S E F X W) :
    (r.call b .enterInitialState).machine.hasEntered := by
  cases entered : r.machine.hasEntered with
  | true => exact call_entered ready entered b .enterInitialState
  | false =>
    obtain ⟨done, accepted, _, stands⟩ := Machine.enterInitialState_unentered ready entered b r.host
    rw [Run.call.eq_def]
    simp only [accepted]
    exact stands

end Run

namespace Active

variable {b : Behaviour S E F X W} {a a' a'' : Active S E F X L} {host host' host'' : Host S E F X L W}
  {worker worker' : Worker S E F X L} {touches touches' : List (Touch S E F X L)} {phase : Phase} {stopping : Bool}
  {deeds : List (Deed E X L)}

omit [DecidableEq S] [DecidableEq E] [DecidableEq X] in
theorem writeAll_nil (host : Host S E F X L W) : host.writeAll [] = host := by simp [Host.writeAll]

omit [DecidableEq S] [DecidableEq E] [DecidableEq X] in
theorem resume_after (a : Active S E F X L) (r : Run S E F X L W) (answer : Except Misuse (Completed S E F X L W))
    (line : Misuse → LogLine S E) (queue : List (Signal E)) (pending stopping : Bool) :
    ∃ error? : Option Misuse, (match answer with
      | .error error => a.resume ⟨r.machine, queue, pending⟩ stopping (r.host.log (line error))
      | .ok done => a.resume ⟨done.machine, queue, pending⟩ stopping done.host) =
      a.resume ⟨(r.after answer).machine, queue, pending⟩ stopping
        ((r.after answer).host.writeAll (error?.toList.map fun error => .log (line error))) := by
  cases answer with
  | error error => exact ⟨some error, rfl⟩
  | ok done => exact ⟨none, by rw [Option.toList_none, List.map_nil, writeAll_nil]; rfl⟩

theorem beginRun_eq (waits : worker.pending) (b : Behaviour S E F X W) (a : Active S E F X L) (stopping : Bool)
    (host : Host S E F X L W) :
    let after := Run.call b ⟨worker.machine, worker.machine.announce .started host, []⟩ .enterInitialState
    ∃ error? : Option Misuse, a.beginRun b worker stopping host =
      a.resume ⟨after.machine, worker.queue, false⟩ stopping
        (after.host.writeAll (error?.toList.map fun error => .log (.initialEntryFailed worker.machine.name error))) := by
  intro after
  unfold beginRun
  simp only [waits, if_true]
  exact resume_after a ⟨worker.machine, worker.machine.announce .started host, []⟩ _ _ worker.queue false stopping

theorem fireNext_eq (b : Behaviour S E F X W) (a : Active S E F X L) (worker : Worker S E F X L) (stopping : Bool)
    (signal : Signal E) (host : Host S E F X L W) :
    let after := Run.call b ⟨worker.machine, host, []⟩ (.fire signal)
    ∃ error? : Option Misuse, a.fireNext b worker stopping signal host =
      a.resume ⟨after.machine, worker.queue, worker.pending⟩ stopping
        (after.host.writeAll (error?.toList.map fun error => .log (.firingFailed worker.machine.name error))) :=
  resume_after a ⟨worker.machine, host, []⟩ _ _ worker.queue worker.pending stopping

omit [DecidableEq S] [DecidableEq E] [DecidableEq X] in
theorem resume_owned (owns : (a.resume worker stopping host).1.worker? = some worker') :
    worker' = worker ∧ (a.resume worker stopping host).1 =
      { a with runtime := .running worker .draining stopping, published? := worker.machine.current? } := by
  have resumed := congrArg Prod.fst (resume_kept (kept_of_worker? owns)).2
  rw [resumed] at owns
  cases owns
  exact ⟨rfl, resumed⟩

/-- What the owner and the worker may rely on. What the owner takes to be initialized is, and it has entered its initial
    state or the worker still owes the entry, which it no longer does once its run has begun. As long as no call on the
    machine inside moves it after its entry, the owner knows where it stands when no entry is owed. -/
structure Sure (touches : List (Touch S E F X L)) (a : Active S E F X L) (worker : Worker S E F X L) : Prop where
  ready : a.isInitialized → worker.machine.isInitialized ∧ (worker.pending ∨ worker.machine.hasEntered)
  begun : ∀ phase stopping, a.runtime = .running worker phase stopping →
    a.isInitialized ∧ (phase ≠ .starting → worker.pending = false)
  published : (∀ touch ∈ touches, ¬touch.Shifts) → a.isInitialized →
    a.published? = worker.machine.current? ∨ worker.pending

omit [DecidableEq S] [DecidableEq E] [DecidableEq X] in
theorem sure_ofMachine (m : Machine S E F X L) (owns : (ofMachine m).worker? = some worker) :
    Sure [] (ofMachine m) worker := by
  cases owns
  refine ⟨fun ready => ⟨ready, ?_⟩, ?_, fun _ _ => .inl rfl⟩
  · have ready : m.isInitialized := ready
    cases m.hasEntered <;> simp [ready]
  · rintro phase stopping ⟨⟩

omit [DecidableEq S] [DecidableEq E] [DecidableEq X] in
theorem Sure.still (sure : a.Sure touches worker) (handle : a'.isInitialized = a.isInitialized)
    (initial : worker'.machine.initial? = worker.machine.initial?)
    (current : worker'.machine.current? = worker.machine.current?) (pending : worker'.pending = worker.pending)
    (published : a'.published? = a.published? ∨ a'.published? = worker'.machine.current?)
    (begun : ∀ phase stopping, a'.runtime = .running worker' phase stopping →
      a'.isInitialized ∧ (phase ≠ .starting → worker'.pending = false)) : a'.Sure touches worker' := by
  refine ⟨?_, begun, fun still ready => ?_⟩
  · unfold Machine.isInitialized Machine.hasEntered
    rw [handle, initial, current, pending]
    exact sure.ready
  · rcases published with same | told
    · rw [same, current, pending]
      exact sure.published still (handle ▸ ready)
    · exact .inl told

theorem Sure.begin (sure : a.Sure touches worker) (stands : a.runtime = .running worker .starting stopping)
    (owns : (a.beginRun b worker stopping host).1.worker? = some worker') :
    Sure touches (a.beginRun b worker stopping host).1 worker' := by
  have known := (sure.begun _ _ stands).1
  obtain ⟨ready, entered⟩ := sure.ready known
  cases waits : worker.pending with
  | false =>
    unfold beginRun at owns ⊢
    simp only [waits, Bool.false_eq_true, if_false] at owns ⊢
    cases owns
    refine sure.still rfl rfl rfl rfl (.inl rfl) ?_
    rintro phase stopping ⟨⟩
    exact ⟨known, fun _ => waits⟩
  | true =>
    obtain ⟨_, begun⟩ := beginRun_eq waits b a stopping host
    rw [begun] at owns ⊢
    obtain ⟨rfl, resumed⟩ := resume_owned owns
    rw [resumed]
    refine ⟨fun _ => ⟨?_, .inr ?_⟩, ?_, fun _ _ => .inl rfl⟩
    · exact Run.call_initialized ready b .enterInitialState
    · exact Run.call_enters ready b
    · rintro phase stopping ⟨⟩
      exact ⟨known, fun _ => rfl⟩

theorem Sure.fire {signal : Signal E} {queue : List (Signal E)} (sure : a.Sure touches worker)
    (stands : a.runtime = .running worker .working stopping)
    (owns : (a.fireNext b { worker with queue := queue } stopping signal host).1.worker? = some worker') :
    Sure touches (a.fireNext b { worker with queue := queue } stopping signal host).1 worker' := by
  obtain ⟨known, entered⟩ := sure.begun _ _ stands
  have settled : worker.pending = false := entered (by simp)
  obtain ⟨ready, entered⟩ := sure.ready known
  have entered : worker.machine.hasEntered := entered.resolve_left (by simp [settled])
  obtain ⟨_, fired⟩ := fireNext_eq b a { worker with queue := queue } stopping signal host
  rw [fired] at owns ⊢
  obtain ⟨rfl, resumed⟩ := resume_owned owns
  rw [resumed]
  refine ⟨fun _ => ⟨?_, .inr ?_⟩, ?_, fun _ _ => .inl rfl⟩
  · exact Run.call_initialized ready b (.fire signal)
  · exact Run.call_entered ready entered b (.fire signal)
  · rintro phase stopping ⟨⟩
    exact ⟨known, fun _ => settled⟩

omit [DecidableEq S] [DecidableEq E] in
theorem Sure.take {rest : List (Message E X L)} (sure : a.Sure touches worker)
    (stands : a.runtime = .running worker phase false) (begun : phase ≠ .starting) (message : Message E X L)
    (owns : ({ a with channel := rest }.accept worker message host).1.worker? = some worker') :
    Sure touches ({ a with channel := rest }.accept worker message host).1 worker' := by
  obtain ⟨known, settled⟩ := sure.begun _ _ stands
  cases message with
  | post post =>
    cases owns
    refine sure.still rfl rfl rfl rfl (.inl rfl) ?_
    rintro phase stopping ⟨⟩
    exact ⟨known, fun _ => settled begun⟩
  | configure change =>
    cases owns
    obtain ⟨initial, current⟩ := change.apply_place worker.machine
    refine sure.still rfl initial current rfl (.inr rfl) ?_
    rintro phase stopping ⟨⟩
    exact ⟨known, fun _ => settled begun⟩
  | stop =>
    cases owns
    refine sure.still rfl rfl rfl rfl (.inl rfl) ?_
    rintro phase stopping ⟨⟩
    exact ⟨known, fun _ => settled begun⟩

theorem Turn.sure (turned : a.Turn b host deeds a' host')
    (sure : ∀ worker, a.worker? = some worker → a.Sure touches worker) (owns : a'.worker? = some worker') :
    a'.Sure touches worker' := by
  cases turned with
  | deliver sent =>
    have before := sure worker' owns
    exact before.still rfl rfl rfl rfl (.inl rfl) before.begun
  | begin quiet stands => exact (sure _ (by rw [worker?, stands])).begin stands owns
  | take quiet stands looks next =>
    refine (sure _ (by rw [worker?, stands])).take stands ?_ _ owns
    rcases looks with rfl | ⟨rfl, _⟩ <;> simp
  | look quiet stands drained =>
    have before := sure _ (by rw [worker?, stands])
    obtain ⟨known, settled⟩ := before.begun _ _ stands
    cases owns
    refine before.still rfl rfl rfl rfl (.inl rfl) ?_
    rintro phase stopping ⟨⟩
    exact ⟨known, fun _ => settled (by simp)⟩
  | fire quiet stands waits => exact (sure _ (by rw [worker?, stands])).fire stands owns
  | finish quiet stands empty =>
    have before := sure _ (by rw [worker?, stands])
    cases owns
    refine before.still rfl rfl rfl rfl (.inl rfl) ?_
    rintro phase stopping ⟨⟩

/-- A call on the machine inside leaves the owner right about its lifecycle, and moves it only if it says so or if the
    entry is still owed. -/
theorem Sure.reach (sure : a.Sure touches worker) (call : Call S E F X L) {r : Run S E F X L W}
    (called : Run.call b ⟨worker.machine, host, []⟩ call = r) (channel : List (Message E X L)) :
    Sure (touches ++ [⟨worker.machine, r.machine⟩])
      { a with runtime := .stopped { worker with machine := r.machine }, channel := channel }
      { worker with machine := r.machine } := by
  refine ⟨fun known => ?_, ?_, fun still known => ?_⟩
  · obtain ⟨ready, entered⟩ := sure.ready known
    rw [← called]
    refine ⟨Run.call_initialized ready b call, entered.imp_right fun entered => ?_⟩
    exact Run.call_entered ready entered b call
  · rintro phase stopping ⟨⟩
  · rw [List.forall_mem_append, List.forall_mem_singleton] at still
    obtain ⟨ready, entered⟩ := sure.ready known
    rcases sure.published still.1 known with told | owed
    · rcases entered with owed | entered
      · exact .inr owed
      · left
        have kept : r.machine.current? = worker.machine.current? := by
          by_contra moved
          exact still.2 ⟨ready, entered, moved⟩
        exact told.trans kept.symm
    · exact .inr owed

theorem Act.sure (act : Act b a host touches' a' host')
    (sure : ∀ worker, a.worker? = some worker → a.Sure touches worker) (owns : a'.worker? = some worker') :
    a'.Sure (touches ++ touches') worker' := by
  cases act with
  | turn turned =>
    obtain ⟨_, turned⟩ := turn?_eq_some_iff.mp turned
    rw [List.append_nil]
    exact turned.sure sure owns
  | send message sent =>
    rw [List.append_nil]
    unfold Active.send at sent
    split at sent
    · cases sent
      have before := sure worker' owns
      exact before.still rfl rfl rfl rfl (.inl rfl) before.begun
    · cases sent
  | outside world =>
    rw [List.append_nil]
    exact sure worker' owns
  | initializeAt s initialized =>
    rw [List.append_nil]
    obtain ⟨worker, machine, stands, accepted, rfl⟩ := initializeAt_accepted initialized
    cases owns
    refine ⟨fun _ => ⟨(Machine.initializeAt_ok accepted).2.1, .inl rfl⟩, ?_, fun _ _ => .inr rfl⟩
    rintro phase stopping ⟨⟩
  | start started =>
    rw [List.append_nil]
    unfold Active.start at started
    split at started
    · cases started
    · rename_i known
      split at started
      · rename_i worker stands
        have before := sure worker (by rw [worker?, stands])
        cases started
        cases owns
        refine before.still rfl rfl rfl rfl (.inl rfl) ?_
        rintro phase stopping ⟨⟩
        exact ⟨by simpa using known, fun begun => absurd rfl begun⟩
      · cases started
        exact sure worker' owns
      · cases started
        exact sure worker' owns
      · cases started
  | configure change configured =>
    rw [List.append_nil]
    unfold Active.configure at configured
    split at configured
    · rename_i worker stands
      have before := sure worker (by rw [worker?, stands])
      obtain ⟨initial, current⟩ := change.apply_place worker.machine
      unfold withMachine at configured
      rw [stands] at configured
      cases configured
      cases owns
      refine before.still rfl initial current rfl (.inl rfl) ?_
      rintro phase stopping ⟨⟩
    · unfold Active.send at configured
      split at configured
      · cases configured
        have before := sure worker' owns
        exact before.still rfl rfl rfl rfl (.inl rfl) before.begun
      · cases configured
    · cases configured
    · cases configured
  | joined stands =>
    rw [List.append_nil]
    exact sure worker' owns
  | buried lost => cases owns
  | reach stands call called =>
    have before := sure _ (by rw [worker?, stands])
    cases owns
    exact before.reach call called _

theorem Acts.sure {m : Machine S E F X L} (acts : (ofMachine m).Acts b host touches a host')
    (owns : a.worker? = some worker) : a.Sure touches worker := by
  induction acts generalizing worker with
  | none => exact sure_ofMachine m owns
  | more before act ih => exact act.sure (fun _ => ih) owns

/-- What a worker does last before it publishes: it makes an entry that was owed, fires an event, or makes a change. -/
def Announces (worker : Worker S E F X L) : Deed E X L → Prop
  | .began _ => worker.pending
  | .fired _ _ | .took (.configure _) => True
  | .put _ | .took (.post _) | .took .stop | .ended => False

theorem Turn.publishes (turned : a.Turn b host deeds a' host') (owned : a.worker? = some worker)
    (announces : ∃ deed ∈ deeds, Announces worker deed) (owns : a'.worker? = some worker') :
    a'.published? = worker'.machine.current? := by
  obtain ⟨deed, member, announces⟩ := announces
  cases turned with
  | deliver sent =>
    rw [List.mem_singleton.mp member] at announces
    exact announces.elim
  | begin quiet stands =>
    rw [worker?, stands] at owned
    cases owned
    rw [List.mem_singleton.mp member] at announces
    obtain ⟨_, begun⟩ := beginRun_eq announces b a _ host
    rw [begun] at owns ⊢
    obtain ⟨rfl, resumed⟩ := resume_owned owns
    rw [resumed]
  | @take _ _ message rest quiet stands looks next =>
    rw [List.mem_singleton.mp member] at announces
    cases message with
    | post post => exact announces.elim
    | configure change =>
      cases owns
      rfl
    | stop => exact announces.elim
  | look quiet stands drained => cases member
  | @fire worker stopping signal queue quiet stands waits =>
    obtain ⟨_, fired⟩ := fireNext_eq b a { worker with queue := queue } stopping signal host
    rw [fired] at owns ⊢
    obtain ⟨rfl, resumed⟩ := resume_owned owns
    rw [resumed]
  | finish quiet stands empty =>
    rw [List.mem_singleton.mp member] at announces
    exact announces.elim

/-- A running worker never refuses an event, whatever its owner has done before: past the beginning of its run its
    machine has entered its initial state. It publishes the truth after the entry, after every event and after every
    change, and what it has published stays true, unless an event is fired on the machine inside while no worker runs.
    An owner that leaves the machine inside alone always knows where it stands. -/
theorem acts_faithful {m : Machine S E F X L} (acts : (ofMachine m).Acts b host touches a host')
    (owns : a.worker? = some worker) :
    (∀ phase stopping, a.runtime = .running worker phase stopping → phase ≠ .starting →
      worker.machine.hasEntered ∧ (∀ signal host, ∃ done, worker.machine.fire b signal host = .ok done) ∧
      ((∀ touch ∈ touches, ¬touch.Shifts) → a.published? = worker.machine.current?)) ∧
    (∀ deeds a' host'' worker', a.Turn b host' deeds a' host'' → (∃ deed ∈ deeds, Announces worker deed) →
      a'.worker? = some worker' → a'.published? = worker'.machine.current?) ∧
    (∀ (r : Run S E F X L W) call, (∀ signal, call ≠ .fire signal) →
      ¬Touch.Shifts ⟨r.machine, (r.call b call).machine⟩) ∧
    (touches = [] → a.published? = worker.machine.current?) := by
  have sure := acts.sure owns
  refine ⟨fun phase stopping runs past => ?_, fun _ _ _ _ turned announces => turned.publishes owns announces, ?_, ?_⟩
  · obtain ⟨known, settled⟩ := sure.begun phase stopping runs
    have settled := settled past
    obtain ⟨ready, entered⟩ := sure.ready known
    have entered : worker.machine.hasEntered := entered.resolve_left (by simp [settled])
    refine ⟨entered, fun signal host => ?_, fun still => (sure.published still known).resolve_right (by simp [settled])⟩
    obtain ⟨done, fired, _⟩ := Machine.fire_entered ready entered b signal host
    exact ⟨done, fired⟩
  · rintro r call other ⟨ready, entered, moved⟩
    exact moved (Run.call_current ready entered other)
  · rintro rfl
    exact (acts.inTouch owns).published fun _ member => absurd member List.not_mem_nil

def waitingLamp : Option (Active Lamp Switch Unit Empty Empty × Host Lamp Switch Unit Empty Empty Unit) := do
  let (a, host) ← ((ofMachine builtLamp).initializeAt Lamp.quiet .supply (.ofWorld ())).toOption
  let (a, host) ← (a.start host).toOption
  let a ← (a.send (.post ⟨⟨.toggle, []⟩, false⟩)).toOption
  settle? Lamp.quiet 20 a host

def works : Runtime S E F X L → Bool
  | .running _ .working _ => true
  | _ => false

theorem acts_faithful_lamp : ∃ a host worker, waitingLamp = some (a, host) ∧ a.worker? = some worker ∧
    a.published? = some .dim ∧ worker.machine.current? = some .dim ∧
    ∃ done, worker.machine.fire Lamp.quiet ⟨.turn, []⟩ host = .ok done := by
  have visited : waitingLamp.any (fun visit => works visit.1.runtime ∧ visit.1.published? = some .dim) = true := by
    decide +kernel
  obtain ⟨⟨a, host⟩, visit, found⟩ := (Option.any_eq_true _ _).mp visited
  obtain ⟨working, published⟩ := of_decide_eq_true found
  obtain ⟨worker, stopping, runs⟩ : ∃ worker stopping, a.runtime = .running worker .working stopping := by
    unfold works at working
    split at working
    · rename_i runs
      exact ⟨_, _, runs⟩
    · cases working
  have owns : a.worker? = some worker := by rw [worker?, runs]
  have acts : (ofMachine builtLamp).Acts Lamp.quiet (.ofWorld ()) [] a host := by
    simp only [waitingLamp, Option.bind_eq_bind, Option.bind_eq_some_iff, Prod.exists, toOption_eq_some_iff] at visit
    obtain ⟨_, _, initialized, _, _, started, _, sent, settled⟩ := visit
    have ready := Acts.none.more (Act.initializeAt Lamp.supply initialized)
    exact ((ready.more (Act.start started)).more (Act.send _ sent)).trans (acts_of_settle? settled)
  obtain ⟨running, _, _, known⟩ := acts_faithful acts owns
  obtain ⟨_, fires, _⟩ := running .working stopping runs (by simp)
  exact ⟨a, host, worker, visit, owns, published, (known rfl).symm.trans published, fires ⟨.turn, []⟩ host⟩

end Active

end Statechart
