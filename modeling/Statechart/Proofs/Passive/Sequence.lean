import Statechart.Proofs.Active.Delivery
import Statechart.Proofs.Passive.Safety

namespace Statechart

variable {S E F X L W : Type} [DecidableEq X]

def Moment.affair? : Moment E X L → Option (Affair E)
  | accepted (.post post) _ => some (.posted post)
  | fired signal _ _ => some (.fired signal)
  | _ => none

/-- A ledger has everything that happened to events. It knows every post by the number of posts before it, and of
    every signal that was fired which post it was. -/
structure Ledger.Tells (l : Ledger E X L) (log : List (Affair E)) (line : List (Signal E)) : Prop where
  sound : l.Sound
  history : l.history.filterMap Moment.affair? = log
  sent : l.sent = (posts log).map .post
  waiting : l.waiting.map (fun entry => entry.1.signal) = line
  current : l.taken = l.sent.length
  heard : l.history.heard = ⟨[], []⟩

section Tells

variable {l : Ledger E X L} {log log' : List (Affair E)} {line line' : List (Signal E)} {post : Post E}
  {signal : Signal E}

theorem Ledger.tells_blank : (Ledger.blank : Ledger E X L).Tells [] [] where
  sound := sound_blank
  history := rfl
  sent := rfl
  waiting := rfl
  current := rfl
  heard := rfl

theorem Ledger.Tells.posted (tells : l.Tells log line) (post : Post E) :
    ((l.record (.put (.post post))).record (.took (.post post))).Tells (log ++ [.posted post])
      (Statechart.queueUp line post) := by
  have sound : ((l.record (.put (.post post))).record (.took (.post post))).Sound := by
    refine (tells.sound.put _).took ?_
    change (l.sent ++ [.post post])[l.taken]? = _
    rw [tells.current, List.getElem?_concat_length]
  refine ⟨sound, ?_, ?_, ?_, ?_, (History.heard_accepted _ _ _).trans tells.heard⟩
  · change List.filterMap _ (l.history ++ [.accepted (.post post) l.taken]) = _
    rw [List.filterMap_append, tells.history]
    rfl
  · change l.sent ++ [.post post] = _
    rw [tells.sent, posts, posts, List.filterMap_append, List.map_append]
    rfl
  · rw [← tells.waiting]
    simp only [Ledger.record, Ledger.queueUp, Statechart.queueUp]
    split <;> simp
  · refine (Ledger.taken_snoc _ _ _ _).trans ?_
    change l.taken + 1 = (l.sent ++ [Message.post post]).length
    rw [tells.current, List.length_append]
    rfl

theorem Ledger.Tells.fired (tells : l.Tells log (signal :: line)) :
    (l.record (.fired signal ⟨[], []⟩)).Tells (log ++ [.fired signal]) line := by
  have waiting := tells.waiting
  cases waits : l.waiting with
  | nil =>
    rw [waits] at waiting
    cases waiting
  | cons entry rest =>
    obtain ⟨post, number⟩ := entry
    rw [waits] at waiting
    obtain ⟨rfl, rfl⟩ := List.cons.inj waiting
    have sound := tells.sound.fired waits tells.heard.symm
    have after : l.record (.fired post.signal ⟨[], []⟩) =
        { l with waiting := rest, history := l.history ++ [.fired post.signal number ⟨[], []⟩] } := by
      rw [Ledger.record, waits]
    rw [after] at sound ⊢
    refine ⟨sound, ?_, ?_, rfl, ?_, ?_⟩
    · rw [List.filterMap_append, tells.history]
      rfl
    · rw [posts, List.filterMap_append, List.map_append, ← posts, ← tells.sent]
      exact (List.append_nil _).symm
    · exact (Ledger.taken_snoc _ _ _ _).trans tells.current
    · exact (History.heard_fired _ _ _ _).trans tells.heard

theorem Orderly.tells (orderly : Orderly line log' line') (tells : l.Tells log line) :
    ∃ l' : Ledger E X L, l'.Tells (log ++ log') line' := by
  induction orderly generalizing l log with
  | none line =>
    rw [List.append_nil]
    exact ⟨l, tells⟩
  | posted _ ih =>
    rw [List.append_cons]
    exact ih (tells.posted _)
  | fired _ ih =>
    rw [List.append_cons]
    exact ih tells.fired

end Tells

namespace Passive

variable [DecidableEq S] [DecidableEq E]

inductive Proceeds (b : Behaviour S E F X W) (p : Passive S E F X L) (host : Host S E F X L W) :
    List (Errand S E F X L) → List (Affair E) → Passive S E F X L → Host S E F X L W → Prop where
  | none : Proceeds b p host [] [] p host
  | ask {errands : List (Errand S E F X L)} {log log' : List (Affair E)} {p' : Passive S E F X L}
      {host' : Host S E F X L W} {request : Request S E} {answer : Answer S E F X L W}
      (before : Proceeds b p host errands log p' host') (handles : p'.Handles b host' request log' answer) :
      Proceeds b p host (errands ++ [.ask request]) (log ++ log') answer.passive answer.host
  | call {errands : List (Errand S E F X L)} {log : List (Affair E)} {p' : Passive S E F X L}
      {host' : Host S E F X L W} {call : Call S E F X L} (before : Proceeds b p host errands log p' host') :
      Proceeds b p host (errands ++ [.call call])
        (log ++ (Run.call b ⟨p'.machine, host', []⟩ call).host.outbox.map .posted)
        (p'.reach b host' call).1 (p'.reach b host' call).2

theorem backlog_reach (b : Behaviour S E F X W) (p : Passive S E F X L) (host : Host S E F X L W)
    (call : Call S E F X L) : (p.reach b host call).1.backlog =
      (Run.call b ⟨p.machine, host, []⟩ call).host.outbox.foldl queueUp p.backlog :=
  List.foldl_append

/-- A direct submission waits for its turn when nothing in the inbox has the same priority. -/
def InTurn (b : Behaviour S E F X W) (rounds : Nat) (p : Passive S E F X L) (host : Host S E F X L W)
    (errands : List (Errand S E F X L)) : Prop :=
  ∀ before post after q h, errands = before ++ .ask (.submit post) :: after →
    p.attendAll b rounds host before = some (q, h) → ∀ other ∈ q.inbox, other.priority ≠ post.priority

variable {b : Behaviour S E F X W} {rounds : Nat} {p p' : Passive S E F X L} {host host' : Host S E F X L W}
  {errand : Errand S E F X L} {errands : List (Errand S E F X L)}

theorem InTurn.init (inTurn : p.InTurn b rounds host (errands ++ [errand])) : p.InTurn b rounds host errands := by
  intro before post after q h split
  exact inTurn before post (after ++ [errand]) q h (by rw [split, List.append_assoc, List.cons_append])

theorem orderly_of_attendAll (inUse : p.InUse) (inStep : p.InStep)
    (pass : ∀ errand ∈ errands, errand.bypasses = false) (inTurn : p.InTurn b rounds host errands)
    (attended : p.attendAll b rounds host errands = some (p', host')) :
    ∃ log, p.Proceeds b host errands log p' host' ∧ Orderly p.backlog log p'.backlog := by
  induction errands using List.reverseRec generalizing p' host' with
  | nil =>
    cases attended
    exact ⟨[], .none, .none _⟩
  | append_singleton errands errand ih =>
    obtain ⟨q, h, before, last⟩ := attendAll_snoc attended
    have pass' : ∀ errand ∈ errands, errand.bypasses = false :=
      fun other member => pass other (List.mem_append_left _ member)
    obtain ⟨log, proceeds, orderly⟩ := ih pass' inTurn.init before
    cases errand with
    | ask request =>
      obtain ⟨answer, requested, same⟩ := Option.map_eq_some_iff.mp last
      cases same
      obtain ⟨log', handles⟩ := handles_of_request requested
      have further := handles.orderly (inUse.attendAll before) (inStep.attendAll inUse pass' before)
        fun post submits => inTurn errands post [] q h (by rw [submits]) before
      exact ⟨_, .ask proceeds handles, orderly.trans further⟩
    | call call =>
      obtain rfl : (q.reach b h call).1 = p' := congrArg Prod.fst (Option.some.inj last)
      obtain rfl : (q.reach b h call).2 = host' := congrArg Prod.snd (Option.some.inj last)
      refine ⟨_, .call proceeds, orderly.trans ?_⟩
      -- the call itself fires nothing from the line; what code sent meanwhile comes behind the inbox
      rw [backlog_reach]
      exact orderly_posted _ _

/-- Events are fired in the order in which they were submitted or sent, those with priority before all that waited,
    unless one is submitted directly while another with the same priority is still in the inbox. -/
theorem attendAll_inOrder (config : Config) (host₀ : Host S E F X L W) (b : Behaviour S E F X W)
    (calls : List (Call S E F X L)) {errands : List (Errand S E F X L)} {rounds : Nat} {host host' : Host S E F X L W}
    {p : Passive S E F X L} (pass : ∀ errand ∈ errands, errand.bypasses = false)
    (inTurn : (ofMachine ((Run.start config host₀).callAll b calls).machine).InTurn b rounds host errands)
    (attended : (ofMachine ((Run.start config host₀).callAll b calls).machine).attendAll b rounds host errands =
      some (p, host')) :
    ∃ log, ∃ l : Ledger E X L, (ofMachine ((Run.start config host₀).callAll b calls).machine).Proceeds b host errands
      log p host' ∧ l.Tells log p.backlog := by
  have built := Run.callAll_wellFormed b (r := Run.start config host₀) (Machine.wellFormed_ofConfig config) calls
  obtain ⟨log, proceeds, orderly⟩ := orderly_of_attendAll (inUse_ofMachine built) (inStep_ofMachine _) pass inTurn attended
  obtain ⟨l, tells⟩ := orderly.tells (Ledger.tells_blank (X := X) (L := L))
  exact ⟨log, l, proceeds, tells⟩

def presses : List (Errand Lamp Switch Unit Empty Empty) :=
  [.ask (.send ⟨⟨.toggle, []⟩, false⟩), .ask (.submit ⟨⟨.turn, []⟩, true⟩), .ask .start,
    .ask (.submit ⟨⟨.turn, []⟩, false⟩)]

theorem attendAll_inOrder_lamp : ∃ p host log, ∃ l : Ledger Switch Empty Empty,
    (ofMachine Active.lampMachine).attendAll Lamp.quiet 9 (.ofWorld ()) presses = some (p, host) ∧
    p.machine.current? = some .bright ∧
    (ofMachine Active.lampMachine).Proceeds Lamp.quiet (.ofWorld ()) presses log p host ∧ l.Tells log p.backlog := by
  have attended : ((ofMachine Active.lampMachine).attendAll Lamp.quiet 9 (.ofWorld ()) presses).any
      (fun result => result.1.machine.current? = some .bright) = true := by decide +kernel
  obtain ⟨⟨p, host⟩, ends, bright⟩ := (Option.any_eq_true _ _).mp attended
  have inTurn : (ofMachine Active.lampMachine).InTurn Lamp.quiet 9 (.ofWorld ()) presses := by
    have sent : ((ofMachine Active.lampMachine).attendAll Lamp.quiet 9 (.ofWorld ()) (presses.take 1)).all
        (fun result => result.1.inbox = [⟨⟨.toggle, []⟩, false⟩]) = true := by decide +kernel
    have drained : ((ofMachine Active.lampMachine).attendAll Lamp.quiet 9 (.ofWorld ()) (presses.take 3)).all
        (fun result => result.1.inbox = []) = true := by decide +kernel
    intro before post after q h split attended other member
    rcases before with _ | ⟨first, _ | ⟨second, _ | ⟨third, _ | ⟨fourth, rest⟩⟩⟩⟩
    · cases split
    · cases split
      rw [presses, List.take, List.take, attended] at sent
      rw [of_decide_eq_true sent, List.mem_singleton] at member
      rw [member]
      decide
    · cases split
    · cases split
      rw [presses, List.take, List.take, List.take, List.take, attended] at drained
      rw [of_decide_eq_true drained] at member
      cases member
    · cases rest <;> cases split
  obtain ⟨log, l, proceeds, tells⟩ := attendAll_inOrder .standard (.ofWorld ()) Lamp.quiet Lamp.definition
    (by simp [presses, Errand.bypasses]) inTurn ends
  exact ⟨p, host, log, l, ends, of_decide_eq_true bright, proceeds, tells⟩

/-- Toggled through its sender and turned directly, the lamp is turned before it is toggled. -/
theorem attendAll_overtakes_lamp :
    ((ofMachine Active.lampMachine).attendAll Lamp.quiet 9 (.ofWorld ()) [.ask (.send ⟨⟨.toggle, []⟩, false⟩),
        .ask (.submit ⟨⟨.turn, []⟩, false⟩), .ask .start]).any
      (fun result => result.1.machine.current? = some .dim) = true ∧
    ((ofMachine Active.lampMachine).attendAll Lamp.quiet 9 (.ofWorld ()) [.ask (.send ⟨⟨.toggle, []⟩, false⟩),
        .ask (.send ⟨⟨.turn, []⟩, false⟩), .ask .start]).any
      (fun result => result.1.machine.current? = some .bright) = true := by
  constructor
  · decide +kernel
  · decide +kernel

end Passive

end Statechart
