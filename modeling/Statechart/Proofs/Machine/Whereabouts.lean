import Statechart.Proofs.Machine.Selection
import Statechart.Proofs.Machine.Unfolding

namespace Statechart

variable {S E F X L W : Type}

/-- The parts of an operation that follow one another: code is run, extensions are told where the machine stands now,
    and the operation is reported as done. -/
inductive Stage where
  | code | switch | closing
deriving DecidableEq

def Hook.stage? : Hook S E → Option Stage
  | .switchedState .. => some .switch
  | .enteredInitialState .. | .fired _ => some .closing
  | _ => none

def LogLine.stage? : LogLine S E → Option Stage
  | .extensionCalled _ call => call.stage?
  | .enteredInitialState .. | .firedEvent .. => some .closing
  | _ => none

def Notice.stage? : Notice S E → Option Stage
  | .transitionCompleted .. => some .closing
  | _ => none

def JournalEntry.stage? : JournalEntry S E F X L → Option Stage
  | .guard .. | .action .. => some .code
  | .hook _ _ call => call.stage?
  | .notice _ published => published.stage?
  | .log line => line.stage?

structure Switched (S X : Type) where
  audience : List (Extension X)
  old? : Option S
  new : S

def Switched.notes (machine : String) (switched : Switched S X) : List (JournalEntry S E F X L) :=
  switched.audience.map (Extension.note ⟨machine, some switched.new⟩ (.switchedState switched.old? switched.new))

inductive Chain : Option S → List (Switched S X) → Option S → Prop where
  | nil (stood? : Option S) : Chain stood? [] stood?
  | cons {audience : List (Extension X)} {old? last? : Option S} {new : S} {switches : List (Switched S X)}
      (differs : old? ≠ some new) (rest : Chain (some new) switches last?) :
      Chain old? (⟨audience, old?, new⟩ :: switches) last?

theorem Chain.append {first? middle? last? : Option S} {switches more : List (Switched S X)}
    (first : Chain first? switches middle?) (second : Chain middle? more last?) :
    Chain first? (switches ++ more) last? := by
  induction first with
  | nil stood? => exact second
  | cons differs _ ih => exact .cons differs (ih second)

def JournalEntry.isSwitch (entry : JournalEntry S E F X L) : Bool := entry.stage? = some .switch

namespace Host

def switches (host : Host S E F X L W) : List (JournalEntry S E F X L) := host.journal.filter JournalEntry.isSwitch

/-- An operation in its order: code is run before extensions are told of a change of state, and only after that the
    operation is reported as done. -/
def InStages (start host : Host S E F X L W) (switched : List (JournalEntry S E F X L)) : Prop :=
  ∃ before after, host.journal = start.journal ++ before ++ switched ++ after ∧
    (∀ entry ∈ before, entry.stage? = none ∨ entry.stage? = some .code) ∧
    ∀ entry ∈ after, entry.stage? = some .closing

theorem InStages.still {start host : Host S E F X L W} {entries : List (JournalEntry S E F X L)}
    (journal : host.journal = start.journal ++ entries)
    (first : ∀ entry ∈ entries, entry.stage? = none ∨ entry.stage? = some .code) : start.InStages host [] :=
  ⟨entries, [], by simpa using journal, first, by simp⟩

theorem InStages.switches {start host : Host S E F X L W} {switched : List (JournalEntry S E F X L)}
    (inStages : start.InStages host switched) (told : ∀ entry ∈ switched, entry.isSwitch) :
    host.switches = start.switches ++ switched := by
  obtain ⟨before, after, journal, first, last⟩ := inStages
  have earlier : before.filter JournalEntry.isSwitch = [] := by
    rw [List.filter_eq_nil_iff]
    intro entry member
    rcases first entry member with stage | stage <;> simp [JournalEntry.isSwitch, stage]
  have later : after.filter JournalEntry.isSwitch = [] := by
    rw [List.filter_eq_nil_iff]
    intro entry member
    simp [JournalEntry.isSwitch, last entry member]
  unfold Host.switches
  rw [journal, List.filter_append, List.filter_append, List.filter_append, earlier, later,
    List.filter_eq_self.mpr told, List.append_nil, List.append_nil]

end Host

section Stages

variable {info : Info S} {hook : Hook S E} {notice : Notice S E} {entry : JournalEntry S E F X L}

theorem stage?_note (info : Info S) (hook : Hook S E) (extension : Extension X) :
    (extension.note (F := F) (L := L) info hook).stage? = hook.stage? := by
  cases extension <;> rfl

theorem stage?_notes {extensions : List (Extension X)} (member : entry ∈ extensions.map (Extension.note info hook)) :
    entry.stage? = hook.stage? := by
  obtain ⟨extension, _, rfl⟩ := List.mem_map.mp member
  exact stage?_note info hook extension

theorem stage?_inquiry {α : Type} {question : α → Hook S E} {answer : X → α → Option α}
    (unstaged : ∀ value, (question value).stage? = none) {extensions : List (Extension X)} {value : α}
    (member : entry ∈ inquiry info question answer extensions value) : entry.stage? = none := by
  induction extensions generalizing value with
  | nil => cases member
  | cons extension rest ih =>
    rcases List.mem_cons.mp member with rfl | later
    · rw [stage?_note, unstaged]
    · exact ih later

theorem stage?_notices {subscribers : List (Subscriber L)}
    (member : entry ∈ subscribers.filterMap (Subscriber.note? notice)) : entry.stage? = notice.stage? := by
  obtain ⟨subscriber, _, noted⟩ := List.mem_filterMap.mp member
  cases subscriber with
  | collector => cases noted
  | custom subscriber =>
    cases noted
    rfl

theorem Notice.stage?_ofException (context : Context S E) (exception : Exception) :
    (Notice.ofException context exception).stage? = none := by
  unfold Notice.ofException
  split <;> rfl

theorem Incident.stage?_aftermath {b : Behaviour S E F X W} {m : Machine S E F X L} {incident : Incident S E}
    (member : entry ∈ incident.aftermath b m) : entry.stage? = none := by
  unfold Incident.aftermath at member
  rcases List.mem_append.mp member with asked | told
  · exact stage?_inquiry (fun _ => rfl) asked
  · rcases List.mem_cons.mp told with rfl | told
    · rfl
    · rcases List.mem_append.mp told with published | handled
      · exact (stage?_notices published).trans (Notice.stage?_ofException _ _)
      · exact stage?_notes handled

theorem Episode.stage?_entries {b : Behaviour S E F X W} {m : Machine S E F X L} {episode : Episode S E F X L}
    (code : episode.call.stage? = some .code) (member : entry ∈ episode.entries b m) :
    entry.stage? = none ∨ entry.stage? = some .code := by
  unfold Episode.entries at member
  rcases List.mem_cons.mp member with rfl | follows
  · exact .inr code
  · cases failed : episode.incident? with
    | none =>
      rw [failed] at follows
      cases follows
    | some incident =>
      rw [failed] at follows
      exact .inl (Incident.stage?_aftermath follows)

theorem Unfolds.stages {b : Behaviour S E F X W} {m : Machine S E F X L} {context last : Context S E}
    {cues : List (Cue S E F)} {episodes : List (Episode S E F X L)} (unfolds : Unfolds b m context cues episodes last) :
    ∀ entry ∈ episodes.flatMap (Episode.entries b m), entry.stage? = none ∨ entry.stage? = some .code := by
  induction unfolds with
  | nil context => simp
  | note _ ih => exact ih
  | @run _ _ fault callable arguments call _ _ runs _ ih =>
    rw [List.flatMap_cons, List.forall_mem_append]
    refine ⟨fun entry member => Episode.stage?_entries ?_ member, ih⟩
    unfold JournalEntry.Runs at runs
    split at runs
    · rfl
    · rfl
    · cases runs

end Stages

def Machine.switched [DecidableEq S] (m : Machine S E F X L) (reached : S) : List (Switched S X) :=
  if m.current? = some reached then [] else [⟨m.extensions, m.current?, reached⟩]

section Operations

variable [DecidableEq S] {b : Behaviour S E F X W} {m : Machine S E F X L} {current reached initial leaf : S}
  {signal asked : Signal E} {host : Host S E F X L W} {done : Completed S E F X L W}

namespace Machine

theorem switch_eq (m : Machine S E F X L) (reached : S) :
    m.switch reached = (m.switched reached).flatMap (Switched.notes m.name) := by
  unfold switch switched
  split
  · rfl
  · exact (List.flatMap_singleton _ _).symm

theorem chain_switched (m : Machine S E F X L) (reached : S) :
    Chain m.current? (m.switched reached) (some reached) := by
  unfold switched
  split
  · rename_i stood
    rw [stood]
    exact .nil _
  · rename_i differs
    exact .cons differs (.nil _)

theorem isSwitch_switch {entry : JournalEntry S E F X L} (member : entry ∈ m.switch reached) : entry.isSwitch := by
  unfold switch at member
  split at member
  · cases member
  · rw [JournalEntry.isSwitch, stage?_notes member]
    rfl

omit [DecidableEq S] in
theorem stage?_question {entry : JournalEntry S E F X L} (member : entry ∈ m.question b signal) :
    entry.stage? = none := stage?_inquiry (fun _ => rfl) member

omit [DecidableEq S] in
theorem stage?_refusal : ∀ entry ∈ m.refusal current asked, entry.stage? = none := by
  unfold refusal
  rw [List.forall_mem_cons]
  exact ⟨rfl, fun _ member => stage?_notices member⟩

omit [DecidableEq S] in
theorem stage?_closing {context : Context S E} :
    ∀ entry ∈ m.closing current asked reached context, entry.stage? = some .closing := by
  unfold closing
  rw [List.forall_mem_cons, List.forall_mem_append]
  exact ⟨rfl, fun _ member => stage?_notes member, fun _ member => stage?_notices member⟩

omit [DecidableEq S] in
theorem stage?_arrival {context : Context S E} :
    ∀ entry ∈ m.arrival leaf context, entry.stage? = some .closing := by
  unfold arrival
  rw [List.forall_mem_cons]
  exact ⟨rfl, fun _ member => stage?_notes member⟩

theorem fire_inStages [DecidableEq E] (tree : m.forest.WellFormed) (fired : m.fire b signal host = .ok done) :
    ∃ reached, done.machine.current? = some reached ∧ host.InStages done.host (m.switch reached) := by
  obtain ⟨_, entered, _⟩ := fire_resembles fired
  obtain ⟨current, standing⟩ := Option.isSome_iff_exists.mp entered
  obtain ⟨episodes, fires⟩ := fire_unfolds tree standing fired
  cases fires with
  | declined tried still written =>
    refine ⟨current, by rw [still, standing], ?_⟩
    rw [switch, if_pos standing]
    apply Host.InStages.still written.journal
    rw [List.forall_mem_append, List.forall_mem_append]
    exact ⟨⟨fun _ member => .inl (stage?_question member), tried.stages⟩,
      fun _ member => .inl (stage?_refusal _ member)⟩
  | @completed _ _ _ _ reached _ _ offered tried carried stands stays written =>
    have journal := written.journal
    rw [List.append_assoc _ (m.switch reached), ← List.append_assoc, ← List.append_assoc] at journal
    refine ⟨reached, stands, _, _, journal, ?_, stage?_closing⟩
    rw [List.forall_mem_append, List.forall_mem_append, List.forall_mem_append]
    exact ⟨⟨⟨fun _ member => .inl (stage?_question member), tried.stages⟩,
      fun _ member => .inl (stage?_notices member)⟩, carried.stages⟩

theorem enterInitialState_inStages (entered : m.enterInitialState b host = .ok done) :
    ∃ leaf, done.machine.current? = some leaf ∧ host.InStages done.host (m.switch leaf) := by
  obtain ⟨initial, leaf, episodes, _, _, enters⟩ := enterInitialState_unfolds entered
  have journal := enters.written.journal
  rw [List.append_assoc _ (m.switch leaf), ← List.append_assoc, ← List.append_assoc] at journal
  refine ⟨leaf, enters.stands, _, _, journal, ?_, stage?_arrival⟩
  rw [List.forall_mem_append]
  exact ⟨fun _ member => .inl (stage?_notes member), enters.unfolds.stages⟩

theorem WellFormed.fire_stages [DecidableEq E] (wf : m.WellFormed) (fired : m.fire b signal host = .ok done) :
    ∃ current reached, m.current? = some current ∧ done.machine.current? = some reached ∧
      host.InStages done.host (m.switch reached) ∧ (reached = current → done.host.switches = host.switches) ∧
      ((∀ transition ∈ (m.choose b current signal host).1, transition.target? = none) → reached = current) := by
  obtain ⟨_, entered, _⟩ := fire_resembles fired
  obtain ⟨current, standing⟩ := Option.isSome_iff_exists.mp entered
  obtain ⟨reached, stands, inStages⟩ := fire_inStages wf.tree fired
  refine ⟨current, reached, standing, stands, inStages, ?_, ?_⟩
  · rintro rfl
    rw [inStages.switches fun _ => isSwitch_switch, switch, if_pos standing, List.append_nil]
  · intro internal
    have same : done.machine = m := by
      cases chosen : (m.choose b current signal host).1 with
      | none => exact (declined_of_choice standing chosen fired).machine
      | some transition =>
        exact ((executed_of_choice wf standing chosen fired).internal (internal transition chosen)).1
    rw [same, standing] at stands
    exact (Option.some.inj stands).symm

end Machine

end Operations

section Calls

variable [DecidableEq X] (extension : X)

def JournalEntry.switchOf? : JournalEntry S E F X L → Option (Option S × S)
  | .hook extension' _ (.switchedState old? new) => if extension' = extension then some (old?, new) else none
  | _ => none

/-- The changes of state that an extension was told of, as often as it was told. -/
def Host.switchesOf (host : Host S E F X L W) : List (Option S × S) := host.seen (JournalEntry.switchOf? extension)

theorem Host.switchesOf_eq (host : Host S E F X L W) :
    host.switchesOf extension = host.switches.filterMap (JournalEntry.switchOf? extension) := by
  unfold Host.switchesOf seen Host.switches
  rw [List.filterMap_filter]
  congr 1
  funext entry
  split
  · rfl
  · rename_i other
    unfold JournalEntry.switchOf?
    split
    · exact absurd rfl other
    · rfl

theorem Switched.switchOf?_notes (machine : String) (switched : Switched S X) :
    (switched.notes (E := E) (F := F) (L := L) machine).filterMap (JournalEntry.switchOf? extension) =
      List.replicate (switched.audience.count (.custom extension)) (switched.old?, switched.new) := by
  unfold Switched.notes
  induction switched.audience with
  | nil => rfl
  | cons first rest ih =>
    rw [List.map_cons, List.filterMap_cons, ih]
    cases first with
    | logger key? => simp [Extension.note, JournalEntry.switchOf?]
    | custom other =>
      by_cases same : other = extension
      · simp [Extension.note, JournalEntry.switchOf?, same, List.replicate_succ]
      · simp [Extension.note, JournalEntry.switchOf?, same]

end Calls

/-- What becomes of a machine that an extension watches. The extension is told of each change of state and of nothing
    else, and the changes lead from where the machine stood to where it stands. -/
structure Machine.Wanders (watcher : Extension X) (m : Machine S E F X L) (host : Host S E F X L W)
    (m' : Machine S E F X L) (host' : Host S E F X L W) : Prop where
  watched : watcher ∈ m'.extensions
  name : m'.name = m.name
  ready : m.isInitialized → m'.isInitialized
  told : ∃ switches : List (Switched S X), Chain m.current? switches m'.current? ∧
    host'.switches = host.switches ++ switches.flatMap (Switched.notes m.name) ∧
    ∀ switched ∈ switches, watcher ∈ switched.audience

namespace Machine

variable {watcher : Extension X} {b : Behaviour S E F X W} {m m' m'' : Machine S E F X L}
  {host host' host'' : Host S E F X L W} {signal : Signal E} {s : S} {done : Completed S E F X L W}

theorem Wanders.still (watched : watcher ∈ m'.extensions) (name : m'.name = m.name)
    (ready : m.isInitialized → m'.isInitialized) (stays : m'.current? = m.current?)
    (silent : host'.switches = host.switches) : Wanders watcher m host m' host' :=
  ⟨watched, name, ready, [], stays ▸ .nil _, by simpa using silent, by simp⟩

theorem Wanders.rest (watched : watcher ∈ m.extensions) (silent : host'.switches = host.switches) :
    Wanders watcher m host m host' := .still watched rfl id rfl silent

theorem Wanders.trans (first : Wanders watcher m host m' host') (second : Wanders watcher m' host' m'' host'') :
    Wanders watcher m host m'' host'' := by
  obtain ⟨switches, chain, told, audience⟩ := first.told
  obtain ⟨more, chain', told', audience'⟩ := second.told
  refine ⟨second.watched, second.name.trans first.name, second.ready ∘ first.ready, switches ++ more,
    chain.append chain', ?_, ?_⟩
  · rw [told', told, first.name, List.flatMap_append, List.append_assoc]
  · rw [List.forall_mem_append]
    exact ⟨audience, audience'⟩

theorem Wanders.tells [DecidableEq X] (wanders : Wanders watcher m host m' host') :
    ∃ switches : List (Switched S X), Chain m.current? switches m'.current? ∧
      host'.switches = host.switches ++ switches.flatMap (Switched.notes m.name) ∧
      (∀ switched ∈ switches, watcher ∈ switched.audience) ∧
      ∀ extension, host'.switchesOf extension = host.switchesOf extension ++ switches.flatMap fun switched =>
        List.replicate (switched.audience.count (.custom extension)) (switched.old?, switched.new) := by
  obtain ⟨switches, chain, told, audience⟩ := wanders.told
  refine ⟨switches, chain, told, audience, fun extension => ?_⟩
  rw [Host.switchesOf_eq, told, List.filterMap_append, ← Host.switchesOf_eq, List.filterMap_flatMap]
  simp only [Switched.switchOf?_notes]

variable [DecidableEq S]

theorem Wanders.operation (watched : watcher ∈ m.extensions) (alike : m.Resembles m') {reached : S}
    (stands : m'.current? = some reached) (inStages : host.InStages host' (m.switch reached)) :
    Wanders watcher m host m' host' := by
  have told := inStages.switches fun _ => isSwitch_switch
  have ready := alike.isInitialized
  obtain ⟨memory, current?, rfl⟩ := alike
  refine ⟨watched, rfl, fun initialized => ready.trans initialized, m.switched reached,
    stands ▸ m.chain_switched reached, ?_, ?_⟩
  · rw [told, switch_eq]
  · intro switched member
    unfold Machine.switched at member
    split at member
    · cases member
    · rw [List.mem_singleton.mp member]
      exact watched

theorem enterInitialState_wanders (watched : watcher ∈ m.extensions)
    (entered : m.enterInitialState b host = .ok done) : Wanders watcher m host done.machine done.host := by
  obtain ⟨leaf, stands, inStages⟩ := enterInitialState_inStages entered
  exact .operation watched (enterInitialState_resembles entered).1 stands inStages

theorem fire_wanders [DecidableEq E] (wf : m.WellFormed) (watched : watcher ∈ m.extensions)
    (fired : m.fire b signal host = .ok done) : Wanders watcher m host done.machine done.host := by
  obtain ⟨reached, stands, inStages⟩ := fire_inStages wf.tree fired
  exact .operation watched (fire_resembles fired).2.2.1 stands inStages

omit [DecidableEq S] in
theorem switches_writeAll {entries : List (JournalEntry S E F X L)}
    (unstaged : ∀ entry ∈ entries, entry.stage? = none) : (host.writeAll entries).switches = host.switches := by
  have nothing : entries.filter JournalEntry.isSwitch = [] := by
    rw [List.filter_eq_nil_iff]
    intro entry member
    simp [JournalEntry.isSwitch, unstaged entry member]
  unfold Host.switches Host.writeAll
  rw [List.filter_append, nothing, List.append_nil]

omit [DecidableEq S] in
theorem switches_announce {hook : Hook S E} (unstaged : hook.stage? = none) (m : Machine S E F X L)
    (host : Host S E F X L W) : (m.announce hook host).switches = host.switches := by
  unfold announce
  rw [Host.announce_eq]
  exact switches_writeAll fun _ member => (stage?_notes member).trans unstaged

theorem initializeAt_wanders (watched : watcher ∈ m.extensions)
    (initialized : m.initializeAt b s host = .ok (m', host')) : Wanders watcher m host m' host' := by
  have stays := initializeAt_current initialized
  have ready := (initializeAt_ok initialized).2.1
  unfold initializeAt at initialized
  split at initialized
  · cases initialized
  · cases initialized
    refine .still watched rfl (fun _ => ready) stays ?_
    rw [switches_announce rfl, Host.consult_eq]
    exact (switches_writeAll (by simp [JournalEntry.stage?, LogLine.stage?])).trans
      (switches_writeAll fun _ member => stage?_inquiry (fun _ => rfl) member)

end Machine

def Change.Spares (watcher : Extension X) : Change X L → Prop
  | .removeExtension extension => extension ≠ watcher
  | .clearExtensions => False
  | _ => True

theorem Change.spares_of_registered [DecidableEq X] {watcher : Extension X} {change : Change X L} {m : Machine S E F X L}
    (registered : watcher ∈ (change.apply m).extensions) : change.Spares watcher := by
  cases change with
  | removeExtension extension =>
    have kept := (List.mem_filter.mp registered).2
    exact fun same => by simp [same] at kept
  | clearExtensions => cases registered
  | addExtension | subscribe | keep => trivial

namespace Run

variable [DecidableEq S] [DecidableEq E] [DecidableEq X] {watcher : Extension X} {r : Run S E F X L W}

theorem call_load_nowhere {b : Behaviour S E F X W} (wf : r.machine.WellFormed)
    (unready : r.machine.isInitialized = false) {c : Checkpoint S} (saved : c.current? = none) :
    (r.call b (.load c)).machine.current? = none := by
  have stood := wf.nowhere unready
  rw [Run.call.eq_def]
  simp only
  split
  · rename_i loaded
    rcases (Machine.load_ok loaded).2 with ⟨rfl, _⟩ | ⟨initial, _, rfl, _⟩
    · exact stood
    · exact saved
  · exact stood

/-- A checkpoint that is loaded puts the machine somewhere else without a word, so that a machine that is still to be
    initialized may load only one that was saved before the initial entry. -/
theorem call_wanders (b : Behaviour S E F X W) (wf : r.machine.WellFormed) (watched : watcher ∈ r.machine.extensions)
    (call : Call S E F X L) (spares : ∀ change, call = .configure change → change.Spares watcher)
    (loads : r.machine.isInitialized = false → ∀ c, call = .load c → (r.call b call).machine.current? = none) :
    r.machine.Wanders watcher r.host (r.call b call).machine (r.call b call).host := by
  have still : r.machine.Wanders watcher r.host r.machine r.host := .rest watched rfl
  cases call with
  | define superState initial history subs =>
    rw [Run.call.eq_def]
    simp only [Machine.define]
    cases r.machine.forest.define? superState initial history subs with
    | ok forest => exact .still watched rfl id rfl rfl
    | error errors => exact still
  | addTransition source event draft => exact .still watched rfl id rfl rfl
  | addEntryAction s action => exact .still watched rfl id rfl rfl
  | addExitAction s action => exact .still watched rfl id rfl rfl
  | configure change =>
    have spared := spares change rfl
    cases change with
    | addExtension extension => exact .still (List.mem_append_left _ watched) rfl id rfl rfl
    | removeExtension extension =>
      refine .still (List.mem_filter.mpr ⟨watched, ?_⟩) rfl id rfl rfl
      simpa using spared.symm
    | clearExtensions => cases spared
    | subscribe subscriber => exact .still watched rfl id rfl rfl
    | keep => exact still
  | initializeAt s =>
    rw [Run.call.eq_def]
    simp only
    split
    · rename_i initialized
      exact Machine.initializeAt_wanders watched initialized
    · exact still
  | enterInitialState =>
    rw [Run.call.eq_def]
    unfold after
    simp only
    split
    · rename_i entered
      exact Machine.enterInitialState_wanders watched entered
    · exact still
  | fire signal =>
    rw [Run.call.eq_def]
    unfold after
    simp only
    split
    · rename_i fired
      exact Machine.fire_wanders wf watched fired
    · exact still
  | load checkpoint =>
    cases loaded : r.machine.load checkpoint r.host with
    | error error =>
      rw [Run.call.eq_def]
      simp only [loaded]
      exact still
    | ok out =>
      obtain ⟨machine, host⟩ := out
      obtain ⟨fresh, taken⟩ := Machine.load_ok loaded
      have nowhere := loads fresh checkpoint rfl
      rw [Run.call.eq_def] at nowhere ⊢
      simp only [loaded] at nowhere ⊢
      have stood := wf.nowhere fresh
      have silent : host.switches = r.host.switches := by
        rcases Machine.load_host loaded with rfl | rfl
        · rfl
        · exact Machine.switches_writeAll (by simp [JournalEntry.stage?, LogLine.stage?])
      rcases taken with ⟨rfl, _⟩ | ⟨initial, _, rfl, _⟩
      · exact .rest watched silent
      · exact .still watched rfl (fun _ => rfl) (nowhere.trans stood.symm) silent

end Run

end Statechart
