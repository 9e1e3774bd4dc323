import Statechart.Host

namespace Statechart

variable {S E F F' X L W O α : Type}

def Extension.note (info : Info S) (hook : Hook S E) : Extension X → JournalEntry S E F X L
  | .logger _ => .log (.extensionCalled info hook)
  | .custom extension => .hook extension info hook

def Extension.reply (answer : X → α → Option α) (value : α) : Extension X → α
  | .logger _ => value
  | .custom extension => (answer extension value).getD value

def threaded (answer : X → α → Option α) (extensions : List (Extension X)) (value : α) : α :=
  extensions.foldl (Extension.reply answer) value

/-- The entries of a question that goes round. Each extension is shown what the one before it answered. -/
def inquiry (info : Info S) (question : α → Hook S E) (answer : X → α → Option α) :
    List (Extension X) → α → List (JournalEntry S E F X L)
  | [], _ => []
  | extension :: rest, value =>
    extension.note info (question value) :: inquiry info question answer rest (extension.reply answer value)

theorem filterMap_inquiry {view : JournalEntry S E F X L → Option O} {view' : JournalEntry S E F' X L → Option O}
    {info : Info S} {question : α → Hook S E}
    (same : ∀ (extension : Extension X) value,
      view (extension.note info (question value)) = view' (extension.note info (question value)))
    (answer : X → α → Option α) (extensions : List (Extension X)) (value : α) :
    (inquiry info question answer extensions value).filterMap view =
      (inquiry info question answer extensions value).filterMap view' := by
  induction extensions generalizing value with
  | nil => rfl
  | cons extension rest ih => simp only [inquiry, List.filterMap_cons, same, ih]

theorem filterMap_inquiry_unseen {view : JournalEntry S E F X L → Option O} {info : Info S} {question : α → Hook S E}
    (unseen : ∀ (extension : Extension X) value, view (extension.note info (question value)) = none)
    (answer : X → α → Option α) (extensions : List (Extension X)) (value : α) :
    (inquiry info question answer extensions value).filterMap view = [] := by
  induction extensions generalizing value with
  | nil => rfl
  | cons extension rest ih => simp only [inquiry, List.filterMap_cons, unseen, ih]

def Subscriber.note? (notice : Notice S E) : Subscriber L → Option (JournalEntry S E F X L)
  | .collector => none
  | .custom subscriber => some (.notice subscriber notice)

def Subscriber.collected (notice : Notice S E) : Subscriber L → List (Failure S E)
  | .collector => (Failure.ofNotice? notice).toList
  | .custom _ => []

namespace Host

variable {host : Host S E F X L W} {view : JournalEntry S E F X L → Option O}

def writeAll (host : Host S E F X L W) (entries : List (JournalEntry S E F X L)) : Host S E F X L W :=
  { host with journal := host.journal ++ entries }

theorem writeAll_append (host : Host S E F X L W) (first second : List (JournalEntry S E F X L)) :
    (host.writeAll first).writeAll second = host.writeAll (first ++ second) := by
  simp only [writeAll, List.append_assoc]

theorem tell_eq (info : Info S) (hook : Hook S E) (host : Host S E F X L W) (extension : Extension X) :
    host.tell info hook extension = host.writeAll [extension.note info hook] := by
  cases extension <;> rfl

theorem announce_eq (extensions : List (Extension X)) (info : Info S) (hook : Hook S E) (host : Host S E F X L W) :
    host.announce extensions info hook = host.writeAll (extensions.map (Extension.note info hook)) := by
  unfold announce
  induction extensions generalizing host with
  | nil => simp [writeAll]
  | cons extension rest ih => rw [List.foldl_cons, ih, tell_eq, writeAll_append, List.map_cons, List.singleton_append]

theorem consult_eq (info : Info S) (question : α → Hook S E) (answer : X → α → Option α)
    (extensions : List (Extension X)) (value : α) (host : Host S E F X L W) :
    consult info question answer extensions value host =
      (threaded answer extensions value, host.writeAll (inquiry info question answer extensions value)) := by
  induction extensions generalizing value host with
  | nil => simp [consult, threaded, inquiry, writeAll]
  | cons extension rest ih =>
    cases extension with
    | logger key? =>
      rw [consult, ih, tell_eq, writeAll_append]
      rfl
    | custom extension =>
      rw [consult, ih, tell_eq, writeAll_append]
      rfl

theorem publish_eq (subscribers : List (Subscriber L)) (notice : Notice S E) (host : Host S E F X L W) :
    host.publish subscribers notice = { host with
      failures := host.failures ++ subscribers.flatMap (Subscriber.collected notice)
      journal := host.journal ++ subscribers.filterMap (Subscriber.note? notice) } := by
  unfold publish
  induction subscribers generalizing host with
  | nil => simp
  | cons subscriber rest ih =>
    rw [List.foldl_cons, ih]
    cases subscriber with
    | collector => simp [notify, Subscriber.collected, Subscriber.note?, List.filterMap_cons]
    | custom subscriber => simp [notify, write, Subscriber.collected, Subscriber.note?]

def seen (view : JournalEntry S E F X L → Option O) (host : Host S E F X L W) : List O := host.journal.filterMap view

theorem seen_writeAll (view : JournalEntry S E F X L → Option O) (host : Host S E F X L W)
    (entries : List (JournalEntry S E F X L)) :
    (host.writeAll entries).seen view = host.seen view ++ entries.filterMap view := List.filterMap_append

theorem seen_write (view : JournalEntry S E F X L → Option O) (host : Host S E F X L W) (entry : JournalEntry S E F X L) :
    (host.write entry).seen view = host.seen view ++ (view entry).toList := by
  have written := seen_writeAll view host [entry]
  rw [List.filterMap_cons, List.filterMap_nil] at written
  cases shown : view entry <;> rw [shown] at written <;> exact written

theorem seen_announce {info : Info S} {hook : Hook S E}
    (unseen : ∀ extension : Extension X, view (extension.note info hook) = none) (extensions : List (Extension X))
    (host : Host S E F X L W) : (host.announce extensions info hook).seen view = host.seen view := by
  have nothing : (extensions.map (Extension.note info hook)).filterMap view = [] := by
    rw [List.filterMap_map, List.filterMap_eq_nil_iff]
    exact fun extension _ => unseen extension
  rw [announce_eq, seen_writeAll, nothing, List.append_nil]

theorem seen_consult {info : Info S} {question : α → Hook S E}
    (unseen : ∀ (extension : Extension X) value, view (extension.note info (question value)) = none)
    (answer : X → α → Option α) (extensions : List (Extension X)) (value : α) (host : Host S E F X L W) :
    (consult info question answer extensions value host).2.seen view = host.seen view := by
  rw [consult_eq, seen_writeAll, filterMap_inquiry_unseen unseen, List.append_nil]

theorem seen_publish {notice : Notice S E} (unseen : ∀ subscriber : L, view (.notice subscriber notice) = none)
    (subscribers : List (Subscriber L)) (host : Host S E F X L W) :
    (host.publish subscribers notice).seen view = host.seen view := by
  have nothing : (subscribers.filterMap (Subscriber.note? notice)).filterMap view = [] := by
    rw [List.filterMap_filterMap, List.filterMap_eq_nil_iff]
    intro subscriber _
    cases subscriber with
    | collector => rfl
    | custom subscriber => exact unseen subscriber
  rw [publish_eq, seen, List.filterMap_append, nothing, List.append_nil]
  rfl

theorem seen_accept (view : JournalEntry S E F X L → Option O) (host : Host S E F X L W) (reply : Reply E W α)
    (entry : JournalEntry S E F X L) : (host.accept reply entry).seen view = host.seen view ++ (view entry).toList :=
  seen_write view host entry

end Host

end Statechart
