import Statechart.Proofs.Machine.Trace

namespace Statechart

variable {S E F F' X L W W' O α : Type}

namespace Host

/-- What was done on two hosts since two moments agrees, as far as two views of the journals show it. So do the
    signals that were sent, and those failures that count. -/
structure Parallel (Same : W → W' → Prop) (view : JournalEntry S E F X L → Option O)
    (view' : JournalEntry S E F' X L → Option O) (counts : Failure S E → Bool) (start : Host S E F X L W)
    (start' : Host S E F' X L W') (host : Host S E F X L W) (host' : Host S E F' X L W') : Prop where
  world : Same host.world host'.world
  outbox : ∃ sent, host.outbox = start.outbox ++ sent ∧ host'.outbox = start'.outbox ++ sent
  failures : ∃ failed, host.failures.filter counts = start.failures.filter counts ++ failed ∧
    host'.failures.filter counts = start'.failures.filter counts ++ failed
  seen : ∃ shown, host.seen view = start.seen view ++ shown ∧ host'.seen view' = start'.seen view' ++ shown

namespace Parallel

variable {Same : W → W' → Prop} {view : JournalEntry S E F X L → Option O} {view' : JournalEntry S E F' X L → Option O}
  {counts : Failure S E → Bool} {start host : Host S E F X L W} {start' host' : Host S E F' X L W'}
  {notice notice' : Notice S E} {info info' : Info S} {hook hook' : Hook S E}

theorem refl (same : Same start.world start'.world) :
    Parallel Same view view' counts start start' start start' :=
  ⟨same, ⟨[], by simp⟩, ⟨[], by simp⟩, [], by simp⟩

theorem writeAll (parallel : Parallel Same view view' counts start start' host host')
    {entries : List (JournalEntry S E F X L)} {entries' : List (JournalEntry S E F' X L)}
    (same : entries.filterMap view = entries'.filterMap view') :
    Parallel Same view view' counts start start' (host.writeAll entries) (host'.writeAll entries') := by
  obtain ⟨shown, here, there⟩ := parallel.seen
  refine ⟨parallel.world, parallel.outbox, parallel.failures, shown ++ entries.filterMap view, ?_, ?_⟩
  · rw [seen_writeAll, here, List.append_assoc]
  · rw [seen_writeAll, there, List.append_assoc, same]

theorem writeAll_left (parallel : Parallel Same view view' counts start start' host host')
    {entries : List (JournalEntry S E F X L)} (unseen : entries.filterMap view = []) :
    Parallel Same view view' counts start start' (host.writeAll entries) host' := by
  have still : host'.writeAll [] = host' := by simp [Host.writeAll]
  have nothing : entries.filterMap view = ([] : List (JournalEntry S E F' X L)).filterMap view' := unseen
  have both := parallel.writeAll nothing
  rwa [still] at both

theorem write (parallel : Parallel Same view view' counts start start' host host') {entry : JournalEntry S E F X L}
    {entry' : JournalEntry S E F' X L} (same : view entry = view' entry') :
    Parallel Same view view' counts start start' (host.write entry) (host'.write entry') := by
  apply parallel.writeAll
  simp only [List.filterMap_cons, same, List.filterMap_nil]

theorem log (parallel : Parallel Same view view' counts start start' host host') {line line' : LogLine S E}
    (same : view (.log line) = view' (.log line')) :
    Parallel Same view view' counts start start' (host.log line) (host'.log line') := parallel.write same

theorem announce (parallel : Parallel Same view view' counts start start' host host') (extensions : List (Extension X))
    (same : ∀ extension : Extension X, view (extension.note info hook) = view' (extension.note info' hook')) :
    Parallel Same view view' counts start start' (host.announce extensions info hook)
      (host'.announce extensions info' hook') := by
  rw [announce_eq, announce_eq]
  apply parallel.writeAll
  have alike : view ∘ Extension.note info hook = view' ∘ Extension.note info' hook' := funext same
  rw [List.filterMap_map, List.filterMap_map, alike]

theorem write_left (parallel : Parallel Same view view' counts start start' host host') {entry : JournalEntry S E F X L}
    (unseen : view entry = none) : Parallel Same view view' counts start start' (host.write entry) host' := by
  apply parallel.writeAll_left
  simp only [List.filterMap_cons, unseen, List.filterMap_nil]

theorem announce_left (parallel : Parallel Same view view' counts start start' host host')
    (extensions : List (Extension X)) (unseen : ∀ extension : Extension X, view (extension.note info hook) = none) :
    Parallel Same view view' counts start start' (host.announce extensions info hook) host' := by
  rw [announce_eq]
  apply parallel.writeAll_left
  rw [List.filterMap_map]
  exact List.filterMap_eq_nil_iff.mpr fun extension _ => unseen extension

theorem notify (parallel : Parallel Same view view' counts start start' host host')
    (same : ∀ subscriber : L, view (.notice subscriber notice) = view' (.notice subscriber notice'))
    (counted : (Failure.ofNotice? notice).toList.filter counts = (Failure.ofNotice? notice').toList.filter counts)
    (subscriber : Subscriber L) :
    Parallel Same view view' counts start start' (host.notify notice subscriber) (host'.notify notice' subscriber) := by
  cases subscriber with
  | collector =>
    obtain ⟨failed, here, there⟩ := parallel.failures
    refine ⟨parallel.world, parallel.outbox,
      ⟨failed ++ (Failure.ofNotice? notice).toList.filter counts, ?_, ?_⟩, parallel.seen⟩
    · rw [← List.append_assoc, ← here]
      exact List.filter_append ..
    · rw [← List.append_assoc, ← there, counted]
      exact List.filter_append ..
  | custom subscriber => exact parallel.write (same subscriber)

theorem publish (parallel : Parallel Same view view' counts start start' host host') (subscribers : List (Subscriber L))
    (same : ∀ subscriber : L, view (.notice subscriber notice) = view' (.notice subscriber notice'))
    (counted : (Failure.ofNotice? notice).toList.filter counts = (Failure.ofNotice? notice').toList.filter counts) :
    Parallel Same view view' counts start start' (host.publish subscribers notice)
      (host'.publish subscribers notice') := by
  unfold Host.publish
  induction subscribers generalizing host host' with
  | nil => exact parallel
  | cons subscriber rest ih => exact ih (parallel.notify same counted subscriber)

theorem publish_left (parallel : Parallel Same view view' counts start start' host host')
    (subscribers : List (Subscriber L)) (unseen : ∀ subscriber : L, view (.notice subscriber notice) = none)
    (uncounted : (Failure.ofNotice? notice).toList.filter counts = []) :
    Parallel Same view view' counts start start' (host.publish subscribers notice) host' := by
  unfold Host.publish
  induction subscribers generalizing host with
  | nil => exact parallel
  | cons subscriber rest ih =>
    apply ih
    cases subscriber with
    | collector =>
      obtain ⟨failed, here, there⟩ := parallel.failures
      refine ⟨parallel.world, parallel.outbox, ⟨failed, ?_, there⟩, parallel.seen⟩
      rw [← here, Host.notify, List.filter_append, uncounted, List.append_nil]
    | custom subscriber => exact parallel.write_left (unseen subscriber)

theorem accept (parallel : Parallel Same view view' counts start start' host host') {β : Type} {reply : Reply E W α}
    {reply' : Reply E W' β} {entry : JournalEntry S E F X L} {entry' : JournalEntry S E F' X L}
    (world : Same reply.world reply'.world) (sent : reply'.sent = reply.sent) (same : view entry = view' entry') :
    Parallel Same view view' counts start start' (host.accept reply entry) (host'.accept reply' entry') := by
  obtain ⟨before, here, there⟩ := parallel.outbox
  obtain ⟨shown, shows, shows'⟩ := parallel.seen
  refine ⟨world, ⟨before ++ reply.sent, ?_, ?_⟩, parallel.failures, shown ++ (view entry).toList, ?_, ?_⟩
  · rw [← List.append_assoc, ← here]
    rfl
  · rw [← List.append_assoc, ← there, ← sent]
    rfl
  · rw [seen_accept, shows, List.append_assoc]
  · rw [seen_accept, shows', List.append_assoc, same]

theorem switchTo [DecidableEq S] (parallel : Parallel Same view view' counts start start' host host')
    {m : Machine S E F X L} {m' : Machine S E F' X L} (name : m'.name = m.name) (extensions : m'.extensions = m.extensions)
    (stands : m'.current? = m.current?) (state : S) (same : ∀ (extension : Extension X) info old?,
      view (extension.note info (.switchedState old? state)) = view' (extension.note info (.switchedState old? state))) :
    Parallel Same view view' counts start start' (m.switchTo state host).2 (m'.switchTo state host').2 := by
  apply Machine.switchTo_related stands parallel
  unfold Machine.announce
  rw [extensions]
  unfold Machine.name at name
  simp only [Machine.info, Machine.name, name]
  exact parallel.announce m.extensions fun extension => same extension _ _

end Parallel

end Host

end Statechart
