/-
  PinnedFile.Proofs.Drains

  When a drain callback is called.

  It is looked at when it is registered and after every write of the write stream.  So while
  one waits, something is outstanding that will be looked at again, as long as the last write
  was one of the stream.  After a direct write nobody looks, and the callback goes on waiting
  even if nothing is outstanding any more.
-/

import PinnedFile.Proofs.Counters
import PinnedFile.Proofs.Streams.Acts

namespace PinnedFile

open Run

/-- An operation that writes to a handle directly, and not through its write stream. -/
def Job.WritesDirectly (job : Job) : Prop :=
  job.completion.operation = .write ∧ job.completion.isStreams = false

instance (job : Job) : Decidable job.WritesDirectly := inferInstanceAs (Decidable (_ ∧ _))

/-- An event by which no operation of a handle is completed and no delivery comes to its end. -/
def Event.EndsNothing (h : HandleId) : Event → Prop
  | .completed job _ => job.handle ≠ h
  | .delivered _ => False
  | _ => True

/-- The drain callback of a handle that is to be called at an entry: a write of the stream is
    completed, and the queue has drained by that. -/
def Entry.drainDue? (h : HandleId) (e : Entry) : Option DrainWait :=
  match e.event with
  | .completed ⟨_, k, _, .send _⟩ (.ok _) =>
    if k = h then
      e.handles[h]?.bind fun s => s.writer.bind fun v =>
        if s.outstanding ≤ v.lowwater then v.drain else none
    else none
  | _ => none

/-- Whenever a drain callback is to be called, it is called next. -/
def CallsDrains (h : HandleId) (history : List Entry) : Prop :=
  ∀ newer e older wait, history = newer ++ e :: older → e.drainDue? h = some wait →
    ∃ newer' e', newer = newer' ++ [e'] ∧ e'.event = .drained h wait.id wait.handler.tag

/-- A handle on which no drain callback waits that did not wait before, and of which nothing
    outstanding was taken off. -/
structure Handle.KeepsOutstanding (s s' : Handle) : Prop where
  drain : s'.writeStream.drain = none ∨ s'.writeStream.drain = s.writeStream.drain
  outstanding : s.outstanding ≤ s'.outstanding

namespace World

/-- The write of a handle whose outcome was the last to reach it. -/
def lastWrite? (w : World) (h : HandleId) : Option Job :=
  (w.completed.map Prod.fst).find? fun job => job.handle = h ∧ job.completion.operation = .write

/-- The drain callbacks of a handle that were called, by their numbers, the latest first. -/
def drainCalls (w : World) (h : HandleId) : List Nat :=
  w.history.filterMap fun e =>
    match e.event with
    | .drained k wait _ => if k = h then some wait else none
    | _ => none

/-- All deliveries have come to their end: none was ended by the panic of a callback. -/
def DeliveriesReturned (w : World) : Prop :=
  ∀ c ∈ w.completed, Tells w.history (.delivered c.1.id)

/-- If a drain callback waits on a handle, then something is outstanding there, or the last
    write was direct. -/
def WakesUp (h : HandleId) (w : World) : Prop :=
  ∀ s, w.handles[h]? = some s → s.writeStream.drain ≠ none →
    0 < s.outstanding ∨ ∃ job, w.lastWrite? h = some job ∧ job.WritesDirectly

end World

variable {mode : Mode} {w after : World} {h k : HandleId} {job : Job} {outcome : Outcome}
  {rest : Queue Task} {s : Handle} {v : Writer}

/-- A write is direct or of a stream, and nothing else counts as outstanding. -/
theorem Completion.cases_write (c : Completion) :
    (∃ n handler, c = .write n handler) ∨ (∃ n, c = .send n) ∨
      c.operation ≠ .write ∧ c.outstanding = 0 := by
  cases c with
  | write n handler => exact .inl ⟨n, handler, rfl⟩
  | send n => exact .inr (.inl ⟨n, rfl⟩)
  | read | chunk | flush | close => exact .inr (.inr ⟨nofun, rfl⟩)

/-! ## Events that end nothing -/

theorem Event.IsQuietFor.endsNothing {event : Event} (quiet : event.IsQuietFor h) :
    event.EndsNothing h := by
  cases event with
  | completed job outcome => exact quiet
  | delivered => cases quiet
  | _ => exact trivial

theorem Event.IsClients.endsNothing {event : Event} (clients : event.IsClients) :
    event.EndsNothing h := by
  cases event with
  | completed | delivered => cases clients
  | _ => exact trivial

theorem Event.IsOfReading.endsNothing {event : Event} (reading : event.IsOfReading) :
    event.EndsNothing h := by
  cases event with
  | completed | delivered => cases reading
  | _ => exact trivial

theorem World.endsNothing_readingOn : Notes (·.event.EndsNothing h) w (w.readingOn k) :=
  World.notes_readingOn.mono fun _ told => told.1.endsNothing

theorem Change.endsNothing (change : Change h w after) :
    Notes (·.event.EndsNothing h) w after := by
  refine change.notes.mono fun e told => ?_
  rcases told with quiet | clients
  · exact quiet.endsNothing
  · exact clients.endsNothing

theorem Changes.endsNothing (changes : Changes h w after) :
    Notes (·.event.EndsNothing h) w after := by
  induction changes with
  | refl => exact notes_refl
  | tail _ last ih => exact ih.trans last.endsNothing

/-- Whatever the handle, telling ends nothing after the outcome has arrived. -/
theorem World.endsNothing_telling (w : World) :
    Notes (·.event.EndsNothing h) (w.arriving job outcome rest) (w.telling job outcome rest) := by
  obtain ⟨v, quiet, told | ⟨e, reading, told⟩⟩ := w.telling_record (h := h) job outcome rest
  · rw [told]
    exact quiet.notes.mono fun _ told => told.1.endsNothing
  · rw [told]
    exact (quiet.notes.mono fun _ told => told.1.endsNothing).trans
      (notes_record reading.endsNothing)

theorem tells_delivered_of_endsNothing {id : OperationId}
    (notes : Notes (·.event.EndsNothing h) w after) (told : Tells after.history (.delivered id)) :
    Tells w.history (.delivered id) := by
  obtain ⟨new, added, nothing⟩ := notes
  obtain ⟨e, listed, same⟩ := told
  rw [added] at listed
  rcases List.mem_append.mp listed with now | before
  · have ends : e.event.EndsNothing h := nothing e now
    rw [same] at ends
    cases ends
  · exact ⟨e, before, same⟩

theorem completed_subset_of_notes {P : Entry → Prop} (notes : Notes P w after) :
    w.completed ⊆ after.completed := by
  obtain ⟨new, added, -⟩ := notes
  rw [World.completed, World.completed, added, List.filterMap_append]
  exact List.subset_append_right _ _

/-- If all deliveries have returned, then they had before nothing ended. -/
theorem World.DeliveriesReturned.of_endsNothing (returned : after.DeliveriesReturned)
    (notes : Notes (·.event.EndsNothing h) w after) : w.DeliveriesReturned := fun c listed =>
  tells_delivered_of_endsNothing notes (returned c (completed_subset_of_notes notes listed))

theorem lastWrite?_of_endsNothing (notes : Notes (·.event.EndsNothing h) w after) :
    after.lastWrite? h = w.lastWrite? h := by
  obtain ⟨new, added, nothing⟩ := notes
  have none : ((new.filterMap (·.event.completed?)).map Prod.fst).find?
      (fun job => job.handle = h ∧ job.completion.operation = .write) = none := by
    rw [List.find?_eq_none]
    intro job listed
    obtain ⟨c, completed, rfl⟩ := List.mem_map.mp listed
    obtain ⟨e, there, told⟩ := List.mem_filterMap.mp completed
    have other : e.event.EndsNothing h := nothing e there
    rw [Event.completed?_eq_some_iff.mp told] at other
    exact decide_eq_true_iff.not.mpr fun own => other own.1
  rw [World.lastWrite?, World.completed, added, List.filterMap_append, List.map_append,
    List.find?_append, none]
  rfl

/-! ## Changes -/

theorem Handle.keepsOutstanding_refl : s.KeepsOutstanding s := ⟨.inr rfl, Nat.le_refl _⟩

theorem Handle.Stays.keepsOutstanding {s' : Handle} (stays : s.Stays s') :
    s.KeepsOutstanding s' := ⟨stays.drain, stays.outstanding⟩

theorem World.WakesUp.of_remains (wakes : w.WakesUp h)
    (remains : Remains Handle.KeepsOutstanding w.handles[h]? after.handles[h]?)
    (last : after.lastWrite? h = w.lastWrite? h) : after.WakesUp h := by
  intro s' known waits
  rw [known] at remains
  rw [last]
  generalize before : w.handles[h]? = one at remains
  cases remains with
  | opened new => exact absurd new.drain waits
  | @known s _ related =>
    rcases related.drain with none | same
    · exact absurd none waits
    · rcases wakes s before (same ▸ waits) with some | direct
      · exact .inl (Nat.lt_of_lt_of_le some related.outstanding)
      · exact .inr direct

theorem World.WakesUp.modifyHandle {f : Handle → Handle} (wakes : w.WakesUp h)
    (keeps : ∀ s : Handle, s.KeepsOutstanding (f s)) : (w.modifyHandle h f).WakesUp h :=
  wakes.of_remains (remains_modify (fun _ => Handle.keepsOutstanding_refl) fun _ => keeps) rfl

theorem World.WakesUp.quiet (wakes : w.WakesUp h) (quiet : QuietFor h w after) :
    after.WakesUp h :=
  wakes.of_remains (quiet.remains.mono fun _ _ => Handle.Stays.keepsOutstanding)
    (lastWrite?_of_endsNothing (quiet.notes.mono fun _ told => told.1.endsNothing))

theorem World.WakesUp.record {e : Event} (wakes : w.WakesUp h)
    (same : (w.record e).lastWrite? h = w.lastWrite? h) : (w.record e).WakesUp h :=
  wakes.of_remains (remains_refl fun _ => Handle.keepsOutstanding_refl) same

/-- What is accepted adds to what is outstanding. -/
theorem World.WakesUp.enqueue {t : Transfer} {c : Completion} (wakes : w.WakesUp h) :
    (w.enqueue h t c).WakesUp h := by
  have counted : (w.modifyHandle h (·.taking c)).WakesUp h :=
    wakes.modifyHandle fun _ => Handle.stays_taking.keepsOutstanding
  have accepted : (w.accept h t c).2.WakesUp h := counted.record (e := .accepted _) rfl
  exact accepted.quiet (quietFor_submit _)

/-- A read stream is no matter for what is outstanding. -/
theorem World.WakesUp.modifyReader {f : Reader → Reader} (wakes : w.WakesUp h) :
    (w.modifyReader h f).WakesUp h := wakes.modifyHandle fun _ => ⟨.inr rfl, Nat.le_refl _⟩

/-- Above the lower mark something is outstanding. -/
theorem outstanding_of_hasDrained (known : w.handles[h]? = some s) (made : s.writer = some v)
    (waits : w.hasDrained h = false) : 0 < s.outstanding := by
  rw [World.hasDrained, known] at waits
  dsimp only at waits
  rw [made, Option.any_some, decide_eq_false_iff_not] at waits
  exact Nat.lt_of_le_of_lt (Nat.zero_le _) (Nat.lt_of_not_le waits)

/-- A world whose queue has not drained, or in which nobody waits for that. -/
theorem wakesUp_of_hasDrained
    (waits : ∀ v, w.writer? h = some v → v.drain ≠ none → w.hasDrained h = false) :
    w.WakesUp h := by
  intro s known some
  rcases made : s.writer with _ | v
  · rw [Handle.writeStream, made] at some
    exact absurd rfl some
  · rw [Handle.writeStream, made, Option.getD_some] at some
    have found : w.writer? h = .some v := by rw [World.writer?, known, Option.bind_some, made]
    exact .inl (outstanding_of_hasDrained known made (waits v found some))

/-- What a stream begins when it goes on adds to what is outstanding. -/
theorem World.WakesUp.readingOn (wakes : w.WakesUp h) : (w.readingOn h).WakesUp h := by
  rcases w.readingOn_cases h with same | ⟨stream, -, -, started⟩
  · rwa [same]
  · rw [started]
    rcases w.startingRead_cases h stream with ⟨-, large⟩ | ⟨-, fits⟩
    · rw [large]
      exact wakes.modifyReader
    · rw [fits]
      exact wakes.modifyReader.enqueue

theorem World.WakesUp.change (wakes : w.WakesUp h) (change : Change h w after) :
    after.WakesUp h := by
  cases change with
  | quiet quiet => exact wakes.quiet quiet
  | listen listener => exact wakes.modifyReader.readingOn
  | resume paused => exact wakes.modifyReader.readingOn
  | @send s data got known =>
    have sent : (w.enqueue h (.ofWrite data s.writeStream.position) (.send data.length)).WakesUp h :=
      wakes.enqueue
    refine sent.modifyHandle fun s' => ⟨.inr ?_, Nat.le_refl _⟩
    rcases made : s'.writer with _ | v
    · rw [Handle.writeStream, Handle.writeStream, made, Option.map_none]
    · rw [Handle.writeStream, Handle.writeStream, made, Option.map_some]
      rfl
  | awaitDrain waits => exact wakesUp_of_hasDrained fun _ _ _ => waits

theorem World.WakesUp.changes (wakes : w.WakesUp h) (changes : Changes h w after) :
    after.WakesUp h := by
  induction changes with
  | refl => exact wakes
  | tail _ last ih => exact ih.change last

/-! ## Deliveries -/

/-- A drain callback that has been called waits no more. -/
theorem drain_clearDrain (made : (w.clearDrain h).writer? h = some v) : v.drain = none := by
  obtain ⟨s, known, found⟩ := Option.bind_eq_some_iff.mp made
  rw [World.clearDrain, World.modifyWriter, World.modifyHandle, List.getElem?_modify_eq] at known
  obtain ⟨s', -, rfl⟩ := Option.map_eq_some_iff.mp known
  obtain ⟨v', -, rfl⟩ := Option.map_eq_some_iff.mp found
  rfl

/-- Once the drain callback was looked at, it waits only if the queue has not drained. -/
theorem wakesUp_toldDrained : (w.toldDrained h).WakesUp h := by
  unfold World.toldDrained
  split
  next none =>
    refine wakesUp_of_hasDrained fun v made waits => ?_
    rw [made, Option.bind_some] at none
    exact absurd none waits
  · split
    · exact wakesUp_of_hasDrained fun v made waits => absurd (drain_clearDrain made) waits
    next waiting => exact wakesUp_of_hasDrained fun _ _ _ => eq_false_of_ne_true waiting

/-- The outcome of an operation that is no write of the stream reaches its handle. -/
theorem World.WakesUp.completing (wakes : w.WakesUp job.handle)
    (plain : ∀ n, job.completion ≠ .send n) :
    ((w.delivering job outcome rest).completing job outcome).WakesUp job.handle := by
  have last : ((w.delivering job outcome rest).completing job outcome).lastWrite? job.handle =
      if job.completion.operation = .write then some job else w.lastWrite? job.handle := by
    show List.find? _ (job :: w.completed.map Prod.fst) = _
    rw [List.find?_cons]
    by_cases writes : job.completion.operation = .write
    · simp [writes]
    · simp [writes, World.lastWrite?]
  rcases job.completion.cases_write with ⟨n, handler, direct⟩ | ⟨n, send⟩ | ⟨other, nothing⟩
  · rw [direct] at last
    exact fun s known waits => .inr ⟨job, last, by rw [direct]; rfl, by rw [direct]; rfl⟩
  · exact absurd send (plain n)
  · rw [if_neg other] at last
    refine wakes.of_remains ?_ last
    refine remains_modify (fun _ => Handle.keepsOutstanding_refl) fun _ s => ⟨.inr rfl, ?_⟩
    show s.outstanding ≤ s.outstanding - job.completion.outstanding
    rw [nothing, Nat.sub_zero]

theorem World.WakesUp.telling (wakes : w.WakesUp h)
    (plain : job.handle = h → ∀ n, job.completion ≠ .send n) :
    (w.telling job outcome rest).WakesUp h := by
  by_cases own : job.handle = h
  · subst own
    have arrived : (w.arriving job outcome rest).WakesUp job.handle := by
      unfold World.arriving
      dsimp only
      split
      · exact (wakes.completing (plain rfl)).modifyReader
      · exact wakes.completing (plain rfl)
    obtain ⟨v, quiet, told | ⟨e, reading, told⟩⟩ :=
      w.telling_record (h := job.handle) job outcome rest
    · rw [told]
      exact arrived.quiet quiet
    · rw [told]
      have aside : Notes (·.event.EndsNothing job.handle) v (v.record e) :=
        notes_record reading.endsNothing
      exact (arrived.quiet quiet).record (lastWrite?_of_endsNothing aside)
  · exact wakes.quiet (quietFor_telling_ne own)

/-! ## In every run -/

/-- Telling and what callbacks do after it bring no delivery to its end. -/
theorem tells_delivered_of_calls {id : OperationId}
    (calls : Changes h (w.telling job outcome rest) after)
    (told : Tells after.history (.delivered id)) : Tells w.history (.delivered id) := by
  have notes := w.endsNothing_telling.trans calls.endsNothing
  obtain ⟨e, listed, same⟩ := tells_delivered_of_endsNothing notes told
  rw [World.history_arriving] at listed
  rcases List.mem_cons.mp listed with rfl | before
  · cases same
  · exact ⟨e, before, same⟩

theorem completed_of_calls (calls : Changes h (w.telling job outcome rest) after) :
    (job, outcome) :: w.completed ⊆ after.completed := by
  have arrived : (w.arriving job outcome rest).completed = (job, outcome) :: w.completed := by
    rw [World.completed, World.history_arriving]
    rfl
  rw [← arrived]
  exact completed_subset_of_notes (w.endsNothing_telling.trans calls.endsNothing)

/-- An operation that is due has not been completed, under whatever job it comes. -/
theorem World.IsDue.not_completed (due : w.IsDue job) : job.id ∉ w.books.delivered := by
  obtain ⟨a, -, ticket, undelivered⟩ := due
  rwa [← show a.id = job.id from congrArg Ticket.id ticket]

/-- The law of the drain callback of a handle, with what carries it over deliveries: whatever
    has come to its end was completed. -/
structure Waking (h : HandleId) (w : World) : Prop where
  completed : ∀ id, Tells w.history (.delivered id) → id ∈ w.books.delivered
  wakes : w.DeliveriesReturned → w.WakesUp h

theorem waking_start (workers : Nat) (files : FileTree) : Waking h (.start workers files) where
  completed _ told := by
    obtain ⟨e, listed, -⟩ := told
    cases listed
  wakes _ _ known := by cases known

theorem Waking.change (waking : Waking h w) (change : Change h w after) : Waking h after where
  completed id told := List.map_subset _ (completed_subset_of_notes change.endsNothing)
    (waking.completed id (tells_delivered_of_endsNothing change.endsNothing told))
  wakes returned := (waking.wakes (returned.of_endsNothing change.endsNothing)).change change

/-- A delivery comes to its end.  What was outstanding before it is so still, unless it was
    that of a write: after one of the stream the drain callback was looked at. -/
theorem Waking.deliver (waking : Waking h w) (due : w.IsDue job)
    (calls : Changes h (w.telling job outcome rest) after)
    (looks : ∀ n, job.completion = .send n →
      ∃ v : World, Changes h (v.toldDrained job.handle) after) :
    Waking h (after.record (.delivered job.id)) := by
  have more := completed_of_calls calls
  have ended (id : OperationId)
      (told : Tells (after.record (.delivered job.id)).history (.delivered id)) :
      id = job.id ∨ Tells w.history (.delivered id) := by
    obtain ⟨e, listed, same⟩ := told
    rcases List.mem_cons.mp listed with rfl | before
    · exact .inl (Event.delivered.inj same).symm
    · exact .inr (tells_delivered_of_calls calls ⟨e, before, same⟩)
  refine ⟨fun id told => ?_, fun returned => ?_⟩
  · rcases ended id told with rfl | before
    · exact List.mem_map.mpr ⟨(job, outcome), more List.mem_cons_self, rfl⟩
    · obtain ⟨c, listed, own⟩ := List.mem_map.mp (waking.completed id before)
      exact List.mem_map.mpr ⟨c, more (List.mem_cons_of_mem _ listed), own⟩
  · have before : w.WakesUp h := by
      refine waking.wakes fun c listed => ?_
      rcases ended c.1.id (returned c (more (List.mem_cons_of_mem _ listed))) with own | before
      · exact absurd (List.mem_map.mpr ⟨c, listed, own⟩) due.not_completed
      · exact before
    refine World.WakesUp.record ?_ rfl
    by_cases send : job.handle = h ∧ ∃ n, job.completion = .send n
    · obtain ⟨rfl, n, send⟩ := send
      obtain ⟨v, changes⟩ := looks n send
      exact wakesUp_toldDrained.changes changes
    · exact (before.telling fun own n is => send ⟨own, n, is⟩).changes calls

/-- A delivery in which a callback panics has not returned. -/
theorem Waking.breakOff (waking : Waking h w) (due : w.IsDue job)
    (calls : Changes h (w.telling job outcome rest) after) : Waking h after := by
  have more := completed_of_calls calls
  refine ⟨fun id told => ?_, fun returned => ?_⟩
  · obtain ⟨c, listed, own⟩ :=
      List.mem_map.mp (waking.completed id (tells_delivered_of_calls calls told))
    exact List.mem_map.mpr ⟨c, more (List.mem_cons_of_mem _ listed), own⟩
  · have told := returned (job, outcome) (more List.mem_cons_self)
    exact absurd (waking.completed _ (tells_delivered_of_calls calls told)) due.not_completed

theorem Waking.readingOn (waking : Waking h w) : Waking h (w.readingOn h) := by
  have silent : Notes (·.event.EndsNothing h) w (w.readingOn h) := w.endsNothing_readingOn
  refine ⟨fun id told => ?_, fun returned => ?_⟩
  · exact List.map_subset _ (completed_subset_of_notes silent)
      (waking.completed id (tells_delivered_of_endsNothing silent told))
  · exact (waking.wakes (returned.of_endsNothing silent)).readingOn

theorem Reachable.waking (reached : Reachable mode w) (h : HandleId) : Waking h w := by
  refine Reachable.acts_induct (h := h) waking_start (fun w after waking act => ?_) reached
  cases act with
  | change change => exact waking.change change
  | @deliver after job outcome rest next due calls looks =>
    have delivered := waking.deliver due calls looks
    rcases readsOn_cases (h := h) (after.record (.delivered job.id)) job outcome with
      quiet | ⟨-, -, same⟩
    · exact delivered.change (.quiet quiet)
    · rw [same]
      exact delivered.readingOn
  | breakOff next due calls panics => exact waking.breakOff due calls

/-- In a calm run all deliveries have returned. -/
theorem Reachable.deliveriesReturned (reached : Reachable .calm w) : w.DeliveriesReturned :=
  fun c listed => (tells_delivered_iff reached c.1.id).mpr (List.mem_map.mpr ⟨c, listed, rfl⟩)

/-- Something is outstanding on a handle only if a write is undelivered. -/
theorem Reachable.write_undelivered (reached : Reachable mode w)
    (known : w.handles[h]? = some s) (some : 0 < s.outstanding) :
    ∃ a ∈ w.undelivered h, a.completion.operation = .write := by
  have sound := reached.sound
  obtain ⟨loose, accounted, -⟩ := sound.accounted
  have bytes := (sound.counted .bytes).of_eq_undelivered accounted (World.books_handles known)
  by_contra none
  push Not at none
  have zero : s.outstanding = 0 := by
    refine bytes.trans (List.sum_eq_zero fun n listed => ?_)
    obtain ⟨a, undelivered, rfl⟩ := List.mem_map.mp listed
    rcases a.completion.cases_write with ⟨n, handler, write⟩ | ⟨n, write⟩ | ⟨-, nothing⟩
    · exact absurd (congrArg Completion.operation write) (none a undelivered)
    · exact absurd (congrArg Completion.operation write) (none a undelivered)
    · exact nothing
  omega

/-! ## The call of a drain callback -/

theorem Event.EndsNothing.drainDue? {e : Entry} (nothing : e.event.EndsNothing h) :
    e.drainDue? h = none := by
  unfold Entry.drainDue?
  split
  next told =>
    rw [told] at nothing
    exact if_neg nothing
  · rfl

/-- Entries at which no callback is to be called. -/
theorem CallsDrains.append {new older : List Entry} (calls : CallsDrains h older)
    (none : ∀ e ∈ new, e.drainDue? h = none) : CallsDrains h (new ++ older) := by
  intro newer e rest wait split due
  rcases append_eq_split split with ⟨middle, rfl, before⟩ | ⟨middle, rfl, -⟩
  · obtain ⟨newer', e', rfl, called⟩ := calls middle e rest wait before due
    exact ⟨new ++ newer', e', (List.append_assoc ..).symm, called⟩
  · rw [none e (List.mem_append_right _ List.mem_cons_self)] at due
    cases due

theorem CallsDrains.cons {e : Entry} {older : List Entry} (calls : CallsDrains h older)
    (none : e.drainDue? h = none) : CallsDrains h (e :: older) := by
  rw [← List.singleton_append]
  exact calls.append fun f listed => List.mem_singleton.mp listed ▸ none

theorem CallsDrains.notes (calls : CallsDrains h w.history)
    (notes : Notes (·.event.EndsNothing h) w after) : CallsDrains h after.history := by
  obtain ⟨new, added, nothing⟩ := notes
  rw [added]
  exact calls.append fun e listed => (nothing e listed).drainDue?

/-- A callback that is to be called is called next. -/
theorem CallsDrains.call {e e' : Entry} {older : List Entry} {wait : DrainWait}
    (calls : CallsDrains h older) (due : e.drainDue? h = some wait)
    (called : e'.event = .drained h wait.id wait.handler.tag) :
    CallsDrains h (e' :: e :: older) := by
  intro newer f rest wait' split due'
  rcases newer with _ | ⟨first, _ | ⟨second, newer⟩⟩
  · obtain ⟨rfl, -⟩ := List.cons.inj split
    rw [Entry.drainDue?, called] at due'
    cases due'
  · obtain ⟨rfl, same⟩ := List.cons.inj split
    obtain ⟨rfl, -⟩ := List.cons.inj same
    obtain rfl := Option.some.inj (due.symm.trans due')
    exact ⟨[], e', rfl, called⟩
  · obtain ⟨rfl, same⟩ := List.cons.inj split
    obtain ⟨rfl, before⟩ := List.cons.inj same
    obtain ⟨newer', latest, rfl, called'⟩ := calls newer f rest wait' before due'
    exact ⟨e' :: e :: newer', latest, rfl, called'⟩

/-- When a write of the stream has succeeded, the drain callback is looked at, and that is
    all. -/
theorem World.telling_send {n : Nat} {bytes : Bytes} (send : job.completion = .send n) :
    w.telling job (.ok bytes) rest =
      ((w.delivering job (.ok bytes) rest).completing job (.ok bytes)).toldDrained job.handle := by
  simp only [World.telling, World.told, World.aboutToTell, World.toldHandler,
    World.toldWithoutHandler, Completion.handler?, send]

/-- A callback that is to be called when an outcome arrives waits there, the queue having
    drained. -/
theorem waiting_of_drainDue? {wait : DrainWait} {context : Option ContextId}
    (due : Entry.drainDue? h ⟨context, .completed job outcome, w.handles⟩ = some wait) :
    job.handle = h ∧ (∃ n, job.completion = .send n) ∧ (∃ bytes, outcome = .ok bytes) ∧
      (w.writer? h).bind Writer.drain = some wait ∧ w.hasDrained h = true := by
  unfold Entry.drainDue? at due
  split at due
  next told =>
    obtain ⟨rfl, rfl⟩ := Event.completed.inj told
    split at due
    next own =>
      obtain ⟨s, known, due⟩ := Option.bind_eq_some_iff.mp due
      obtain ⟨v, made, due⟩ := Option.bind_eq_some_iff.mp due
      split at due
      next drained =>
        refine ⟨own, ⟨_, rfl⟩, ⟨_, rfl⟩, ?_, ?_⟩
        · rw [World.writer?, known, Option.bind_some, made]
          exact due
        · rw [World.hasDrained, known]
          dsimp only
          rw [made, Option.any_some]
          exact decide_eq_true drained
      · cases due
    · cases due
  · cases due

theorem CallsDrains.telling (calls : CallsDrains h w.history) :
    CallsDrains h (w.telling job outcome rest).history := by
  generalize completing : (w.delivering job outcome rest).completing job outcome = v
  let e : Entry := ⟨(w.delivering job outcome rest).context, .completed job outcome, v.handles⟩
  have arrived : (w.arriving job outcome rest).history = e :: w.history := by
    rw [World.history_arriving, completing]
  rcases due : e.drainDue? h with _ | wait
  · have silent : CallsDrains h (w.arriving job outcome rest).history := by
      rw [arrived]
      exact calls.cons due
    exact silent.notes w.endsNothing_telling
  · obtain ⟨rfl, ⟨n, send⟩, ⟨bytes, rfl⟩, waiting, drained⟩ := waiting_of_drainDue? due
    have told : (w.telling job (.ok bytes) rest).history =
        ⟨v.context, .drained job.handle wait.id wait.handler.tag,
          (v.clearDrain job.handle).handles⟩ :: e :: w.history := by
      subst completing
      rw [World.telling_send send, World.toldDrained, waiting]
      dsimp only
      rw [if_pos drained]
      rfl
    rw [told]
    exact calls.call due rfl

/-- In every run each drain callback is called as soon as it is to be. -/
theorem Reachable.callsDrains (reached : Reachable mode w) (h : HandleId) :
    CallsDrains h w.history := by
  refine Reachable.streams_induct (h := h) (P := fun w => CallsDrains h w.history)
    ?_ ?_ ?_ ?_ ?_ reached
  · intro workers files newer e older wait split
    cases newer <;> cases split
  · intro w after calls change
    exact calls.notes change.endsNothing
  · intro w job outcome rest _ _ _ calls
    exact calls.telling
  · intro w id calls
    exact calls.cons rfl
  · intro w calls
    exact calls.notes w.endsNothing_readingOn

/-- A drain callback is called by the write of the stream that has the queue drain, right
    when its outcome arrives.  When every write accepted on a handle is delivered and all
    deliveries have returned, no drain callback waits on the handle, as long as the last write
    to be delivered was one of the stream.  Direct writes may come before it in any number,
    the marks of the queue may be set at any time, and writes may fail. -/
theorem no_drain_waits_after_sends (reached : Reachable mode w) (h : HandleId) :
    (∀ newer e older wait, w.history = newer ++ e :: older → e.drainDue? h = some wait →
      ∃ newer' e', newer = newer' ++ [e'] ∧ e'.event = .drained h wait.id wait.handler.tag) ∧
    ∀ v, w.writer? h = some v → w.DeliveriesReturned →
      (∀ a ∈ w.undelivered h, a.completion.operation ≠ .write) →
      (∀ job, w.lastWrite? h = some job → ¬ job.WritesDirectly) → v.drain = none := by
  refine ⟨reached.callsDrains h, fun v made returned delivered last => ?_⟩
  obtain ⟨s, known, made⟩ := Option.bind_eq_some_iff.mp made
  have stream : s.writeStream = v := by rw [Handle.writeStream, made, Option.getD_some]
  by_contra waits
  rw [← stream] at waits
  rcases (reached.waking h).wakes returned s known waits with some | ⟨job, found, direct⟩
  · obtain ⟨a, undelivered, write⟩ := reached.write_undelivered known some
    exact delivered a undelivered write
  · exact last job found direct

/-- A run in which three bytes are written directly and two to the stream, and a callback waits
    for all but one of them to be written. -/
def mixedRun : Option World :=
  (World.start 1 ⟨[], []⟩).follow
    [.body 0 [
      .openFile 0 { write := true } .log (.memory (.bytes []) none {}),
      .writeStream 0,
      .setQueueMax 0 2,
      .write 0 (.bytes [1, 2, 3]) 0 ⟨"written", [], []⟩,
      .send 0 (.bytes [4, 5]),
      .onDrain 0 ⟨"drained", [], []⟩],
    .take, .answer 0 (.moved 3 []), .finish 0, .task,
    .take, .answer 1 (.moved 1 []), .answer 1 (.moved 1 []), .finish 1, .task]

theorem drain_is_called_after_mixed_writes : ∃ w v, mixedRun = some w ∧
    w.writer? 0 = some v ∧ w.undelivered 0 = [] ∧ v.drain = none ∧
    ∃ newer e' e older wait, w.history = newer ++ e' :: e :: older ∧
      e.drainDue? 0 = some wait ∧ e'.event = .drained 0 wait.id wait.handler.tag := by
  have stands : (mixedRun.bind fun w => (w.writer? 0).bind fun v =>
      (w.history.findSome? (·.drainDue? 0)).map fun wait => (wait.id, (w.undelivered 0).length,
        decide (∀ job ∈ w.lastWrite? 0, ¬ job.WritesDirectly))) =
      some (0, 0, true) := by decide +kernel
  obtain ⟨w, run, found⟩ := Option.bind_eq_some_iff.mp stands
  obtain ⟨v, made, found⟩ := Option.bind_eq_some_iff.mp found
  obtain ⟨wait, found, same⟩ := Option.map_eq_some_iff.mp found
  obtain ⟨-, none, last⟩ : _ ∧ (w.undelivered 0).length = 0 ∧ _ := by
    simpa only [Prod.mk.injEq] using same
  have reached : Reachable .calm w := World.reachable_of_follow run
  have delivered := List.eq_nil_of_length_eq_zero none
  obtain ⟨called, waits⟩ := no_drain_waits_after_sends reached 0
  refine ⟨w, v, run, made, delivered, ?_, ?_⟩
  · refine waits v made reached.deliveriesReturned ?_ ?_
    · rw [delivered]
      exact fun a listed => absurd listed List.not_mem_nil
    · exact fun job found => of_decide_eq_true last job found
  · obtain ⟨e, listed, due⟩ := List.exists_of_findSome?_eq_some found
    obtain ⟨newer, older, split⟩ := List.append_of_mem listed
    obtain ⟨newer', e', rfl, event⟩ := called newer e older wait split due
    exact ⟨newer', e', e, older, wait, by rw [split, List.append_assoc]; rfl, due, event⟩

/-- A run in which three bytes are written directly while a callback waits for all but one of
    them to be written. -/
def directRun : Option World :=
  (World.start 1 ⟨[], []⟩).follow
    [.body 0 [
      .openFile 0 { write := true } .log (.memory (.bytes []) none {}),
      .writeStream 0,
      .setQueueMax 0 2,
      .write 0 (.bytes [1, 2, 3]) 0 ⟨"written", [], []⟩,
      .onDrain 0 ⟨"drained", [], []⟩],
    .take, .answer 0 (.moved 3 []), .finish 0, .task]

/-- After a direct write a drain callback goes on waiting, although the handle is open and
    everything accepted on it is delivered. -/
theorem direct_write_wakes_nobody : ∃ w s v, directRun = some w ∧ Reachable .calm w ∧
    w.handles[0]? = some s ∧ s.closed = false ∧ s.outstanding = 0 ∧ w.undelivered 0 = [] ∧
    s.writer = some v ∧ v.drain.isSome = true ∧ w.drainCalls 0 = [] := by
  have stands : (directRun.bind fun w => w.handles[0]?.bind fun s => s.writer.map fun v =>
      (s.closed, s.outstanding, (w.undelivered 0).length, v.drain.isSome, w.drainCalls 0)) =
      some (false, 0, 0, true, []) := by decide +kernel
  obtain ⟨w, run, found⟩ := Option.bind_eq_some_iff.mp stands
  obtain ⟨s, known, found⟩ := Option.bind_eq_some_iff.mp found
  obtain ⟨v, made, same⟩ := Option.map_eq_some_iff.mp found
  obtain ⟨opened, nothing, none, waits, calls⟩ : s.closed = false ∧ s.outstanding = 0 ∧
      (w.undelivered 0).length = 0 ∧ v.drain.isSome = true ∧ w.drainCalls 0 = [] := by
    simpa only [Prod.mk.injEq] using same
  exact ⟨w, s, v, run, World.reachable_of_follow run, known, opened, nothing,
    List.eq_nil_of_length_eq_zero none, made, waits, calls⟩

end PinnedFile
