/-
  PinnedFile.Proofs.Copying.Steps

  Runs of the copying, with the schedule and the native calls left open.

  The loop runs the next task, a worker takes a job, a job that has come to its end is handed
  to the loop, in any order; and native calls on the two files return with any answer that
  goes well.  Each such step is calm, and it keeps what is known of the two files: the source
  holds what it held, and the destination what was stored on it so far.
-/

import PinnedFile.Proofs.Copying.Deliveries
import PinnedFile.Proofs.Copying.Files
import PinnedFile.Proofs.Chunks
import PinnedFile.Proofs.Drains

namespace PinnedFile

open Run

/-- A task that returns leaves the context and gives up what it held. -/
theorem World.runOn_of_returns {α : Type} {w : World} {context : ContextId}
    {holds : List HandleId} {code : Run α} {P : α → World → Prop}
    (returns : Returns P code (w.entered context holds)) : ∃ a after, P a after ∧
      (w.runOn context holds code).2 =
        ({ after with context := w.context, held := w.held } : World).sweep := by
  obtain ⟨a, after, ends, holds'⟩ := returns
  refine ⟨a, after, holds', ?_⟩
  have ends : code.run.run { w with context := some context, held := holds } = (.ok a, after) :=
    ends
  rw [World.runOn, ends]

namespace Copying

/-- One step of the copying. -/
inductive Proceeds : World → World → Prop where
  /-- The loop runs the next task. -/
  | task {w after : World} (runs : w.runTask = some after) : Proceeds w after
  /-- A free worker takes the next job. -/
  | take {w after : World} (takes : w.takeJob = some after) : Proceeds w after
  /-- A native call on a regular file returns, and has gone well.  The file then holds what was
      stored. -/
  | answer {w : World} {job : Job} {call : Call} {a : Answer} {s : Handle} {d : Descriptor}
      {data : Bytes} (running : job ∈ w.running) (makes : job.transfer.call? = some call)
      (known : w.handles[job.handle]? = some s) (file : w.backends[s.backend]? = some (.file d))
      (holds : w.files.contents? d.node = some data) (goes : call.GoesWell data a) :
      Proceeds w ({ w with files := w.files.store d.node (call.storing a data) }.answer job call a)
  /-- A job that has come to its end is handed to the loop. -/
  | finish {w : World} {job : Job} {outcome : Outcome} (running : job ∈ w.running)
      (ended : job.transfer.outcome? = some outcome) : Proceeds w (w.finish job outcome)

/-- All native calls have gone well, and the files hold what they are to hold after them. -/
structure Setting.IsSound (contents old : Bytes) (a b : NodeId) (setting : Setting) : Prop where
  smooth : setting.isSmooth = true
  backends : setting.backends = [.file ⟨a, true, false⟩, .file ⟨b, false, true⟩]
  source : setting.files.contents? a = some contents
  destination : setting.files.contents? b =
    some (stored old (setting.exchanges.filter (·.handle = destinationHandle)))
  reads : ∀ x ∈ setting.exchanges, x.handle = sourceHandle → x.call.GoesWell contents x.answer
  writes : ∀ x ∈ setting.exchanges, x.handle = destinationHandle →
    x.call.operation ≠ .read ∧ ∃ data, x.call.GoesWell data x.answer

/-- A world that the copying of `contents` over `old` comes to, between two steps. -/
structure Copies (contents old : Bytes) (a b : NodeId) (w : World) : Prop where
  reached : Reachable .calm w
  staffed : 0 < w.workers
  stands : ∃ setting intake outlet, Between setting.isSmooth intake outlet ∧
    Stands setting intake outlet [] w ∧ setting.IsSound contents old a b

variable {setting : Setting} {intake : Intake} {outlet : Outlet} {contents old bytes : Bytes}
  {a b : NodeId} {w after : World} {job : Job} {outcome : Outcome} {rest : Queue Task}
  {mode : Mode}

/-! ## Operations -/

theorem IsOwn.of_ticket {other : Job} (own : IsOwn other) (same : other.ticket = job.ticket) :
    job.handle = sourceHandle ∧ (job.completion = .chunk ∨ job.completion = .close none) ∨
    job.handle = destinationHandle ∧ ((∃ n, job.completion = .send n) ∨
      ∃ handler, job.completion = .close (some handler) ∧ handler.tag = closedTag ∧
        handler.body = []) := by
  have handle : other.handle = job.handle := congrArg Ticket.handle same
  have completion : other.completion = job.completion := congrArg Ticket.completion same
  rw [← handle, ← completion]
  unfold IsOwn at own
  split at own
  next chunk => exact .inl ⟨own.1, .inl chunk⟩
  next close => exact .inl ⟨own, .inr close⟩
  next n send => exact .inr ⟨own, .inl ⟨n, send⟩⟩
  next handler close => exact .inr ⟨own.1, .inr ⟨handler, close, own.2⟩⟩
  · exact own.elim

/-- A read of the copying asks for one chunk. -/
theorem IsOwn.isAtMost {other : Job} (own : IsOwn other) (chunk : other.completion = .chunk) :
    other.transfer.IsAtMost chunkSize := by
  rw [IsOwn, chunk] at own
  obtain ⟨-, position, transfer⟩ := own
  rw [transfer]
  exact Nat.le_refl chunkSize

/-- Whatever is accepted in the copying is an operation of it. -/
theorem Stands.own {other : Job} (stands : Stands setting intake outlet bytes w)
    (accepted : other ∈ w.accepted) : IsOwn other := by
  obtain ⟨e, listed, told⟩ := mem_accepted_iff.mp accepted
  have proper := stands.proper e listed
  rw [told] at proper
  exact proper

/-- What the native calls on the destination are, and that those on the source are others. -/
theorem Stands.exchangesOn (stands : Stands setting intake outlet bytes w) : w.exchangesOn 1 =
    setting.exchanges.filter (·.handle = destinationHandle) := by
  obtain ⟨s, t, handles, source, destination⟩ := stands.handles
  rw [World.exchangesOn, stands.exchanges]
  apply List.filter_congr
  intro x _
  rw [handles]
  rcases x with ⟨id, _ | _ | h, call, answer⟩
  · simp [source.backend, destinationHandle]
  · simp [destination.backend, destinationHandle]
  · simp [destinationHandle]

/-- The task begins that delivers an outcome. -/
theorem Stands.delivering (stands : Stands setting intake outlet [] w)
    (next : w.tasks.pop = some (.deliver job outcome, rest))
    (known : job.handle = sourceHandle ∨ job.handle = destinationHandle) :
    InTask setting intake outlet [] (w.delivering job outcome rest) := by
  have owner : w.taskContext (.deliver job outcome) = setting.context := by
    rw [World.taskContext]
    rcases known with source | destination
    · obtain ⟨s, known, isSource⟩ := stands.source?
      rw [source, known]
      exact isSource.owner
    · obtain ⟨t, known, isDestination⟩ := stands.destination?
      rw [destination, known]
      exact isDestination.owner
  obtain ⟨whole, isOpen⟩ := Queue.pop_eq_some_iff.mp next
  exact { stands with
    tasks := fun _ => isOpen
    deliveries := fun task listed => stands.deliveries task (by
      rw [whole]
      exact List.mem_cons_of_mem _ listed)
    here := congrArg some owner }

theorem InTask.onOwner {h : HandleId} (stands : InTask setting intake outlet bytes w)
    (known : h = sourceHandle ∨ h = destinationHandle) : w.OnOwner h := by
  rcases known with rfl | rfl
  · obtain ⟨s, known, source⟩ := stands.source?
    exact ⟨s, known, stands.here.trans (congrArg some source.owner.symm)⟩
  · obtain ⟨t, known, destination⟩ := stands.destination?
    exact ⟨t, known, stands.here.trans (congrArg some destination.owner.symm)⟩

/-! ## Deliveries -/

/-- While a read is due the copying reads. -/
theorem Stands.reading_of_due (stands : Stands setting intake outlet [] w)
    (reached : Reachable mode w) (between : Between setting.isSmooth intake outlet)
    (due : w.IsDue job) (own : job.IsChunkOf sourceHandle) :
    intake = { busy := true, counted := true } ∧ outlet = {} := by
  obtain ⟨s, r, known, made, busy, -⟩ := (reached.reading sourceHandle).busy_of_due due own
  obtain ⟨s', known', source⟩ := stands.source?
  obtain rfl := Option.some.inj (known.symm.trans known')
  obtain ⟨r', made', reader⟩ := source.stream
  obtain rfl := Option.some.inj (made.symm.trans made')
  rw [reader.busy] at busy
  cases between with
  | reading => exact ⟨rfl, rfl⟩
  | waiting | finished | stalled => cases busy

/-- A handle of which the close was accepted is closed. -/
theorem closed_of_accepted (reached : Reachable mode w) {other : Job}
    (accepted : other ∈ w.accepted) (closes : other.Closes) {s : Handle}
    (known : w.handles[other.handle]? = some s) : s.closed = true :=
  reached.sound.closing.closed other accepted closes s.core (World.books_handles known)

/-- Both files are closed as soon as either close was accepted. -/
theorem Stands.finished_of_close (stands : Stands setting intake outlet [] w)
    (reached : Reachable mode w) (between : Between setting.isSmooth intake outlet) {other : Job}
    (accepted : other ∈ w.accepted) (closes : other.Closes)
    (known : other.handle = sourceHandle ∨ other.handle = destinationHandle) :
    intake = { ended := true, closed := true } ∧ outlet = { closed := true } := by
  have closed : intake.closed = true ∨ outlet.closed = true := by
    rcases known with source | destination
    · obtain ⟨s, known, isSource⟩ := stands.source?
      rw [← source] at known
      exact .inl (isSource.closed.symm.trans (closed_of_accepted reached accepted closes known))
    · obtain ⟨t, known, isDestination⟩ := stands.destination?
      rw [← destination] at known
      exact .inr
        (isDestination.closed.symm.trans (closed_of_accepted reached accepted closes known))
  cases between with
  | finished => exact ⟨rfl, rfl⟩
  | reading | waiting | stalled => rcases closed with closed | closed <;> cases closed

/-- An outcome that is delivered is announced, and no callback panics. -/
theorem Stands.returns_announce (stands : Stands setting intake outlet [] w)
    (reached : Reachable mode w) (between : Between setting.isSmooth intake outlet)
    (next : w.tasks.pop = some (.deliver job outcome, rest)) (well : setting.GoesWell outcome) :
    (job.handle = sourceHandle ∨ job.handle = destinationHandle) ∧
      (job.completion = .chunk → job.handle = sourceHandle) ∧
      Returns (fun _ after => Announced setting job outcome after) (announce job outcome)
        (w.delivering job outcome rest) := by
  have sound := reached.sound
  have posted : .deliver job outcome ∈ w.tasks.items := Queue.mem_of_pop next
  obtain ⟨other, accepted, ticket, made⟩ :=
    sound.traced.underway job (Books.underway_of_posted posted)
  have own := stands.own accepted
  have finished (closes : job.completion.operation = .close)
      (known : job.handle = sourceHandle ∨ job.handle = destinationHandle) :
      intake = { ended := true, closed := true } ∧ outlet = { closed := true } := by
    have completion : other.completion = job.completion := congrArg Ticket.completion ticket
    have handle : other.handle = job.handle := congrArg Ticket.handle ticket
    refine stands.finished_of_close reached between accepted ?_ (handle ▸ known)
    rw [Job.Closes, completion, closes]
  -- a chunk or a close says by itself which stance it is that it finds
  rcases own.of_ticket ticket with
    ⟨source, chunk | close⟩ | ⟨destination, ⟨n, send⟩ | ⟨handler, close, tag, body⟩⟩
  · obtain ⟨rfl, rfl⟩ := stands.reading_of_due reached between (isDue_of_posted sound posted)
      ⟨source, chunk⟩
    have begun := stands.delivering next (.inl source)
    refine ⟨.inl source, fun _ => source, ?_⟩
    rcases outcome with error | bytes
    · exact returns_announce_failedChunk ⟨source, chunk⟩ begun well
    · refine returns_announce_chunk ⟨source, chunk⟩ begun ?_
      have most := made.isAtMost (own.isAtMost ((congrArg Ticket.completion ticket).trans chunk))
      exact most.length_le (sound.traced.ended job _ posted)
  · obtain ⟨rfl, rfl⟩ := finished (by rw [close]; rfl) (.inl source)
    exact ⟨.inl source, fun _ => source,
      returns_announce_close_source source close (stands.delivering next (.inl source)) well⟩
  · exact ⟨.inr destination, (fun chunk => by rw [send] at chunk; cases chunk),
      returns_announce_send destination send between (stands.delivering next (.inr destination))
        well⟩
  · obtain ⟨rfl, rfl⟩ := finished (by rw [close]; rfl) (.inr destination)
    exact ⟨.inr destination, (fun chunk => by rw [close] at chunk; cases chunk),
      returns_announce_close_destination destination close tag body
        (stands.delivering next (.inr destination)) well⟩

/-- A task takes the copying from one stance to the next. -/
theorem Stands.runTask (stands : Stands setting intake outlet [] w) (reached : Reachable mode w)
    (between : Between setting.isSmooth intake outlet) (runs : w.runTask = some after)
    (well : ∀ job outcome rest, w.tasks.pop = some (.deliver job outcome, rest) →
      setting.GoesWell outcome) : ∃ intake' outlet', Between setting.isSmooth intake' outlet' ∧
      Stands setting intake' outlet' [] after := by
  obtain ⟨task, rest, next, rfl⟩ := World.exists_task_of_runTask runs
  -- the client hands over no tasks, so what the loop runs is a delivery
  obtain ⟨job, outcome, rfl⟩ := stands.deliveries task (Queue.mem_of_pop next)
  obtain ⟨known, own, announced⟩ :=
    stands.returns_announce reached between next (well job outcome rest next)
  have begun := stands.delivering next known
  obtain ⟨_, last, ⟨intake', outlet', between', stands'⟩, same⟩ :=
    World.runOn_of_returns (returns_deliver (begun.onOwner known) known own announced)
  refine ⟨intake', outlet', between', ?_⟩
  have settled : Stands setting intake' outlet' []
      { last with context := w.context, held := w.held } := { stands' with }
  rw [show ({ last with context := w.context, held := w.held } : World).sweep = _ from
    settled.sweep] at same
  show Stands setting intake' outlet' [] (World.runOn _ job.holds (deliver job outcome) _).2
  rw [same]
  exact settled

namespace Copies

theorem isServed (copies : Copies contents old a b w) : w.IsServed sourceHandle contents := by
  obtain ⟨setting, intake, outlet, -, stands, sound⟩ := copies.stands
  intro x listed own
  rw [stands.exchanges] at listed
  exact (sound.reads x listed own).reads

/-- What is read of the source is the beginning of it, and it is what was written. -/
theorem written_eq_take (copies : Copies contents old a b w) :
    dataOf (w.sends destinationHandle) =
      contents.take (dataOf (w.sends destinationHandle)).length := by
  obtain ⟨setting, intake, outlet, -, stands, -⟩ := copies.stands
  have same := stands.copied
  rw [List.append_nil] at same
  rw [← same]
  exact copies.reached.bytesRead_eq_take copies.isServed [] w.history rfl

/-- No more was written than there is in the source. -/
theorem length_written (copies : Copies contents old a b w) :
    (dataOf (w.sends destinationHandle)).length ≤ contents.length := by
  have within := congrArg List.length copies.written_eq_take
  rw [List.length_take] at within
  omega

/-- A read begins within the source. -/
theorem isWell_of_chunk (copies : Copies contents old a b w) {other : Job}
    (accepted : other ∈ w.accepted) (own : other.IsChunkOf sourceHandle)
    (asks : ∃ position, other.transfer = .ofRead position chunkSize) :
    other.transfer.IsWell contents.length chunkSize := by
  obtain ⟨e, listed, told⟩ := mem_accepted_iff.mp accepted
  obtain ⟨newer, older, split⟩ := List.append_of_mem listed
  -- it begins behind what was read before it was accepted, which is a part of the source
  obtain ⟨r, -, -, begins⟩ :=
    ((copies.reached.reading sourceHandle).tiled newer e older split).begun other told own
  obtain ⟨position, transfer⟩ := asks
  obtain rfl : position = (bytesRead sourceHandle older).length :=
    (Transfer.read.inj (transfer.symm.trans begins)).1
  have within := congrArg List.length (copies.reached.bytesRead_eq_take copies.isServed
    (newer ++ [e]) older (by rw [split, List.append_assoc, List.singleton_append]))
  rw [List.length_take] at within
  rw [transfer]
  exact ⟨by omega, Nat.zero_le _, Nat.le_refl _⟩

/-- Every operation is for a place within the source, and reads ask for a chunk. -/
theorem isWell_of_accepted (copies : Copies contents old a b w) {other : Job}
    (accepted : other ∈ w.accepted) : other.transfer.IsWell contents.length chunkSize := by
  obtain ⟨setting, intake, outlet, -, stands, -⟩ := copies.stands
  have own := stands.own accepted
  have begins := copies.reached.sound.traced.fits other accepted
  have operation := own
  unfold IsOwn at operation
  split at operation
  next chunk => exact copies.isWell_of_chunk accepted ⟨operation.1, chunk⟩ operation.2
  next close =>
    rw [close] at begins
    rw [show other.transfer = .close from begins]
    exact trivial
  next n send =>
    obtain ⟨earlier, later, split⟩ := List.append_of_mem
      (mem_sends_iff.mpr ⟨accepted, operation, by rw [send]; rfl⟩)
    rw [(copies.reached.sending destinationHandle).placed earlier other later split]
    exact Nat.le_trans (length_dataOf split) copies.length_written
  next handler close =>
    rw [close] at begins
    rw [show other.transfer = .close from begins]
    exact trivial
  · exact operation.elim

theorem wentWell (copies : Copies contents old a b w)
    (fits : contents.length < Transfer.wordLimit) {x : Exchange} (listed : x ∈ w.exchanges) :
    x.WentWell := by
  obtain ⟨setting, intake, outlet, -, stands, sound⟩ := copies.stands
  obtain ⟨other, accepted, -, handle⟩ := copies.reached.sound.traced.exchanged x listed
  have own := (stands.own accepted).of_ticket rfl
  rw [stands.exchanges] at listed
  rw [handle] at own
  rcases own with ⟨source, -⟩ | ⟨destination, -⟩
  · exact ⟨contents, sound.reads x listed source, fun _ => fits⟩
  · obtain ⟨other, data, goes⟩ := sound.writes x listed destination
    exact ⟨data, goes, fun read => absurd read other⟩

/-- Whatever is on its way goes well, and makes calls of its own kind only. -/
theorem isWell_of_underway (copies : Copies contents old a b w)
    (fits : contents.length < Transfer.wordLimit) (underway : job ∈ w.books.underway) :
    ∃ other ∈ w.accepted, other.ticket = job.ticket ∧ IsOwn other ∧
      job.transfer.IsWell contents.length chunkSize ∧
      job.transfer.IsFor job.completion.operation := by
  obtain ⟨setting, intake, outlet, -, stands, -⟩ := copies.stands
  have sound := copies.reached.sound
  obtain ⟨other, accepted, ticket, made⟩ := sound.traced.underway job underway
  refine ⟨other, accepted, ticket, stands.own accepted, ?_, ?_⟩
  · exact made.isWell (copies.isWell_of_accepted accepted) fits (by decide) fun x calls =>
      copies.wentWell fits (sound.handle_of_exchange accepted calls).1
  · rw [← show other.completion = job.completion from congrArg Ticket.completion ticket]
    exact made.isFor (Transfer.isFor_of_fits (sound.traced.fits other accepted))

/-! ## Tasks -/

/-- What is delivered is a success. -/
theorem goesWell (copies : Copies contents old a b w) (fits : contents.length < Transfer.wordLimit)
    (next : w.tasks.pop = some (.deliver job outcome, rest)) : setting.GoesWell outcome := by
  have posted : .deliver job outcome ∈ w.tasks.items := Queue.mem_of_pop next
  obtain ⟨other, -, -, -, well, -⟩ :=
    copies.isWell_of_underway fits (Books.underway_of_posted posted)
  exact fun _ => well.outcome (copies.reached.sound.traced.ended job outcome posted)

/-- No worker is lost in a step. -/
theorem staffed_of_step (copies : Copies contents old a b w) (step : Step .calm w after) :
    0 < after.workers := by
  have same : after.workers = w.workers :=
    (step.turns_of_sound copies.reached.sound).workers
  rw [same]
  exact copies.staffed

theorem callbacksReturn (copies : Copies contents old a b w)
    (fits : contents.length < Transfer.wordLimit) : w.CallbacksReturn := by
  obtain ⟨setting, intake, outlet, between, stands, -⟩ := copies.stands
  intro job outcome rest next
  have announced := stands.returns_announce copies.reached between next (copies.goesWell fits next)
  exact announced.2.2.exec_eq_ok

/-- A task takes the copying from one stance to the next. -/
theorem runTask (copies : Copies contents old a b w) (fits : contents.length < Transfer.wordLimit)
    (runs : w.runTask = some after) : Copies contents old a b after where
  reached := copies.reached.step (.task runs fun _ => copies.callbacksReturn fits)
  staffed := copies.staffed_of_step (.task runs fun _ => copies.callbacksReturn fits)
  stands := by
    obtain ⟨setting, intake, outlet, between, stands, sound⟩ := copies.stands
    obtain ⟨intake', outlet', between', stands'⟩ := stands.runTask copies.reached between runs
      fun job outcome rest next => copies.goesWell fits next
    exact ⟨setting, intake', outlet', between', stands', sound⟩

end Copies

/-! ## Workers -/

theorem Stands.takeJob (stands : Stands setting intake outlet bytes w)
    (takes : w.takeJob = some after) : Stands setting intake outlet bytes after := by
  obtain ⟨job, rest, next, rfl⟩ := World.exists_takeJob takes
  have stays : Stands setting intake outlet bytes
      { w with jobs := rest, running := w.running ++ [job] } :=
    { stands with jobs := fun smooth => (Queue.isOpen_pop next).symm.trans (stands.jobs smooth) }
  exact stays.recordAside trivial fun _ => trivial

theorem Stands.finish (stands : Stands setting intake outlet bytes w) (job : Job)
    (outcome : Outcome) : Stands setting intake outlet bytes (w.finish job outcome) := by
  rw [World.finish]
  show Stands setting intake outlet bytes (if w.tasks.isOpen then _ else _)
  by_cases alive : w.tasks.isOpen = true
  · have pushed : w.tasks.push (.deliver job outcome) =
        (true, { w.tasks with items := w.tasks.items ++ [.deliver job outcome] }) := if_pos alive
    rw [if_pos alive, World.post, show (w.withoutJob job).tasks = w.tasks from rfl, pushed]
    exact { stands with
      tasks := stands.tasks
      deliveries := fun task listed => by
        rcases List.mem_append.mp listed with before | now
        · exact stands.deliveries task before
        · exact ⟨job, outcome, List.mem_singleton.mp now⟩ }
  · rw [if_neg alive]
    exact { stands with }

/-- A native call returns, and the files are then what they are. -/
theorem Stands.answer (stands : Stands setting intake outlet bytes w) (files : FileTree)
    (job : Job) (call : Call) (answer : Answer) :
    Stands { setting with
      files := files
      exchanges := ⟨job.id, job.handle, call, answer⟩ :: setting.exchanges } intake outlet bytes
      ({ w with files := files }.answer job call answer) := by
  have noted : Stands { setting with
      files := files
      exchanges := ⟨job.id, job.handle, call, answer⟩ :: setting.exchanges } intake outlet bytes
      (({ w with files := files }.withoutJob job).record
        (.native job.id job.handle call answer)) :=
    { stands with
      files := rfl
      exchanges := congrArg (List.cons _) stands.exchanges
      proper := fun e listed => by
        rcases List.mem_cons.mp listed with rfl | before
        · exact trivial
        · exact stands.proper e before
      smooth := fun smooth e listed => by
        rcases List.mem_cons.mp listed with rfl | before
        · exact trivial
        · exact stands.smooth smooth e before
      balanced := fun e listed => by
        rcases List.mem_cons.mp listed with rfl | before
        · exact stands.balanced_handles
        · exact stands.balanced e before
      copied := (bytesRead_cons_of_none rfl).trans stands.copied }
  unfold World.answer
  dsimp only
  split
  · exact { noted with }
  · exact { noted with }

/-- A call on the source goes well, and the files are as they were. -/
theorem Setting.IsSound.read {data : Bytes} {call : Call} {x : Answer} {id : OperationId}
    (sound : setting.IsSound contents old a b) (holds : setting.files.contents? a = some data)
    (goes : call.GoesWell data x) (other : call.operation ≠ .write) :
    Setting.IsSound contents old a b { setting with
      files := setting.files.store a (call.storing x data)
      exchanges := ⟨id, sourceHandle, call, x⟩ :: setting.exchanges } := by
  rw [Call.storing_of_ne other, FileTree.store_self holds]
  obtain rfl := Option.some.inj (sound.source.symm.trans holds)
  exact { sound with
    reads := fun y listed own => by
      rcases List.mem_cons.mp listed with rfl | before
      · exact goes
      · exact sound.reads y before own
    writes := fun y listed own => by
      rcases List.mem_cons.mp listed with rfl | before
      · cases own
      · exact sound.writes y before own }

/-- A call on the destination goes well, and the source is as it was. -/
theorem Setting.IsSound.write {data : Bytes} {call : Call} {x : Answer} {id : OperationId}
    (sound : setting.IsSound contents old a b) (apart : a ≠ b)
    (holds : setting.files.contents? b = some data) (goes : call.GoesWell data x)
    (other : call.operation ≠ .read) :
    Setting.IsSound contents old a b { setting with
      files := setting.files.store b (call.storing x data)
      exchanges := ⟨id, destinationHandle, call, x⟩ :: setting.exchanges } where
  smooth := sound.smooth
  backends := sound.backends
  source := (FileTree.contents?_store_ne apart.symm).trans sound.source
  destination := by
    obtain rfl := Option.some.inj (sound.destination.symm.trans holds)
    exact FileTree.contents?_store_self holds
  reads y listed own := by
    rcases List.mem_cons.mp listed with rfl | before
    · cases own
    · exact sound.reads y before own
  writes y listed own := by
    rcases List.mem_cons.mp listed with rfl | before
    · exact ⟨other, data, goes⟩
    · exact sound.writes y before own

namespace Copies

theorem takeJob (copies : Copies contents old a b w) (takes : w.takeJob = some after) :
    Copies contents old a b after where
  reached := copies.reached.step (.take takes)
  staffed := copies.staffed_of_step (.take takes)
  stands := by
    obtain ⟨setting, intake, outlet, between, stands, sound⟩ := copies.stands
    exact ⟨setting, intake, outlet, between, stands.takeJob takes, sound⟩

theorem finish (copies : Copies contents old a b w) (running : job ∈ w.running)
    (ended : job.transfer.outcome? = some outcome) :
    Copies contents old a b (w.finish job outcome) where
  reached := copies.reached.step (.finish running ended)
  staffed := copies.staffed_of_step (.finish running ended)
  stands := by
    obtain ⟨setting, intake, outlet, between, stands, sound⟩ := copies.stands
    exact ⟨setting, intake, outlet, between, stands.finish job outcome, sound⟩

/-- A native call is a read or the close of the source, or a write or the close of the
    destination. -/
theorem call_cases (copies : Copies contents old a b w)
    (fits : contents.length < Transfer.wordLimit) (running : job ∈ w.running) {call : Call}
    (makes : job.transfer.call? = some call) :
    job.transfer.IsWell contents.length chunkSize ∧
      (job.handle = sourceHandle ∧ call.operation ≠ .write ∨
        job.handle = destinationHandle ∧ call.operation ≠ .read) := by
  obtain ⟨other, -, ticket, own, well, isFor⟩ :=
    copies.isWell_of_underway fits (Books.underway_of_running running)
  refine ⟨well, ?_⟩
  rw [isFor.operation_of_call? makes]
  rcases own.of_ticket ticket with
    ⟨source, chunk | close⟩ | ⟨destination, ⟨n, send⟩ | ⟨handler, close, -⟩⟩
  · exact .inl ⟨source, by rw [chunk]; nofun⟩
  · exact .inl ⟨source, by rw [close]; nofun⟩
  · exact .inr ⟨destination, by rw [send]; nofun⟩
  · exact .inr ⟨destination, by rw [close]; nofun⟩

theorem answer (copies : Copies contents old a b w) (fits : contents.length < Transfer.wordLimit)
    (apart : a ≠ b) {call : Call} {x : Answer} {s : Handle} {d : Descriptor} {data : Bytes}
    (running : job ∈ w.running) (makes : job.transfer.call? = some call)
    (known : w.handles[job.handle]? = some s) (file : w.backends[s.backend]? = some (.file d))
    (holds : w.files.contents? d.node = some data) (goes : call.GoesWell data x) :
    Copies contents old a b
      ({ w with files := w.files.store d.node (call.storing x data) }.answer job call x) := by
  obtain ⟨setting, intake, outlet, between, stands, sound⟩ := copies.stands
  obtain ⟨well, kind⟩ := copies.call_cases fits running makes
  rw [stands.files] at holds ⊢
  rw [stands.backends, sound.backends] at file
  -- what the call was made on, and what is known of it afterwards
  obtain ⟨short, after⟩ : (call.operation = .read → data.length < Transfer.wordLimit) ∧
      Setting.IsSound contents old a b { setting with
        files := setting.files.store d.node (call.storing x data)
        exchanges := ⟨job.id, job.handle, call, x⟩ :: setting.exchanges } := by
    rcases kind with ⟨source, other⟩ | ⟨destination, other⟩
    · obtain ⟨s', known', isSource⟩ := stands.source?
      rw [source] at known ⊢
      obtain rfl := Option.some.inj (known.symm.trans known')
      rw [isSource.backend] at file
      obtain rfl := Backend.file.inj (Option.some.inj file)
      obtain rfl := Option.some.inj (sound.source.symm.trans holds)
      exact ⟨fun _ => fits, sound.read holds goes other⟩
    · obtain ⟨t, known', isDestination⟩ := stands.destination?
      rw [destination] at known ⊢
      obtain rfl := Option.some.inj (known.symm.trans known')
      rw [isDestination.backend] at file
      obtain rfl := Backend.file.inj (Option.some.inj file)
      exact ⟨fun read => absurd read other, sound.write apart holds goes other⟩
  obtain ⟨next, fed, -⟩ := well.feed fits (by decide) makes goes short
  have step : Step .calm w ({ w with
      files := setting.files.store d.node (call.storing x data) }.answer job call x) :=
    .answer x _ w.backends running makes fun _ => by
      rw [fed]
      exact Option.some_ne_none next
  refine ⟨copies.reached.step step, copies.staffed_of_step step, _, intake, outlet, ?_,
    stands.answer _ job call x, after⟩
  exact between

/-- Each step takes the copying on. -/
theorem proceeds (copies : Copies contents old a b w)
    (fits : contents.length < Transfer.wordLimit) (apart : a ≠ b) (step : Proceeds w after) :
    Copies contents old a b after := by
  cases step with
  | task runs => exact copies.runTask fits runs
  | take takes => exact copies.takeJob takes
  | answer running makes known file holds goes =>
    exact copies.answer fits apart running makes known file holds goes
  | finish running ended => exact copies.finish running ended

/-- Any number of steps take it on. -/
theorem steps (copies : Copies contents old a b w) (fits : contents.length < Transfer.wordLimit)
    (apart : a ≠ b) (steps : Relation.ReflTransGen Proceeds w after) :
    Copies contents old a b after := by
  induction steps with
  | refl => exact copies
  | tail before last ih => exact ih.proceeds fits apart last

end Copies

end Copying

end PinnedFile
