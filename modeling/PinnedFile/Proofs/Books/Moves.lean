/-
  PinnedFile.Proofs.Books.Moves

  What the code of a client does to the books.

  There are six kinds of entries: an operation is accepted and queued, a handle is closed
  (at once, or as soon as it is quiet), a callback is called, a handle is opened, a task is
  posted, all is shut down.  Every move of a client makes one of these entries or none.
-/

import PinnedFile.Proofs.Books.Basic
import PinnedFile.Proofs.Moves

namespace PinnedFile

/-- What a transfer looks like when its operation is accepted. -/
def Completion.Fits : Completion → Transfer → Prop
  | .write n _, t | .send n, t => ∃ data position, t = .ofWrite data position ∧ data.length = n
  | .read .., t | .chunk, t => ∃ position length, t = .ofRead position length
  | .flush _, t => t = .sync
  | .close _, t => t = .close

namespace Books

/-- The job of the next operation. -/
def nextJob (b : Books) (h : HandleId) (t : Transfer) (c : Completion) : Job :=
  ⟨b.nextOperation, h, t, c⟩

/-- Books with one more operation accepted. -/
def accept (b : Books) (h : HandleId) (t : Transfer) (c : Completion) : Books :=
  { b with
    handles := b.handles.modify h (·.taking c)
    accepted := b.nextJob h t c :: b.accepted
    callers := (h, b.context) :: b.callers
    nextOperation := b.nextOperation + 1 }

/-- Books with a job behind those that wait for a worker. -/
def submit (b : Books) (job : Job) : Books := { b with jobs := (b.jobs.push job).2 }

/-- Books with a handle changed. -/
def modify (b : Books) (h : HandleId) (f : Handle → Handle) : Books :=
  { b with handles := b.handles.modify h f }

/-- Books with a task behind those that wait for the loop. -/
def post (b : Books) (task : Task) : Books := { b with tasks := (b.tasks.push task).2 }

/-- Books with the call of a listener, a drain callback or the sink. -/
def call (b : Books) (h : HandleId) : Books :=
  { b with callers := (h, b.context) :: b.callers }

/-- A handle is known, and code that runs is on its context. -/
def IsHome (b : Books) (h : HandleId) : Prop :=
  ∃ s, b.handles[h]? = some s ∧ b.context = some s.owner

/-- A handle accepts an operation: the running code is on its context, and it is open. -/
structure Admits (b : Books) (h : HandleId) (s : Handle) : Prop where
  known : b.handles[h]? = some s
  here : b.context = some s.owner
  opened : s.closed = false

theorem Admits.isHome {b : Books} {h : HandleId} {s : Handle} (admits : b.Admits h s) :
    b.IsHome h := ⟨s, admits.known, admits.here⟩

/-- An entry that the code of a client makes. -/
inductive Move : Books → Books → Prop where
  | accept {b : Books} {h : HandleId} {s : Handle} {t : Transfer} {c : Completion}
      (admits : b.Admits h s) (fits : c.Fits t) (plain : c.operation ≠ .close) :
      Move b ((b.accept h t c).submit (b.nextJob h t c))
  /-- A close of a quiet handle. -/
  | close {b : Books} {h : HandleId} {s : Handle} {handler : Option Handler}
      (admits : b.Admits h s) (quiet : s.isQuiet = true) :
      Move b (((b.accept h .close (.close handler)).modify h ({ · with closed := true })).submit
        (b.nextJob h .close (.close handler)))
  /-- A close that has to wait. -/
  | closeLater {b : Books} {h : HandleId} {s : Handle} {handler : Option Handler}
      (admits : b.Admits h s) (busy : s.isQuiet = false) :
      Move b ((b.accept h .close (.close handler)).modify h fun s =>
        { s with closed := true, pendingClose := some (b.nextJob h .close (.close handler)) })
  | call {b : Books} {h : HandleId} (home : b.IsHome h) : Move b (b.call h)
  | open {b : Books} {s : Handle} (fresh : s.closed = false ∧ s.outstanding = 0 ∧
      s.inFlight = 0 ∧ s.pendingClose = none) (here : b.context = some s.owner) :
      Move b { b with handles := b.handles ++ [s] }
  | post {b : Books} {task : Task} (plain : task.job? = none) : Move b (b.post task)
  | shutDown {b : Books} : Move b { b with jobs := ⟨[], false⟩, tasks := ⟨[], false⟩ }

/-- Any number of entries, one after the other. -/
abbrev Moves : Books → Books → Prop := Relation.ReflTransGen Move

/-! ## Handles stay -/

/-- A handle that was opened stays, with its owner; and once closed it stays closed. -/
def KeepsHandles (before after : List Handle) : Prop :=
  ∀ (h : HandleId) (s : Handle), before[h]? = some s →
    ∃ s' : Handle, after[h]? = some s' ∧ s'.owner = s.owner ∧ (s.closed = true → s'.closed = true)

section HandlesStay

variable {handles middle after : List Handle}

theorem keepsHandles_refl : KeepsHandles handles handles := fun _ s known => ⟨s, known, rfl, id⟩

theorem KeepsHandles.trans (first : KeepsHandles handles middle)
    (second : KeepsHandles middle after) : KeepsHandles handles after := by
  intro h s known
  obtain ⟨s', known', owner', closed'⟩ := first h s known
  obtain ⟨s'', known'', owner'', closed''⟩ := second h s' known'
  exact ⟨s'', known'', owner''.trans owner', fun closed => closed'' (closed' closed)⟩

theorem keepsHandles_modify {k : HandleId} {f : Handle → Handle}
    (owner : ∀ s, (f s).owner = s.owner) (closed : ∀ s, s.closed = true → (f s).closed = true) :
    KeepsHandles handles (handles.modify k f) := by
  intro h s known
  by_cases equal : k = h
  · subst equal
    exact ⟨f s, by simp [known], owner s, closed s⟩
  · exact ⟨s, by simp [known, equal], rfl, id⟩

theorem keepsHandles_append {more : List Handle} : KeepsHandles handles (handles ++ more) := by
  intro h s known
  have inside := (List.getElem?_eq_some_iff.mp known).1
  exact ⟨s, by rw [List.getElem?_append_left inside, known], rfl, id⟩

theorem keepsHandles_taking {h : HandleId} {c : Completion} :
    KeepsHandles handles (handles.modify h (·.taking c)) :=
  keepsHandles_modify (f := (·.taking c)) (fun _ => rfl) fun _ closed => closed

theorem Move.keepsHandles {b after : Books} (entry : Move b after) :
    KeepsHandles b.handles after.handles := by
  cases entry with
  | accept admits fits plain => exact keepsHandles_taking
  | close admits quiet =>
    apply keepsHandles_taking.trans
    apply keepsHandles_modify
    · intro s
      rfl
    · intro s _
      rfl
  | closeLater admits busy =>
    apply keepsHandles_taking.trans
    apply keepsHandles_modify
    · intro s
      rfl
    · intro s _
      rfl
  | «open» fresh => exact keepsHandles_append
  | call | post | shutDown => exact keepsHandles_refl

theorem Moves.keepsHandles {b after : Books} (entries : Moves b after) :
    KeepsHandles b.handles after.handles := by
  induction entries with
  | refl => exact keepsHandles_refl
  | tail _ last ih => exact ih.trans last.keepsHandles

theorem Move.context {b after : Books} (entry : Move b after) : after.context = b.context := by
  cases entry <;> rfl

theorem Moves.context {b after : Books} (entries : Moves b after) :
    after.context = b.context := by
  induction entries with
  | refl => rfl
  | tail _ last ih => exact last.context.trans ih

/-- A handle is opened on the context of the running code. -/
theorem Move.owner_of_opened {b after : Books} {h : HandleId} {s : Handle} (entry : Move b after)
    (unknown : b.handles[h]? = none) (known : after.handles[h]? = some s) :
    b.context = some s.owner := by
  cases entry with
  | accept | close | closeLater =>
    simp [Books.accept, Books.submit, Books.modify, List.getElem?_modify, unknown] at known
  | «open» fresh here =>
    rw [List.getElem?_append_right (List.getElem?_eq_none_iff.mp unknown)] at known
    obtain rfl := List.mem_singleton.mp (List.mem_of_getElem? known)
    exact here
  | call | post | shutDown =>
    rw [show b.handles[h]? = some s from known] at unknown
    cases unknown

theorem Moves.owner_of_opened {b after : Books} {h : HandleId} {s : Handle}
    (entries : Moves b after) (unknown : b.handles[h]? = none)
    (known : after.handles[h]? = some s) : b.context = some s.owner := by
  induction entries generalizing s with
  | refl =>
    rw [unknown] at known
    cases known
  | @tail middle after before last ih =>
    rcases opened : middle.handles[h]? with _ | s'
    · rw [← Moves.context before]
      exact last.owner_of_opened opened known
    · -- it was opened before, and has kept its owner
      obtain ⟨s'', known', owner, -⟩ := last.keepsHandles h s' opened
      obtain rfl := Option.some.inj (known.symm.trans known')
      rw [owner]
      exact ih opened

theorem Moves.isHome {b after : Books} {h : HandleId} (entries : Moves b after)
    (home : b.IsHome h) : after.IsHome h := by
  obtain ⟨s, known, here⟩ := home
  obtain ⟨s', known', owner, -⟩ := entries.keepsHandles h s known
  exact ⟨s', known', by rw [entries.context, here, owner]⟩

end HandlesStay

end Books

namespace World

/-! ## The entries of requests -/

theorem books_submit {w : World} {job : Job} : (w.submit job).books = w.books.submit job := by
  rcases w with ⟨workers, files, backends, handles, slots, ⟨items, _ | _⟩⟩ <;> rfl

theorem books_shutDown {w : World} {origin : Origin} :
    (w.shutDown origin).books =
      { w.books with jobs := ⟨[], false⟩, tasks := ⟨[], false⟩ } := by
  simp only [shutDown, books_sweep]
  rw [books_record_aside ⟨rfl, rfl, rfl, rfl, rfl⟩]
  rfl

theorem books_accept {w : World} {h : HandleId} {t : Transfer} {c : Completion} :
    (w.accept h t c).2.books = w.books.accept h t c := by
  have entry : (w.modifyHandle h (·.taking c)).books = w.books.modify h (·.taking c) :=
    books_modifyHandle _ fun _ => rfl
  have recorded : ((w.modifyHandle h (·.taking c)).record
      (.accepted ⟨w.nextOperation, h, t, c⟩)).books = _ := books_record_accepted
  rw [entry] at recorded
  exact congrArg (fun b : Books => { b with nextOperation := w.nextOperation + 1 }) recorded

theorem books_enqueue {w : World} {h : HandleId} {t : Transfer} {c : Completion} :
    (w.enqueue h t c).books =
      (w.books.accept h t c).submit (w.books.nextJob h t c) := by
  rw [enqueue, books_submit, books_accept]
  rfl

theorem accepted_enqueue {w : World} {h : HandleId} {t : Transfer} {c : Completion} :
    (w.enqueue h t c).accepted = ⟨w.nextOperation, h, t, c⟩ :: w.accepted :=
  congrArg Books.accepted books_enqueue

theorem completed_enqueue {w : World} {h : HandleId} {t : Transfer} {c : Completion} :
    (w.enqueue h t c).completed = w.completed := congrArg Books.completed books_enqueue

theorem admits_of_check {w : World} {h : HandleId} {s : Handle} (accepted : w.check h = .ok s) :
    w.books.Admits h s.core := by
  obtain ⟨known, here, opened⟩ := check_eq_ok_iff.mp accepted
  exact ⟨books_handles known, here, opened⟩

theorem isHome_books_iff {w : World} {h : HandleId} : w.books.IsHome h ↔ w.OnOwner h := by
  constructor
  · rintro ⟨s, known, here⟩
    obtain ⟨s', known', rfl⟩ := handles_of_books known
    exact ⟨s', known', here⟩
  · rintro ⟨s, known, here⟩
    exact ⟨s.core, books_handles known, here⟩

/-- On the context of its handle a callback is called, whatever its streams are by then. -/
theorem move_record_call {w w' : World} {h : HandleId} {e : Event} (same : w'.books = w.books)
    (here : w.OnOwner h) (called : e.IsCallFor h) :
    Books.Move w.books (w'.record e).books := by
  rw [books_record_call called, same]
  exact .call (isHome_books_iff.mpr here)

/-- An operation that is accepted and queued is one entry. -/
theorem move_enqueue {w : World} {h : HandleId} {s : Handle} {t : Transfer} {c : Completion}
    (accepted : w.check h = .ok s) (fits : c.Fits t) (plain : c.operation ≠ .close) :
    Books.Move w.books (w.enqueue h t c).books := by
  rw [books_enqueue]
  exact .accept (admits_of_check accepted) fits plain

theorem move_close {w after : World} {h : HandleId} {handler : Option (Callback Command)}
    (ok : w.close h handler = .ok after) : Books.Move w.books after.books := by
  obtain ⟨s, accepted, rfl⟩ := except_map_eq_ok.mp ok
  have admits := admits_of_check accepted
  dsimp only
  split
  next quiet =>
    rw [books_submit, books_modifyHandle ({ · with closed := true }) fun _ => rfl, books_accept]
    exact .close admits quiet
  next busy =>
    rw [books_modifyHandle (fun s => { s with pendingClose := some _ }) fun _ => rfl,
      books_modifyHandle ({ · with closed := true }) fun _ => rfl, books_accept]
    dsimp only
    rw [List.modify_modify_eq]
    exact .closeLater admits (Bool.eq_false_iff.mpr busy)

/-- A handle is opened on the current context, whatever happened to backends and files
    before. -/
theorem move_addHandle {w w' : World} {f : Slot} {owner : ContextId} {options : OpenOptions}
    {sink : Sink} {path : Bytes} {backend : BackendId} {native : Option BackendId}
    (same : w'.books = w.books) (owned : options.owner w.context = .ok owner) :
    Books.Move w.books (w'.addHandle f owner options sink path backend native).books := by
  have here : w'.books.context = some owner :=
    (congrArg Books.context same).trans (OpenOptions.current_of_owner owned)
  rw [← same, addHandle, books_setSlot]
  simp only [books, List.map_append, List.map_cons, List.map_nil]
  exact .open (s := Handle.core _) ⟨rfl, rfl, rfl, rfl⟩ here

theorem opened_of_idle {w : World} {h : HandleId} {stream : Reader}
    (idle : w.idleReader? h = some stream) : ∃ s, w.handles[h]? = some s ∧ s.closed = false := by
  unfold idleReader? at idle
  split at idle
  · cases idle
  next s known =>
    split at idle
    · cases idle
    next opened => exact ⟨s, known, Bool.eq_false_iff.mpr opened⟩

theorem admits_of_idle {w : World} {h : HandleId} {stream : Reader} (here : w.OnOwner h)
    (idle : w.idleReader? h = some stream) : ∃ s, w.books.Admits h s := by
  obtain ⟨s, known, same⟩ := here
  obtain ⟨s', known', opened⟩ := opened_of_idle idle
  obtain rfl := Option.some.inj (known.symm.trans known')
  exact ⟨s.core, books_handles known, same, opened⟩

/-- A stream that goes on makes the entry of a read, or none. -/
theorem entry_readingOn {w : World} {h : HandleId} (here : w.OnOwner h) :
    (w.readingOn h).books = w.books ∨ Books.Move w.books (w.readingOn h).books := by
  rcases w.readingOn_cases h with same | ⟨stream, -, idle, started⟩
  · rw [same]
    exact .inl rfl
  · rw [started]
    rcases w.startingRead_cases h stream with ⟨-, large⟩ | ⟨-, fits⟩
    · rw [large]
      exact .inl books_modifyReader
    · obtain ⟨s, admits⟩ := admits_of_idle here idle
      rw [fits, books_enqueue, books_modifyReader]
      exact .inr (.accept admits ⟨_, _, rfl⟩ (by simp [Completion.operation]))

/-- What a stream is asked for is not on the books, but for the read that it begins. -/
theorem entry_asked {w : World} {h : HandleId} {f : Reader → Reader} (here : w.OnOwner h) :
    ((w.modifyReader h f).readingOn h).books = w.books ∨
      Books.Move w.books ((w.modifyReader h f).readingOn h).books := by
  have entry := entry_readingOn (onOwner_modifyReader (f := f) (k := h) here)
  rwa [books_modifyReader] at entry

/-- A request of a stream that is not on the books. -/
theorem books_of_stream_request {w after : World} {h : HandleId} {f : Handle → World}
    (ok : (w.checkStream h).map f = .ok after) (aside : ∀ s, (f s).books = w.books) :
    after.books = w.books := by
  obtain ⟨s, -, rfl⟩ := except_map_eq_ok.mp ok
  exact aside s

theorem books_onDrain {w after : World} {h : HandleId} {handler : Callback Command}
    (ok : w.onDrain h handler = .ok after) : after.books = w.books := by
  refine books_of_stream_request ok fun _ => ?_
  rw [books_record_aside ⟨rfl, rfl, rfl, rfl, rfl⟩, books_modifyWriter]
  rfl

end World

/-- What a move of a client enters into the books. -/
theorem Move.books {w after : World} (move : Move w after) :
    after.books = w.books ∨ Books.Move w.books after.books := by
  cases move with
  | openMemory accepted =>
    obtain ⟨owner, owned, rfl⟩ := except_map_eq_ok.mp accepted
    exact .inr (World.move_addHandle rfl owned)
  | openBackend held accepted =>
    obtain ⟨owner, owned, rfl⟩ := except_map_eq_ok.mp accepted
    exact .inr (World.move_addHandle rfl owned)
  | openPath accepted =>
    obtain ⟨owner, descriptor, files, owned, rfl⟩ := World.exists_openPath accepted
    exact .inr (World.move_addHandle rfl owned)
  | keep => exact .inl World.books_setSlotHandle
  | giveUp => exact .inl World.books_setSlotHandle
  | write accepted =>
    obtain ⟨s, checked, rfl⟩ := except_map_eq_ok.mp accepted
    exact .inr (World.move_enqueue checked ⟨_, _, rfl, rfl⟩ (by simp [Completion.operation]))
  | read accepted =>
    obtain ⟨s, checked, rfl⟩ := World.exists_read accepted
    exact .inr (World.move_enqueue checked ⟨_, _, rfl⟩ (by simp [Completion.operation]))
  | flush accepted =>
    obtain ⟨s, checked, rfl⟩ := except_map_eq_ok.mp accepted
    exact .inr (World.move_enqueue checked rfl (by simp [Completion.operation]))
  | close accepted => exact .inr (World.move_close accepted)
  | readStream f accepted =>
    obtain ⟨s, -, rfl⟩ := except_map_eq_ok.mp accepted
    rw [World.books_setSlot]
    exact .inl (World.books_modifyHandle_aside fun _ => rfl)
  | writeStream f accepted =>
    obtain ⟨s, -, rfl⟩ := except_map_eq_ok.mp accepted
    rw [World.books_setSlot]
    exact .inl (World.books_modifyHandle_aside fun _ => rfl)
  | listen accepted | resume accepted paused =>
    obtain ⟨s, checked, rfl⟩ := except_map_eq_ok.mp accepted
    exact World.entry_asked (World.onOwner_of_check (World.check_of_checkStream checked))
  | clearData accepted | onEnd accepted | onReadFailure accepted | pause accepted
  | resumeFlowing accepted flowing =>
    exact .inl (World.books_of_stream_request accepted fun _ => World.books_modifyReader)
  | setQueueMax accepted | onWriteFailure accepted =>
    exact .inl (World.books_of_stream_request accepted fun _ => World.books_modifyWriter)
  | setChunkSize accepted =>
    obtain ⟨s, -, -, rfl⟩ := World.exists_setChunkSize accepted
    exact .inl World.books_modifyReader
  | send got accepted =>
    obtain ⟨s, checked, rfl⟩ := except_map_eq_ok.mp accepted
    rw [World.books_modifyWriter]
    exact .inr (World.move_enqueue (World.check_of_checkStream checked) ⟨_, _, rfl, rfl⟩
      (by simp [Completion.operation]))
  | awaitDrain accepted waits => exact .inl (World.books_onDrain accepted)
  | drainAtOnce accepted drained =>
    obtain ⟨s, checked, -⟩ := except_map_eq_ok.mp accepted
    have here := World.onOwner_of_check (World.check_of_checkStream checked)
    exact .inr (World.move_record_call
      (World.books_modifyWriter.trans (World.books_onDrain accepted)) here rfl)
  | drained here waiting drained =>
    exact .inr (World.move_record_call World.books_modifyWriter here rfl)
  | hold => exact .inl rfl
  | sweep => exact .inl World.books_sweep
  | strand => exact .inl (World.books_modifyHandle_aside fun _ => rfl)
  | execute => exact .inr (.post rfl)
  | adjust => exact .inl rfl
  | shutDown =>
    rw [World.books_shutDown]
    exact .inr .shutDown
  | ran | panicking => exact .inl (World.books_record_aside ⟨rfl, rfl, rfl, rfl, rfl⟩)

theorem Moves.books {w after : World} (moves : Moves w after) :
    Books.Moves w.books after.books := by
  induction moves with
  | refl => exact .refl
  | tail _ last ih =>
    rcases last.books with same | entry
    · rwa [same]
    · exact ih.tail entry

namespace World

variable {w after : World} {h : HandleId}

/-- The code of a client does not leave the context. -/
theorem OnOwner.moves (here : w.OnOwner h) (moves : PinnedFile.Moves w after) :
    after.OnOwner h :=
  isHome_books_iff.mp (moves.books.isHome (isHome_books_iff.mpr here))

end World

end PinnedFile
