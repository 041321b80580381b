/-
  PinnedFile.Proofs.Books.Delivery

  What a delivery does to the books.

  First the operation is completed: it stops counting, and its handler, if it has one, is
  called.  Then the client's code makes its entries, and the stream may start its next
  read.  Last, a close that waited for the operation is queued.
-/

import PinnedFile.Proofs.Books.Moves
import PinnedFile.Proofs.Deliveries

namespace PinnedFile

open Run

/-- The call of the handler of an operation whose native work came to `outcome`. -/
def Job.handlerCall? (job : Job) (outcome : Outcome) : Option HandlerCall :=
  job.completion.handler?.map fun handler =>
    ⟨job.id, job.completion.operation, handler.tag, job.completion.result outcome⟩

namespace Books

/-- Books with an operation completed. -/
def complete (b : Books) (job : Job) (outcome : Outcome) : Books :=
  { b with
    handles := b.handles.modify job.handle (·.releasing job.completion)
    completed := (job, outcome) :: b.completed
    callers := (job.handle, b.context) :: b.callers
    handlerCalls := (job.handlerCall? outcome).toList ++ b.handlerCalls }

theorem isHome_complete {b : Books} {h : HandleId} {job : Job} {outcome : Outcome}
    (home : b.IsHome h) : (b.complete job outcome).IsHome h := by
  obtain ⟨s, known, here⟩ := home
  have keeps : KeepsHandles b.handles (b.complete job outcome).handles :=
    keepsHandles_modify (f := (·.releasing job.completion)) (fun _ => rfl) fun _ closed => closed
  obtain ⟨s', known', owner, -⟩ := keeps h s known
  exact ⟨s', known', by rw [owner]; exact here⟩

/-- Books with the close queued that waits on a handle which is now quiet. -/
def closeIfQuiet (b : Books) (h : HandleId) : Books :=
  match b.handles[h]? with
  | none => b
  | some s =>
    if s.closed && s.isQuiet then
      match s.pendingClose with
      | none => b
      | some job => (b.modify h ({ · with pendingClose := none })).submit job
    else b

/-- A close is queued if it waits on a closed handle that is quiet, and else nothing is done. -/
theorem closeIfQuiet_cases (b : Books) (h : HandleId) :
    (b.closeIfQuiet h = b ∧ ∀ s, b.handles[h]? = some s → s.closed = true → s.isQuiet = true →
      s.pendingClose = none) ∨
    ∃ s job, b.handles[h]? = some s ∧ s.isQuiet = true ∧ s.pendingClose = some job ∧
      b.closeIfQuiet h = (b.modify h ({ · with pendingClose := none })).submit job := by
  rcases known : b.handles[h]? with _ | s
  · refine .inl ⟨?_, fun s found => by cases found⟩
    rw [closeIfQuiet, known]
  rcases waits : s.pendingClose with _ | job
  · refine .inl ⟨?_, fun s' same _ _ => ?_⟩
    · simp only [closeIfQuiet, known, waits, ite_self]
    · rw [← Option.some.inj same, waits]
  by_cases due : (s.closed && s.isQuiet) = true
  · refine .inr ⟨s, job, rfl, ((Bool.and_eq_true _ _).mp due).2, waits, ?_⟩
    simp only [closeIfQuiet, known, waits, if_pos due]
  · refine .inl ⟨?_, fun s' same closed quiet => ?_⟩
    · simp only [closeIfQuiet, known, if_neg due]
    · obtain rfl := Option.some.inj same
      rw [closed, quiet] at due
      cases due rfl

end Books

variable {w : World} {h : HandleId}

/-! ## What the client is told -/

namespace World

/-- A world that differs in the streams of a handle and in at most one call that is noted. -/
def CallsAtMost (h : HandleId) (w after : World) : Prop :=
  ∃ f : Handle → Handle, (∀ s, (f s).core = s.core) ∧
    (after = w.modifyHandle h f ∨
      ∃ e : Event, e.IsCallFor h ∧ after = (w.modifyHandle h f).record e)

theorem callsAtMost_refl : CallsAtMost h w w :=
  ⟨id, fun _ => rfl, .inl (by simp only [modifyHandle, List.modify_id])⟩

theorem callsAtMost_record {e : Event} (called : e.IsCallFor h) : CallsAtMost h w (w.record e) :=
  ⟨id, fun _ => rfl, .inr ⟨e, called, by simp only [modifyHandle, List.modify_id]⟩⟩

/-- The call of a listener of a stream. -/
theorem callsAtMost_call {f : Handle → Handle} {e : Event} (same : ∀ s, (f s).core = s.core)
    (called : e.IsCallFor h) : CallsAtMost h w ((w.modifyHandle h f).record e) :=
  ⟨f, same, .inr ⟨e, called, rfl⟩⟩

theorem callsAtMost_toldSink {e : FileError} : CallsAtMost h w (w.toldSink h e) := by
  unfold toldSink
  split
  · exact callsAtMost_refl
  · exact callsAtMost_record rfl

/-- A change of the streams of a handle before at most one call. -/
theorem CallsAtMost.after_modify {f : Handle → Handle} {after : World}
    (calls : CallsAtMost h (w.modifyHandle h f) after) (same : ∀ s, (f s).core = s.core) :
    CallsAtMost h w after := by
  obtain ⟨g, same', calls⟩ := calls
  refine ⟨g ∘ f, fun s => (same' (f s)).trans (same s), ?_⟩
  simpa only [modifyHandle, List.modify_modify_eq] using calls

theorem callsAtMost_toldChunk {outcome : Outcome} :
    CallsAtMost h w (w.toldChunk h outcome) := by
  have received (after : World)
      (calls : CallsAtMost h (w.modifyReader h (·.receiving outcome)) after) :
      CallsAtMost h w after := calls.after_modify fun _ => rfl
  apply received
  rcases outcome with e | _ | ⟨first, rest⟩
  · show CallsAtMost h _ (toldReadFailure _ h _)
    unfold toldReadFailure
    split
    · exact callsAtMost_toldSink
    · exact callsAtMost_call (fun _ => rfl) rfl
  · show CallsAtMost h _ (toldEnd _ h)
    unfold toldEnd
    split
    · exact callsAtMost_refl
    · exact callsAtMost_call (fun _ => rfl) rfl
  · show CallsAtMost h _ (toldData _ h _)
    unfold toldData
    split
    · exact callsAtMost_refl
    · exact callsAtMost_call (fun _ => rfl) rfl

theorem callsAtMost_toldWithoutHandler (w : World) (job : Job) (outcome : Outcome) :
    CallsAtMost job.handle w (w.toldWithoutHandler job outcome) := by
  unfold toldWithoutHandler
  split
  · exact callsAtMost_toldChunk
  · unfold toldDrained
    split
    · exact callsAtMost_refl
    · split
      · exact callsAtMost_call (fun _ => rfl) rfl
      · exact callsAtMost_refl
  · unfold toldWriteFailure
    split
    · exact callsAtMost_toldSink
    · exact callsAtMost_call (fun _ => rfl) rfl
  · exact callsAtMost_toldSink
  · exact callsAtMost_toldSink
  · exact callsAtMost_refl

/-- Behind the call of the handler, if there is one, comes one more call at most. -/
theorem callsAtMost_told (w : World) (job : Job) (outcome : Outcome) :
    CallsAtMost job.handle ((w.aboutToTell job).toldHandler job outcome) (w.told job outcome) :=
  callsAtMost_toldWithoutHandler _ job outcome

/-- On the context of its handle a delivery without a handler enters at most one call. -/
theorem enters_toldWithoutHandler {job : Job} {outcome : Outcome} (here : w.OnOwner job.handle) :
    Books.Moves w.books (w.toldWithoutHandler job outcome).books := by
  obtain ⟨f, same, told | ⟨e, called, told⟩⟩ := callsAtMost_toldWithoutHandler w job outcome
  · rw [told, books_modifyHandle_aside same]
  · rw [told]
    exact .single (move_record_call (books_modifyHandle_aside same) here called)

theorem books_aboutToTell {job : Job} : (w.aboutToTell job).books = w.books := by
  unfold aboutToTell
  split
  · exact books_modifyHandle_aside fun _ => rfl
  · rfl

theorem books_toldHandler {job : Job} {outcome : Outcome} :
    (w.toldHandler job outcome).books = { w.books with
      handlerCalls := (job.handlerCall? outcome).toList ++ w.books.handlerCalls } := by
  unfold toldHandler Job.handlerCall?
  rcases job.completion.handler? with _ | handler
  · rfl
  · exact books_record_handled

theorem enters_completing {job : Job} {outcome : Outcome} (here : w.OnOwner job.handle) :
    Books.Moves (w.books.complete job outcome)
      ((w.completing job outcome).told job outcome).books := by
  have completed : (((w.completing job outcome).aboutToTell job).toldHandler job outcome).books =
      w.books.complete job outcome := by
    rw [books_toldHandler, books_aboutToTell, completing, books_record_completed,
      books_modifyHandle (·.releasing job.completion) fun _ => rfl]
    rfl
  rw [← completed]
  apply enters_toldWithoutHandler
  rw [← isHome_books_iff, completed]
  exact Books.isHome_complete (isHome_books_iff.mpr here)

end World

/-- An announced operation is completed, and its handler called, before the client makes
    its own entries.  That is so even if a callback panics. -/
theorem enters_announce {job : Job} {outcome : Outcome} (here : w.OnOwner job.handle) :
    Books.Moves (w.books.complete job outcome) (exec (announce job outcome) w).2.books := by
  have told := (World.enters_completing here).trans
    (Moves.books (moves_tell job outcome (World.onOwner_completing job outcome here)))
  rw [exec_announce]
  rcases ends : exec (tell job outcome) (w.completing job outcome) with ⟨message | _, after⟩
  · -- the entries made before the panic stay
    rw [exec_bind_error ends]
    rwa [ends] at told
  · rw [exec_bind_ok ends, exec_note, World.books_record_aside ⟨rfl, rfl, rfl, rfl, rfl⟩]
    rwa [ends] at told

/-! ## What comes after -/

/-- A stream that goes on after a chunk does so on the context of the delivery. -/
theorem enters_readsOn {job : Job} {outcome : Outcome} (here : w.OnOwner job.handle) :
    Books.Moves w.books (w.readsOn job outcome).books := by
  unfold World.readsOn
  split
  · rcases World.entry_readingOn here with same | entry
    · rw [same]
    · exact .single entry
  · exact .refl

/-- The start of a read panics only on an open handle. -/
theorem startRead_error {message : String} {after : World}
    (ends : exec (startRead h) w = (.error message, after)) :
    ∃ s, after.books.handles[h]? = some s ∧ s.closed = false := by
  rw [startRead, exec_get_bind] at ends
  split at ends
  · simp at ends
  next stream idle =>
    rw [exec_modify_bind] at ends
    dsimp only at ends
    split at ends
    next large =>
      rw [exec_bind_error (exec_throw _)] at ends
      obtain ⟨-, rfl⟩ := Prod.mk.inj ends
      rw [World.books_modifyReader]
      obtain ⟨s, known, opened⟩ := World.opened_of_idle idle
      exact ⟨s.core, World.books_handles known, opened⟩
    · cases ends

theorem readOn_error {job : Job} {outcome : Outcome} {message : String} {after : World}
    (ends : exec (readOn job outcome) w = (.error message, after)) :
    ∃ s, after.books.handles[job.handle]? = some s ∧ s.closed = false := by
  unfold readOn at ends
  split at ends
  · rw [exec_get_bind] at ends
    split at ends
    · exact startRead_error ends
    · cases ends
  · cases ends

/-- A close that waits on a handle which is now quiet is queued, and that is all. -/
theorem exec_closeIfQuiet : ∃ after, exec (closeIfQuiet h) w = (.ok (), after) ∧
    after.books = w.books.closeIfQuiet h := by
  rw [closeIfQuiet, exec_get_bind, Books.closeIfQuiet]
  rcases known : w.handles[h]? with _ | s
  · exact ⟨w, rfl, by simp [World.books, known]⟩
  · rw [World.books_handles known]
    dsimp only
    by_cases due : (s.closed && s.isQuiet) = true
    · have dueCore : (s.core.closed && s.core.isQuiet) = true := due
      rw [if_pos due, if_pos dueCore, show s.core.pendingClose = s.pendingClose from rfl]
      rcases s.pendingClose with _ | job
      · exact ⟨w, rfl, rfl⟩
      · refine ⟨_, rfl, ?_⟩
        rw [World.books_submit,
          World.books_modifyHandle ({ · with pendingClose := none }) fun _ => rfl]
        rfl
    · have dueCore : ¬ (s.core.closed && s.core.isQuiet) = true := due
      rw [if_neg due, if_neg dueCore]
      exact ⟨w, rfl, rfl⟩

end PinnedFile
