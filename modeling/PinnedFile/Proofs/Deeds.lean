/-
  PinnedFile.Proofs.Deeds

  What happens on the loop, one change at a time.

  A chore is a move of a client, or what the loop itself does around it: it has a stream go on,
  queues a close that is due, enters and leaves a context.  A deed is a chore, or it is noted that
  a task of a client begins, or the client is told of an outcome.  What a task does is deeds, and
  a delivery is one telling and chores once its operation is completed.  So a law about all
  moments of a run, and not only about those between two tasks, is looked at deed by deed.
-/

import PinnedFile.Proofs.Lifetime.Runs

namespace PinnedFile

open Run

/-- One change that is made on the loop, or by a client outside of it, with which no task begins
    and nobody is told of an outcome. -/
inductive Chore : World → World → Prop where
  | move {w after : World} (move : Move w after) : Chore w after
  /-- A delivery has come to the end of its announcement. -/
  | delivered {w : World} (id : OperationId) : Chore w (w.record (.delivered id))
  /-- A read stream goes on after a chunk. -/
  | goOn {w : World} {h : HandleId} (here : w.OnOwner h) : Chore w (w.readingOn h)
  /-- A close that waited is queued, if it is due. -/
  | closeIfQuiet {w : World} (h : HandleId) : Chore w (exec (closeIfQuiet h) w).2
  | post {w : World} {task : Task} (plain : task.job? = none) : Chore w (w.post task)
  /-- A context is entered or left, a new one is made, or a panic is noted. -/
  | switch {w : World} (context : Option ContextId) (held : List HandleId)
      (panicNote : Option String) (nextContext : Nat) :
      Chore w { w with context, held, panicNote, nextContext }

/-- A world in which it is noted that a task begins, if that is noted. -/
def World.starting (w : World) : Task → World
  | .deliver _ _ => w
  | .client _ task => w.record (.started task.tag)
  | .later _ => w.record .later

/-- One change that is made on the loop, or by a client outside of it. -/
inductive Deed : World → World → Prop where
  | chore {w after : World} (chore : Chore w after) : Deed w after
  | start {w : World} (task : Task) : Deed w (w.starting task)
  /-- The client is told of an outcome, on the context of the handle. -/
  | tell {w : World} {job : Job} (outcome : Outcome) (here : w.OnOwner job.handle) :
      Deed w (w.told job outcome)

/-- Any number of chores, one after the other. -/
abbrev Chores : World → World → Prop := Relation.ReflTransGen Chore

/-- Any number of deeds, one after the other. -/
abbrev Deeds : World → World → Prop := Relation.ReflTransGen Deed

variable {mode : Mode} {w after : World} {h : HandleId} {job : Job} {outcome : Outcome}
  {rest : Queue Task}

theorem Moves.chores (moves : Moves w after) : Chores w after :=
  Relation.ReflTransGen.mono (fun _ _ => .move) _ _ moves

theorem Chores.deeds (chores : Chores w after) : Deeds w after :=
  Relation.ReflTransGen.mono (fun _ _ => .chore) _ _ chores

/-! ## Tasks -/

theorem chores_readsOn (here : w.OnOwner job.handle) : Chores w (w.readsOn job outcome) := by
  unfold World.readsOn
  split
  · exact .single (.goOn here)
  · exact .refl

/-- Once the client is told of an outcome, a delivery is chores, however it ends. -/
theorem chores_deliver (outcome : Outcome) (here : w.OnOwner job.handle) :
    Chores ((w.completing job outcome).told job outcome) (exec (deliver job outcome) w).2 := by
  have there := World.onOwner_completing job outcome here
  have told := Moves.chores (moves_tell job outcome there)
  have stays := World.onOwner_announce job outcome here
  rw [exec_deliver here]
  rcases tells : exec (tell job outcome) (w.completing job outcome) with ⟨message | _, first⟩
  · -- a callback panics, and that is the end of it
    have announced : exec (announce job outcome) w = (.error message, first) := by
      rw [exec_announce, exec_bind_error tells]
    rw [exec_bind_error announced]
    rwa [tells] at told
  · have announced : exec (announce job outcome) w =
        (.ok (), first.record (.delivered job.id)) := by
      rw [exec_announce, exec_bind_ok tells, exec_note]
    rw [announced] at stays
    rw [tells] at told
    rw [exec_bind_ok announced]
    refine (told.tail (.delivered job.id)).trans ?_
    have goes_on : Chores _ (World.readsOn _ job outcome) := chores_readsOn stays
    rw [← exec_readOn] at goes_on
    rcases readsOn : exec (readOn job outcome) (first.record (.delivered job.id))
      with ⟨message | _, second⟩
    · -- there is no room for the next read, and a close that waits is not looked at
      rw [readsOn] at goes_on
      rwa [exec_bind_error readsOn]
    · rw [readsOn] at goes_on
      rw [exec_bind_ok readsOn]
      exact goes_on.tail (.closeIfQuiet job.handle)

/-- Once its operation is completed, a delivery is deeds. -/
theorem deeds_deliver (outcome : Outcome) (here : w.OnOwner job.handle) :
    Deeds (w.completing job outcome) (exec (deliver job outcome) w).2 :=
  .head (.tell outcome (World.onOwner_completing job outcome here))
    (chores_deliver outcome here).deeds

/-- Around what a task does, its context is entered and left. -/
theorem chores_leave {α : Type} {context : ContextId} {holds : List HandleId} {code : Run α} :
    Chores (exec code (w.entered context holds)).2 (w.runOn context holds code).2 := by
  obtain ⟨note, same⟩ := @World.exists_runOn w α context holds code
  rw [same]
  generalize (exec code (w.entered context holds)).2 = v
  refine .head (.switch w.context w.held v.panicNote v.nextContext) ?_
  refine .head (.move .sweep) ?_
  generalize World.sweep _ = swept
  exact .single (.switch swept.context swept.held note swept.nextContext)

theorem chores_enter (context : ContextId) (holds : List HandleId) :
    Chores w (w.entered context holds) :=
  .single (.switch (some context) holds w.panicNote w.nextContext)

/-- Code of a client that runs on a context. -/
theorem chores_client {α : Type} {context : ContextId} {holds : List HandleId} {code : Run α}
    (moves : ∀ v, Moves v (exec code v).2) : Chores w (w.runOn context holds code).2 :=
  ((chores_enter context holds).trans (moves _).chores).trans chores_leave

/-- Once it has begun, a task that delivers nothing is chores. -/
theorem chores_plainTask {task : Task} (plain : task.job? = none) :
    Chores (w.starting task) (exec (World.taskCode task) w).2 := by
  cases task with
  | deliver job outcome => cases plain
  | client _ task =>
    rw [World.taskCode, exec_note_bind]
    exact Moves.chores (moves_runAll [] task.body _)
  | later _ => exact .refl

/-- A task that delivers nothing is deeds. -/
theorem deeds_plainTask {task : Task} (plain : task.job? = none) (context : ContextId) :
    Deeds w (w.runOn context [] (World.taskCode task)).2 :=
  (chores_enter context []).deeds.trans
    (.head (.start task) (Chores.deeds ((chores_plainTask plain).trans chores_leave)))

/-! ## Steps -/

/-- A step, taken apart: what it begins with, and the deeds that come of it. -/
inductive Progress : World → World → Prop where
  | deeds {w after : World} (deeds : Deeds w after) : Progress w after
  /-- The loop takes a task that delivers nothing. -/
  | begin {w after : World} {task : Task} {rest : Queue Task}
      (next : w.tasks.pop = some (task, rest)) (plain : task.job? = none)
      (deeds : Deeds { w with tasks := rest } after) : Progress w after
  /-- The loop takes a delivery, and its operation is completed. -/
  | deliver {w after : World} {job : Job} {outcome : Outcome} {rest : Queue Task}
      (next : w.tasks.pop = some (.deliver job outcome, rest))
      (here : (w.delivering job outcome rest).OnOwner job.handle)
      (deeds : Deeds ((w.delivering job outcome rest).completing job outcome) after) :
      Progress w after
  | take {w after : World} (takes : w.takeJob = some after) : Progress w after
  | answer {w : World} {job : Job} {call : Call} (a : Answer) (files : FileTree)
      (backends : List Backend) (running : job ∈ w.running)
      (makes : job.transfer.call? = some call) :
      Progress w ({ w with files, backends }.answer job call a)
  | finish {w : World} {job : Job} {outcome : Outcome} (running : job ∈ w.running)
      (ended : job.transfer.outcome? = some outcome) : Progress w (w.finish job outcome)

theorem Step.progress (step : Step mode w after)
    (known : ∀ job outcome, .deliver job outcome ∈ w.tasks.items →
      ∃ s, w.handles[job.handle]? = some s) : Progress w after := by
  cases step with
  | task runs calm =>
    obtain ⟨task, rest, next, rfl⟩ := World.exists_task_of_runTask runs
    cases task with
    | deliver job outcome =>
      obtain ⟨s, found⟩ := known job outcome (Queue.mem_of_pop next)
      have here := World.onOwner_delivering outcome rest found
      exact .deliver next here ((deeds_deliver outcome here).trans chores_leave.deeds)
    | client context task => exact .begin next rfl (deeds_plainTask rfl _)
    | later context => exact .begin next rfl (deeds_plainTask rfl _)
  | command context c alive => exact .deeds (chores_client (moves_command [] c)).deeds
  | body context body alive => exact .deeds (chores_client (moves_runAll [] body)).deeds
  | outside c => exact .deeds (Moves.chores (moves_command [] c w)).deeds
  | post context task => exact .deeds (.single (.chore (.post rfl)))
  | postLater context => exact .deeds (.single (.chore (.post rfl)))
  | take takes => exact .take takes
  | answer a files backends running makes calm => exact .answer a files backends running makes
  | finish running ended => exact .finish running ended
  | shutDown origin => exact .deeds (.single (.chore (.move (.shutDown origin))))
  | freshContext =>
    exact .deeds (.single (.chore (.switch w.context w.held w.panicNote (w.nextContext + 1))))
  | takePanic =>
    exact .deeds (.single (.chore (.switch w.context w.held none w.nextContext)))

/-! ## The books at every moment -/

namespace Books

variable {b b' : Books} {loose : List Job}

/-- What holds of the books at every moment of a run, and not only between two tasks. -/
structure Standing (b : Books) : Prop where
  coherent : b.Coherent
  accounted : ∃ loose, b.Accounted loose
  known : b.Known
  counted : ∀ counter, b.Counted counter

theorem Sound.standing (sound : Sound mode b) : b.Standing where
  coherent := sound.coherent
  accounted := by
    obtain ⟨loose, accounted, -⟩ := sound.accounted
    exact ⟨loose, accounted⟩
  known := sound.known
  counted := sound.counted

theorem Moves.standing (entries : Moves b b') (standing : b.Standing) : b'.Standing := by
  obtain ⟨loose, accounted⟩ := standing.accounted
  obtain ⟨loose', accounted', -⟩ := Moves.accounted entries standing.coherent accounted
  exact ⟨Moves.coherent entries standing.coherent, ⟨loose', accounted'⟩,
    Moves.known entries standing.known,
    fun counter => Moves.counted entries standing.coherent accounted standing.known
      (standing.counted counter)⟩

theorem Standing.closeIfQuiet (standing : b.Standing) : (b.closeIfQuiet h).Standing := by
  obtain ⟨loose, accounted⟩ := standing.accounted
  obtain ⟨loose', accounted', -⟩ := accounted_closeIfQuiet (h := h) accounted
  exact ⟨coherent_closeIfQuiet standing.coherent, ⟨loose', accounted'⟩,
    standing.known.of_keeps accepted_closeIfQuiet keepsHandles_closeIfQuiet,
    fun counter => counted_closeIfQuiet (standing.counted counter)⟩

/-- The operation that a delivery completes is still on the books, so it can be taken off. -/
theorem Standing.opening {owner : ContextId} (standing : b.Standing)
    (next : b.tasks.pop = some (.deliver job outcome, rest)) :
    (b.opening rest owner job outcome).Standing := by
  obtain ⟨loose, accounted⟩ := standing.accounted
  exact ⟨coherent_opening standing.coherent, ⟨loose, accounted_opening accounted next⟩,
    known_opening standing.known,
    fun counter => counted_opening accounted (standing.counted counter) next⟩

/-- Who was called, and on which context, makes no difference. -/
theorem Standing.of_calls {context : Option ContextId} {handlerCalls : List HandlerCall}
    {callers : List (HandleId × Option ContextId)} (standing : b.Standing) :
    Standing { b with context, handlerCalls, callers } := by
  obtain ⟨loose, accounted⟩ := standing.accounted
  exact ⟨standing.coherent, ⟨loose, accounted.numbered, accounted.balanced⟩, standing.known,
    standing.counted⟩

end Books

theorem World.standing_completing (standing : w.books.Standing)
    (next : w.tasks.pop = some (.deliver job outcome, rest)) :
    ((w.delivering job outcome rest).completing job outcome).books.Standing := by
  rw [World.completing, World.books_record_completed,
    World.books_modifyHandle (·.releasing job.completion) fun _ => rfl]
  have opened :
      (w.books.opening rest (w.taskContext (.deliver job outcome)) job outcome).Standing :=
    standing.opening next
  exact opened.of_calls

/-- A chore changes no more on the books than the context, or it makes one entry of a client, or
    it queues a close that was due. -/
theorem Chore.books (chore : Chore w after) :
    (∃ context, after.books = { w.books with context }) ∨
    Books.Move w.books after.books ∨ ∃ h, after.books = w.books.closeIfQuiet h := by
  cases chore with
  | move move =>
    rcases move.books with same | entry
    · exact .inl ⟨w.context, same⟩
    · exact .inr (.inl entry)
  | delivered id =>
    exact .inl ⟨w.context, World.books_record_aside ⟨rfl, rfl, rfl, rfl, rfl⟩⟩
  | goOn here =>
    rcases World.entry_readingOn here with same | entry
    · exact .inl ⟨w.context, same⟩
    · exact .inr (.inl entry)
  | closeIfQuiet h =>
    obtain ⟨v, ends, same⟩ := exec_closeIfQuiet (w := w) (h := h)
    rw [ends]
    exact .inr (.inr ⟨h, same⟩)
  | post plain => exact .inr (.inl (.post plain))
  | switch context => exact .inl ⟨context, rfl⟩

/-- When the client is told, no more changes on the books than who was called. -/
theorem World.books_told (w : World) (job : Job) (outcome : Outcome) :
    ∃ handlerCalls callers,
      (w.told job outcome).books = { w.books with handlerCalls, callers } := by
  obtain ⟨f, same, told | ⟨e, called, told⟩⟩ := callsAtMost_told w job outcome
  · refine ⟨(job.handlerCall? outcome).toList ++ w.handlerCalls, w.callers, ?_⟩
    rw [told, books_modifyHandle_aside same, books_toldHandler, books_aboutToTell]
    rfl
  · refine ⟨(job.handlerCall? outcome).toList ++ w.handlerCalls,
      (job.handle, w.context) :: w.callers, ?_⟩
    rw [told, books_record_call called, books_modifyHandle_aside same,
      books_toldHandler, books_aboutToTell]
    rfl

/-- The beginning of a task is not on the books. -/
theorem World.books_starting (w : World) (task : Task) : (w.starting task).books = w.books := by
  cases task with
  | deliver => rfl
  | client | later => exact books_record_aside ⟨rfl, rfl, rfl, rfl, rfl⟩

/-- A deed changes no more on the books than who was called and on which context, or it makes
    one entry of a client, or it queues a close that was due. -/
theorem Deed.books (deed : Deed w after) :
    (∃ context handlerCalls callers,
      after.books = { w.books with context, handlerCalls, callers }) ∨
    Books.Move w.books after.books ∨ ∃ h, after.books = w.books.closeIfQuiet h := by
  cases deed with
  | chore chore =>
    rcases chore.books with ⟨context, same⟩ | entry
    · exact .inl ⟨context, w.handlerCalls, w.callers, same⟩
    · exact .inr entry
  | start task => exact .inl ⟨w.context, w.handlerCalls, w.callers, w.books_starting task⟩
  | tell outcome here =>
    obtain ⟨handlerCalls, callers, same⟩ := w.books_told _ outcome
    exact .inl ⟨w.context, handlerCalls, callers, same⟩

theorem Deed.standing (deed : Deed w after) (standing : w.books.Standing) :
    after.books.Standing := by
  rcases deed.books with ⟨context, handlerCalls, callers, same⟩ | entry | ⟨h, same⟩
  · rw [same]
    exact standing.of_calls
  · exact Books.Moves.standing (.single entry) standing
  · rw [same]
    exact standing.closeIfQuiet

/-! ## Laws of all moments -/

/-- What holds at the start, and is kept by every deed, by the beginning of a task, by the
    completion of an operation and by workers, holds in every run. -/
theorem Reachable.deeds_induct {P : World → Prop}
    (start : ∀ workers files, P (.start workers files))
    (deed : ∀ w after, w.books.Standing → P w → Deed w after → P after)
    (begin : ∀ w task rest, w.tasks.pop = some (task, rest) → task.job? = none → P w →
      P { w with tasks := rest })
    (complete : ∀ w job outcome rest, w.tasks.pop = some (.deliver job outcome, rest) →
      Reachable mode w → P w → P ((w.delivering job outcome rest).completing job outcome))
    (take : ∀ w after, w.takeJob = some after → Reachable mode w → P w → P after)
    (answer : ∀ (w : World) job call a files backends, job ∈ w.running →
      job.transfer.call? = some call → Reachable mode w → P w →
      P ({ w with files, backends }.answer job call a))
    (finish : ∀ (w : World) job outcome, job ∈ w.running →
      job.transfer.outcome? = some outcome → Reachable mode w → P w → P (w.finish job outcome))
    (reached : Reachable mode w) : P w := by
  have deeds {v v' : World} (made : Deeds v v') (standing : v.books.Standing) (kept : P v) :
      P v' := by
    -- the books stand at every deed on the way, not only where a step ends
    suffices both : v'.books.Standing ∧ P v' from both.2
    induction made with
    | refl => exact ⟨standing, kept⟩
    | tail _ last ih => exact ⟨last.standing ih.1, deed _ _ ih.1 ih.2 last⟩
  refine Reachable.induct start ?_ reached
  intro w after reached kept step
  have standing := reached.sound.standing
  cases step.progress (known_of_sound reached.sound) with
  | deeds made => exact deeds made standing kept
  | @begin _ task rest next plain made =>
    refine deeds made ?_ (begin w task rest next plain kept)
    obtain ⟨loose, accounted⟩ := standing.accounted
    exact ⟨standing.coherent, ⟨loose, Books.accounted_begin accounted next plain⟩,
      standing.known, standing.counted⟩
  | deliver next here made =>
    exact deeds made (World.standing_completing standing next)
      (complete w _ _ _ next reached kept)
  | take takes => exact take w after takes reached kept
  | answer a files backends running makes =>
    exact answer w _ _ a files backends running makes reached kept
  | finish running ended => exact finish w _ _ running ended reached kept

end PinnedFile
