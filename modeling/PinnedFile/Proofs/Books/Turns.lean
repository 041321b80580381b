/-
  PinnedFile.Proofs.Books.Turns

  What a step of a run does to the books, said once.

  A turn is one change of the books: an entry of a client, the delivery of an outcome with
  all that follows from it, a job taken, answered or handed to the loop.  Every step is a
  sequence of turns, so what every turn keeps holds in every run.
-/

import PinnedFile.Proofs.Books.Delivery
import PinnedFile.Proofs.Runs

namespace PinnedFile

open Run

namespace Books

/-- Books with no worker on a job. -/
def withoutJob (b : Books) (job : Job) : Books :=
  { b with running := b.running.eraseP (·.id = job.id) }

/-- Books with the answer to a call of a job entered, and the job lost or carried on. -/
def answer (b : Books) (job : Job) (call : Call) (a : Answer) : Books :=
  { b.withoutJob job with
    exchanges := ⟨job.id, job.handle, call, a⟩ :: b.exchanges
    running := (b.withoutJob job).running
      ++ (job.transfer.feed a).toList.map fun t => { job with transfer := t } }

/-- Books at the beginning of the task that delivers an outcome on a context: the task is
    taken off the queue, and the operation is completed. -/
def opening (b : Books) (rest : Queue Task) (owner : ContextId) (job : Job)
    (outcome : Outcome) : Books :=
  { b with tasks := rest, context := some owner }.complete job outcome

/-- One change of the books. -/
inductive Turn (mode : Mode) : Books → Books → Prop where
  | move {b after : Books} (entry : Move b after) : Turn mode b after
  | switch {b : Books} (context : Option ContextId) : Turn mode b { b with context := context }
  /-- A task that delivers nothing begins. -/
  | begin {b : Books} {task : Task} {rest : Queue Task} (next : b.tasks.pop = some (task, rest))
      (plain : task.job? = none) : Turn mode b { b with tasks := rest }
  /-- An outcome is delivered. -/
  | deliver {b after : Books} {job : Job} {outcome : Outcome} {rest : Queue Task} {s : Handle}
      (next : b.tasks.pop = some (.deliver job outcome, rest))
      (known : b.handles[job.handle]? = some s)
      (entries : Moves (b.opening rest s.owner job outcome) after) :
      Turn mode b (after.closeIfQuiet job.handle)
  /-- An outcome is delivered, and then a panic ends the task. -/
  | breakOff {b after : Books} {job : Job} {outcome : Outcome} {rest : Queue Task} {s : Handle}
      (next : b.tasks.pop = some (.deliver job outcome, rest))
      (known : b.handles[job.handle]? = some s)
      (entries : Moves (b.opening rest s.owner job outcome) after)
      (calm : mode = .calm → ∃ s, after.handles[job.handle]? = some s ∧ s.closed = false) :
      Turn mode b after
  | take {b : Books} {job : Job} {rest : Queue Job} (next : b.jobs.pop = some (job, rest))
      (free : b.running.length < b.workers) :
      Turn mode b { b with jobs := rest, running := b.running ++ [job] }
  | answer {b : Books} {job : Job} {call : Call} {a : Answer} (running : job ∈ b.running)
      (makes : job.transfer.call? = some call)
      (calm : mode = .calm → job.transfer.feed a ≠ none) : Turn mode b (b.answer job call a)
  | finish {b : Books} {job : Job} {outcome : Outcome} (running : job ∈ b.running)
      (ended : job.transfer.outcome? = some outcome) :
      Turn mode b ((b.withoutJob job).post (.deliver job outcome))

/-- Any number of turns, one after the other. -/
abbrev Turns (mode : Mode) : Books → Books → Prop := Relation.ReflTransGen (Turn mode)

theorem Moves.turns {mode : Mode} {b after : Books} (entries : Moves b after) :
    Turns mode b after := Relation.ReflTransGen.mono (fun _ _ => .move) _ _ entries

/-! ## Handles stay -/

theorem keepsHandles_opening {b : Books} {rest : Queue Task} {owner : ContextId} {job : Job}
    {outcome : Outcome} : KeepsHandles b.handles (b.opening rest owner job outcome).handles :=
  keepsHandles_modify (f := (·.releasing job.completion)) (fun _ => rfl) fun _ closed => closed

theorem keepsHandles_closeIfQuiet {b : Books} {h : HandleId} :
    KeepsHandles b.handles (b.closeIfQuiet h).handles := by
  rcases closeIfQuiet_cases b h with ⟨same, -⟩ | ⟨s, job, -, -, -, same⟩
  · rw [same]
    exact keepsHandles_refl
  · rw [same]
    exact keepsHandles_modify (f := ({ · with pendingClose := none })) (fun _ => rfl)
      fun _ closed => closed

theorem Turn.keepsHandles {mode : Mode} {b after : Books} (turn : Turn mode b after) :
    KeepsHandles b.handles after.handles := by
  cases turn with
  | move entry => exact entry.keepsHandles
  | deliver next known entries =>
    exact (keepsHandles_opening.trans entries.keepsHandles).trans keepsHandles_closeIfQuiet
  | breakOff next known entries calm => exact keepsHandles_opening.trans entries.keepsHandles
  | switch | begin | take | answer | finish => exact keepsHandles_refl

theorem Turns.keepsHandles {mode : Mode} {b after : Books} (turns : Turns mode b after) :
    KeepsHandles b.handles after.handles := by
  induction turns with
  | refl => exact keepsHandles_refl
  | tail _ last ih => exact ih.trans last.keepsHandles

/-! ## Work -/

/-- No work was done: no call was made for an operation, and none was completed. -/
structure SameWork (b after : Books) : Prop where
  workers : after.workers = b.workers
  running : after.running = b.running
  exchanges : after.exchanges = b.exchanges
  completed : after.completed = b.completed
  handlerCalls : after.handlerCalls = b.handlerCalls

theorem sameWork_refl (b : Books) : SameWork b b := ⟨rfl, rfl, rfl, rfl, rfl⟩

theorem SameWork.trans {b middle after : Books} (first : SameWork b middle)
    (second : SameWork middle after) : SameWork b after where
  workers := second.workers.trans first.workers
  running := second.running.trans first.running
  exchanges := second.exchanges.trans first.exchanges
  completed := second.completed.trans first.completed
  handlerCalls := second.handlerCalls.trans first.handlerCalls

/-- The code of a client does no work itself. -/
theorem Move.sameWork {b after : Books} (entry : Move b after) : SameWork b after := by
  cases entry <;> exact ⟨rfl, rfl, rfl, rfl, rfl⟩

theorem Moves.sameWork {b after : Books} (entries : Moves b after) : SameWork b after := by
  induction entries with
  | refl => exact sameWork_refl b
  | tail _ last ih => exact ih.trans last.sameWork

theorem sameWork_closeIfQuiet (b : Books) (h : HandleId) : SameWork b (b.closeIfQuiet h) := by
  rcases closeIfQuiet_cases b h with ⟨same, -⟩ | ⟨s, job, -, -, -, same⟩
  · rw [same]
    exact sameWork_refl b
  · rw [same]
    exact ⟨rfl, rfl, rfl, rfl, rfl⟩

end Books

/-! ## Steps are turns -/

namespace World

variable {mode : Mode} {w after : World}

/-- The code that a delivery calls does not leave the context. -/
theorem onOwner_announce (job : Job) (outcome : Outcome) (here : w.OnOwner job.handle) :
    (exec (announce job outcome) w).2.OnOwner job.handle :=
  isHome_books_iff.mp ((enters_announce here).isHome
    (Books.isHome_complete (isHome_books_iff.mpr here)))

/-- When a task ends, its context is left, and whatever panic ended it is noted. -/
theorem books_runOn {α : Type} {context : ContextId} {holds : List HandleId} {code : Run α} :
    (w.runOn context holds code).2.books =
      { (exec code (w.entered context holds)).2.books with context := w.context } := by
  unfold runOn
  rcases ends : code.run.run { w with context := some context, held := holds } with
    ⟨message | a, after⟩
  · have same : (exec code (w.entered context holds)).2 = after := congrArg Prod.snd ends
    rw [same]
    exact books_sweep
  · have same : (exec code (w.entered context holds)).2 = after := congrArg Prod.snd ends
    rw [same]
    exact books_sweep

theorem books_takeJob (takes : w.takeJob = some after) : ∃ job rest,
    w.books.jobs.pop = some (job, rest) ∧ w.books.running.length < w.books.workers ∧
      after.books = { w.books with jobs := rest, running := w.books.running ++ [job] } := by
  unfold takeJob at takes
  split at takes
  next free =>
    split at takes
    · cases takes
    next job rest next =>
      obtain rfl := Option.some.inj takes
      refine ⟨job, rest, next, free, ?_⟩
      rw [books_record_aside ⟨rfl, rfl, rfl, rfl, rfl⟩]
      rfl
  · cases takes

theorem books_answer {job : Job} {call : Call} {a : Answer} {files : FileTree}
    {backends : List Backend} : ({ w with files, backends }.answer job call a).books =
      w.books.answer job call a := by
  unfold answer Books.answer
  rcases job.transfer.feed a with _ | t
  · simp only [Option.toList_none, List.map_nil, List.append_nil]
    rfl
  · rfl

theorem books_finish {job : Job} {outcome : Outcome} :
    (w.finish job outcome).books = (w.books.withoutJob job).post (.deliver job outcome) := by
  unfold finish
  dsimp only
  split
  · rfl
  next shut =>
    have shut' : (w.books.withoutJob job).tasks.isOpen = false := Bool.eq_false_iff.mpr shut
    rw [Books.post, Queue.push_of_shut shut']
    rfl

/-- A delivery begins on the context of its handle. -/
theorem onOwner_delivering {job : Job} {s : Handle} (outcome : Outcome) (rest : Queue Task)
    (known : w.handles[job.handle]? = some s) :
    (w.delivering job outcome rest).OnOwner job.handle :=
  ⟨s, known, by simp [delivering, entered, taskContext, known]⟩

/-- A delivery on the context of its handle completes the operation and makes the entries of the
    client.  Then it looks whether a close is due, unless a callback panics, or the next read
    does, and that only on an open handle. -/
theorem enters_deliver {job : Job} {outcome : Outcome} (here : w.OnOwner job.handle) :
    ∃ b, Books.Moves (w.books.complete job outcome) b ∧
      ((exec (deliver job outcome) w).2.books = b.closeIfQuiet job.handle ∨
        (exec (deliver job outcome) w).2.books = b ∧
          ((∃ s, b.handles[job.handle]? = some s ∧ s.closed = false) ∨
            ∃ message, exec (announce job outcome) w =
              (.error message, (exec (deliver job outcome) w).2))) := by
  have announced : Books.Moves (w.books.complete job outcome)
      (exec (announce job outcome) w).2.books := enters_announce here
  have stays := onOwner_announce job outcome here
  rw [exec_deliver here]
  rcases told : exec (announce job outcome) w with ⟨message | _, first⟩
  · -- a callback panics, and the close is not looked at
    rw [exec_bind_error told]
    rw [told] at announced
    exact ⟨_, announced, .inr ⟨rfl, .inr ⟨message, rfl⟩⟩⟩
  · rw [exec_bind_ok told]
    rw [told] at announced stays
    have continued : Books.Moves first.books (exec (readOn job outcome) first).2.books := by
      rw [exec_readOn]
      exact enters_readsOn stays
    rcases readsOn : exec (readOn job outcome) first with ⟨message | _, second⟩
    · -- the next read panics, so the handle is open and no close waits
      rw [exec_bind_error readsOn]
      rw [readsOn] at continued
      exact ⟨_, announced.trans continued, .inr ⟨rfl, .inl (readOn_error readsOn)⟩⟩
    · rw [exec_bind_ok readsOn]
      rw [readsOn] at continued
      obtain ⟨third, closes, same⟩ := exec_closeIfQuiet (w := second) (h := job.handle)
      rw [closes]
      exact ⟨_, announced.trans continued, .inl same⟩

/-- The completion of an operation at the beginning of its delivery. -/
theorem books_complete_delivering {job : Job} {outcome : Outcome} {rest : Queue Task} {s : Handle}
    (known : w.handles[job.handle]? = some s) :
    (w.delivering job outcome rest).books.complete job outcome =
      w.books.opening rest s.core.owner job outcome := by
  have owner : w.taskContext (.deliver job outcome) = s.core.owner := by
    simp [taskContext, known, Handle.core]
  rw [delivering, owner]
  rfl

/-- The delivery of an outcome on the context of its handle. -/
theorem turns_deliver {job : Job} {outcome : Outcome} {rest : Queue Task} {s : Handle}
    (next : w.tasks.pop = some (.deliver job outcome, rest))
    (known : w.handles[job.handle]? = some s)
    (calm : mode = .calm → (exec (announce job outcome) (w.delivering job outcome rest)).1 =
      .ok ()) :
    Books.Turns mode w.books
      (exec (deliver job outcome) (w.delivering job outcome rest)).2.books := by
  have here := onOwner_delivering outcome rest known
  have knownCore : w.books.handles[job.handle]? = some s.core := books_handles known
  obtain ⟨b, entries, ends⟩ := @enters_deliver _ _ outcome here
  rw [books_complete_delivering known] at entries
  rcases ends with ends | ⟨ends, isOpen | ⟨message, panicked⟩⟩
  · rw [ends]
    exact .single (.deliver next knownCore entries)
  · rw [ends]
    exact .single (.breakOff next knownCore entries fun _ => isOpen)
  · rw [ends]
    refine .single (.breakOff next knownCore entries fun isCalm => ?_)
    rw [panicked] at calm
    cases calm isCalm

/-- The change of contexts around a task. -/
theorem turns_runOn {α : Type} {context : ContextId} {holds : List HandleId} {code : Run α}
    {b : Books} (runs : Books.Turns mode b (exec code (w.entered context holds)).2.books) :
    Books.Turns mode b (w.runOn context holds code).2.books := by
  rw [books_runOn]
  exact runs.tail (.switch w.context)

/-- The code of a client that runs on a context. -/
theorem turns_client {α : Type} {context : ContextId} {holds : List HandleId} {code : Run α}
    (entries : ∀ v, Books.Moves v.books (exec code v).2.books) :
    Books.Turns mode w.books (w.runOn context holds code).2.books := by
  apply turns_runOn
  have entered : Books.Turn mode w.books (w.entered context holds).books := .switch (some context)
  exact .head entered (entries _).turns

theorem turns_runTask (runs : w.runTask = some after)
    (known : ∀ job outcome, .deliver job outcome ∈ w.tasks.items →
      ∃ s, w.handles[job.handle]? = some s)
    (calm : mode = .calm → w.CallbacksReturn) : Books.Turns mode w.books after.books := by
  obtain ⟨task, rest, next, rfl⟩ := exists_task_of_runTask runs
  have here : task ∈ w.tasks.items := Queue.mem_of_pop next
  have begins (plain : task.job? = none) :
      Books.Turn mode w.books { w with tasks := rest }.books := .begin next plain
  cases task with
  | deliver job outcome =>
    -- the task is taken off the queue in the same turn in which it completes its operation
    obtain ⟨s, found⟩ := known job outcome here
    apply turns_runOn (w := { w with tasks := rest })
    exact turns_deliver next found fun isCalm => calm isCalm job outcome rest next
  | client context task =>
    refine .head (begins rfl) (turns_client fun v => ?_)
    have begun : (v.record (.started task.tag)).books = v.books :=
      books_record_aside ⟨rfl, rfl, rfl, rfl, rfl⟩
    rw [taskCode, exec_note_bind, ← begun]
    exact Moves.books (moves_runAll [] task.body _)
  | later context =>
    refine .head (begins rfl) (turns_client fun v => ?_)
    have begun : (v.record .later).books = v.books :=
      books_record_aside ⟨rfl, rfl, rfl, rfl, rfl⟩
    rw [taskCode, exec_note, begun]

end World

/-- Every step is a sequence of turns, as long as the handles that wait for a delivery are
    known. -/
theorem Step.turns {mode : Mode} {w after : World} (step : Step mode w after)
    (known : ∀ job outcome, .deliver job outcome ∈ w.tasks.items →
      ∃ s, w.handles[job.handle]? = some s) : Books.Turns mode w.books after.books := by
  cases step with
  | task runs calm => exact World.turns_runTask runs known calm
  | command context c alive =>
    exact World.turns_client fun v => Moves.books (moves_command [] c v)
  | body context body alive =>
    exact World.turns_client fun v => Moves.books (moves_runAll [] body v)
  | outside c => exact (Moves.books (moves_command [] c w)).turns
  | post | postLater => exact .single (.move (.post rfl))
  | take takes =>
    obtain ⟨job, rest, next, free, same⟩ := World.books_takeJob takes
    rw [same]
    exact .single (.take next free)
  | answer a files backends running makes calm =>
    rw [World.books_answer]
    exact .single (.answer running makes calm)
  | finish running ended =>
    rw [World.books_finish]
    exact .single (.finish running ended)
  | shutDown origin =>
    rw [World.books_shutDown]
    exact .single (.move .shutDown)
  | freshContext => exact .refl
  | takePanic => exact .refl

end PinnedFile
