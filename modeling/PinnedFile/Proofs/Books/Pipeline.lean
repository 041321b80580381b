/-
  PinnedFile.Proofs.Books.Pipeline

  The way of operations through the workers: from the queue of jobs to a worker, and from
  there to the queue of the loop.

  There are never more jobs with workers than workers.  A single worker hands jobs on in the
  order in which it was given them, so that what stands ahead in the pipeline stays ahead;
  and no operation stands behind the close of its own handle.
-/

import PinnedFile.Proofs.Books.Closing

namespace PinnedFile

/-- An operation may stand ahead of another, unless it is the close of its handle. -/
def Ticket.MayPrecede (ahead behind : Ticket) : Prop :=
  ahead.completion.operation = .close → ahead.handle ≠ behind.handle

namespace Books

variable {mode : Mode} {b after : Books} {loose : List Job} {h : HandleId} {s : Handle}
  {job : Job}

/-! ## The crew -/

/-- There are enough workers for the jobs that are with workers. -/
def Manned (b : Books) : Prop := b.running.length ≤ b.workers

/-- No worker comes or goes. -/
theorem Turn.workers (turn : Turn mode b after) : after.workers = b.workers := by
  cases turn with
  | move entry => exact entry.sameWork.workers
  | deliver next known entries =>
    exact (entries.sameWork.trans (sameWork_closeIfQuiet _ _)).workers
  | breakOff next known entries calm => exact entries.sameWork.workers
  | switch | begin | take | answer | finish => rfl

theorem Turns.workers (turns : Turns mode b after) : after.workers = b.workers := by
  induction turns with
  | refl => rfl
  | tail _ last ih => exact last.workers.trans ih

theorem length_withoutJob (running : job ∈ b.running) :
    (b.withoutJob job).running.length + 1 = b.running.length := by
  have erased : (b.withoutJob job).running.length = b.running.length - 1 :=
    List.length_eraseP_of_mem running (by simp)
  have some := List.length_pos_of_mem running
  omega

theorem Turn.manned (turn : Turn mode b after) (manned : b.Manned) : after.Manned := by
  have workers := turn.workers
  unfold Manned at manned ⊢
  rw [workers]
  cases turn with
  | move entry =>
    rw [entry.sameWork.running]
    exact manned
  | deliver next known entries =>
    rw [(entries.sameWork.trans (sameWork_closeIfQuiet _ _)).running]
    exact manned
  | breakOff next known entries calm =>
    rw [entries.sameWork.running]
    exact manned
  | switch | begin => exact manned
  | @take job rest next free =>
    rw [List.length_append, List.length_singleton]
    exact free
  | @answer job call a running makes calm =>
    have shorter := length_withoutJob running
    have goes_on : ((job.transfer.feed a).toList.map fun t =>
        { job with transfer := t }).length ≤ 1 := by
      rcases job.transfer.feed a <;> simp
    show ((b.withoutJob job).running ++ _).length ≤ b.workers
    rw [List.length_append]
    omega
  | finish running ended =>
    have shorter := length_withoutJob running
    show (b.withoutJob _).running.length ≤ b.workers
    omega

/-! ## Both queues -/

/-- The workers and the loop are shut down together. -/
def Together (b : Books) : Prop := b.jobs.isOpen = b.tasks.isOpen

theorem together_submit (together : b.Together) : (b.submit job).Together :=
  Queue.isOpen_push.trans together

theorem together_post {task : Task} (together : b.Together) : (b.post task).Together :=
  together.trans Queue.isOpen_push.symm

theorem Move.together (entry : Move b after) (together : b.Together) : after.Together := by
  cases entry with
  | accept | close => exact together_submit together
  | closeLater | call | «open» => exact together
  | post => exact together_post together
  | shutDown => rfl

theorem Moves.together (entries : Moves b after) (together : b.Together) : after.Together := by
  induction entries with
  | refl => exact together
  | tail _ last ih => exact last.together ih

theorem together_closeIfQuiet (together : b.Together) : (b.closeIfQuiet h).Together := by
  rcases closeIfQuiet_cases b h with ⟨same, -⟩ | ⟨s, job, -, -, -, same⟩
  · rw [same]
    exact together
  · rw [same]
    exact together_submit together

theorem Turn.together (turn : Turn mode b after) (together : b.Together) : after.Together := by
  cases turn with
  | move entry => exact entry.together together
  | deliver next known entries =>
    exact together_closeIfQuiet (entries.together (together.trans (Queue.isOpen_pop next)))
  | breakOff next known entries calm =>
    exact entries.together (together.trans (Queue.isOpen_pop next))
  | begin next plain => exact together.trans (Queue.isOpen_pop next)
  | take next free => exact (Queue.isOpen_pop next).symm.trans together
  | switch | answer => exact together
  | finish => exact together_post together

/-! ## The order in the pipeline -/

/-- The operations that are on their way through the workers.  If there is only one worker,
    they are in the order in which they were submitted. -/
def pipeline (b : Books) : List Ticket :=
  (b.tasks.items.filterMap Task.job? ++ b.running ++ b.jobs.items).map Job.ticket

/-- No operation stands behind the close of its handle. -/
def InLine (b : Books) : Prop := b.pipeline.Pairwise Ticket.MayPrecede

theorem mem_pipeline {t : Ticket} : t ∈ b.pipeline ↔ ∃ job, job.ticket = t ∧
    job ∈ b.jobs.items ++ b.running ++ b.tasks.items.filterMap Task.job? := by
  simp only [pipeline, List.mem_map, List.mem_append]
  constructor
  · rintro ⟨job, (posted | running) | queued, same⟩
    · exact ⟨job, same, .inr posted⟩
    · exact ⟨job, same, .inl (.inr running)⟩
    · exact ⟨job, same, .inl (.inl queued)⟩
  · rintro ⟨job, same, (queued | running) | posted⟩
    · exact ⟨job, .inr queued, same⟩
    · exact ⟨job, .inl (.inr running), same⟩
    · exact ⟨job, .inl (.inl posted), same⟩

/-- What is in the pipeline was accepted. -/
theorem Accounted.accepted_of_pipeline (accounted : b.Accounted loose) {t : Ticket}
    (there : t ∈ b.pipeline) : ∃ a ∈ b.accepted, a.ticket = t := by
  obtain ⟨job, rfl, listed⟩ := mem_pipeline.mp there
  exact accounted.accepted_of_underway (List.mem_append_left _ listed)

/-- A task that delivers nothing is in no pipeline. -/
theorem pipeline_post {task : Task} (plain : task.job? = none) :
    (b.post task).pipeline = b.pipeline := by
  rw [pipeline, filterMap_job?_post plain]
  rfl

/-- After a shutdown only what is with a worker is left. -/
theorem pipeline_shutDown :
    (Books.pipeline { b with jobs := ⟨[], false⟩, tasks := ⟨[], false⟩ }).Sublist b.pipeline := by
  simp only [pipeline, List.filterMap_nil, List.nil_append, List.append_nil]
  exact ((List.sublist_append_right _ _).trans (List.sublist_append_left _ _)).map Job.ticket

theorem pipeline_begin {task : Task} {rest : Queue Task} (next : b.tasks.pop = some (task, rest))
    (plain : task.job? = none) : Books.pipeline { b with tasks := rest } = b.pipeline := by
  simp only [pipeline, (Queue.pop_eq_some_iff.mp next).1, List.filterMap_cons_none plain]

/-- What is delivered stood ahead of all else. -/
theorem pipeline_opening {rest : Queue Task} {outcome : Outcome} (owner : ContextId)
    (next : b.tasks.pop = some (.deliver job outcome, rest)) :
    b.pipeline = job.ticket :: (b.opening rest owner job outcome).pipeline := by
  simp only [pipeline, (Queue.pop_eq_some_iff.mp next).1]
  rfl

/-- A worker takes what stands behind the jobs that are with workers. -/
theorem pipeline_take {rest : Queue Job} (next : b.jobs.pop = some (job, rest)) :
    Books.pipeline { b with jobs := rest, running := b.running ++ [job] } = b.pipeline := by
  simp [pipeline, (Queue.pop_eq_some_iff.mp next).1]

/-- If only one job is with a worker, it goes on at its place, or it is lost. -/
theorem pipeline_answer {call : Call} {a : Answer} (alone : b.running = [job]) :
    (b.answer job call a).pipeline.Sublist b.pipeline := by
  rcases fed : job.transfer.feed a with _ | t
  · simp [pipeline, Books.answer, withoutJob, alone, fed]
  · simp [pipeline, Books.answer, withoutJob, alone, fed, Job.ticket]

/-- If only one job is with a worker, it goes to the end of the tasks, so behind all that it
    followed. -/
theorem pipeline_finish {outcome : Outcome} (alone : b.running = [job]) :
    ((b.withoutJob job).post (.deliver job outcome)).pipeline.Sublist b.pipeline := by
  rcases isOpen : b.tasks.isOpen with _ | _
  · simp [pipeline, post, withoutJob, alone, Queue.push_of_shut isOpen]
  · simp [pipeline, post, withoutJob, alone, Queue.items_push isOpen, Task.job?]

theorem inLine_of_sublist (line : b.InLine) (part : after.pipeline.Sublist b.pipeline) :
    after.InLine := line.sublist part

/-- What is submitted stands behind all else. -/
theorem pipeline_submit : (b.submit job).pipeline.Sublist (b.pipeline ++ [job.ticket]) := by
  rcases isOpen : b.jobs.isOpen with _ | _
  · rw [submit_of_shut isOpen]
    exact List.sublist_append_left _ _
  · have items : (b.submit job).jobs.items = b.jobs.items ++ [job] := Queue.items_push isOpen
    rw [pipeline, items, ← List.append_assoc, List.map_append]
    exact List.Sublist.refl _

theorem inLine_submit (line : b.InLine) (behind : ∀ t ∈ b.pipeline, t.MayPrecede job.ticket) :
    (b.submit job).InLine := by
  have longer : (b.pipeline ++ [job.ticket]).Pairwise Ticket.MayPrecede := by
    refine List.pairwise_append.mpr ⟨line, List.pairwise_singleton _ _, fun t there t' last => ?_⟩
    rw [List.mem_singleton.mp last]
    exact behind t there
  exact longer.sublist pipeline_submit

/-- The next operation of a handle that is open may stand behind all others. -/
theorem mayPrecede_next {t : Transfer} {c : Completion} (accounted : b.Accounted loose)
    (closing : b.Closing) (admits : b.Admits h s) :
    ∀ ticket ∈ b.pipeline, ticket.MayPrecede (b.nextJob h t c).ticket := by
  intro ticket there closes same
  obtain ⟨a, accepted, rfl⟩ := accounted.accepted_of_pipeline there
  exact closing.not_closes admits accepted same closes

/-- A close that waits may stand behind all others. -/
theorem mayPrecede_waiting (accounted : b.Accounted loose) (closing : b.Closing)
    (known : b.handles[h]? = some s) (waits : s.pendingClose = some job) :
    ∀ ticket ∈ b.pipeline, ticket.MayPrecede job.ticket := by
  intro ticket there closes same
  have listed : job ∈ b.handles.filterMap Handle.pendingClose :=
    List.mem_filterMap.mpr ⟨s, List.mem_of_getElem? known, waits⟩
  obtain ⟨a, accepted, rfl⟩ := accounted.accepted_of_pipeline there
  obtain ⟨a', accepted', ticket⟩ := accounted.accepted_of_underway (List.mem_append_right _ listed)
  have closes' : a'.Closes :=
    (Job.closes_congr ticket).mpr (closing.waiting h s job known waits).closes
  have handle : a.handle = a'.handle := same.trans (congrArg Ticket.handle ticket).symm
  obtain rfl := closing.once a accepted a' accepted' closes closes' handle
  -- so the close that waits is in the pipeline as well, which cannot be
  obtain ⟨other, number, listed'⟩ := mem_pipeline.mp there
  refine accounted.ne_waiting (List.mem_map_of_mem listed') listed ?_
  exact congrArg Ticket.id (number.trans ticket)

theorem Move.inLine (entry : Move b after) (accounted : b.Accounted loose) (closing : b.Closing)
    (line : b.InLine) : after.InLine := by
  cases entry with
  | @accept h s t c admits fits plain =>
    have behind := mayPrecede_next (t := t) (c := c) accounted closing admits
    exact inLine_submit line behind
  | @close h s handler admits quiet =>
    have behind := mayPrecede_next (t := .close) (c := .close handler) accounted closing admits
    exact inLine_submit line behind
  | closeLater | call | «open» => exact line
  | post plain =>
    rw [InLine, pipeline_post plain]
    exact line
  | shutDown => exact inLine_of_sublist line pipeline_shutDown

theorem Moves.inLine (entries : Moves b after) (coherent : b.Coherent)
    (accounted : b.Accounted loose) (known : b.Known) (closing : b.Closing) (line : b.InLine) :
    after.InLine := by
  induction entries with
  | refl => exact line
  | tail before last ih =>
    obtain ⟨loose', accounted', -⟩ := Moves.accounted before coherent accounted
    exact last.inLine accounted' (Moves.closing before known closing) ih

theorem inLine_opening {rest : Queue Task} {owner : ContextId} {outcome : Outcome}
    (line : b.InLine) (next : b.tasks.pop = some (.deliver job outcome, rest)) :
    (b.opening rest owner job outcome).InLine := by
  apply inLine_of_sublist line
  rw [pipeline_opening owner next]
  exact List.sublist_cons_self _ _

theorem inLine_closeIfQuiet (accounted : b.Accounted loose) (closing : b.Closing)
    (line : b.InLine) : (b.closeIfQuiet h).InLine := by
  rcases closeIfQuiet_cases b h with ⟨same, -⟩ | ⟨s, job, known, -, waits, same⟩
  · rw [same]
    exact line
  · rw [same]
    have behind := mayPrecede_waiting accounted closing known waits
    exact inLine_submit line behind

/-- A single worker has no job but the one it is on. -/
theorem Manned.eq_singleton (manned : b.Manned) (single : b.workers ≤ 1)
    (running : job ∈ b.running) : b.running = [job] := by
  have one : b.running.length = 1 :=
    Nat.le_antisymm (manned.trans single) (List.length_pos_of_mem running)
  obtain ⟨only, same⟩ := List.length_eq_one_iff.mp one
  rw [same] at running
  rw [same, List.mem_singleton.mp running]

theorem Turn.inLine (turn : Turn mode b after) (coherent : b.Coherent)
    (accounted : b.Accounted loose) (known : b.Known) (closing : b.Closing) (manned : b.Manned)
    (single : b.workers ≤ 1) (line : b.InLine) : after.InLine := by
  cases turn with
  | move entry => exact entry.inLine accounted closing line
  | switch => exact line
  | begin next plain =>
    rw [InLine, pipeline_begin next plain]
    exact line
  | deliver next found entries =>
    obtain ⟨loose', accounted', -⟩ := (accountsFrom_opening accounted next).trans fun _ =>
      entries.accounted (coherent_opening coherent)
    exact inLine_closeIfQuiet accounted'
      (entries.closing (known_opening known) (closing_opening known closing))
      (entries.inLine (coherent_opening coherent) (accounted_opening accounted next)
        (known_opening known) (closing_opening known closing) (inLine_opening line next))
  | breakOff next found entries calm =>
    exact entries.inLine (coherent_opening coherent) (accounted_opening accounted next)
      (known_opening known) (closing_opening known closing) (inLine_opening line next)
  | take next free =>
    rw [InLine, pipeline_take next]
    exact line
  | answer running makes calm =>
    exact inLine_of_sublist line (pipeline_answer (manned.eq_singleton single running))
  | finish running ended =>
    exact inLine_of_sublist line (pipeline_finish (manned.eq_singleton single running))

end Books

end PinnedFile
