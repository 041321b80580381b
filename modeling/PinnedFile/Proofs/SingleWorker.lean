/-
  PinnedFile.Proofs.SingleWorker

  A runtime with one worker does all its native work in the order of submission, and its
  completions reach the loop in that order, across all handles.

  What stands in the queues and with the worker is in order at every moment of a run, also within
  a task.  So an operation that is completed leaves none behind that was submitted before it,
  unless its native work has panicked.
-/

import PinnedFile.Proofs.Lifetime
import PinnedFile.Proofs.SingleWorker.Line

namespace PinnedFile

open Run

/-! ## Lists without repetitions -/

section Pairs

variable {α : Type} {x y : α} {l new old : List α}

/-- What stands behind a member of the older part is in the older part. -/
theorem pair_sublist_of_append (nodup : (new ++ old).Nodup) (pair : [x, y].Sublist (new ++ old))
    (there : x ∈ old) : [x, y].Sublist old := by
  obtain ⟨first, second, split, inNew, inOld⟩ := List.sublist_append_iff.mp pair
  rcases first with _ | ⟨z, first⟩
  · rwa [split]
  · obtain ⟨rfl, -⟩ := List.cons.inj split
    have apart := (List.nodup_append.mp nodup).2.2
    exact absurd rfl (apart x (inNew.subset List.mem_cons_self) x there)

/-- Two members stand in one order only. -/
theorem not_pair_sublist_swap (nodup : l.Nodup) (pair : [x, y].Sublist l) :
    ¬ [y, x].Sublist l := by
  intro swapped
  obtain ⟨front, back, rfl, there, behind⟩ := List.cons_sublist_iff.mp pair
  have within := pair_sublist_of_append nodup swapped (List.singleton_sublist.mp behind)
  have again : x ∈ back := within.subset (List.mem_cons_of_mem _ List.mem_cons_self)
  exact absurd rfl ((List.nodup_append.mp nodup).2.2 x there x again)

end Pairs

/-! ## Runs -/

namespace World

/-- The books of a world go with what was submitted and taken, and if there is one worker only,
    it has kept the order. -/
structure InOrder (w : World) : Prop where
  filed : w.books.Filed w.submissions w.takings
  served : w.workers ≤ 1 → w.books.Served w.submissions w.takings

end World

variable {mode : Mode} {w after : World} {job : Job} {outcome : Outcome} {rest : Queue Task}
  {id : OperationId}

theorem Deed.inOrder (deed : Deed w after) (standing : w.books.Standing) (kept : w.InOrder) :
    after.InOrder := by
  obtain ⟨loose, accounted⟩ := standing.accounted
  obtain ⟨queues, takings⟩ := deed.notesQueue
  have queues : Queues w.books.jobs w.submissions after.books.jobs after.submissions := queues
  have filed := kept.filed
  have served := kept.served
  rw [← takings] at filed served
  -- somebody is called, or a client makes an entry, or a close that waited is queued
  rcases deed.books with ⟨context, handlerCalls, callers, same⟩ | entry | ⟨h, same⟩
  · have submissions : after.submissions = w.submissions := queues.of_same (by rw [same])
    have workers : after.workers = w.workers := congrArg Books.workers same
    refine ⟨?_, fun single => ?_⟩
    · rw [same, submissions]
      exact filed.of_same rfl rfl rfl rfl
    · obtain ⟨line, latest, performed, ordered⟩ := served (workers ▸ single)
      rw [same, submissions]
      exact ⟨line, latest, performed, ordered⟩
  · have work := entry.sameWork
    have workers : after.workers = w.workers := work.workers
    refine ⟨entry.filed accounted queues filed, fun single => ?_⟩
    have before := served (workers ▸ single)
    exact before.of_sameWork work (entry.line queues before.line)
  · rw [same] at queues
    have work := Books.sameWork_closeIfQuiet w.books h
    have workers : after.workers = w.workers := (congrArg Books.workers same).trans work.workers
    refine ⟨?_, fun single => ?_⟩
    · rw [same]
      exact filed.closeIfQuiet accounted queues
    · have before := served (workers ▸ single)
      rw [same]
      exact before.of_sameWork work (Books.line_closeIfQuiet queues before.line)

/-- The completion of an operation takes it from the loop's queue to what is completed. -/
theorem World.InOrder.complete (kept : w.InOrder)
    (next : w.tasks.pop = some (.deliver job outcome, rest)) :
    ((w.delivering job outcome rest).completing job outcome).InOrder := by
  have books : ((w.delivering job outcome rest).completing job outcome).books =
      { w.books.opening rest (w.taskContext (.deliver job outcome)) job outcome with
        handlerCalls := w.handlerCalls } := by
    rw [World.completing, World.books_record_completed,
      World.books_modifyHandle (·.releasing job.completion) fun _ => rfl]
    rfl
  refine ⟨?_, fun single => ?_⟩
  · rw [books]
    have waiting := Books.allWaiting_modify_same (h := job.handle)
      (f := (·.releasing job.completion)) kept.filed.waiting fun _ => rfl
    exact { kept.filed with waiting }
  · obtain ⟨line, latest, performed, ordered⟩ := kept.served single
    rw [books]
    refine ⟨?_, latest, performed, ordered⟩
    -- it is the first of the pipeline that comes to be the latest completed
    rw [Books.line,
      Books.pipeline_opening (b := w.books) (w.taskContext (.deliver job outcome)) next] at line
    rw [List.map_cons, List.reverse_cons, List.append_assoc] at line
    exact line

namespace World

theorem inOrder_start (workers : Nat) (files : FileTree) : (start workers files).InOrder where
  filed :=
    { known _ listed := absurd listed List.not_mem_nil
      waiting _ _ _ known := by cases known
      nodup := .nil
      prompt := .nil
      queued _ := rfl
      taken := List.suffix_refl _ }
  served _ :=
    { line := List.Sublist.refl _
      latest _ listed := absurd listed List.not_mem_nil
      performed _ listed := absurd listed List.not_mem_nil
      ordered := .nil }

theorem InOrder.begin {task : Task} (kept : w.InOrder) (next : w.tasks.pop = some (task, rest))
    (plain : task.job? = none) : InOrder { w with tasks := rest } := by
  refine ⟨kept.filed.of_same rfl rfl rfl rfl, fun single => ?_⟩
  obtain ⟨line, latest, performed, ordered⟩ := kept.served single
  rw [Books.line, ← Books.pipeline_begin (b := w.books) next plain] at line
  exact ⟨line, latest, performed, ordered⟩

theorem InOrder.take (kept : w.InOrder) (takes : w.takeJob = some after) : after.InOrder := by
  obtain ⟨job, rest, next, free, books⟩ := books_takeJob takes
  obtain ⟨job', rest', next', same⟩ := exists_takeJob takes
  obtain ⟨rfl, rfl⟩ := Prod.mk.inj (Option.some.inj (next'.symm.trans next))
  have takings : after.takings = job'.id :: w.takings := by rw [same]; rfl
  have submissions : after.submissions = w.submissions := by rw [same]; rfl
  have workers : after.workers = w.workers := congrArg Books.workers books
  refine ⟨?_, fun single => ?_⟩
  · rw [books, takings, submissions]
    exact kept.filed.take next
  · -- a worker that takes a job is free, and there is no other one
    rw [workers] at single
    have idle : w.books.running = [] :=
      List.length_eq_zero_iff.mp (Nat.lt_one_iff.mp (free.trans_le single))
    rw [books, takings, submissions]
    exact (kept.served single).take next idle

theorem InOrder.answer {call : Call} {a : Answer} {files : FileTree} {backends : List Backend}
    (kept : w.InOrder) (manned : w.books.Manned) (running : job ∈ w.running) :
    ({ w with files, backends }.answer job call a).InOrder := by
  have keeps : KeepsQueue w ({ w with files, backends }.answer job call a) := keepsQueue_answer
  have workers : ({ w with files, backends }.answer job call a).workers = w.workers :=
    congrArg Books.workers books_answer
  refine ⟨?_, fun single => ?_⟩
  · rw [books_answer, keeps.submissions, keeps.takings]
    exact kept.filed.of_same rfl rfl rfl rfl
  · rw [workers] at single
    rw [books_answer, keeps.submissions, keeps.takings]
    exact (kept.served single).answer (manned.eq_singleton single running)

theorem InOrder.finish (kept : w.InOrder) (manned : w.books.Manned) (running : job ∈ w.running) :
    (w.finish job outcome).InOrder := by
  have keeps : KeepsQueue w (w.finish job outcome) := keepsQueue_finish
  have workers : (w.finish job outcome).workers = w.workers := congrArg Books.workers books_finish
  refine ⟨?_, fun single => ?_⟩
  · rw [books_finish, keeps.submissions, keeps.takings]
    exact kept.filed.of_same rfl rfl rfl rfl
  · rw [workers] at single
    rw [books_finish, keeps.submissions, keeps.takings]
    exact (kept.served single).finish (manned.eq_singleton single running)

end World

/-- In every run, at every moment, a single worker has kept the order of submission. -/
theorem Reachable.inOrder (reached : Reachable mode w) : w.InOrder :=
  Reachable.deeds_induct World.inOrder_start
    (fun _ _ standing kept deed => deed.inOrder standing kept)
    (fun _ _ _ next plain kept => kept.begin next plain)
    (fun _ _ _ _ next _ kept => kept.complete next)
    (fun _ _ takes _ kept => kept.take takes)
    (fun _ _ _ _ _ _ running _ reached kept => kept.answer reached.sound.manned running)
    (fun _ _ _ running _ reached kept => kept.finish reached.sound.manned running) reached

/-! ## Nothing is passed over -/

namespace World

/-- An operation was submitted to the workers before another one. -/
def SubmittedBefore (w : World) (earlier later : OperationId) : Prop :=
  [later, earlier].Sublist w.submissions

/-- The native work of an operation has panicked, which takes the operation along. -/
def Panicked (w : World) (id : OperationId) : Prop :=
  ∃ a ∈ w.accepted, a.id = id ∧ w.HasPanicked a

end World

theorem World.SubmittedBefore.mem {earlier later : OperationId}
    (before : w.SubmittedBefore earlier later) :
    earlier ∈ w.submissions ∧ later ∈ w.submissions :=
  ⟨before.subset (List.mem_cons_of_mem _ List.mem_cons_self), before.subset List.mem_cons_self⟩

theorem Books.Turns.panicked {b after : Books} {a : Job} (turns : Books.Turns mode b after)
    (sound : Books.Sound mode b) (panicked : b.HasPanicked a) : after.HasPanicked a := by
  induction turns with
  | refl => exact panicked
  | tail before last ih => exact last.hasPanicked (Books.Turns.sound before sound) ih

theorem Books.Turns.accepted_subset {b after : Books} (turns : Books.Turns mode b after) :
    b.accepted ⊆ after.accepted := by
  induction turns with
  | refl => exact List.Subset.refl _
  | tail _ last ih => exact List.Subset.trans ih last.accepted_subset

theorem Step.panicked (step : Step mode w after) (sound : Books.Sound mode w.books)
    (panicked : w.Panicked id) : after.Panicked id := by
  obtain ⟨a, accepted, same, panicked⟩ := panicked
  have turns := step.turns_of_sound sound
  exact ⟨a, turns.accepted_subset accepted, same, turns.panicked sound panicked⟩

/-- What a step adds to the history leaves what was submitted in its order. -/
theorem Step.submissions (step : Step mode w after) (sound : Books.Sound mode w.books) :
    w.submissions <:+ after.submissions := by
  obtain ⟨new, added⟩ : ∃ new, after.history = new ++ w.history := by
    rcases step.notes_of_sound sound with ⟨new, added, -⟩ | ⟨job, outcome, rest, delivers⟩
    · exact ⟨new, added⟩
    · obtain ⟨new, added, -⟩ := delivers.notes
      exact ⟨new, added⟩
  rw [World.submissions, World.submissions, added, List.filterMap_append]
  exact List.suffix_append _ _

/-- What is completed stays completed. -/
theorem Step.delivered_subset (step : Step mode w after) (sound : Books.Sound mode w.books) :
    w.books.delivered ⊆ after.books.delivered := by
  intro id listed
  rw [mem_delivered_iff] at listed ⊢
  obtain ⟨job, outcome, told, same⟩ := listed
  rcases step.notes_of_sound sound with quiet | ⟨_, _, _, delivers⟩
  · exact ⟨job, outcome, Notes.tells quiet told, same⟩
  · exact ⟨job, outcome, delivers.notes.tells told, same⟩

/-- A step completes at most the operation whose delivery is the next task. -/
theorem Step.delivered_or_next (step : Step mode w after) (sound : Books.Sound mode w.books)
    (completed : id ∈ after.books.delivered) : id ∈ w.books.delivered ∨
      ∃ job outcome rest, w.tasks.pop = some (.deliver job outcome, rest) ∧ job.id = id := by
  obtain ⟨job', outcome', told, rfl⟩ := mem_delivered_iff.mp completed
  rcases step.notes_of_sound sound with quiet | ⟨job, outcome, rest, delivers⟩
  · have before := quiet.tells told (by simp [Event.delivery?])
    exact .inl (mem_delivered_iff.mpr ⟨job', outcome', before, rfl⟩)
  · rcases delivers.tells told rfl with before | own
    · exact .inl (mem_delivered_iff.mpr ⟨job', outcome', before, rfl⟩)
    · exact .inr ⟨job, outcome, rest, delivers.next, own.symm⟩

/-- Whatever is in the line of a single worker was submitted. -/
theorem Reachable.submitted_of_line (reached : Reachable mode w) (single : w.workers ≤ 1)
    (listed : id ∈ w.books.line) : id ∈ w.submissions :=
  (reached.inOrder.served single).line.subset listed

/-- What is delivered next is in the line. -/
theorem Books.mem_line_of_next {b : Books}
    (next : b.tasks.pop = some (.deliver job outcome, rest)) : job.id ∈ b.line := by
  refine List.mem_append_left _ (List.mem_reverse.mpr ?_)
  rw [pipeline_opening ⟨0⟩ next]
  exact List.mem_cons_self

/-- Nothing that is still on its way was submitted before the operation that is delivered next. -/
theorem Books.Served.not_before_next {b : Books} {submitted taken : List OperationId} {t : Ticket}
    (served : b.Served submitted taken) (nodup : submitted.Nodup)
    (next : b.tasks.pop = some (.deliver job outcome, rest)) (piped : t ∈ b.pipeline) :
    ¬ [job.id, t.id].Sublist submitted := by
  intro before
  have line := served.line
  rw [Books.line, pipeline_opening ⟨0⟩ next, List.map_cons, List.reverse_cons,
    List.append_assoc] at line
  rw [pipeline_opening ⟨0⟩ next] at piped
  rcases List.mem_cons.mp piped with rfl | behind
  · exact absurd (nodup.sublist before) (by simp [Job.ticket])
  · -- it stands behind in the line, and the line is in the order of submission
    have listed : t.id ∈ ((b.opening rest ⟨0⟩ job outcome).pipeline.map Ticket.id).reverse :=
      List.mem_reverse.mpr (List.mem_map_of_mem behind)
    have swapped : [t.id, job.id].Sublist submitted :=
      ((List.singleton_sublist.mpr listed).append (List.sublist_append_left [job.id] _)).trans line
    exact not_pair_sublist_swap nodup before swapped

/-- When the loop comes to the delivery of an operation, all that was submitted before it is
    completed, unless its native work has panicked. -/
theorem Reachable.delivered_of_next {earlier : OperationId} (reached : Reachable mode w)
    (single : w.workers ≤ 1) (next : w.tasks.pop = some (.deliver job outcome, rest))
    (before : w.SubmittedBefore earlier job.id) :
    earlier ∈ w.books.delivered ∨ w.Panicked earlier := by
  obtain ⟨filed, served⟩ := reached.inOrder
  obtain ⟨loose, accounted, -⟩ := reached.sound.accounted
  obtain ⟨a, accepted, rfl⟩ := accounted.exists_of_lt (filed.known _ before.mem.1)
  by_cases panicked : w.HasPanicked a
  · exact .inr ⟨a, accepted, rfl, panicked⟩
  have isOpen : w.tasks.isOpen = true := by rw [(Queue.pop_eq_some_iff.mp next).1]
  have alive : w.IsAlive := ⟨reached.sound.together.trans isOpen, isOpen⟩
  rcases reached.underway_or_completes alive accepted panicked with
    ⟨other, there, ticket⟩ | ends
  · -- it is on its way, but not ahead of the next delivery, and not on its handle either
    have number : other.id = a.id := congrArg Ticket.id ticket
    rcases List.mem_append.mp there with piped | waits
    · have behind := (served single).not_before_next filed.nodup next
        (Books.mem_pipeline.mpr ⟨other, rfl, piped⟩)
      rw [show other.ticket.id = a.id from number] at behind
      exact absurd before behind
    · obtain ⟨s, listed, waits⟩ := List.mem_filterMap.mp waits
      obtain ⟨h, known⟩ := List.getElem?_of_mem listed
      have absent := (filed.waiting h s other known waits).2
      rw [number] at absent
      exact absurd before.mem.1 absent
  · obtain ⟨⟨c, completed, same⟩, -⟩ := ends
    exact .inl (List.mem_map.mpr ⟨c, completed, congrArg Ticket.id same⟩)

/-- With one worker, what was submitted before an operation that is completed is completed, unless
    its native work has panicked. -/
theorem Reachable.delivered_of_before {earlier later : OperationId} (reached : Reachable mode w)
    (single : w.workers ≤ 1) (before : w.SubmittedBefore earlier later)
    (completed : later ∈ w.books.delivered) :
    earlier ∈ w.books.delivered ∨ w.Panicked earlier := by
  suffices P : w.workers ≤ 1 → ∀ earlier later, w.SubmittedBefore earlier later →
      later ∈ w.books.delivered → earlier ∈ w.books.delivered ∨ w.Panicked earlier from
    P single earlier later before completed
  refine Reachable.induct (P := fun w => w.workers ≤ 1 → ∀ earlier later,
    w.SubmittedBefore earlier later → later ∈ w.books.delivered →
      earlier ∈ w.books.delivered ∨ w.Panicked earlier) ?_ ?_ reached
  · intro workers files _ earlier later _ completed
    exact absurd completed List.not_mem_nil
  · intro w after reached ih step single earlier later before completed
    have sound := reached.sound
    obtain ⟨filed', -⟩ := (reached.step step).inOrder
    have workers : after.workers = w.workers := (step.turns_of_sound sound).workers
    rw [workers] at single
    -- the two were submitted before the step, if the later one was
    have still (there : later ∈ w.submissions) : w.SubmittedBefore earlier later := by
      obtain ⟨new, added⟩ := step.submissions sound
      have nodup : (new ++ w.submissions).Nodup := added ▸ filed'.nodup
      refine pair_sublist_of_append nodup ?_ there
      rw [added]
      exact before
    have kept (found : earlier ∈ w.books.delivered ∨ w.Panicked earlier) :
        earlier ∈ after.books.delivered ∨ after.Panicked earlier :=
      found.imp (step.delivered_subset sound ·) (step.panicked sound)
    -- what is completed was submitted before the step, so the earlier one was too
    rcases step.delivered_or_next sound completed with old | ⟨job, outcome, rest, next, rfl⟩
    · have there := reached.submitted_of_line single (List.mem_append_right _ old)
      exact kept (ih single earlier later (still there) old)
    · have there := reached.submitted_of_line single (Books.mem_line_of_next next)
      exact kept (reached.delivered_of_next single next (still there))

/-! ## The order of submission -/

/-- What a single worker does and what comes of it is in the order of submission. -/
structure World.KeepsSubmissionOrder (w : World) : Prop where
  /-- An operation is submitted once. -/
  once : w.submissions.Nodup
  /-- Native calls are made in that order; the calls for one operation follow each other. -/
  performed : w.exchanges.Pairwise fun later earlier => later.operation = earlier.operation ∨
    w.SubmittedBefore earlier.operation later.operation
  /-- Completions reach the loop in that order, each once. -/
  completed : w.books.delivered.Sublist w.submissions
  /-- No completion reaches the loop before that of an operation that was submitted earlier,
      unless that one is never to be completed, for its native work has panicked. -/
  unpassed : ∀ earlier later, w.SubmittedBefore earlier later → later ∈ w.books.delivered →
    earlier ∈ w.books.delivered ∨ w.Panicked earlier
  /-- All operations but closes are submitted as soon as they are accepted: no native call for one
      is made after a native call for another that was accepted later.  So the sync of a flush
      comes after all calls for the writes that were accepted before it. -/
  accepted : ∀ earlier later, [later, earlier].Sublist w.accepted → ¬ earlier.Closes →
    ¬ later.Closes → ¬ [earlier.id, later.id].Sublist (w.exchanges.map Exchange.operation)

/-- A runtime with exactly one worker does all native work, on whatever handles, in the order of
    submission, and completions reach the loop in that order. -/
theorem single_worker_keeps_submission_order (reached : Reachable mode w)
    (single : w.workers = 1) : w.KeepsSubmissionOrder := by
  obtain ⟨filed, served⟩ := reached.inOrder
  obtain ⟨line, -, -, ordered⟩ := served single.le
  obtain ⟨loose, accounted, -⟩ := reached.sound.accounted
  have performed : w.exchanges.Pairwise fun later earlier => later.operation = earlier.operation ∨
      w.SubmittedBefore earlier.operation later.operation :=
    ordered.imp fun known => known.imp_right fun before => before.trans filed.taken.sublist
  refine ⟨filed.nodup, performed, (List.sublist_append_right _ _).trans line,
    fun earlier later => reached.delivered_of_before single.le, ?_⟩
  intro earlier later accepted plain plain' called
  -- the earlier one has the smaller number
  have numbers : earlier.id < later.id := by
    have pair := accepted.map Job.id
    rw [show w.accepted.map Job.id = _ from accounted.numbered] at pair
    have pairwise : (List.range w.books.nextOperation).reverse.Pairwise (· > ·) :=
      List.pairwise_reverse.mpr List.pairwise_lt_range
    simpa using pairwise.sublist pair
  have pairs : (w.exchanges.map Exchange.operation).Pairwise fun later earlier =>
      later = earlier ∨ w.SubmittedBefore earlier later := List.pairwise_map.mpr performed
  have related := pairs.sublist called
  rcases (List.pairwise_pair.mp related) with same | before
  · exact absurd same (Nat.ne_of_lt numbers)
  · -- so it was submitted first, if the call was made later
    have listed : later ∈ w.books.accepted := accepted.subset List.mem_cons_self
    have listed' : earlier ∈ w.books.accepted :=
      accepted.subset (List.mem_cons_of_mem _ List.mem_cons_self)
    have prompt := List.pairwise_pair.mp (filed.prompt.sublist before)
    have swapped := prompt ⟨earlier, listed', rfl, plain⟩ ⟨later, listed, rfl, plain'⟩
    exact Nat.lt_asymm numbers swapped

/-- A run with one worker and two handles.  The first is closed while it has a write on its way, so
    its close is submitted after a write and a flush of the other that were accepted later. -/
def overtakenCloseRun : Option World :=
  (World.start 1 ⟨[], []⟩).follow
    [.body 0 [
      .openFile 0 { write := true } .log (.memory (.bytes []) none {}),
      .openFile 1 { write := true } .log (.memory (.bytes []) none {}),
      .write 0 (.bytes [1, 2, 3]) 0 ⟨"first", [], []⟩,
      .close 0 none,
      .write 1 (.bytes [4]) 0 ⟨"second", [], []⟩,
      .flush 1 none],
    .take, .answer 0 (.moved 2 []), .answer 0 (.moved 1 []), .finish 0, .take, .task,
    .answer 2 (.moved 1 []), .finish 2, .take, .answer 3 (.moved 0 []), .task]

theorem overtaken_close_is_submitted_last : ∃ w, overtakenCloseRun = some w ∧ w.workers = 1 ∧
    w.submissions = [1, 3, 2, 0] ∧ w.exchanges.map Exchange.operation = [3, 2, 0, 0] ∧
    w.books.delivered = [2, 0] ∧ w.KeepsSubmissionOrder := by
  have stands : (overtakenCloseRun.map fun w => (w.workers, w.submissions,
      w.exchanges.map Exchange.operation, w.books.delivered)) =
      some (1, [1, 3, 2, 0], [3, 2, 0, 0], [2, 0]) := by decide +kernel
  obtain ⟨w, run, same⟩ := Option.map_eq_some_iff.mp stands
  simp only [Prod.mk.injEq] at same
  obtain ⟨single, submitted, performed, completed⟩ := same
  have reached : Reachable .calm w := World.reachable_of_follow run
  exact ⟨w, run, single, submitted, performed, completed,
    single_worker_keeps_submission_order reached single⟩

end PinnedFile
