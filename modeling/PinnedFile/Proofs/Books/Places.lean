/-
  PinnedFile.Proofs.Books.Places

  Where an operation can be as long as it is on its way: it waits for a worker, is with one,
  waits for the loop with its outcome, or waits as the close of its handle.

  No change of the books but an acceptance puts anything at one of these places that was at
  none of them before.
-/

import PinnedFile.Proofs.Books.Handles

namespace PinnedFile

namespace Books

/-- The operations that are on their way: with workers or tasks, or waiting for them. -/
def underway (b : Books) : List Job :=
  b.jobs.items ++ b.running ++ b.tasks.items.filterMap Task.job?
    ++ b.handles.filterMap Handle.pendingClose

variable {b after : Books} {h : HandleId} {s : Handle} {job other : Job} {outcome : Outcome}

/-! ## The four places -/

theorem mem_underway : job ∈ b.underway ↔ job ∈ b.jobs.items ∨ job ∈ b.running ∨
    (∃ outcome, .deliver job outcome ∈ b.tasks.items) ∨
    ∃ s ∈ b.handles, s.pendingClose = some job := by
  have tasks : (∃ task ∈ b.tasks.items, task.job? = some job) ↔
      ∃ outcome, .deliver job outcome ∈ b.tasks.items := by
    constructor
    · rintro ⟨task, listed, delivers⟩
      cases task with
      | deliver other outcome =>
        obtain rfl := Option.some.inj delivers
        exact ⟨outcome, listed⟩
      | client | later => cases delivers
    · rintro ⟨outcome, listed⟩
      exact ⟨_, listed, rfl⟩
  simp only [underway, List.mem_append, List.mem_filterMap, tasks, or_assoc]

theorem underway_of_queued (queued : job ∈ b.jobs.items) : job ∈ b.underway :=
  mem_underway.mpr (.inl queued)

theorem underway_of_running (running : job ∈ b.running) : job ∈ b.underway :=
  mem_underway.mpr (.inr (.inl running))

theorem underway_of_posted (posted : .deliver job outcome ∈ b.tasks.items) : job ∈ b.underway :=
  mem_underway.mpr (.inr (.inr (.inl ⟨outcome, posted⟩)))

theorem underway_of_waiting (listed : s ∈ b.handles) (waits : s.pendingClose = some job) :
    job ∈ b.underway := mem_underway.mpr (.inr (.inr (.inr ⟨s, listed, waits⟩)))

/-- An operation that is on its way was so before, if it was wherever it can be now. -/
theorem underway_of_places (there : job ∈ after.underway)
    (queued : job ∈ after.jobs.items → job ∈ b.underway)
    (running : job ∈ after.running → job ∈ b.underway)
    (posted : ∀ outcome, .deliver job outcome ∈ after.tasks.items → job ∈ b.underway)
    (waiting : ∀ s ∈ after.handles, s.pendingClose = some job → job ∈ b.underway) :
    job ∈ b.underway := by
  rcases mem_underway.mp there with there | there | ⟨outcome, there⟩ | ⟨s, listed, waits⟩
  · exact queued there
  · exact running there
  · exact posted outcome there
  · exact waiting s listed waits

/-! ## What a change puts there -/

theorem submit_of_shut (shut : b.jobs.isOpen = false) : b.submit job = b := by
  rw [submit, Queue.push_of_shut shut]

theorem underway_submit (there : other ∈ (b.submit job).underway) :
    other = job ∨ other ∈ b.underway := by
  rcases mem_underway.mp there with queued | running | ⟨outcome, posted⟩ | ⟨s, listed, waits⟩
  · rcases Queue.mem_push queued with before | new
    · exact .inr (underway_of_queued before)
    · exact .inl new
  · exact .inr (underway_of_running running)
  · exact .inr (underway_of_posted posted)
  · exact .inr (underway_of_waiting listed waits)

/-- A change of one handle brings forth no job but the one that waits on it then. -/
theorem underway_modify {f : Handle → Handle} (there : job ∈ (b.modify h f).underway) :
    job ∈ b.underway ∨ ∃ s, b.handles[h]? = some s ∧ (f s).pendingClose = some job := by
  rcases mem_underway.mp there with queued | running | ⟨outcome, posted⟩ | ⟨s, listed, waits⟩
  · exact .inl (underway_of_queued queued)
  · exact .inl (underway_of_running running)
  · exact .inl (underway_of_posted posted)
  · obtain ⟨k, found⟩ := List.mem_iff_getElem?.mp listed
    rcases getElem?_modify_cases found with ⟨-, before, known, rfl⟩ | ⟨-, same⟩
    · exact .inr ⟨before, known, waits⟩
    · exact .inl (underway_of_waiting (List.mem_of_getElem? same) waits)

theorem underway_modify_same {f : Handle → Handle}
    (same : ∀ s, (f s).pendingClose = s.pendingClose) (there : job ∈ (b.modify h f).underway) :
    job ∈ b.underway := by
  rcases underway_modify there with before | ⟨s, known, waits⟩
  · exact before
  · rw [same] at waits
    exact underway_of_waiting (List.mem_of_getElem? known) waits

theorem underway_closeIfQuiet (there : job ∈ (b.closeIfQuiet h).underway) : job ∈ b.underway := by
  rcases closeIfQuiet_cases b h with ⟨same, -⟩ | ⟨s, waiting, known, -, waits, same⟩
  · rwa [same] at there
  · rw [same] at there
    rcases underway_submit there with rfl | elsewhere
    · exact underway_of_waiting (List.mem_of_getElem? known) waits
    · rcases underway_modify elsewhere with before | ⟨s', -, none⟩
      · exact before
      · cases none

/-- A task that is taken off the queue puts nothing anywhere. -/
theorem underway_taken {task : Task} {rest : Queue Task} (next : b.tasks.pop = some (task, rest))
    (there : other ∈ { b with tasks := rest }.underway) : other ∈ b.underway := by
  refine underway_of_places there (fun queued => underway_of_queued queued)
    (fun running => underway_of_running running) (fun outcome posted => ?_)
    fun _ listed waits => underway_of_waiting listed waits
  have before : .deliver other outcome ∈ b.tasks.items := by
    rw [(Queue.pop_eq_some_iff.mp next).1]
    exact List.mem_cons_of_mem _ posted
  exact underway_of_posted before

theorem underway_opening {rest : Queue Task} {owner : ContextId}
    (next : b.tasks.pop = some (.deliver job outcome, rest))
    (there : other ∈ (b.opening rest owner job outcome).underway) : other ∈ b.underway := by
  have released := underway_modify_same (b := { b with tasks := rest }) (h := job.handle)
    (f := (·.releasing job.completion)) (fun _ => rfl) there
  exact underway_taken next released

/-- What is posted delivers nothing, so it puts no operation anywhere. -/
theorem deliver_mem_post {task : Task} (plain : task.job? = none)
    (listed : .deliver job outcome ∈ (b.post task).tasks.items) :
    .deliver job outcome ∈ b.tasks.items := by
  rcases Queue.mem_push listed with before | rfl
  · exact before
  · cases plain

theorem underway_post {task : Task} (plain : task.job? = none)
    (there : job ∈ (b.post task).underway) : job ∈ b.underway :=
  underway_of_places there (fun queued => underway_of_queued queued)
    (fun running => underway_of_running running)
    (fun _ posted => underway_of_posted (deliver_mem_post plain posted))
    fun _ listed waits => underway_of_waiting listed waits

theorem underway_withoutJob (there : other ∈ (b.withoutJob job).underway) :
    other ∈ b.underway :=
  underway_of_places there (fun queued => underway_of_queued queued)
    (fun left => underway_of_running (List.mem_of_mem_eraseP left))
    (fun _ posted => underway_of_posted posted)
    fun _ listed waits => underway_of_waiting listed waits

end Books

end PinnedFile
