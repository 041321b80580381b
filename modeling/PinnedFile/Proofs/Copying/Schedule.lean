/-
  PinnedFile.Proofs.Copying.Schedule

  The copying goes on until it rests, and the schedule of a session is one way to go on.

  Whatever is not at rest can make a step: there is a task for the loop, or a job with a worker
  that has ended or waits for an answer, or a job and a free worker.  The files of a session
  answer their calls well, so a session that copies makes no other steps than these.
-/

import PinnedFile.Proofs.Copying.Rest

namespace PinnedFile

variable {t : Transfer} {call : Call} {contents old : Bytes} {limit most : Nat} {d : Descriptor}
  {w after : World} {job : Job} {a b : NodeId}

/-! ## Calls that can be answered -/

/-- Every call can go well, whatever the file holds. -/
theorem Transfer.exists_goesWell (contents : Bytes) (makes : t.call? = some call) :
    ∃ x, call.GoesWell contents x := by
  cases t with
  | write data position written =>
    simp only [call?] at makes
    split at makes
    next more =>
      obtain rfl := Option.some.inj makes
      have some : 0 < (data.drop written).length := by
        rw [List.length_drop]
        omega
      exact ⟨.moved (data.drop written).length [], trivial, ⟨some, Nat.le_refl _⟩, trivial⟩
    · cases makes
  | read position length filled scratch =>
    simp only [call?] at makes
    split at makes
    next more =>
      obtain rfl := Option.some.inj makes
      have found := Bytes.length_window contents (position + filled) (length - filled)
      exact ⟨.moved (contents.window (position + filled) (length - filled)).length _,
        ⟨Bytes.window_length.symm, rfl, by omega, fun none => by omega⟩, trivial, trivial⟩
    · cases makes
  | sync | close =>
    obtain rfl := Option.some.inj makes
    exact ⟨.moved 0 [], trivial, trivial, trivial⟩
  | ended => cases makes

/-- A call for a place within the limits of a file is admitted, if the file is open for it. -/
theorem Transfer.IsWell.admits (well : t.IsWell limit most) (makes : t.call? = some call)
    (small : limit ≤ FileTree.sizeLimit) (few : limit + most < FileTree.positionLimit)
    (access : d.readable = true ∧ call.operation ≠ .write ∨
      d.writable = true ∧ call.operation ≠ .read) : FileTree.Admits d call := by
  cases t with
  | write data position written =>
    simp only [call?] at makes
    split at makes
    next more =>
      obtain rfl := Option.some.inj makes
      have within : position + data.length ≤ limit := well
      obtain ⟨writable, -⟩ := access.resolve_left fun other => other.2 rfl
      refine ⟨writable, ?_, by omega, ?_⟩
      · rw [ne_eq, List.drop_eq_nil_iff]
        omega
      · rw [List.length_drop]
        omega
    · cases makes
  | read position length filled scratch =>
    simp only [call?] at makes
    split at makes
    next more =>
      obtain rfl := Option.some.inj makes
      obtain ⟨begins, -, part⟩ := well
      obtain ⟨readable, -⟩ := access.resolve_right fun other => other.2 rfl
      exact ⟨readable, by omega, by omega⟩
    · cases makes
  | sync | close =>
    obtain rfl := Option.some.inj makes
    exact trivial
  | ended => cases makes

namespace Copying.Copies

/-! ## The next step -/

/-- The file that a call of the copying is made on. -/
theorem file_of_call (copies : Copies contents old a b w)
    (fits : contents.length < Transfer.wordLimit) (running : job ∈ w.running)
    (makes : job.transfer.call? = some call) : ∃ s d data, w.handles[job.handle]? = some s ∧
      w.backends[s.backend]? = some (.file d) ∧ w.files.contents? d.node = some data ∧
      (d.readable = true ∧ call.operation ≠ .write ∨
        d.writable = true ∧ call.operation ≠ .read) := by
  obtain ⟨setting, intake, outlet, -, stands, sound⟩ := copies.stands
  rw [stands.backends, sound.backends, stands.files]
  obtain ⟨-, ⟨source, other⟩ | ⟨destination, other⟩⟩ := copies.call_cases fits running makes
  · obtain ⟨s, known, isSource⟩ := stands.source?
    rw [source]
    exact ⟨s, _, contents, known, by rw [isSource.backend]; rfl, sound.source, .inl ⟨rfl, other⟩⟩
  · obtain ⟨t, known, isDestination⟩ := stands.destination?
    rw [destination]
    exact ⟨t, _, _, known, by rw [isDestination.backend]; rfl, sound.destination,
      .inr ⟨rfl, other⟩⟩

/-- Whatever is not at rest goes on. -/
theorem exists_proceeds (copies : Copies contents old a b w)
    (fits : contents.length < Transfer.wordLimit) (busy : ¬ w.AtRest) :
    ∃ after, Proceeds w after := by
  obtain ⟨setting, intake, outlet, -, stands, sound⟩ := copies.stands
  have jobsOpen := stands.jobs sound.smooth
  have tasksOpen := stands.tasks sound.smooth
  rcases tasks : w.tasks.items with _ | ⟨task, rest⟩
  · rcases running : w.running with _ | ⟨job, others⟩
    · rcases jobs : w.jobs.items with _ | ⟨job, rest⟩
      · exact absurd ⟨jobs, running, tasks⟩ busy
      · -- a job waits, and all workers are free
        have free : w.running.length < w.workers := by
          rw [running]
          exact copies.staffed
        rcases takes : w.takeJob with _ | after
        · rw [World.takeJob, if_pos free, Queue.pop, if_pos jobsOpen, jobs] at takes
          cases takes
        · exact ⟨after, .take takes⟩
    · have there : job ∈ w.running := by
        rw [running]
        exact List.mem_cons_self
      rcases makes : job.transfer.call? with _ | call
      · obtain ⟨outcome, ended⟩ := job.transfer.call?_eq_none_iff.mp makes
        exact ⟨_, .finish there ended⟩
      · obtain ⟨s, d, data, known, file, holds, -⟩ := copies.file_of_call fits there makes
        obtain ⟨x, goes⟩ := Transfer.exists_goesWell data makes
        exact ⟨_, .answer there makes known file holds goes⟩
  · rcases runs : w.runTask with _ | after
    · rw [World.runTask, Queue.pop, if_pos tasksOpen, tasks] at runs
      cases runs
    · exact ⟨after, .task runs⟩

/-! ## Sessions -/

/-- The files of a session answer well. -/
theorem proceeds_of_release (copies : Copies contents old a b w)
    (small : contents.length ≤ FileTree.sizeLimit) (running : job ∈ w.running)
    (released : w.release job = some after) : Proceeds w after := by
  have fits : contents.length < Transfer.wordLimit := Nat.lt_of_le_of_lt small (by decide)
  simp only [World.release, Option.bind_eq_bind, Option.bind_eq_some_iff, Prod.exists] at released
  obtain ⟨s, known, call, makes, x, changed, answered, made⟩ := released
  obtain rfl := Option.some.inj made
  obtain ⟨s', d, data, known', file, holds, access⟩ := copies.file_of_call fits running makes
  obtain rfl := Option.some.inj (known.symm.trans known')
  have few : FileTree.sizeLimit + chunkSize < FileTree.positionLimit := by decide
  have admits : FileTree.Admits d call :=
    (copies.call_cases fits running makes).1.admits makes small (by omega) access
  have answers := FileTree.perform_regular holds admits
  rw [World.callBackend?, file] at answered
  dsimp only at answered
  generalize w.files.perform d call = performed at answers answered
  obtain ⟨rfl, rfl⟩ := Prod.mk.inj (Option.some.inj answered)
  rw [answers.2]
  exact .answer running makes known file holds answers.1

/-- A session that copies makes the steps of the copying only. -/
theorem proceeds_of_step (copies : Copies contents old a b w)
    (small : contents.length ≤ FileTree.sizeLimit) (steps : w.step = some after) :
    Proceeds w after := by
  simp only [World.step, Option.orElse_eq_orElse, Option.orElse_eq_or, Option.or_eq_some_iff]
    at steps
  rcases steps with runs | ⟨-, finished | ⟨-, takes | ⟨-, answered⟩⟩⟩
  · exact .task runs
  · obtain ⟨job, running, found⟩ := List.exists_of_findSome?_eq_some finished
    obtain ⟨outcome, ended, rfl⟩ := Option.map_eq_some_iff.mp found
    exact .finish running ended
  · exact .take takes
  · obtain ⟨job, found, released⟩ := Option.bind_eq_some_iff.mp answered
    exact copies.proceeds_of_release small (List.mem_of_find?_eq_some found) released

theorem proceeds_settle (copies : Copies contents old a b w) (apart : a ≠ b)
    (small : contents.length ≤ FileTree.sizeLimit) (fuel : Nat) :
    Relation.ReflTransGen Proceeds w (World.settle fuel w) := by
  induction fuel generalizing w with
  | zero => exact .refl
  | succ fuel ih =>
    rw [World.settle]
    split
    · exact .refl
    next after first =>
      have step := copies.proceeds_of_step small first
      have fits : contents.length < Transfer.wordLimit := Nat.lt_of_le_of_lt small (by decide)
      exact .head step (ih (copies.proceeds fits apart step))

end Copying.Copies

end PinnedFile
