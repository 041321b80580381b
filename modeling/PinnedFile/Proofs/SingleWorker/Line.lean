/-
  PinnedFile.Proofs.SingleWorker.Line

  How the books go with what was submitted and what was taken.

  What is submitted and not taken waits in the queue of jobs, the latest at its end.  If there is
  one worker, then what is taken and not completed is with it or waits for the loop, and the whole
  way from the loop back to the queue is a part of what was submitted, in order.  A close that was
  deferred enters at the end like all else, whenever it is queued.
-/

import PinnedFile.Proofs.SingleWorker.Submissions

namespace PinnedFile

namespace Books

variable {b after : Books} {loose : List Job} {h : HandleId} {s : Handle} {job : Job}
  {t : Transfer} {c : Completion} {id : OperationId} {submitted submitted' taken : List OperationId}

/-! ## What is submitted -/

/-- An operation of this number was accepted, and it is no close. -/
def IsPlain (b : Books) (id : OperationId) : Prop := ∃ a ∈ b.accepted, a.id = id ∧ ¬ a.Closes

/-- How the books go with what was submitted and what was taken, each the latest first. -/
structure Filed (b : Books) (submitted taken : List OperationId) : Prop where
  /-- Only what was accepted is submitted. -/
  known : ∀ id ∈ submitted, id < b.nextOperation
  /-- A close that waits is not submitted yet. -/
  waiting : AllWaiting (fun _ job => job.Closes ∧ job.id ∉ submitted) b.handles
  nodup : submitted.Nodup
  /-- All but closes are submitted as soon as they are accepted. -/
  prompt : submitted.Pairwise fun later earlier =>
    b.IsPlain later → b.IsPlain earlier → earlier < later
  /-- What is submitted and not taken waits for a worker. -/
  queued : b.jobs.isOpen = true → submitted = (b.jobs.items.map Job.id).reverse ++ taken
  /-- What is taken was submitted first. -/
  taken : taken <:+ submitted

theorem Filed.of_same (filed : b.Filed submitted taken) (jobs : after.jobs = b.jobs)
    (handles : after.handles = b.handles) (accepted : after.accepted = b.accepted)
    (next : after.nextOperation = b.nextOperation) : after.Filed submitted taken := by
  have plain {id : OperationId} : after.IsPlain id ↔ b.IsPlain id := by
    rw [IsPlain, IsPlain, accepted]
  constructor
  · rw [next]
    exact filed.known
  · rw [handles]
    exact filed.waiting
  · exact filed.nodup
  · simpa only [plain] using filed.prompt
  · rw [jobs]
    exact filed.queued
  · exact filed.taken

theorem Accounted.exists_of_lt (accounted : b.Accounted loose) (below : id < b.nextOperation) :
    ∃ a ∈ b.accepted, a.id = id := by
  have listed : id ∈ b.accepted.map Job.id := by
    rw [accounted.numbered, List.mem_reverse]
    exact List.mem_range.mpr below
  exact List.mem_map.mp listed

/-- A close that waits was accepted. -/
theorem Accounted.exists_of_waiting (accounted : b.Accounted loose)
    (known : b.handles[h]? = some s) (waits : s.pendingClose = some job) :
    ∃ a ∈ b.accepted, a.ticket = job.ticket :=
  accounted.accepted_of_underway (underway_of_waiting (List.mem_of_getElem? known) waits)

theorem isPlain_accept (below : id < b.nextOperation) (plain : (b.accept h t c).IsPlain id) :
    b.IsPlain id := by
  obtain ⟨a, accepted, rfl, plain⟩ := plain
  rcases List.mem_cons.mp accepted with rfl | before
  · exact absurd below (Nat.lt_irrefl _)
  · exact ⟨a, before, rfl, plain⟩

/-- An operation that is accepted is not submitted by that. -/
theorem Filed.accept (filed : b.Filed submitted taken) (h : HandleId) (t : Transfer)
    (c : Completion) : (b.accept h t c).Filed submitted taken where
  known id listed := Nat.lt_succ_of_lt (filed.known id listed)
  waiting := allWaiting_modify_same filed.waiting fun _ => rfl
  nodup := filed.nodup
  prompt := filed.prompt.imp_of_mem fun later earlier ordered plain plain' =>
    ordered (isPlain_accept (filed.known _ later) plain)
      (isPlain_accept (filed.known _ earlier) plain')
  queued := filed.queued
  taken := filed.taken

/-- What a change of handles keeps, as long as no close begins to wait that was submitted. -/
theorem Filed.modify {f : Handle → Handle} (filed : b.Filed submitted taken)
    (waits : ∀ s job, b.handles[h]? = some s → (f s).pendingClose = some job →
      job.Closes ∧ job.id ∉ submitted) : (b.modify h f).Filed submitted taken where
  known := filed.known
  waiting := allWaiting_modify filed.waiting waits
  nodup := filed.nodup
  prompt := filed.prompt
  queued := filed.queued
  taken := filed.taken

/-- A job that was not submitted yet is put behind all others, after those of its kind that were
    accepted before. -/
theorem Filed.submit (filed : b.Filed submitted taken)
    (queues : Queues b.jobs submitted (b.submit job).jobs submitted')
    (below : job.id < b.nextOperation) (fresh : job.id ∉ submitted)
    (apart : AllWaiting (fun _ other => other.id ≠ job.id) b.handles)
    (last : b.IsPlain job.id → ∀ id ∈ submitted, id < job.id) :
    (b.submit job).Filed submitted' taken := by
  -- workers that are shut down take no job, and none is submitted
  rcases queues.of_push rfl with ⟨shut, rfl⟩ | ⟨isOpen, rfl⟩
  · rwa [submit_of_shut shut]
  · have items : (b.submit job).jobs.items = b.jobs.items ++ [job] := Queue.items_push isOpen
    constructor
    · intro id listed
      rcases List.mem_cons.mp listed with rfl | before
      · exact below
      · exact filed.known id before
    · intro h s other known waits
      obtain ⟨closes, absent⟩ := filed.waiting h s other known waits
      refine ⟨closes, fun listed => ?_⟩
      rcases List.mem_cons.mp listed with same | before
      · exact apart h s other known waits same
      · exact absent before
    · exact List.nodup_cons.mpr ⟨fresh, filed.nodup⟩
    · refine List.pairwise_cons.mpr ⟨?_, filed.prompt⟩
      exact fun id listed plain _ => last plain id listed
    · intro _
      rw [items, List.map_append, List.reverse_append, filed.queued isOpen]
      rfl
    · exact filed.taken.trans (List.suffix_cons _ _)

/-- The next operation was not submitted yet. -/
theorem Filed.next_fresh (filed : b.Filed submitted taken) : b.nextOperation ∉ submitted :=
  fun listed => Nat.lt_irrefl _ (filed.known _ listed)

/-- Whatever waits on a handle was accepted before the next operation. -/
theorem Accounted.next_apart (accounted : b.Accounted loose) :
    AllWaiting (fun _ other => other.id ≠ b.nextOperation) b.handles := by
  intro k s other known waits same
  obtain ⟨a, accepted, ticket⟩ := accounted.exists_of_waiting known waits
  have below := accounted.lt_of_accepted accepted
  rw [show a.id = other.id from congrArg Ticket.id ticket, same] at below
  exact Nat.lt_irrefl _ below

theorem Move.filed (entry : Move b after) (accounted : b.Accounted loose)
    (queues : Queues b.jobs submitted after.jobs submitted') (filed : b.Filed submitted taken) :
    after.Filed submitted' taken := by
  cases entry with
  | @accept h s t c admits fits plain =>
    exact (filed.accept h t c).submit queues (Nat.lt_succ_self _) filed.next_fresh
      (allWaiting_modify_same accounted.next_apart fun _ => rfl) fun _ => filed.known
  | @close h s handler admits quiet =>
    have counted := filed.accept h .close (.close handler)
    have closed := counted.modify (h := h) (f := ({ · with closed := true }))
      fun s other known waits => counted.waiting h s other known waits
    refine closed.submit queues (Nat.lt_succ_self _) filed.next_fresh ?_ fun _ => filed.known
    exact allWaiting_modify_same (allWaiting_modify_same accounted.next_apart fun _ => rfl)
      fun _ => rfl
  | closeLater admits busy =>
    obtain rfl := queues.of_same rfl
    refine (filed.accept _ _ _).modify fun s job known waits => ?_
    obtain rfl := Option.some.inj waits
    exact ⟨rfl, filed.next_fresh⟩
  | call | post =>
    obtain rfl := queues.of_same rfl
    exact filed.of_same rfl rfl rfl rfl
  | «open» fresh =>
    -- on a handle that was opened just now no close waits
    obtain rfl := queues.of_same rfl
    refine { filed with waiting := fun h s job known waits => ?_ }
    rcases getElem?_append_cases known with old | ⟨-, rfl⟩
    · exact filed.waiting h s job old waits
    · rw [fresh.2.2.2] at waits
      cases waits
  | shutDown =>
    obtain rfl := queues.of_shutDown rfl
    exact { filed with queued := fun isOpen => by cases isOpen }

/-- A close that waited is submitted for the first time when it is queued. -/
theorem Filed.closeIfQuiet (filed : b.Filed submitted taken) (accounted : b.Accounted loose)
    (queues : Queues b.jobs submitted (b.closeIfQuiet h).jobs submitted') :
    (b.closeIfQuiet h).Filed submitted' taken := by
  rcases closeIfQuiet_cases b h with ⟨same, -⟩ | ⟨s, job, known, -, waits, same⟩
  · rw [same] at queues ⊢
    obtain rfl := queues.of_same rfl
    exact filed
  · rw [same] at queues ⊢
    obtain ⟨a, accepted, ticket⟩ := accounted.exists_of_waiting known waits
    have number : a.id = job.id := congrArg Ticket.id ticket
    obtain ⟨closes, fresh⟩ := filed.waiting h s job known waits
    have taken : (b.modify h ({ · with pendingClose := none })).Filed submitted taken :=
      filed.modify fun _ _ _ waits => by cases waits
    refine taken.submit queues ?_ fresh ?_ ?_
    · rw [← number]
      exact accounted.lt_of_accepted accepted
    · -- the closes that still wait are other operations
      have apart := (accounted_release (f := ({ · with pendingClose := none })) accounted known
        waits rfl).nodup
      rw [List.append_assoc, List.map_append, List.nodup_append] at apart
      intro k s' other known' waits'
      have there := underway_of_waiting (List.mem_of_getElem? known') waits'
      refine apart.2.2 other.id (List.mem_map_of_mem there) job.id (List.mem_map_of_mem ?_)
      exact List.mem_append_right _ List.mem_cons_self
    · -- and a close has no place to keep among the others
      rintro ⟨a', accepted', number', plain⟩
      obtain rfl := accounted.eq_of_id accepted' accepted (number'.trans number.symm)
      exact absurd ((Job.closes_congr ticket).mpr closes) plain

/-! ## One worker -/

/-- The way from the loop back to the queue of jobs: what waits for a worker, what is with one,
    what waits for the loop, and what is completed, the latest first. -/
def line (b : Books) : List OperationId := (b.pipeline.map Ticket.id).reverse ++ b.delivered

/-- What a single worker does is done in the order of submission. -/
structure Served (b : Books) (submitted taken : List OperationId) : Prop where
  line : b.line.Sublist submitted
  /-- The worker has the job that was taken last. -/
  latest : ∀ job ∈ b.running, taken.head? = some job.id
  performed : ∀ e ∈ b.exchanges, e.operation ∈ taken
  ordered : b.exchanges.Pairwise fun later earlier => later.operation = earlier.operation ∨
    [later.operation, earlier.operation].Sublist taken

/-- What leaves the worker alone keeps the order if it keeps the line. -/
theorem Served.of_sameWork (served : b.Served submitted taken) (work : SameWork b after)
    (line : after.line.Sublist submitted') : after.Served submitted' taken where
  line := line
  latest := by
    rw [work.running]
    exact served.latest
  performed := by
    rw [work.exchanges]
    exact served.performed
  ordered := by
    rw [work.exchanges]
    exact served.ordered

theorem line_sublist (pipeline : after.pipeline.Sublist b.pipeline)
    (completed : after.completed = b.completed) : after.line.Sublist b.line := by
  rw [line, line, delivered, completed]
  exact ((pipeline.map Ticket.id).reverse).append_right _

/-- What is submitted stands at the end of the line. -/
theorem line_submit (queues : Queues b.jobs submitted (b.submit job).jobs submitted')
    (line : b.line.Sublist submitted) : (b.submit job).line.Sublist submitted' := by
  rcases queues.of_push rfl with ⟨shut, rfl⟩ | ⟨isOpen, rfl⟩
  · rwa [submit_of_shut shut]
  · have longer : (b.submit job).line.Sublist (job.id :: b.line) := by
      have behind : (b.submit job).pipeline.Sublist (b.pipeline ++ [job.ticket]) := pipeline_submit
      have reversed := (behind.map Ticket.id).reverse
      rw [List.map_append, List.reverse_append] at reversed
      exact reversed.append_right _
    exact longer.trans (line.cons_cons _)

theorem Move.line (entry : Move b after)
    (queues : Queues b.jobs submitted after.jobs submitted') (line : b.line.Sublist submitted) :
    after.line.Sublist submitted' := by
  cases entry with
  | @accept h s t c => exact line_submit (b := b.accept h t c) queues line
  | @close h s handler =>
    exact line_submit
      (b := (b.accept h .close (.close handler)).modify h ({ · with closed := true })) queues line
  | closeLater | call | «open» =>
    obtain rfl := queues.of_same rfl
    exact line
  | post plain =>
    obtain rfl := queues.of_same rfl
    rwa [Books.line, pipeline_post plain]
  | shutDown =>
    obtain rfl := queues.of_shutDown rfl
    exact (line_sublist pipeline_shutDown rfl).trans line

theorem line_closeIfQuiet (queues : Queues b.jobs submitted (b.closeIfQuiet h).jobs submitted')
    (line : b.line.Sublist submitted) : (b.closeIfQuiet h).line.Sublist submitted' := by
  rcases closeIfQuiet_cases b h with ⟨same, -⟩ | ⟨s, job, -, -, -, same⟩
  · rw [same] at queues ⊢
    obtain rfl := queues.of_same rfl
    exact line
  · rw [same] at queues ⊢
    exact line_submit (b := b.modify h ({ · with pendingClose := none })) queues line

/-- A free worker takes what was submitted first. -/
theorem Filed.take {rest : Queue Job} (filed : b.Filed submitted taken)
    (next : b.jobs.pop = some (job, rest)) :
    Filed { b with jobs := rest, running := b.running ++ [job] } submitted (job.id :: taken) := by
  obtain ⟨items, isOpen⟩ := Queue.pop_eq_some_iff.mp next
  have all := filed.queued (by rw [items])
  rw [items, List.map_cons, List.reverse_cons, List.append_assoc] at all
  exact ⟨filed.known, filed.waiting, filed.nodup, filed.prompt, fun _ => all, _, all.symm⟩

/-- The only worker takes a job when it has none. -/
theorem Served.take {rest : Queue Job} (served : b.Served submitted taken)
    (next : b.jobs.pop = some (job, rest)) (idle : b.running = []) :
    Served { b with jobs := rest, running := b.running ++ [job] } submitted (job.id :: taken) where
  line := by
    rw [Books.line, pipeline_take next]
    exact served.line
  latest other listed := by
    rw [idle] at listed
    rw [List.mem_singleton.mp listed]
    rfl
  performed e listed := List.mem_cons_of_mem _ (served.performed e listed)
  ordered := served.ordered.imp fun known =>
    known.imp_right fun before => before.trans (List.sublist_cons_self _ _)

/-- The only worker makes a call for the job that was taken last, so after all calls for the jobs
    that were taken before. -/
theorem Served.answer {call : Call} {a : Answer} (served : b.Served submitted taken)
    (alone : b.running = [job]) : (b.answer job call a).Served submitted taken := by
  obtain ⟨earlier, rfl⟩ : ∃ earlier, taken = job.id :: earlier := by
    have latest := served.latest job (by rw [alone]; exact List.mem_cons_self)
    exact List.head?_eq_some_iff.mp latest
  constructor
  · exact (line_sublist (pipeline_answer alone) rfl).trans served.line
  · intro other listed
    have left : other ∈ (job.transfer.feed a).toList.map fun t => { job with transfer := t } := by
      simpa [Books.answer, withoutJob, alone] using listed
    obtain ⟨t, -, rfl⟩ := List.mem_map.mp left
    rfl
  · intro e listed
    rcases List.mem_cons.mp listed with rfl | before
    · exact List.mem_cons_self
    · exact served.performed e before
  · refine List.pairwise_cons.mpr ⟨fun e listed => ?_, served.ordered⟩
    rcases List.mem_cons.mp (served.performed e listed) with same | before
    · exact .inl same.symm
    · exact .inr ((List.singleton_sublist.mpr before).cons_cons _)

/-- The only worker hands its job on and has none. -/
theorem Served.finish {outcome : Outcome} (served : b.Served submitted taken)
    (alone : b.running = [job]) :
    ((b.withoutJob job).post (.deliver job outcome)).Served submitted taken where
  line := (line_sublist (pipeline_finish alone) rfl).trans served.line
  latest other listed := by
    have none : ((b.withoutJob job).post (.deliver job outcome)).running = [] := by
      simp [post, withoutJob, alone]
    rw [none] at listed
    cases listed
  performed := served.performed
  ordered := served.ordered

end Books

end PinnedFile
