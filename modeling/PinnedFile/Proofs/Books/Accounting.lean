/-
  PinnedFile.Proofs.Books.Accounting

  Every accepted operation is somewhere: it waits for a worker, is with one, waits for the
  loop, waits as the close of its handle, is completed, or is lost.  It is in one of these
  places only, and it is lost only by a panic or a shutdown.

  Operations are accounted for as bags of tickets, so that a job that goes from one place
  to the next changes nothing.
-/

import Mathlib.Algebra.BigOperators.Group.Multiset.Basic
import Mathlib.Data.Multiset.Range
import Mathlib.Tactic.Abel
import PinnedFile.Proofs.Books.Places

namespace PinnedFile

/-! ## Bags of tickets -/

/-- The tickets of some jobs, in no order. -/
def bag (jobs : List Job) : Multiset Ticket := (jobs.map Job.ticket : List Ticket)

@[simp] theorem bag_nil : bag [] = 0 := rfl

@[simp] theorem bag_cons (job : Job) (jobs : List Job) :
    bag (job :: jobs) = {job.ticket} + bag jobs := rfl

@[simp] theorem bag_append (jobs more : List Job) : bag (jobs ++ more) = bag jobs + bag more := by
  simp only [bag, List.map_append, Multiset.coe_add]

/-- What some operations of a handle amount to. -/
def owed (load : Completion → Nat) (h : HandleId) (tickets : Multiset Ticket) : Nat :=
  ((tickets.filter (·.handle = h)).map fun t => load t.completion).sum

section Owed

variable {load : Completion → Nat} {h : HandleId}

@[simp] theorem owed_add (one two : Multiset Ticket) :
    owed load h (one + two) = owed load h one + owed load h two := by
  simp only [owed, Multiset.filter_add, Multiset.map_add, Multiset.sum_add]

theorem owed_singleton (t : Ticket) :
    owed load h {t} = if t.handle = h then load t.completion else 0 := by
  by_cases same : t.handle = h <;> simp [owed, Multiset.filter_singleton, same]

theorem load_le_owed {t : Ticket} {tickets : Multiset Ticket} (listed : t ∈ tickets) :
    load t.completion ≤ owed load t.handle tickets := by
  obtain ⟨rest, rfl⟩ := Multiset.exists_cons_of_mem listed
  rw [← Multiset.singleton_add, owed_add, owed_singleton, if_pos rfl]
  exact Nat.le_add_right _ _

end Owed

theorem ticket_mem_bag {job : Job} {jobs : List Job} (listed : job ∈ jobs) :
    job.ticket ∈ bag jobs := Multiset.mem_coe.mpr (List.mem_map_of_mem listed)

/-! ## Where everything is -/

namespace Books

/-- Nothing was shut down. -/
def IsAlive (b : Books) : Prop := b.jobs.isOpen = true ∧ b.tasks.isOpen = true

/-- Every accepted operation is on its way or completed, or it is one of the `loose`.
    Operations are numbered in the order in which they were accepted. -/
structure Accounted (loose : List Job) (b : Books) : Prop where
  numbered : b.accepted.map Job.id = (List.range b.nextOperation).reverse
  balanced : bag b.accepted =
    bag b.underway + bag (b.completed.map Prod.fst) + bag loose

section Handles

variable {handles : List Handle} {h : HandleId} {s : Handle} {f : Handle → Handle}

theorem filterMap_modify {β : Type} {g : Handle → Option β} (same : ∀ s, g (f s) = g s) :
    (handles.modify h f).filterMap g = handles.filterMap g := by
  induction handles generalizing h with
  | nil => rw [List.modify_nil]
  | cons s rest ih => cases h <;> simp [List.filterMap_cons, same, ih]

/-- The closes that wait, after a change to one handle. -/
theorem bag_pending_modify (known : handles[h]? = some s) :
    bag ((handles.modify h f).filterMap Handle.pendingClose) + bag s.pendingClose.toList =
      bag (handles.filterMap Handle.pendingClose) + bag (f s).pendingClose.toList := by
  -- along the list, up to the handle that is changed
  induction handles generalizing h with
  | nil => simp at known
  | cons s' rest ih =>
    cases h with
    | zero =>
      obtain rfl : s' = s := by simpa using known
      rcases one : s'.pendingClose with _ | job <;>
        rcases two : (f s').pendingClose with _ | other <;>
        simp only [List.modify_zero_cons, List.filterMap_cons, one, two, bag_cons, bag_nil,
          Option.toList_none, Option.toList_some] <;> abel
    | succ h =>
      have rest' := ih (h := h) (by simpa using known)
      rcases one : s'.pendingClose with _ | job
      · simpa [one] using rest'
      · simp only [List.modify_succ_cons, List.filterMap_cons, one, bag_cons, add_assoc, rest']

end Handles

variable {mode : Mode} {b after : Books} {loose : List Job} {h : HandleId} {s : Handle}
  {job : Job}

theorem bag_underway : bag b.underway = bag b.jobs.items + bag b.running
    + bag (b.tasks.items.filterMap Task.job?) + bag (b.handles.filterMap Handle.pendingClose) := by
  simp only [underway, bag_append]

/-! ## From place to place -/

theorem accounted_accept {t : Transfer} {c : Completion} (accounted : b.Accounted loose) :
    (b.accept h t c).Accounted (b.nextJob h t c :: loose) where
  numbered := by
    show _ = (List.range (b.nextOperation + 1)).reverse
    rw [List.range_succ, List.reverse_append, ← accounted.numbered]
    rfl
  balanced := by
    have pending : (b.accept h t c).handles.filterMap Handle.pendingClose =
      b.handles.filterMap Handle.pendingClose := filterMap_modify fun _ => rfl
    -- what is accepted is in no place yet, so it is loose until it is queued or waits
    rw [bag_underway, pending]
    show {(b.nextJob h t c).ticket} + bag b.accepted = _
    rw [accounted.balanced, bag_underway, bag_cons]
    show _ = bag b.jobs.items + bag b.running + bag (b.tasks.items.filterMap Task.job?)
      + bag (b.handles.filterMap Handle.pendingClose) + bag (b.completed.map Prod.fst) + _
    abel

theorem accounted_submit (accounted : b.Accounted (job :: loose)) (isOpen : b.jobs.isOpen = true) :
    (b.submit job).Accounted loose where
  numbered := accounted.numbered
  balanced := by
    have items : (b.submit job).jobs.items = b.jobs.items ++ [job] := Queue.items_push isOpen
    have balanced := accounted.balanced
    rw [bag_underway, bag_cons] at balanced
    rw [bag_underway, items, bag_append, bag_cons, bag_nil]
    show bag b.accepted = bag b.jobs.items + ({job.ticket} + 0) + bag b.running
      + bag (b.tasks.items.filterMap Task.job?) + bag (b.handles.filterMap Handle.pendingClose)
      + bag (b.completed.map Prod.fst) + bag loose
    rw [balanced]
    abel

/-- A job that is submitted is queued, or it is left as the queue is shut down. -/
theorem accounted_submit_or (accounted : b.Accounted (job :: loose)) : ∃ loose',
    (b.submit job).Accounted loose' ∧ ((b.submit job).IsAlive → b.IsAlive ∧ loose' = loose) := by
  rcases isOpen : b.jobs.isOpen with _ | _
  · -- the workers are shut down, and what would be said of a world that is up does not matter
    rw [submit_of_shut isOpen]
    refine ⟨job :: loose, accounted, fun alive => ?_⟩
    rw [IsAlive, isOpen] at alive
    cases alive.1
  · exact ⟨loose, accounted_submit accounted isOpen, fun alive => ⟨⟨isOpen, alive.2⟩, rfl⟩⟩

theorem accounted_modify {f : Handle → Handle} (accounted : b.Accounted loose)
    (same : ∀ s, (f s).pendingClose = s.pendingClose) : (b.modify h f).Accounted loose where
  numbered := accounted.numbered
  balanced := by
    have balanced := accounted.balanced
    rw [bag_underway] at balanced ⊢
    rw [show (b.modify h f).handles.filterMap Handle.pendingClose =
      b.handles.filterMap Handle.pendingClose from filterMap_modify same]
    exact balanced

/-- A close that waits on its handle. -/
theorem accounted_wait {f : Handle → Handle} (accounted : b.Accounted (job :: loose))
    (known : b.handles[h]? = some s) (before : s.pendingClose = none)
    (waits : (f s).pendingClose = some job) : (b.modify h f).Accounted loose where
  numbered := accounted.numbered
  balanced := by
    have balanced := accounted.balanced
    have pending := bag_pending_modify (f := f) known
    simp only [before, waits, Option.toList_none, Option.toList_some, bag_nil, bag_cons, add_zero]
      at pending
    rw [bag_underway, bag_cons] at balanced
    rw [bag_underway, show (b.modify h f).handles = b.handles.modify h f from rfl, pending]
    show bag b.accepted = bag b.jobs.items + bag b.running
      + bag (b.tasks.items.filterMap Task.job?) + _ + bag (b.completed.map Prod.fst) + bag loose
    rw [balanced]
    abel

/-- A close that waits no longer. -/
theorem accounted_release {f : Handle → Handle} (accounted : b.Accounted loose)
    (known : b.handles[h]? = some s) (before : s.pendingClose = some job)
    (waits : (f s).pendingClose = none) : (b.modify h f).Accounted (job :: loose) where
  numbered := accounted.numbered
  balanced := by
    have balanced := accounted.balanced
    have pending := bag_pending_modify (f := f) known
    simp only [before, waits, Option.toList_none, Option.toList_some, bag_nil, bag_cons, add_zero]
      at pending
    rw [bag_underway, ← pending] at balanced
    rw [bag_underway, bag_cons, show (b.modify h f).handles = b.handles.modify h f from rfl]
    show bag b.accepted = bag b.jobs.items + bag b.running
      + bag (b.tasks.items.filterMap Task.job?) + _ + bag (b.completed.map Prod.fst) + _
    rw [balanced]
    abel

/-- A task that delivers something is taken, and the operation is completed. -/
theorem accounted_opening {rest : Queue Task} {owner : ContextId} {outcome : Outcome}
    (accounted : b.Accounted loose) (next : b.tasks.pop = some (.deliver job outcome, rest)) :
    (b.opening rest owner job outcome).Accounted loose where
  numbered := accounted.numbered
  balanced := by
    have balanced := accounted.balanced
    obtain ⟨items, -⟩ := Queue.pop_eq_some_iff.mp next
    have pending : (b.opening rest owner job outcome).handles.filterMap Handle.pendingClose =
      b.handles.filterMap Handle.pendingClose := filterMap_modify fun _ => rfl
    rw [bag_underway, items] at balanced
    rw [bag_underway, pending]
    show bag b.accepted = bag b.jobs.items + bag b.running
      + bag (rest.items.filterMap Task.job?) + bag (b.handles.filterMap Handle.pendingClose)
      + ({job.ticket} + bag (b.completed.map Prod.fst)) + bag loose
    rw [balanced]
    show _ + ({job.ticket} + bag (rest.items.filterMap Task.job?)) + _ + _ + _ = _
    abel

theorem accounted_begin {task : Task} {rest : Queue Task} (accounted : b.Accounted loose)
    (next : b.tasks.pop = some (task, rest)) (plain : task.job? = none) :
    Accounted loose { b with tasks := rest } where
  numbered := accounted.numbered
  balanced := by
    have balanced := accounted.balanced
    obtain ⟨items, -⟩ := Queue.pop_eq_some_iff.mp next
    rw [bag_underway, items, List.filterMap_cons_none plain] at balanced
    rw [bag_underway]
    exact balanced

theorem filterMap_job?_post {task : Task} (plain : task.job? = none) :
    (b.post task).tasks.items.filterMap Task.job? = b.tasks.items.filterMap Task.job? := by
  rcases isOpen : b.tasks.isOpen with _ | _
  · rw [post, Queue.push_of_shut isOpen]
  · show ((b.tasks.push task).2.items).filterMap Task.job? = _
    rw [Queue.items_push isOpen, List.filterMap_append, List.filterMap_cons_none plain,
      List.filterMap_nil, List.append_nil]

theorem accounted_post {task : Task} (accounted : b.Accounted loose) (plain : task.job? = none) :
    (b.post task).Accounted loose where
  numbered := accounted.numbered
  balanced := by
    have balanced := accounted.balanced
    rw [bag_underway] at balanced ⊢
    rw [filterMap_job?_post plain]
    exact balanced

/-- The outcome of a job is posted, or it is dropped as the loop is shut down. -/
theorem accounted_post_deliver {outcome : Outcome} (accounted : b.Accounted (job :: loose)) :
    ∃ loose', (b.post (.deliver job outcome)).Accounted loose' ∧
      ((b.post (.deliver job outcome)).IsAlive → b.IsAlive ∧ loose' = loose) := by
  rcases isOpen : b.tasks.isOpen with _ | _
  · have same : b.post (.deliver job outcome) = b := by rw [post, Queue.push_of_shut isOpen]
    rw [same]
    refine ⟨job :: loose, accounted, fun alive => ?_⟩
    rw [IsAlive, isOpen] at alive
    cases alive.2
  · refine ⟨loose, ⟨accounted.numbered, ?_⟩, fun alive => ⟨⟨alive.1, isOpen⟩, rfl⟩⟩
    have items : (b.post (.deliver job outcome)).tasks.items =
      b.tasks.items ++ [.deliver job outcome] := Queue.items_push isOpen
    have balanced := accounted.balanced
    rw [bag_underway, bag_cons] at balanced
    rw [bag_underway, items, List.filterMap_append, bag_append]
    show bag b.accepted = bag b.jobs.items + bag b.running
      + (bag (b.tasks.items.filterMap Task.job?) + ({job.ticket} + 0))
      + bag (b.handles.filterMap Handle.pendingClose) + bag (b.completed.map Prod.fst) + bag loose
    rw [balanced]
    abel

theorem accounted_take {rest : Queue Job} (accounted : b.Accounted loose)
    (next : b.jobs.pop = some (job, rest)) :
    Accounted loose { b with jobs := rest, running := b.running ++ [job] } where
  numbered := accounted.numbered
  balanced := by
    have balanced := accounted.balanced
    obtain ⟨items, -⟩ := Queue.pop_eq_some_iff.mp next
    rw [bag_underway, items] at balanced
    rw [bag_underway, bag_append, bag_cons, bag_nil, balanced, bag_cons]
    abel

/-! ## Numbers tell operations apart -/

/-- A list without repetitions all of which is the same has at most one member. -/
theorem length_le_one {α β : Type} {l : List α} {g : α → β} {k : β}
    (nodup : (l.map g).Nodup) (same : ∀ a ∈ l, g a = k) : l.length ≤ 1 := by
  have all : l.map g = List.replicate l.length k := by
    rw [← List.length_map (f := g)]
    apply List.eq_replicate_of_mem
    intro b listed
    obtain ⟨a, there, rfl⟩ := List.mem_map.mp listed
    exact same a there
  rw [all] at nodup
  exact List.nodup_replicate.mp nodup

theorem map_id_bag {jobs : List Job} : (bag jobs).map Ticket.id = (jobs.map Job.id : List _) := by
  rw [bag, Multiset.map_coe, List.map_map]
  rfl

theorem Accounted.accepted_nodup (accounted : b.Accounted loose) :
    (b.accepted.map Job.id).Nodup := by
  rw [accounted.numbered, List.nodup_reverse]
  exact List.nodup_range

theorem Accounted.eq_of_id {a a' : Job} (accounted : b.Accounted loose) (listed : a ∈ b.accepted)
    (listed' : a' ∈ b.accepted) (same : a.id = a'.id) : a = a' :=
  List.inj_on_of_nodup_map accounted.accepted_nodup listed listed' same

/-- No operation is in two places. -/
theorem Accounted.nodup (accounted : b.Accounted loose) :
    ((b.underway ++ b.completed.map Prod.fst ++ loose).map Job.id).Nodup := by
  have accepted := accounted.accepted_nodup
  rw [← Multiset.coe_nodup, ← map_id_bag] at accepted ⊢
  rwa [bag_append, bag_append, ← accounted.balanced]

theorem Accounted.completed_nodup (accounted : b.Accounted loose) :
    (b.completed.map fun c => c.1.id).Nodup := by
  have all := accounted.nodup
  rw [List.map_append, List.map_append, List.nodup_append, List.nodup_append, List.map_map]
    at all
  exact all.1.2.1

theorem Accounted.running_nodup (accounted : b.Accounted loose) :
    (b.running.map Job.id).Nodup := by
  refine accounted.nodup.sublist (List.Sublist.map _ ?_)
  simp [underway]

/-- What is in a queue or with a worker does not wait on its handle. -/
theorem Accounted.ne_waiting {id : OperationId} (accounted : b.Accounted loose)
    (there : id ∈ (b.jobs.items ++ b.running ++ b.tasks.items.filterMap Task.job?).map Job.id)
    (waiting : job ∈ b.handles.filterMap Handle.pendingClose) : id ≠ job.id := by
  have apart := accounted.nodup
  rw [List.append_assoc] at apart
  have apart' := apart.sublist ((List.sublist_append_left _ _).map Job.id)
  rw [underway, List.map_append, List.nodup_append] at apart'
  exact apart'.2.2 id there job.id (List.mem_map_of_mem waiting)

theorem Accounted.lt_of_accepted {a : Job} (accounted : b.Accounted loose)
    (accepted : a ∈ b.accepted) : a.id < b.nextOperation := by
  have listed : a.id ∈ b.accepted.map Job.id := List.mem_map_of_mem accepted
  rw [accounted.numbered, List.mem_reverse] at listed
  exact List.mem_range.mp listed

/-- Whatever is on its way was accepted. -/
theorem Accounted.accepted_of_underway (accounted : b.Accounted loose) (there : job ∈ b.underway) :
    ∃ a ∈ b.accepted, a.ticket = job.ticket := by
  have listed : job.ticket ∈ bag b.accepted := by
    rw [accounted.balanced]
    exact Multiset.mem_add.mpr (.inl (Multiset.mem_add.mpr (.inl (ticket_mem_bag there))))
  exact List.mem_map.mp (Multiset.mem_coe.mp listed)

theorem perm_eraseP {jobs : List Job} (nodup : (jobs.map Job.id).Nodup) (listed : job ∈ jobs) :
    jobs.Perm (job :: jobs.eraseP (·.id = job.id)) := by
  -- the first with this number is the job itself, for there is no other
  obtain ⟨found, before, behind, -, same, split, erased⟩ :=
    List.exists_of_eraseP (p := (·.id = job.id)) listed (by simp)
  obtain rfl : found = job := by
    apply List.inj_on_of_nodup_map nodup
    · rw [split]
      exact List.mem_append_right _ List.mem_cons_self
    · exact listed
    · exact of_decide_eq_true same
  rw [erased]
  nth_rewrite 1 [split]
  exact List.perm_middle

theorem bag_perm {jobs more : List Job} (perm : jobs.Perm more) : bag jobs = bag more :=
  Multiset.coe_eq_coe.mpr (perm.map Job.ticket)

theorem accounted_withoutJob (accounted : b.Accounted loose) (listed : job ∈ b.running) :
    (b.withoutJob job).Accounted (job :: loose) where
  numbered := accounted.numbered
  balanced := by
    have balanced := accounted.balanced
    have running := bag_perm (perm_eraseP accounted.running_nodup listed)
    rw [bag_underway, running] at balanced
    rw [bag_underway, bag_cons]
    show bag b.accepted = bag b.jobs.items + bag (b.running.eraseP (·.id = job.id))
      + bag (b.tasks.items.filterMap Task.job?) + bag (b.handles.filterMap Handle.pendingClose)
      + bag (b.completed.map Prod.fst) + ({job.ticket} + bag loose)
    rw [balanced, bag_cons]
    abel

/-! ## In every turn -/

/-- The books account for everything, and nothing is lost on the way from `b` as long as all
    is up. -/
def AccountsFrom (b : Books) (loose : List Job) (after : Books) : Prop :=
  ∃ loose', after.Accounted loose' ∧ (after.IsAlive → b.IsAlive ∧ loose' = loose)

theorem accountsFrom_refl (accounted : b.Accounted loose) : b.AccountsFrom loose b :=
  ⟨loose, accounted, fun alive => ⟨alive, rfl⟩⟩

theorem AccountsFrom.trans {middle : Books} (first : b.AccountsFrom loose middle)
    (second : ∀ loose', middle.Accounted loose' → middle.AccountsFrom loose' after) :
    b.AccountsFrom loose after := by
  obtain ⟨loose', accounted, kept⟩ := first
  obtain ⟨loose'', accounted', kept'⟩ := second loose' accounted
  refine ⟨loose'', accounted', fun alive => ?_⟩
  obtain ⟨aliveMiddle, same⟩ := kept' alive
  obtain ⟨aliveBefore, same'⟩ := kept aliveMiddle
  exact ⟨aliveBefore, same.trans same'⟩

theorem accountsFrom_opening {rest : Queue Task} {owner : ContextId} {outcome : Outcome}
    (accounted : b.Accounted loose) (next : b.tasks.pop = some (.deliver job outcome, rest)) :
    b.AccountsFrom loose (b.opening rest owner job outcome) := by
  refine ⟨loose, accounted_opening accounted next, fun alive => ⟨⟨alive.1, ?_⟩, rfl⟩⟩
  rw [(Queue.pop_eq_some_iff.mp next).1]

theorem Move.accounted (entry : Move b after) (coherent : b.Coherent)
    (accounted : b.Accounted loose) : b.AccountsFrom loose after := by
  cases entry with
  | accept admits fits plain => exact accounted_submit_or (accounted_accept accounted)
  | close admits quiet =>
    exact accounted_submit_or (accounted_modify (accounted_accept accounted) fun _ => rfl)
  | closeLater admits busy =>
    have opened := (coherent _ (List.mem_of_getElem? admits.known)).opened admits.opened
    exact ⟨loose, accounted_wait (accounted_accept accounted) (handle_accept admits) opened rfl,
      fun alive => ⟨alive, rfl⟩⟩
  | «open» fresh =>
    refine ⟨loose, ⟨accounted.numbered, ?_⟩, fun alive => ⟨alive, rfl⟩⟩
    have balanced := accounted.balanced
    rw [bag_underway] at balanced ⊢
    rw [List.filterMap_append, List.filterMap_cons_none fresh.2.2.2, List.filterMap_nil,
      List.append_nil]
    exact balanced
  | call =>
    exact ⟨loose, ⟨accounted.numbered, accounted.balanced⟩, fun alive => ⟨alive, rfl⟩⟩
  | post plain =>
    refine ⟨loose, accounted_post accounted plain, fun alive => ⟨⟨alive.1, ?_⟩, rfl⟩⟩
    exact Queue.isOpen_push.symm.trans alive.2
  | shutDown =>
    -- what waited in the two queues is lost
    refine ⟨b.jobs.items ++ b.tasks.items.filterMap Task.job? ++ loose,
      ⟨accounted.numbered, ?_⟩, fun alive => absurd alive.1 Bool.false_ne_true⟩
    rw [accounted.balanced, bag_underway, bag_underway, bag_append, bag_append,
      List.filterMap_nil, bag_nil]
    abel

theorem Moves.accounted (entries : Moves b after) (coherent : b.Coherent)
    (accounted : b.Accounted loose) : b.AccountsFrom loose after := by
  induction entries with
  | refl => exact accountsFrom_refl accounted
  | tail before last ih =>
    exact ih.trans fun loose' => last.accounted (Moves.coherent before coherent)

theorem accounted_closeIfQuiet (accounted : b.Accounted loose) :
    b.AccountsFrom loose (b.closeIfQuiet h) := by
  rcases closeIfQuiet_cases b h with ⟨same, -⟩ | ⟨s, job, known, -, waits, same⟩
  · rw [same]
    exact accountsFrom_refl accounted
  · rw [same]
    exact accounted_submit_or (accounted_release accounted known waits rfl)

/-- Every turn accounts for everything and loses nothing while all is up, unless it is the
    answer of a native call that takes its job along with a panic. -/
theorem Turn.accounts (turn : Turn mode b after) (coherent : b.Coherent)
    (accounted : b.Accounted loose) : b.AccountsFrom loose after ∨
      mode ≠ .calm ∧ ∃ job call a, job ∈ b.running ∧ job.transfer.call? = some call ∧
        job.transfer.feed a = none ∧ after = b.answer job call a ∧
        after.Accounted (job :: loose) := by
  cases turn with
  | move entry => exact .inl (entry.accounted coherent accounted)
  | switch context =>
    exact .inl ⟨loose, ⟨accounted.numbered, accounted.balanced⟩, fun alive => ⟨alive, rfl⟩⟩
  | begin next plain =>
    refine .inl ⟨loose, accounted_begin accounted next plain, fun alive => ⟨⟨alive.1, ?_⟩, rfl⟩⟩
    rw [(Queue.pop_eq_some_iff.mp next).1]
  | @deliver middle job outcome rest s next known entries =>
    have delivered : b.AccountsFrom loose middle :=
      (accountsFrom_opening accounted next).trans fun _ =>
        entries.accounted (coherent_opening coherent)
    exact .inl (delivered.trans fun _ => accounted_closeIfQuiet)
  | breakOff next known entries calm =>
    exact .inl ((accountsFrom_opening accounted next).trans fun _ =>
      entries.accounted (coherent_opening coherent))
  | take next free =>
    refine .inl ⟨loose, accounted_take accounted next, fun alive => ⟨⟨?_, alive.2⟩, rfl⟩⟩
    rw [(Queue.pop_eq_some_iff.mp next).1]
  | @answer job call a listed makes calm =>
    have without := accounted_withoutJob accounted listed
    rcases fed : job.transfer.feed a with _ | t
    · -- the call panicked, and its job is lost
      refine .inr ⟨fun isCalm => calm isCalm fed, job, call, a, listed, makes, fed, rfl,
        without.numbered, ?_⟩
      have balanced := without.balanced
      rw [bag_underway] at balanced ⊢
      simpa [Books.answer, fed] using balanced
    · -- the job goes on under the same ticket
      refine .inl ⟨loose, ⟨without.numbered, ?_⟩, fun alive => ⟨alive, rfl⟩⟩
      have balanced := without.balanced
      rw [bag_underway, bag_cons] at balanced
      rw [bag_underway]
      have running : (b.answer job call a).running =
          (b.withoutJob job).running ++ [{ job with transfer := t }] := by simp [Books.answer, fed]
      rw [running, bag_append, bag_cons, bag_nil]
      show bag b.accepted = bag b.jobs.items
        + (bag (b.withoutJob job).running + ({job.ticket} + 0))
        + bag (b.tasks.items.filterMap Task.job?) + bag (b.handles.filterMap Handle.pendingClose)
        + bag (b.completed.map Prod.fst) + bag loose
      refine balanced.trans ?_
      show bag b.jobs.items + bag (b.withoutJob job).running
        + bag (b.tasks.items.filterMap Task.job?) + bag (b.handles.filterMap Handle.pendingClose)
        + bag (b.completed.map Prod.fst) + ({job.ticket} + bag loose) = _
      abel
  | finish listed ended =>
    obtain ⟨loose', posted, kept⟩ := accounted_post_deliver (accounted_withoutJob accounted listed)
    exact .inl ⟨loose', posted, fun alive => kept alive⟩

/-- Every turn accounts for everything, and in a calm run loses nothing while all is up. -/
theorem Turn.accounted (turn : Turn mode b after) (coherent : b.Coherent)
    (accounted : b.Accounted loose) : ∃ loose', after.Accounted loose' ∧
      (mode = .calm → after.IsAlive → b.IsAlive ∧ loose' = loose) := by
  rcases turn.accounts coherent accounted with
    ⟨loose', accounted', kept⟩ | ⟨panics, job, call, a, -, -, -, -, accounted'⟩
  · exact ⟨loose', accounted', fun _ => kept⟩
  · exact ⟨job :: loose, accounted', fun isCalm => absurd isCalm panics⟩

end Books

end PinnedFile
