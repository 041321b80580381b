/-
  PinnedFile.Proofs.Books.Counting

  What the counters of a handle count.

  Each of the two counters grows by a load when an operation is accepted, and goes down by
  the same load when it is completed.  So what it stands at is the load of what was accepted
  on the handle and is not completed; and since that is still on its way, a counter never
  has less than what is taken from it.
-/

import PinnedFile.Proofs.Books.Accounting

namespace PinnedFile

/-! ## Counters -/

/-- A count that a handle keeps, and how much each operation adds to it. -/
structure Counter where
  of : Handle → Nat
  load : Completion → Nat
  of_taking : ∀ s c, of (s.taking c) = of s + load c
  of_releasing : ∀ s c, of (s.releasing c) = of s - load c
  /-- It depends on the two counts only. -/
  of_congr : ∀ s s' : Handle, s.outstanding = s'.outstanding → s.inFlight = s'.inFlight →
    of s = of s'
  of_fresh : ∀ s : Handle, s.outstanding = 0 → s.inFlight = 0 → of s = 0

namespace Counter

/-- The bytes of writes. -/
def bytes : Counter where
  of := Handle.outstanding
  load := Completion.outstanding
  of_taking _ _ := rfl
  of_releasing _ _ := rfl
  of_congr _ _ bytes _ := bytes
  of_fresh _ bytes _ := bytes

/-- The reads and flushes. -/
def operations : Counter where
  of := Handle.inFlight
  load := Completion.inFlight
  of_taking _ _ := rfl
  of_releasing _ _ := rfl
  of_congr _ _ _ operations := operations
  of_fresh _ _ operations := operations

end Counter

theorem owed_eq_zero {load : Completion → Nat} {h : HandleId} {tickets : Multiset Ticket}
    (others : ∀ t ∈ tickets, t.handle ≠ h) : owed load h tickets = 0 := by
  rw [owed, Multiset.filter_eq_nil.mpr others, Multiset.map_zero, Multiset.sum_zero]

theorem owed_cons {load : Completion → Nat} {h : HandleId} {job : Job} {jobs : List Job} :
    owed load h (bag (job :: jobs)) =
      (if job.handle = h then load job.completion else 0) + owed load h (bag jobs) := by
  rw [bag_cons, owed_add, owed_singleton]
  rfl

namespace Books

variable {mode : Mode} {b after : Books} {loose : List Job} {h : HandleId} {s : Handle}
  {job : Job} {counter : Counter}

/-- Operations were accepted on known handles only. -/
def Known (b : Books) : Prop := ∀ a ∈ b.accepted, ∃ s, b.handles[a.handle]? = some s

/-- A counter stands at what was accepted and is not completed. -/
def Counted (counter : Counter) (b : Books) : Prop :=
  ∀ (h : HandleId) (s : Handle), b.handles[h]? = some s →
    counter.of s + owed counter.load h (bag (b.completed.map Prod.fst)) =
      owed counter.load h (bag b.accepted)

/-- What a counter stands at is the load of what is on its way or lost. -/
theorem Counted.of_eq (counted : b.Counted counter) (accounted : b.Accounted loose)
    (known : b.handles[h]? = some s) :
    counter.of s = owed counter.load h (bag (b.underway ++ loose)) := by
  have stands := counted h s known
  rw [accounted.balanced, owed_add, owed_add] at stands
  rw [bag_append, owed_add]
  omega

/-- A counter has what an operation on its way takes from it. -/
theorem Counted.load_le (counted : b.Counted counter) (accounted : b.Accounted loose)
    (known : b.handles[job.handle]? = some s) (listed : job ∈ b.underway) :
    counter.load job.completion ≤ counter.of s := by
  rw [counted.of_eq accounted known]
  exact load_le_owed (t := job.ticket) (ticket_mem_bag (List.mem_append_left _ listed))

/-! ## Known handles -/

theorem Known.of_keeps (known : b.Known) (accepted : after.accepted = b.accepted)
    (keeps : KeepsHandles b.handles after.handles) : after.Known := by
  intro a listed
  rw [accepted] at listed
  obtain ⟨s, found⟩ := known a listed
  obtain ⟨s', found', -⟩ := keeps a.handle s found
  exact ⟨s', found'⟩

theorem known_accept {t : Transfer} {c : Completion} (known : b.Known) (admits : b.Admits h s) :
    (b.accept h t c).Known := by
  have keeps : KeepsHandles b.handles (b.accept h t c).handles := keepsHandles_taking
  intro a listed
  rcases List.mem_cons.mp listed with rfl | old
  · exact ⟨_, handle_accept admits⟩
  · obtain ⟨s', found⟩ := known a old
    obtain ⟨s'', found', -⟩ := keeps a.handle s' found
    exact ⟨s'', found'⟩

theorem known_modify {f : Handle → Handle} (known : b.Known) : (b.modify h f).Known := by
  intro a listed
  obtain ⟨s, found⟩ := known a listed
  by_cases equal : h = a.handle
  · exact ⟨f s, by simp [modify, found, equal]⟩
  · exact ⟨s, by simp [modify, found, equal]⟩

theorem Move.known (entry : Move b after) (known : b.Known) : after.Known := by
  have keeps := entry.keepsHandles
  cases entry with
  | accept admits fits plain => exact known_accept known admits
  | close admits quiet => exact known_modify (known_accept known admits)
  | closeLater admits busy => exact known_modify (known_accept known admits)
  | call | «open» | post | shutDown => exact known.of_keeps rfl keeps

theorem Moves.known (entries : Moves b after) (known : b.Known) : after.Known := by
  induction entries with
  | refl => exact known
  | tail _ last ih => exact last.known ih

theorem known_opening {rest : Queue Task} {owner : ContextId} {outcome : Outcome}
    (known : b.Known) : (b.opening rest owner job outcome).Known :=
  known.of_keeps rfl keepsHandles_opening

theorem accepted_closeIfQuiet : (b.closeIfQuiet h).accepted = b.accepted := by
  rcases closeIfQuiet_cases b h with ⟨same, -⟩ | ⟨s, job, -, -, -, same⟩
  · rw [same]
  · rw [same]
    rfl

theorem Turn.known (turn : Turn mode b after) (known : b.Known) : after.Known := by
  have keeps := turn.keepsHandles
  cases turn with
  | move entry => exact entry.known known
  | deliver next found entries =>
    exact (entries.known (known_opening known)).of_keeps accepted_closeIfQuiet
      keepsHandles_closeIfQuiet
  | breakOff next found entries calm => exact entries.known (known_opening known)
  | switch | begin | take | answer | finish => exact known.of_keeps rfl keeps

/-! ## What the counters stand at -/

theorem counted_accept {t : Transfer} {c : Completion} (counted : b.Counted counter) :
    (b.accept h t c).Counted counter := by
  intro k s' known'
  have accepted : owed counter.load k (bag (b.accept h t c).accepted) =
    (if h = k then counter.load c else 0) + owed counter.load k (bag b.accepted) := owed_cons
  rw [accepted]
  rcases getElem?_modify_cases known' with ⟨rfl, before, known, rfl⟩ | ⟨other, same⟩
  · have stands := counted h before known
    rw [if_pos rfl, counter.of_taking, ← stands]
    show _ + owed _ _ (bag (b.completed.map Prod.fst)) = _
    omega
  · have stands := counted k s' same
    rw [if_neg other, Nat.zero_add, ← stands]
    rfl

/-- A change that leaves both counts as they are. -/
theorem counted_modify {f : Handle → Handle} (counted : b.Counted counter)
    (bytes : ∀ s, (f s).outstanding = s.outstanding)
    (operations : ∀ s, (f s).inFlight = s.inFlight) : (b.modify h f).Counted counter := by
  intro k s' known'
  rcases getElem?_modify_cases known' with ⟨rfl, s, known, rfl⟩ | ⟨-, same⟩
  · rw [counter.of_congr (f s) s (bytes s) (operations s)]
    exact counted h s known
  · exact counted k s' same

theorem counted_submit (counted : b.Counted counter) : (b.submit job).Counted counter := counted

theorem Move.counted (entry : Move b after) (accounted : b.Accounted loose) (known : b.Known)
    (counted : b.Counted counter) : after.Counted counter := by
  cases entry with
  | accept admits fits plain => exact counted_submit (counted_accept counted)
  | close admits quiet =>
    exact counted_submit (counted_modify (counted_accept counted) (fun _ => rfl) fun _ => rfl)
  | closeLater admits busy =>
    exact counted_modify (counted_accept counted) (fun _ => rfl) fun _ => rfl
  | @«open» new fresh =>
    intro k s found
    rcases getElem?_append_cases found with old | ⟨beyond, rfl⟩
    · exact counted k s old
    · -- nothing was accepted on a handle that was not there
      have none : owed counter.load k (bag b.accepted) = 0 := by
        apply owed_eq_zero
        intro t listed same
        obtain ⟨a, accepted, rfl⟩ := List.mem_map.mp (Multiset.mem_coe.mp listed)
        obtain ⟨s', found'⟩ := known a accepted
        have inside := (List.getElem?_eq_some_iff.mp found').1
        rw [show a.handle = k from same] at inside
        omega
      have completed := none
      rw [accounted.balanced, owed_add, owed_add] at completed
      rw [counter.of_fresh s fresh.2.1 fresh.2.2.1]
      show 0 + owed _ _ (bag (b.completed.map Prod.fst)) = owed _ _ (bag b.accepted)
      omega
  | call | post | shutDown => exact counted

theorem Moves.counted (entries : Moves b after) (coherent : b.Coherent)
    (accounted : b.Accounted loose) (known : b.Known) (counted : b.Counted counter) :
    after.Counted counter := by
  induction entries with
  | refl => exact counted
  | tail before last ih =>
    obtain ⟨loose', accounted', -⟩ := Moves.accounted before coherent accounted
    exact last.counted accounted' (Moves.known before known) ih

theorem counted_opening {rest : Queue Task} {owner : ContextId} {outcome : Outcome}
    (accounted : b.Accounted loose) (counted : b.Counted counter)
    (next : b.tasks.pop = some (.deliver job outcome, rest)) :
    (b.opening rest owner job outcome).Counted counter := by
  have listed : job ∈ b.underway := underway_of_posted (Queue.mem_of_pop next)
  intro k s' known'
  have completed : owed counter.load k
      (bag ((b.opening rest owner job outcome).completed.map Prod.fst)) =
      (if job.handle = k then counter.load job.completion else 0)
        + owed counter.load k (bag (b.completed.map Prod.fst)) := owed_cons
  rw [completed]
  show _ = owed _ _ (bag b.accepted)
  rcases getElem?_modify_cases known' with ⟨rfl, s, known, rfl⟩ | ⟨other, same⟩
  · -- what is taken from the counter is there, so nothing is cut off
    have enough := counted.load_le accounted known listed
    have stands := counted job.handle s known
    rw [if_pos rfl, counter.of_releasing]
    omega
  · have stands := counted k s' same
    rw [if_neg other]
    omega

theorem counted_closeIfQuiet (counted : b.Counted counter) :
    (b.closeIfQuiet h).Counted counter := by
  rcases closeIfQuiet_cases b h with ⟨same, -⟩ | ⟨s, job, -, -, -, same⟩
  · rw [same]
    exact counted
  · rw [same]
    exact counted_submit (counted_modify counted (fun _ => rfl) fun _ => rfl)

theorem Turn.counted (turn : Turn mode b after) (coherent : b.Coherent)
    (accounted : b.Accounted loose) (known : b.Known) (counted : b.Counted counter) :
    after.Counted counter := by
  cases turn with
  | move entry => exact entry.counted accounted known counted
  | deliver next found entries =>
    apply counted_closeIfQuiet
    exact entries.counted (coherent_opening coherent) (accounted_opening accounted next)
      (known_opening known) (counted_opening accounted counted next)
  | breakOff next found entries calm =>
    exact entries.counted (coherent_opening coherent) (accounted_opening accounted next)
      (known_opening known) (counted_opening accounted counted next)
  | switch | begin | take | answer | finish => exact counted

/-! ## Undelivered operations -/

/-- The numbers of the operations whose outcome has been delivered. -/
def delivered (b : Books) : List OperationId := b.completed.map fun c => c.1.id

/-- The operations that were accepted on a handle and are not delivered, the latest first. -/
def undelivered (b : Books) (h : HandleId) : List Job :=
  b.accepted.filter fun a => a.handle = h ∧ a.id ∉ b.delivered

theorem bag_filter {jobs : List Job} {p : Ticket → Prop} [DecidablePred p] :
    (bag jobs).filter p = bag (jobs.filter fun a => p a.ticket) := by
  rw [bag, bag, Multiset.filter_coe, List.filter_map]
  rfl

/-- What is on its way or lost is not completed. -/
theorem Accounted.not_completed {t : Ticket} (accounted : b.Accounted loose)
    (listed : t ∈ bag (b.underway ++ loose)) : t.id ∉ b.delivered := by
  -- each operation is in one place, and completed is one of them
  have apart : ((b.underway ++ loose ++ b.completed.map Prod.fst).map Job.id).Nodup := by
    refine (List.Perm.nodup_iff (List.Perm.map _ ?_)).mp accounted.nodup
    rw [List.append_assoc, List.append_assoc]
    exact List.perm_append_comm.append_left _
  rw [List.map_append, List.nodup_append, List.map_map] at apart
  obtain ⟨job, there, rfl⟩ := List.mem_map.mp (Multiset.mem_coe.mp listed)
  intro completed
  exact apart.2.2 _ (List.mem_map_of_mem there) _ completed rfl

/-- What is delivered was accepted, and the next operation was not. -/
theorem Accounted.lt_of_delivered {id : OperationId} (accounted : b.Accounted loose)
    (listed : id ∈ b.delivered) : id < b.nextOperation := by
  obtain ⟨c, completed, rfl⟩ := List.mem_map.mp listed
  have there : c.1.ticket ∈ bag b.accepted := by
    rw [accounted.balanced, Multiset.mem_add, Multiset.mem_add]
    exact .inl (.inr (ticket_mem_bag (List.mem_map_of_mem completed)))
  obtain ⟨a, accepted, same⟩ := List.mem_map.mp (Multiset.mem_coe.mp there)
  rw [show c.1.id = a.id from (congrArg Ticket.id same).symm]
  exact accounted.lt_of_accepted accepted

/-- What is not delivered is on its way or lost. -/
theorem bag_undelivered (accounted : b.Accounted loose) :
    bag (b.undelivered h) = (bag (b.underway ++ loose)).filter (·.handle = h) := by
  have completed : (bag (b.completed.map Prod.fst)).filter
      (fun t => t.handle = h ∧ t.id ∉ b.delivered) = 0 := by
    rw [Multiset.filter_eq_nil]
    rintro t listed ⟨-, not⟩
    obtain ⟨job, there, rfl⟩ := List.mem_map.mp (Multiset.mem_coe.mp listed)
    obtain ⟨c, listed', rfl⟩ := List.mem_map.mp there
    exact not (List.mem_map_of_mem listed')
  have split : bag b.accepted =
      bag (b.underway ++ loose) + bag (b.completed.map Prod.fst) := by
    rw [accounted.balanced, bag_append]
    abel
  have chosen : bag (b.undelivered h) = (bag b.accepted).filter
      (fun t => t.handle = h ∧ t.id ∉ b.delivered) :=
    (bag_filter (p := fun t => t.handle = h ∧ t.id ∉ b.delivered)).symm
  rw [chosen, split, Multiset.filter_add, completed, add_zero]
  apply Multiset.filter_congr
  intro t listed
  exact and_iff_left (accounted.not_completed listed)

/-- A counter stands at the load of what is not delivered. -/
theorem Counted.of_eq_undelivered {counter : Counter} {s : Handle} (counted : b.Counted counter)
    (accounted : b.Accounted loose) (known : b.handles[h]? = some s) :
    counter.of s = ((b.undelivered h).map fun a => counter.load a.completion).sum := by
  rw [counted.of_eq accounted known, owed, ← bag_undelivered accounted, bag, Multiset.map_coe,
    Multiset.sum_coe, List.map_map]
  rfl

end Books

end PinnedFile
