/-
  PinnedFile.Proofs.Books.Traces

  Every operation goes its own way: what it has come to is what its own native calls made
  of its own transfer.

  `Transfer.Made` says what a transfer becomes by the calls that were made for it.  A job,
  wherever it is, has become what the calls noted under its number made of it, and an
  operation is completed with the outcome that these calls came to.
-/

import PinnedFile.Proofs.Books.Counting

namespace PinnedFile

/-! ## What calls make of a transfer -/

/-- What a transfer has become after some calls, the latest first; nothing, if the last one
    took it along with a panic.  Each call is the one that the transfer makes next. -/
inductive Transfer.Made (t : Transfer) : List Exchange → Option Transfer → Prop where
  | nil : t.Made [] (some t)
  | call {u : Transfer} {e : Exchange} {older : List Exchange} (made : t.Made older (some u))
      (makes : u.call? = some e.call) : t.Made (e :: older) (u.feed e.answer)

namespace Transfer

variable {t u : Transfer} {calls : List Exchange} {r : Option Transfer}

theorem call?_eq_close_iff : t.call? = some .close ↔ t = .close := by
  cases t with
  | write data position written =>
    by_cases more : written < data.length <;> simp [call?, more]
  | read position length filled scratch =>
    by_cases more : filled < length <;> simp [call?, more]
  | sync | close | ended outcome => simp [call?]

/-- No answer makes a transfer close its file. -/
theorem feed_ne_close {a : Answer} : t.feed a ≠ some .close := by
  intro fed
  cases a with
  | panicked message => cases fed
  | failed error =>
    cases t with
    | write | read =>
      simp only [feed] at fed
      split at fed <;> cases fed
    | sync | close | ended => cases fed
  | moved count bytes =>
    cases t with
    | write =>
      simp only [feed, wrote] at fed
      repeat' split at fed
      all_goals cases fed
    | read =>
      simp only [feed, filledBy] at fed
      repeat' split at fed
      all_goals cases fed
    | sync | close | ended => cases fed

/-- The answer to a close ends it. -/
theorem call?_of_feed_close {a : Answer} (fed : close.feed a = some u) : u.call? = none := by
  cases a <;> cases fed <;> rfl

theorem Made.cons {e : Exchange} {older : List Exchange} (made : t.Made (e :: older) r) :
    ∃ v, t.Made older (some v) ∧ v.call? = some e.call ∧ v.feed e.answer = r := by
  cases made with
  | call before makes => exact ⟨_, before, makes, rfl⟩

/-- What some calls make of a transfer, whether or not it makes them. -/
def afterCalls (t : Transfer) : List Exchange → Option Transfer
  | [] => some t
  | e :: older => (t.afterCalls older).bind (·.feed e.answer)

theorem Made.eq_afterCalls (made : t.Made calls r) : t.afterCalls calls = r := by
  induction made with
  | nil => rfl
  | call _ _ ih => rw [afterCalls, ih, Option.bind_some]

/-- The same calls make the same of a transfer. -/
theorem Made.unique {r' : Option Transfer} (made : t.Made calls r) (made' : t.Made calls r') :
    r = r' := made.eq_afterCalls.symm.trans made'.eq_afterCalls

/-- What has come through all calls has come through the first ones. -/
theorem isSome_afterCalls_of_append {newer older : List Exchange}
    (goes_on : (t.afterCalls (newer ++ older)).isSome = true) :
    (t.afterCalls older).isSome = true := by
  induction newer with
  | nil => exact goes_on
  | cons e rest ih =>
    rw [List.cons_append, afterCalls] at goes_on
    exact ih (Option.isSome_of_isSome_bind goes_on)

/-- A transfer that is about to close its file was to do so from the first, and has made no
    call yet. -/
theorem Made.eq_close (made : t.Made calls (some .close)) : t = .close ∧ calls = [] := by
  rcases calls with _ | ⟨e, older⟩
  · cases made
    exact ⟨rfl, rfl⟩
  · obtain ⟨v, -, -, fed⟩ := made.cons
    exact absurd fed feed_ne_close

/-- A transfer that makes no call stays as it is. -/
theorem Made.of_call?_eq_none (made : t.Made calls r) (idle : t.call? = none) :
    calls = [] ∧ r = some t := by
  induction made with
  | nil => exact ⟨rfl, rfl⟩
  | call _ makes ih =>
    obtain ⟨-, same⟩ := ih
    obtain rfl := Option.some.inj same
    rw [idle] at makes
    cases makes

/-- Only a transfer that closes its file calls for a close, and it calls once. -/
theorem Made.of_close {e : Exchange} (made : t.Made calls r) (listed : e ∈ calls)
    (closes : e.call = .close) : t = .close ∧ calls = [e] := by
  -- from the latest call back to the first
  induction calls generalizing r e with
  | nil => cases listed
  | cons latest older ih =>
    obtain ⟨v, before, makes, -⟩ := made.cons
    rcases List.mem_cons.mp listed with rfl | old
    · rw [closes, call?_eq_close_iff] at makes
      subst makes
      obtain ⟨rfl, rfl⟩ := before.eq_close
      exact ⟨rfl, rfl⟩
    · obtain ⟨rfl, rfl⟩ := ih before old closes
      -- what is left after a close makes no further call
      obtain ⟨u, first, -, fed⟩ := before.cons
      cases first
      rw [call?_of_feed_close fed] at makes
      cases makes

end Transfer

namespace Books

/-! ## Jobs and the operations that they carry out -/

/-- The native calls that were made for an operation. -/
def exchangesOf (b : Books) (id : OperationId) : List Exchange :=
  b.exchanges.filter (·.operation = id)

/-- A job carries out an accepted operation, and has become what its calls made of it. -/
def Follows (b : Books) (job : Job) : Prop :=
  ∃ a ∈ b.accepted, a.ticket = job.ticket ∧
    a.transfer.Made (b.exchangesOf a.id) (some job.transfer)

/-- Operations begin as they should, and go their own ways. -/
structure Traced (b : Books) : Prop where
  fits : ∀ a ∈ b.accepted, a.completion.Fits a.transfer
  made : ∀ a ∈ b.accepted, ∃ r, a.transfer.Made (b.exchangesOf a.id) r
  exchanged : ∀ e ∈ b.exchanges, ∃ a ∈ b.accepted, a.id = e.operation ∧ a.handle = e.handle
  underway : ∀ job ∈ b.underway, b.Follows job
  ended : ∀ job outcome, .deliver job outcome ∈ b.tasks.items →
    job.transfer.outcome? = some outcome
  completed : ∀ c ∈ b.completed, b.Follows c.1 ∧ c.1.transfer.outcome? = some c.2

variable {mode : Mode} {b after : Books} {loose : List Job} {h : HandleId} {s : Handle}
  {job : Job}

theorem Follows.mono (follows : b.Follows job) (accepted : b.accepted ⊆ after.accepted)
    (exchanges : after.exchanges = b.exchanges) : after.Follows job := by
  obtain ⟨a, listed, same, made⟩ := follows
  refine ⟨a, accepted listed, same, ?_⟩
  rw [exchangesOf, exchanges]
  exact made

/-! ## In every turn -/

/-- A change by which nothing is accepted, answered or completed. -/
theorem Traced.of_subset (traced : b.Traced) (accepted : after.accepted = b.accepted)
    (exchanges : after.exchanges = b.exchanges) (completed : after.completed = b.completed)
    (underway : ∀ job ∈ after.underway, job ∈ b.underway)
    (posted : ∀ job outcome, .deliver job outcome ∈ after.tasks.items →
      job.transfer.outcome? = some outcome) : after.Traced := by
  have all : b.accepted ⊆ after.accepted := by
    rw [accepted]
    exact List.Subset.refl _
  constructor
  · rw [accepted]
    exact traced.fits
  · intro a listed
    rw [accepted] at listed
    rw [exchangesOf, exchanges]
    exact traced.made a listed
  · rw [exchanges, accepted]
    exact traced.exchanged
  · intro job there
    exact (traced.underway job (underway job there)).mono all exchanges
  · exact posted
  · intro c listed
    rw [completed] at listed
    obtain ⟨follows, ended⟩ := traced.completed c listed
    exact ⟨follows.mono all exchanges, ended⟩

/-- One more operation is accepted, and its job may be anywhere. -/
theorem Traced.accept {t : Transfer} {c : Completion} (traced : b.Traced)
    (accounted : b.Accounted loose) (fits : c.Fits t)
    (accepted : after.accepted = b.nextJob h t c :: b.accepted)
    (exchanges : after.exchanges = b.exchanges) (completed : after.completed = b.completed)
    (tasks : after.tasks = b.tasks)
    (underway : ∀ job ∈ after.underway, job = b.nextJob h t c ∨ job ∈ b.underway) :
    after.Traced := by
  have more : b.accepted ⊆ after.accepted := by
    rw [accepted]
    exact List.subset_cons_self _ _
  -- no call was made for the new operation, for there is none under its number
  have untouched : after.exchangesOf b.nextOperation = [] := by
    rw [exchangesOf, exchanges, List.filter_eq_nil_iff]
    intro e listed same
    obtain ⟨a, there, number, -⟩ := traced.exchanged e listed
    have less := accounted.lt_of_accepted there
    rw [number, of_decide_eq_true same] at less
    exact Nat.lt_irrefl _ less
  have new : after.Follows (b.nextJob h t c) := by
    refine ⟨b.nextJob h t c, by rw [accepted]; exact List.mem_cons_self, rfl, ?_⟩
    rw [show (b.nextJob h t c).id = b.nextOperation from rfl, untouched]
    exact .nil
  constructor
  · intro a listed
    rw [accepted] at listed
    rcases List.mem_cons.mp listed with rfl | before
    · exact fits
    · exact traced.fits a before
  · intro a listed
    rw [accepted] at listed
    rcases List.mem_cons.mp listed with rfl | before
    · rw [show (b.nextJob h t c).id = b.nextOperation from rfl, untouched]
      exact ⟨_, .nil⟩
    · rw [exchangesOf, exchanges]
      exact traced.made a before
  · intro e listed
    rw [exchanges] at listed
    obtain ⟨a, there, same⟩ := traced.exchanged e listed
    exact ⟨a, more there, same⟩
  · intro job there
    rcases underway job there with rfl | before
    · exact new
    · exact (traced.underway job before).mono more exchanges
  · rw [tasks]
    exact traced.ended
  · intro c listed
    rw [completed] at listed
    obtain ⟨follows, ended⟩ := traced.completed c listed
    exact ⟨follows.mono more exchanges, ended⟩

theorem Move.traced (entry : Move b after) (accounted : b.Accounted loose)
    (traced : b.Traced) : after.Traced := by
  cases entry with
  | @accept h s t c admits fits plain =>
    refine traced.accept accounted fits rfl rfl rfl rfl fun job there => ?_
    rcases underway_submit there with new | elsewhere
    · exact .inl new
    · exact .inr (underway_modify_same (f := (·.taking c)) (fun _ => rfl) elsewhere)
  | @close h s handler admits quiet =>
    refine traced.accept accounted (c := .close handler) rfl rfl rfl rfl rfl fun job there => ?_
    rcases underway_submit there with new | elsewhere
    · exact .inl new
    · have accepted := underway_modify_same (f := ({ · with closed := true })) (fun _ => rfl)
        elsewhere
      exact .inr (underway_modify_same (f := (·.taking (.close handler))) (fun _ => rfl) accepted)
  | @closeLater h s handler admits busy =>
    refine traced.accept accounted (c := .close handler) rfl rfl rfl rfl rfl fun job there => ?_
    rcases underway_modify there with accepted | ⟨s', -, waits⟩
    · exact .inr (underway_modify_same (f := (·.taking (.close handler))) (fun _ => rfl) accepted)
    · exact .inl (Option.some.inj waits).symm
  | @«open» new fresh =>
    refine traced.of_subset rfl rfl rfl (fun job there => ?_) traced.ended
    refine underway_of_places there (fun queued => underway_of_queued queued)
      (fun running => underway_of_running running) (fun _ posted => underway_of_posted posted) ?_
    intro s listed waits
    rcases List.mem_append.mp listed with before | added
    · exact underway_of_waiting before waits
    · rw [List.mem_singleton.mp added, fresh.2.2.2] at waits
      cases waits
  | call => exact traced.of_subset rfl rfl rfl (fun _ => id) traced.ended
  | @post task plain =>
    exact traced.of_subset rfl rfl rfl (fun _ => underway_post plain) fun job outcome listed =>
      traced.ended job outcome (deliver_mem_post plain listed)
  | shutDown =>
    -- nothing is left but with workers and on handles
    refine traced.of_subset rfl rfl rfl (fun job there => ?_) fun _ _ listed =>
      absurd listed List.not_mem_nil
    exact underway_of_places there (fun queued => absurd queued List.not_mem_nil)
      (fun running => underway_of_running running)
      (fun _ posted => absurd posted List.not_mem_nil)
      fun _ listed waits => underway_of_waiting listed waits

theorem Moves.traced (entries : Moves b after) (coherent : b.Coherent)
    (accounted : b.Accounted loose) (traced : b.Traced) : after.Traced := by
  induction entries with
  | refl => exact traced
  | tail before last ih =>
    obtain ⟨loose', accounted', -⟩ := Moves.accounted before coherent accounted
    exact last.traced accounted' ih

theorem traced_opening {rest : Queue Task} {owner : ContextId} {outcome : Outcome}
    (traced : b.Traced) (next : b.tasks.pop = some (.deliver job outcome, rest)) :
    (b.opening rest owner job outcome).Traced := by
  obtain ⟨items, -⟩ := Queue.pop_eq_some_iff.mp next
  have follows (other : Job) (before : b.Follows other) :
      (b.opening rest owner job outcome).Follows other :=
    before.mono (List.Subset.refl _) rfl
  constructor
  · exact traced.fits
  · exact traced.made
  · exact traced.exchanged
  · intro other there
    exact follows other (traced.underway other (underway_opening next there))
  · intro other o listed
    apply traced.ended
    rw [items]
    exact List.mem_cons_of_mem _ listed
  · intro c listed
    rcases List.mem_cons.mp listed with rfl | before
    · have posted : .deliver job outcome ∈ b.tasks.items := Queue.mem_of_pop next
      have there := underway_of_posted posted
      exact ⟨follows job (traced.underway job there), traced.ended job outcome posted⟩
    · obtain ⟨before', ended⟩ := traced.completed c before
      exact ⟨follows c.1 before', ended⟩

theorem traced_closeIfQuiet (traced : b.Traced) : (b.closeIfQuiet h).Traced := by
  have same : (b.closeIfQuiet h).accepted = b.accepted
      ∧ (b.closeIfQuiet h).exchanges = b.exchanges
      ∧ (b.closeIfQuiet h).completed = b.completed
      ∧ (b.closeIfQuiet h).tasks = b.tasks := by
    rcases closeIfQuiet_cases b h with ⟨same, -⟩ | ⟨s, job, -, -, -, same⟩
    · rw [same]
      exact ⟨rfl, rfl, rfl, rfl⟩
    · rw [same]
      exact ⟨rfl, rfl, rfl, rfl⟩
  obtain ⟨accepted, exchanges, completed, tasks⟩ := same
  refine traced.of_subset accepted exchanges completed (fun _ => underway_closeIfQuiet) ?_
  rw [tasks]
  exact traced.ended

theorem traced_finish {outcome : Outcome} (traced : b.Traced) (running : job ∈ b.running)
    (ended : job.transfer.outcome? = some outcome) :
    ((b.withoutJob job).post (.deliver job outcome)).Traced := by
  refine traced.of_subset rfl rfl rfl (fun other there => ?_) fun other o listed => ?_
  · refine underway_of_places there (fun queued => underway_of_queued queued)
      (fun left => underway_of_running (List.mem_of_mem_eraseP left)) (fun o posted => ?_)
      fun _ listed waits => underway_of_waiting listed waits
    rcases Queue.mem_push posted with before | new
    · exact underway_of_posted before
    · obtain ⟨rfl, -⟩ := Task.deliver.inj new
      exact underway_of_running running
  · rcases Queue.mem_push listed with before | new
    · exact traced.ended other o before
    · obtain ⟨rfl, rfl⟩ := Task.deliver.inj new
      exact ended

/-- An answer goes to the operation whose call it answers, and to no other. -/
theorem traced_answer {call : Call} {a : Answer} (traced : b.Traced)
    (accounted : b.Accounted loose) (running : job ∈ b.running)
    (makes : job.transfer.call? = some call) : (b.answer job call a).Traced := by
  -- the number of the job that is answered is that of no other job, so no other trace changes
  have without := (accounted_withoutJob accounted running).nodup
  rw [List.map_append, List.map_cons, List.nodup_append] at without
  have other_id (other : Job)
      (elsewhere : other ∈ (b.withoutJob job).underway ++ b.completed.map Prod.fst) :
      other.id ≠ job.id := by
    exact without.2.2 _ (List.mem_map_of_mem elsewhere) _ List.mem_cons_self
  have others (id : OperationId) (other : id ≠ job.id) :
      (b.answer job call a).exchangesOf id = b.exchangesOf id := by
    simp [exchangesOf, answer, other.symm]
  have own : (b.answer job call a).exchangesOf job.id =
      ⟨job.id, job.handle, call, a⟩ :: b.exchangesOf job.id := by simp [exchangesOf, answer]
  obtain ⟨first, accepted, same, made⟩ :=
    traced.underway job (underway_of_running running)
  have number : first.id = job.id := congrArg Ticket.id same
  rw [number] at made
  -- the call that was answered is the one that comes next on the trace of its own operation
  have goes_on : first.transfer.Made ((b.answer job call a).exchangesOf job.id)
      (job.transfer.feed a) := by
    rw [own]
    exact .call made makes
  have follows (other : Job) (elsewhere : other.id ≠ job.id) (before : b.Follows other) :
      (b.answer job call a).Follows other := by
    obtain ⟨b', listed, same', made'⟩ := before
    refine ⟨b', listed, same', ?_⟩
    have number : b'.id = other.id := congrArg Ticket.id same'
    rwa [others b'.id (by rw [number]; exact elsewhere)]
  constructor
  · exact traced.fits
  · intro b' listed
    by_cases equal : b'.id = job.id
    · obtain rfl := accounted.eq_of_id listed accepted (equal.trans number.symm)
      rw [equal]
      exact ⟨_, goes_on⟩
    · rw [others b'.id equal]
      exact traced.made b' listed
  · intro e listed
    rcases List.mem_cons.mp listed with rfl | before
    · exact ⟨first, accepted, number, congrArg Ticket.handle same⟩
    · exact traced.exchanged e before
  · intro other there
    -- the job that was answered is carried on by itself, all others are as they were
    have split : other ∈ (b.withoutJob job).underway ∨
        ∃ t, job.transfer.feed a = some t ∧ other = { job with transfer := t } := by
      rcases mem_underway.mp there with queued | left | ⟨o, posted⟩ | ⟨s, listed, waits⟩
      · exact .inl (underway_of_queued queued)
      · rcases List.mem_append.mp left with left | new
        · exact .inl (underway_of_running left)
        · obtain ⟨t, fed, rfl⟩ := List.mem_map.mp new
          exact .inr ⟨t, Option.mem_toList.mp fed, rfl⟩
      · exact .inl (underway_of_posted posted)
      · exact .inl (underway_of_waiting listed waits)
    rcases split with elsewhere | ⟨t, fed, rfl⟩
    · exact follows other (other_id other (List.mem_append_left _ elsewhere))
        (traced.underway other (underway_withoutJob elsewhere))
    · refine ⟨first, accepted, same, ?_⟩
      rw [number]
      exact fed ▸ goes_on
  · exact traced.ended
  · intro c listed
    obtain ⟨before, ended⟩ := traced.completed c listed
    refine ⟨follows c.1 ?_ before, ended⟩
    exact other_id c.1 (List.mem_append_right _ (List.mem_map_of_mem listed))

theorem Turn.traced (turn : Turn mode b after) (coherent : b.Coherent)
    (accounted : b.Accounted loose) (traced : b.Traced) : after.Traced := by
  cases turn with
  | move entry => exact entry.traced accounted traced
  | switch => exact traced.of_subset rfl rfl rfl (fun _ => id) traced.ended
  | begin next plain =>
    refine traced.of_subset rfl rfl rfl (fun _ => underway_taken next) fun job outcome listed => ?_
    apply traced.ended
    rw [(Queue.pop_eq_some_iff.mp next).1]
    exact List.mem_cons_of_mem _ listed
  | deliver next found entries =>
    exact traced_closeIfQuiet (entries.traced (coherent_opening coherent)
      (accounted_opening accounted next) (traced_opening traced next))
  | breakOff next found entries calm =>
    exact entries.traced (coherent_opening coherent) (accounted_opening accounted next)
      (traced_opening traced next)
  | @take job rest next =>
    -- what is now with the worker was the first that waited for one
    have waited : ∀ other ∈ job :: rest.items, other ∈ b.underway := by
      intro other listed
      apply underway_of_queued
      rwa [(Queue.pop_eq_some_iff.mp next).1]
    refine traced.of_subset rfl rfl rfl (fun other there => ?_) traced.ended
    refine underway_of_places there (fun queued => waited other (List.mem_cons_of_mem _ queued))
      (fun running => ?_) (fun _ posted => underway_of_posted posted)
      fun _ listed waits => underway_of_waiting listed waits
    rcases List.mem_append.mp running with before | taken
    · exact underway_of_running before
    · rw [List.mem_singleton.mp taken]
      exact waited job List.mem_cons_self
  | answer running makes calm => exact traced_answer traced accounted running makes
  | finish running ended => exact traced_finish traced running ended

end Books

end PinnedFile
