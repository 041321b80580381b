/-
  PinnedFile.Proofs.Books.Closing

  The close of a handle: it is accepted once, it waits where it should, and it begins only
  when all native work of the handle is over.
-/

import PinnedFile.Proofs.Books.Traces

namespace PinnedFile

/-- An operation that closes its handle. -/
def Job.Closes (job : Job) : Prop := job.completion.operation = .close

/-- Whether a job closes its handle does not change on its way. -/
theorem Job.closes_congr {job other : Job} (same : job.ticket = other.ticket) :
    job.Closes ↔ other.Closes := by
  rw [Closes, Closes, show job.completion = other.completion from congrArg Ticket.completion same]

/-- What was to close its file calls for nothing else. -/
theorem Transfer.Made.call_of_close {u : Transfer} {calls : List Exchange} {c : Call}
    (made : close.Made calls (some u)) (makes : u.call? = some c) : c = .close := by
  have unanswered : calls = [] → c = .close := by
    rintro rfl
    cases made
    exact (Option.some.inj makes).symm
  -- the first answer ends the transfer, so there is no further call
  induction calls generalizing u c with
  | nil => exact unanswered rfl
  | cons e older ih =>
    obtain ⟨v, before, called, fed⟩ := made.cons
    have first : v = .close := by
      apply call?_eq_close_iff.mp
      rw [called, ih before called ?_]
      rintro rfl
      cases before
      exact (Option.some.inj called).symm
    rw [first] at fed
    rw [call?_of_feed_close fed] at makes
    cases makes

namespace Completion

variable {c : Completion} {t : Transfer}

/-- Only a close begins with the native close. -/
theorem Fits.close_iff (fits : c.Fits t) : t = .close ↔ c.operation = .close := by
  cases c with
  | write n handler | send n =>
    obtain ⟨data, position, rfl, -⟩ := fits
    simp [operation, Transfer.ofWrite]
  | read target offset handler | chunk =>
    obtain ⟨position, length, rfl⟩ := fits
    simp [operation, Transfer.ofRead]
  | flush handler =>
    obtain rfl := fits
    simp [operation]
  | close handler =>
    obtain rfl := fits
    simp [operation]

theorem eq_close (closes : c.operation = .close) : ∃ handler, c = .close handler := by
  cases c with
  | close handler => exact ⟨handler, rfl⟩
  | write | send | read | chunk | flush => cases closes

/-- An operation that counts for nothing is a close or has no call to make. -/
theorem Fits.of_no_load (fits : c.Fits t) (bytes : c.outstanding = 0)
    (operations : c.inFlight = 0) : t = .close ∨ t.call? = none := by
  cases c with
  | write n handler | send n =>
    obtain ⟨data, position, rfl, length⟩ := fits
    obtain rfl : n = 0 := bytes
    exact .inr (by simp [Transfer.ofWrite, Transfer.call?, length])
  | read | chunk | flush => cases operations
  | close handler => exact .inl fits

end Completion

namespace Books

variable {mode : Mode} {b after : Books} {loose : List Job} {h : HandleId} {s : Handle}
  {job : Job}

/-- What holds of every close that waits, with the handle that it waits on. -/
def AllWaiting (P : HandleId → Job → Prop) (handles : List Handle) : Prop :=
  ∀ (h : HandleId) (s : Handle) (job : Job), handles[h]? = some s →
    s.pendingClose = some job → P h job

/-- A handle's own close waits on it, and has not begun. -/
structure WaitsOn (h : HandleId) (job : Job) : Prop where
  handle : job.handle = h
  closes : job.Closes
  untouched : job.transfer = .close

/-- Nothing is accepted on a handle after its close, and a close that waits has not begun. -/
structure Closing (b : Books) : Prop where
  waiting : AllWaiting WaitsOn b.handles
  closed : ∀ a ∈ b.accepted, a.Closes → ∀ s, b.handles[a.handle]? = some s → s.closed = true
  last : b.accepted.Pairwise fun newer older => older.Closes → older.handle ≠ newer.handle

/-- Each handle is closed at most once. -/
theorem Closing.once (closing : b.Closing) : ∀ a ∈ b.accepted, ∀ a' ∈ b.accepted, a.Closes →
    a'.Closes → a.handle = a'.handle → a = a' := by
  have symmetric : Std.Symm fun a a' : Job =>
      a.Closes → a'.Closes → a.handle = a'.handle → a = a' :=
    ⟨fun a a' same closes' closes handle => (same closes closes' handle.symm).symm⟩
  apply List.Pairwise.forall_of_forall
  · intro a _ _ _ _
    rfl
  · exact closing.last.imp fun differs _ closes same => absurd same.symm (differs closes)

theorem allWaiting_modify {P : HandleId → Job → Prop} {handles : List Handle}
    {f : Handle → Handle} (all : AllWaiting P handles)
    (change : ∀ s job, handles[h]? = some s → (f s).pendingClose = some job → P h job) :
    AllWaiting P (handles.modify h f) := by
  intro k s job found waits
  rcases getElem?_modify_cases found with ⟨rfl, before, known, rfl⟩ | ⟨-, same⟩
  · exact change before job known waits
  · exact all k s job same waits

/-- A change that leaves a close waiting, if there is one. -/
theorem allWaiting_modify_same {P : HandleId → Job → Prop} {handles : List Handle}
    {f : Handle → Handle} (all : AllWaiting P handles)
    (same : ∀ s, (f s).pendingClose = s.pendingClose) : AllWaiting P (handles.modify h f) :=
  allWaiting_modify all fun s job known waits => all h s job known (same s ▸ waits)

theorem Closing.closed_of_keeps (closing : b.Closing) (known : b.Known)
    (keeps : KeepsHandles b.handles after.handles) {a : Job} (listed : a ∈ b.accepted)
    (closes : a.Closes) (found : after.handles[a.handle]? = some s) : s.closed = true := by
  obtain ⟨s', found'⟩ := known a listed
  obtain ⟨s'', found'', -, closed⟩ := keeps a.handle s' found'
  obtain rfl := Option.some.inj (found.symm.trans found'')
  exact closed (closing.closed a listed closes s' found')

/-- A change that accepts nothing. -/
theorem Closing.of_keeps (closing : b.Closing) (known : b.Known)
    (accepted : after.accepted = b.accepted) (keeps : KeepsHandles b.handles after.handles)
    (waiting : AllWaiting WaitsOn after.handles) : after.Closing where
  waiting := waiting
  closed a listed closes s found := by
    rw [accepted] at listed
    exact closing.closed_of_keeps known keeps listed closes found
  last := by
    rw [accepted]
    exact closing.last

/-- No close was accepted on a handle that still admits operations. -/
theorem Closing.not_closes (closing : b.Closing) (admits : b.Admits h s) {a : Job}
    (listed : a ∈ b.accepted) (same : a.handle = h) : ¬ a.Closes := by
  intro closes
  have isClosed := closing.closed a listed closes s (by rw [same]; exact admits.known)
  rw [admits.opened] at isClosed
  cases isClosed

/-- A change that accepts an operation on an open handle, and closes the handle if the
    operation is a close. -/
theorem Closing.accept {t : Transfer} {c : Completion} (closing : b.Closing) (known : b.Known)
    (admits : b.Admits h s) (accepted : after.accepted = b.nextJob h t c :: b.accepted)
    (keeps : KeepsHandles b.handles after.handles) (waiting : AllWaiting WaitsOn after.handles)
    (closed : c.operation = .close → ∀ s, after.handles[h]? = some s → s.closed = true) :
    after.Closing := by
  have fresh (a : Job) (listed : a ∈ b.accepted) (same : a.handle = h) : ¬ a.Closes :=
    closing.not_closes admits listed same
  refine ⟨waiting, ?_, ?_⟩
  · intro a listed closes s' found
    rw [accepted] at listed
    rcases List.mem_cons.mp listed with rfl | old
    · exact closed closes s' found
    · exact closing.closed_of_keeps known keeps old closes found
  · rw [accepted]
    exact List.pairwise_cons.mpr
      ⟨fun old listed closes same => fresh old listed same closes, closing.last⟩

theorem closed_of_modify {handles : List Handle} {f : Handle → Handle}
    (closes : ∀ s, (f s).closed = true) (found : (handles.modify h f)[h]? = some s) :
    s.closed = true := by
  rcases getElem?_modify_cases found with ⟨-, before, -, rfl⟩ | ⟨other, -⟩
  · exact closes before
  · exact absurd rfl other

/-! ## In every turn -/

theorem Move.closing (entry : Move b after) (known : b.Known) (closing : b.Closing) :
    after.Closing := by
  have keeps := entry.keepsHandles
  cases entry with
  | @accept h s t c admits fits plain =>
    refine closing.accept known admits rfl keeps ?_ fun closes => absurd closes plain
    exact allWaiting_modify_same (f := (·.taking c)) closing.waiting fun _ => rfl
  | @close h s handler admits quiet =>
    refine closing.accept known admits (c := .close handler) rfl keeps ?_ fun _ s' found => ?_
    · exact allWaiting_modify_same (f := ({ · with closed := true }))
        (allWaiting_modify_same (f := (·.taking (.close handler))) closing.waiting fun _ => rfl)
        fun _ => rfl
    · exact closed_of_modify (f := ({ · with closed := true })) (fun _ => rfl) found
  | @closeLater h s handler admits busy =>
    refine closing.accept known admits (c := .close handler) rfl keeps ?_ fun _ s' found => ?_
    · -- the close that waits from now on is the one just accepted
      refine allWaiting_modify (f := fun s => { s with closed := true, pendingClose := some _ })
        (allWaiting_modify_same (f := (·.taking (.close handler))) closing.waiting fun _ => rfl) ?_
      intro s' job _ waits
      obtain rfl := Option.some.inj waits
      exact ⟨rfl, rfl, rfl⟩
    · exact closed_of_modify (f := fun s => { s with closed := true, pendingClose := some _ })
        (fun _ => rfl) found
  | @«open» new fresh =>
    refine closing.of_keeps known rfl keeps fun k s job found waits => ?_
    rcases getElem?_append_cases found with old | ⟨-, rfl⟩
    · exact closing.waiting k s job old waits
    · rw [fresh.2.2.2] at waits
      cases waits
  | call | post | shutDown => exact closing.of_keeps known rfl keeps closing.waiting

theorem Moves.closing (entries : Moves b after) (known : b.Known) (closing : b.Closing) :
    after.Closing := by
  induction entries with
  | refl => exact closing
  | tail before last ih => exact last.closing (Moves.known before known) ih

theorem closing_opening {rest : Queue Task} {owner : ContextId} {outcome : Outcome}
    (known : b.Known) (closing : b.Closing) :
    (b.opening rest owner job outcome).Closing :=
  closing.of_keeps known rfl keepsHandles_opening
    (allWaiting_modify_same (f := (·.releasing job.completion)) closing.waiting fun _ => rfl)

theorem closing_closeIfQuiet (known : b.Known) (closing : b.Closing) :
    (b.closeIfQuiet h).Closing := by
  refine closing.of_keeps known accepted_closeIfQuiet keepsHandles_closeIfQuiet ?_
  rcases closeIfQuiet_cases b h with ⟨same, -⟩ | ⟨s, job, -, -, -, same⟩
  · rw [same]
    exact closing.waiting
  · rw [same]
    exact allWaiting_modify (f := ({ · with pendingClose := none })) closing.waiting
      fun _ _ _ waits => by cases waits

theorem Turn.closing (turn : Turn mode b after) (known : b.Known) (closing : b.Closing) :
    after.Closing := by
  have keeps := turn.keepsHandles
  cases turn with
  | move entry => exact entry.closing known closing
  | deliver next found entries =>
    apply closing_closeIfQuiet
    · exact entries.known (known_opening known)
    · exact entries.closing (known_opening known) (closing_opening known closing)
  | breakOff next found entries calm =>
    exact entries.closing (known_opening known) (closing_opening known closing)
  | switch | begin | take | answer | finish =>
    exact closing.of_keeps known rfl keeps closing.waiting

/-! ## Closed by a close -/

/-- A handle is closed only by a close that was accepted on it. -/
def ClosedByClose (b : Books) : Prop :=
  ∀ (h : HandleId) (s : Handle), b.handles[h]? = some s → s.closed = true →
    ∃ a ∈ b.accepted, a.Closes ∧ a.handle = h

/-- Handles are changed, but for one perhaps none of them is closed by that. -/
theorem ClosedByClose.modify {f : Handle → Handle} (closed : b.ClosedByClose)
    (handles : after.handles = b.handles.modify h f) (more : b.accepted ⊆ after.accepted)
    (closes : (∀ s, (f s).closed = s.closed) ∨ ∃ a ∈ after.accepted, a.Closes ∧ a.handle = h) :
    after.ClosedByClose := by
  intro k s known isClosed
  rw [handles] at known
  rcases getElem?_modify_cases known with ⟨rfl, before, there, rfl⟩ | ⟨-, there⟩
  · rcases closes with same | new
    · obtain ⟨a, accepted, own⟩ := closed h before there (same before ▸ isClosed)
      exact ⟨a, more accepted, own⟩
    · exact new
  · obtain ⟨a, accepted, own⟩ := closed k s there isClosed
    exact ⟨a, more accepted, own⟩

theorem closedByClose_accept {t : Transfer} {c : Completion} (closed : b.ClosedByClose) :
    (b.accept h t c).ClosedByClose :=
  closed.modify (f := (·.taking c)) rfl (List.subset_cons_self ..) (.inl fun _ => rfl)

theorem Move.closedByClose (entry : Move b after) (closed : b.ClosedByClose) :
    after.ClosedByClose := by
  cases entry with
  | accept => exact closedByClose_accept closed
  | @close h s handler admits quiet =>
    exact (closedByClose_accept closed).modify (f := ({ · with closed := true })) rfl
      (List.Subset.refl _) (.inr ⟨_, List.mem_cons_self, rfl, rfl⟩)
  | @closeLater h s handler admits busy =>
    exact (closedByClose_accept closed).modify
      (f := fun s => { s with closed := true, pendingClose := some _ }) rfl
      (List.Subset.refl _) (.inr ⟨_, List.mem_cons_self, rfl, rfl⟩)
  | @«open» new fresh =>
    intro k s known isClosed
    rcases getElem?_append_cases known with old | ⟨-, rfl⟩
    · exact closed k s old isClosed
    · rw [fresh.1] at isClosed
      cases isClosed
  | call | post | shutDown => exact closed

theorem Moves.closedByClose (entries : Moves b after) (closed : b.ClosedByClose) :
    after.ClosedByClose := by
  induction entries with
  | refl => exact closed
  | tail _ last ih => exact last.closedByClose ih

theorem closedByClose_opening {rest : Queue Task} {owner : ContextId} {outcome : Outcome}
    (closed : b.ClosedByClose) : (b.opening rest owner job outcome).ClosedByClose :=
  closed.modify (f := (·.releasing job.completion)) rfl (List.Subset.refl _) (.inl fun _ => rfl)

theorem closedByClose_closeIfQuiet (closed : b.ClosedByClose) :
    (b.closeIfQuiet h).ClosedByClose := by
  rcases closeIfQuiet_cases b h with ⟨same, -⟩ | ⟨s, job, -, -, -, same⟩
  · rwa [same]
  · rw [same]
    exact closed.modify (f := ({ · with pendingClose := none })) rfl (List.Subset.refl _)
      (.inl fun _ => rfl)

theorem Turn.closedByClose (turn : Turn mode b after) (closed : b.ClosedByClose) :
    after.ClosedByClose := by
  cases turn with
  | move entry => exact entry.closedByClose closed
  | deliver next found entries =>
    exact closedByClose_closeIfQuiet (entries.closedByClose (closedByClose_opening closed))
  | breakOff next found entries calm => exact entries.closedByClose (closedByClose_opening closed)
  | switch | begin | take | answer | finish => exact closed

theorem Turns.closedByClose (turns : Turns mode b after) (closed : b.ClosedByClose) :
    after.ClosedByClose := by
  induction turns with
  | refl => exact closed
  | tail _ last ih => exact last.closedByClose ih

end Books

end PinnedFile
