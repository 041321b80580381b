/-
  PinnedFile.Proofs.Books.Sound

  Sound books: all that holds of the books in every run, and more in a calm one.

  Besides the laws of the other modules these are that a handler is called for each
  operation that is completed and for no other, and that everything done for a handle is
  done on its context.  Every turn keeps the books sound, and so does every step.
-/

import PinnedFile.Proofs.Books.Pipeline

namespace PinnedFile

namespace Books

variable {mode : Mode} {b after : Books} {loose : List Job} {h : HandleId} {s : Handle}
  {job : Job}

/-! ## Calls of handlers -/

/-- A handler is called for each completed operation that has one, with its result. -/
def Called (b : Books) : Prop :=
  b.handlerCalls = b.completed.filterMap fun c => c.1.handlerCall? c.2

/-- A turn completes one operation, which is then no longer on its way, or none. -/
theorem Turn.completes (turn : Turn mode b after) :
    (after.completed = b.completed ∧ after.handlerCalls = b.handlerCalls) ∨
    ∃ job outcome, .deliver job outcome ∈ b.tasks.items ∧
      after.completed = (job, outcome) :: b.completed ∧
      after.handlerCalls = (job.handlerCall? outcome).toList ++ b.handlerCalls := by
  cases turn with
  | move entry => exact .inl ⟨entry.sameWork.completed, entry.sameWork.handlerCalls⟩
  | @deliver middle job outcome rest s next known entries =>
    have same := entries.sameWork.trans (sameWork_closeIfQuiet middle job.handle)
    exact .inr ⟨job, outcome, Queue.mem_of_pop next, same.completed, same.handlerCalls⟩
  | @breakOff _ job outcome rest s next known entries calm =>
    have same := entries.sameWork
    exact .inr ⟨job, outcome, Queue.mem_of_pop next, same.completed, same.handlerCalls⟩
  | switch | begin | take | answer | finish => exact .inl ⟨rfl, rfl⟩

theorem Turn.called (turn : Turn mode b after) (called : b.Called) : after.Called := by
  rcases turn.completes with ⟨completed, calls⟩ | ⟨job, outcome, -, completed, calls⟩
  · rw [Called, completed, calls]
    exact called
  · rw [Called, completed, calls, called, List.filterMap_cons]
    rcases job.handlerCall? outcome <;> rfl

/-! ## Contexts -/

/-- Whatever was done for a handle was done on its context. -/
def Attended (b : Books) : Prop :=
  ∀ c ∈ b.callers, ∃ s, b.handles[c.1]? = some s ∧ c.2 = some s.owner

theorem Attended.of_keeps (attended : b.Attended)
    (keeps : KeepsHandles b.handles after.handles)
    (callers : ∀ c ∈ after.callers, c ∈ b.callers ∨
      ∃ s, b.handles[c.1]? = some s ∧ c.2 = some s.owner) : after.Attended := by
  intro c listed
  obtain ⟨s, known, here⟩ : ∃ s, b.handles[c.1]? = some s ∧ c.2 = some s.owner := by
    rcases callers c listed with before | now
    · exact attended c before
    · exact now
  obtain ⟨s', known', owner, -⟩ := keeps c.1 s known
  exact ⟨s', known', by rw [here, owner]⟩

theorem attended_cons (attended : b.Attended) (home : b.IsHome h)
    (keeps : KeepsHandles b.handles after.handles)
    (callers : after.callers = (h, b.context) :: b.callers) : after.Attended := by
  refine attended.of_keeps keeps fun c listed => ?_
  rw [callers] at listed
  rcases List.mem_cons.mp listed with rfl | before
  · exact .inr home
  · exact .inl before

theorem Move.attended (entry : Move b after) (attended : b.Attended) : after.Attended := by
  have keeps := entry.keepsHandles
  cases entry with
  | accept admits fits plain => exact attended_cons attended admits.isHome keeps rfl
  | close admits quiet => exact attended_cons attended admits.isHome keeps rfl
  | closeLater admits busy => exact attended_cons attended admits.isHome keeps rfl
  | call home => exact attended_cons attended home keeps rfl
  | «open» | post | shutDown => exact attended.of_keeps keeps fun _ => .inl

theorem Moves.attended (entries : Moves b after) (attended : b.Attended) : after.Attended := by
  induction entries with
  | refl => exact attended
  | tail _ last ih => exact last.attended ih

theorem attended_opening {rest : Queue Task} {outcome : Outcome} (attended : b.Attended)
    (known : b.handles[job.handle]? = some s) :
    (b.opening rest s.owner job outcome).Attended := by
  refine attended.of_keeps keepsHandles_opening fun c listed => ?_
  rcases List.mem_cons.mp listed with rfl | before
  · exact .inr ⟨s, known, rfl⟩
  · exact .inl before

theorem attended_closeIfQuiet (attended : b.Attended) : (b.closeIfQuiet h).Attended := by
  have callers : (b.closeIfQuiet h).callers = b.callers := by
    rcases closeIfQuiet_cases b h with ⟨same, -⟩ | ⟨s, job, -, -, -, same⟩
    · rw [same]
    · rw [same]
      rfl
  refine attended.of_keeps keepsHandles_closeIfQuiet fun c listed => ?_
  rw [callers] at listed
  exact .inl listed

theorem Turn.attended (turn : Turn mode b after) (attended : b.Attended) : after.Attended := by
  have keeps := turn.keepsHandles
  cases turn with
  | move entry => exact entry.attended attended
  | deliver next known entries =>
    exact attended_closeIfQuiet (entries.attended (attended_opening attended known))
  | breakOff next known entries calm => exact entries.attended (attended_opening attended known)
  | switch | begin | take | answer | finish => exact attended.of_keeps keeps fun _ => .inl

/-! ## All of it -/

/-- All that holds of the books in every run, and more in a calm one. -/
structure Sound (mode : Mode) (b : Books) : Prop where
  coherent : b.Coherent
  accounted : ∃ loose, b.Accounted loose ∧ (mode = .calm → b.IsAlive → loose = [])
  known : b.Known
  counted : ∀ counter, b.Counted counter
  traced : b.Traced
  closing : b.Closing
  prompt : mode = .calm → b.Prompt none
  called : b.Called
  attended : b.Attended
  together : b.Together
  manned : b.Manned
  inLine : b.workers ≤ 1 → b.InLine

/-- Every turn keeps the books sound. -/
theorem Turn.sound (turn : Turn mode b after) (sound : Sound mode b) : Sound mode after := by
  -- accounting comes first: what is on its way is what the other laws are about
  obtain ⟨loose, accounted, none_lost⟩ := sound.accounted
  obtain ⟨loose', accounted', kept⟩ := turn.accounted sound.coherent accounted
  constructor
  · exact turn.coherent sound.coherent
  · refine ⟨loose', accounted', fun calm alive => ?_⟩
    obtain ⟨before, same⟩ := kept calm alive
    rw [same]
    exact none_lost calm before
  · exact turn.known sound.known
  · intro counter
    exact turn.counted sound.coherent accounted sound.known (sound.counted counter)
  · exact turn.traced sound.coherent accounted sound.traced
  · exact turn.closing sound.known sound.closing
  · intro calm
    subst calm
    exact turn.prompt sound.coherent (sound.prompt rfl)
  · exact turn.called sound.called
  · exact turn.attended sound.attended
  · exact turn.together sound.together
  · exact turn.manned sound.manned
  · intro single
    rw [turn.workers] at single
    exact turn.inLine sound.coherent accounted sound.known sound.closing sound.manned single
      (sound.inLine single)

theorem Turns.sound (turns : Turns mode b after) (sound : Sound mode b) : Sound mode after := by
  induction turns with
  | refl => exact sound
  | tail _ last ih => exact last.sound ih

/-- The handles that wait for a delivery are known. -/
theorem Sound.known_of_deliver {outcome : Outcome} (sound : Sound mode b)
    (posted : .deliver job outcome ∈ b.tasks.items) : ∃ s, b.handles[job.handle]? = some s := by
  have there := underway_of_posted posted
  obtain ⟨a, accepted, same, -⟩ := sound.traced.underway job there
  obtain ⟨s, known⟩ := sound.known a accepted
  exact ⟨s, by rw [← show a.handle = job.handle from congrArg Ticket.handle same, known]⟩

/-- What an operation came to is what its own calls have made of it. -/
theorem Sound.made_of_completed {a : Job} {outcome : Outcome} (sound : Sound mode b)
    (accepted : a ∈ b.accepted) (listed : (job, outcome) ∈ b.completed) (own : job.id = a.id) :
    a.transfer.Made (b.exchangesOf a.id) (some job.transfer) ∧
      job.transfer.outcome? = some outcome := by
  obtain ⟨loose, accounted, -⟩ := sound.accounted
  obtain ⟨⟨a', accepted', ticket, made⟩, ended⟩ := sound.traced.completed _ listed
  obtain rfl : a' = a :=
    accounted.eq_of_id accepted' accepted ((congrArg Ticket.id ticket).trans own)
  exact ⟨made, ended⟩

/-- The calls for an operation were made on behalf of its handle. -/
theorem Sound.handle_of_exchange {a : Job} {e : Exchange} (sound : Sound mode b)
    (accepted : a ∈ b.accepted) (listed : e ∈ b.exchangesOf a.id) :
    e ∈ b.exchanges ∧ e.handle = a.handle := by
  obtain ⟨loose, accounted, -⟩ := sound.accounted
  obtain ⟨made, number⟩ := List.mem_filter.mp listed
  obtain ⟨a', accepted', own, handle⟩ := sound.traced.exchanged e made
  obtain rfl := accounted.eq_of_id accepted' accepted (own.trans (of_decide_eq_true number))
  exact ⟨made, handle.symm⟩

end Books

variable {mode : Mode} {w after : World}

/-- The books are sound at the start of a run. -/
theorem sound_start (workers : Nat) (files : FileTree) :
    Books.Sound mode (World.start workers files).books where
  coherent _ listed := absurd listed List.not_mem_nil
  accounted := ⟨[], ⟨rfl, rfl⟩, fun _ _ => rfl⟩
  known _ listed := absurd listed List.not_mem_nil
  counted _ _ _ known := by cases known
  traced :=
    { fits _ listed := absurd listed List.not_mem_nil
      made _ listed := absurd listed List.not_mem_nil
      exchanged _ listed := absurd listed List.not_mem_nil
      underway _ there := absurd there List.not_mem_nil
      ended _ _ listed := absurd listed List.not_mem_nil
      completed _ listed := absurd listed List.not_mem_nil }
  closing :=
    { waiting _ _ _ known := by cases known
      closed _ listed := absurd listed List.not_mem_nil
      last := .nil }
  prompt _ _ _ known := by cases known
  called := rfl
  attended _ listed := absurd listed List.not_mem_nil
  together := rfl
  manned := Nat.zero_le _
  inLine _ := .nil

/-- Whatever waits for its delivery is on a known handle. -/
theorem known_of_sound (sound : Books.Sound mode w.books) (job : Job) (outcome : Outcome)
    (posted : .deliver job outcome ∈ w.tasks.items) : ∃ s, w.handles[job.handle]? = some s := by
  obtain ⟨s, known⟩ := sound.known_of_deliver (b := w.books) posted
  obtain ⟨s', known', -⟩ := World.handles_of_books known
  exact ⟨s', known'⟩

/-- A step from a world whose books are sound is a sequence of turns. -/
theorem Step.turns_of_sound (step : Step mode w after) (sound : Books.Sound mode w.books) :
    Books.Turns mode w.books after.books := step.turns (known_of_sound sound)

/-- In every run the books are sound. -/
theorem Reachable.sound (reached : Reachable mode w) : Books.Sound mode w.books := by
  refine Reachable.induct (P := fun w => Books.Sound mode w.books) sound_start ?_ reached
  intro w after _ sound step
  exact (step.turns_of_sound sound).sound sound

/-- In every run a handle is closed only by a close that was accepted on it. -/
theorem Reachable.closedByClose (reached : Reachable mode w) : w.books.ClosedByClose := by
  refine Reachable.induct (P := fun w => w.books.ClosedByClose) ?_ ?_ reached
  · rintro workers files h s known
    cases known
  · intro w after before closed step
    exact (step.turns_of_sound before.sound).closedByClose closed

end PinnedFile
