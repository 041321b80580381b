/-
  PinnedFile.Queue

  A first-in, first-out queue that can be shut down.  Once shut down it takes nothing in
  and hands nothing out; what it held at that moment is dropped.
-/

namespace PinnedFile

/-- A queue of tasks. -/
structure Queue (α : Type) where
  /-- What waits, the oldest first. -/
  items : List α := []
  /-- Shut down or not. -/
  isOpen : Bool := true
deriving Repr

namespace Queue

variable {α : Type}

/-- Puts `a` behind all that waits, and tells whether it was taken. -/
def push (q : Queue α) (a : α) : Bool × Queue α :=
  if q.isOpen then (true, { q with items := q.items ++ [a] }) else (false, q)

/-- Puts `a` behind all that waits, whether the queue is open or not.  A push does so once it
    has found the queue open; if it does so later, the queue may be shut down by then. -/
def land (q : Queue α) (a : α) : Queue α := { q with items := q.items ++ [a] }

/-- Hands out the oldest, if the queue is open and not empty. -/
def pop (q : Queue α) : Option (α × Queue α) :=
  if q.isOpen then
    match q.items with
    | [] => none
    | a :: rest => some (a, { q with items := rest })
  else none

/-- Has the queue take nothing in and hand nothing out any more, with what waits left where
    it is. -/
def close (q : Queue α) : Queue α := { q with isOpen := false }

/-- Shuts the queue down, and tells what is dropped. -/
def shutDown (q : Queue α) : List α × Queue α := (q.items, { items := [], isOpen := false })

@[simp] theorem push_open (items : List α) (a : α) :
    (Queue.mk items true).push a = (true, ⟨items ++ [a], true⟩) := rfl

@[simp] theorem push_closed (items : List α) (a : α) :
    (Queue.mk items false).push a = (false, ⟨items, false⟩) := rfl

@[simp] theorem pop_cons (a : α) (rest : List α) :
    (Queue.mk (a :: rest) true).pop = some (a, ⟨rest, true⟩) := rfl

@[simp] theorem pop_nil : (Queue.mk ([] : List α) true).pop = none := rfl

@[simp] theorem pop_closed (items : List α) : (Queue.mk items false).pop = none := rfl

theorem pop_eq_some_iff {q rest : Queue α} {a : α} :
    q.pop = some (a, rest) ↔ q = ⟨a :: rest.items, true⟩ ∧ rest.isOpen = true := by
  rcases q with ⟨_ | ⟨b, items⟩, _ | _⟩ <;> rcases rest with ⟨others, _ | _⟩ <;> simp

/-- A push looks whether the queue is open, and lands at once if it is. -/
theorem push_eq {q : Queue α} {a : α} :
    q.push a = if q.isOpen then (true, q.land a) else (false, q) := rfl

/-- Once a queue takes nothing in and hands nothing out, a shutdown drops what it would have
    dropped before. -/
theorem shutDown_close {q : Queue α} : q.close.shutDown = q.shutDown := rfl

/-- Only a shutdown closes a queue. -/
theorem isOpen_push {q : Queue α} {a : α} : (q.push a).2.isOpen = q.isOpen := by
  rcases q with ⟨items, _ | _⟩ <;> rfl

theorem items_push {q : Queue α} {a : α} (isOpen : q.isOpen = true) :
    (q.push a).2.items = q.items ++ [a] := by
  rw [push, if_pos isOpen]

theorem push_of_shut {q : Queue α} {a : α} (shut : q.isOpen = false) : (q.push a).2 = q := by
  rw [push, shut]
  rfl

theorem close_of_shut {q : Queue α} (shut : q.isOpen = false) : q.close = q := by
  rw [close, ← shut]

theorem mem_push {q : Queue α} {a other : α} (listed : other ∈ (q.push a).2.items) :
    other ∈ q.items ∨ other = a := by
  rcases isOpen : q.isOpen with _ | _
  · rw [push_of_shut isOpen] at listed
    exact .inl listed
  · rw [items_push isOpen, List.mem_append, List.mem_singleton] at listed
    exact listed

theorem isOpen_pop {q rest : Queue α} {a : α} (next : q.pop = some (a, rest)) :
    q.isOpen = rest.isOpen := by
  obtain ⟨rfl, isOpen⟩ := pop_eq_some_iff.mp next
  exact isOpen.symm

theorem mem_of_pop {q rest : Queue α} {a : α} (next : q.pop = some (a, rest)) : a ∈ q.items := by
  rw [(pop_eq_some_iff.mp next).1]
  exact List.mem_cons_self

end Queue

end PinnedFile
