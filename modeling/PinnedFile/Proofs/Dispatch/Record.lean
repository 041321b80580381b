/-
  PinnedFile.Proofs.Dispatch.Record

  What becomes of the tasks that are pushed into a queue.

  Producers push, consumers pop and somebody may shut the queue down, each of these at once and in
  any order; who does it makes no difference.  A record goes along and keeps what was accepted,
  refused, handed out and dropped, each in order.  One act keeps the record balanced, so what is
  handed out is at any time the beginning of what was accepted.

  A record may begin at any moment, with what is queued then.  So what happens between two moments
  of a run is a record too, and two of them, one after the other, are one.
-/

import PinnedFile.Queue

namespace PinnedFile.Queue

/-- What producers and consumers do with a queue. -/
inductive Act (α : Type) where
  | push (a : α)
  | pop
  | shutDown
deriving DecidableEq, Repr

/-- A queue, and what became of all that was pushed, the earliest first. -/
structure Record (α : Type) where
  queue : Queue α := {}
  /-- What was pushed and taken. -/
  accepted : List α := []
  /-- What was pushed and not taken. -/
  refused : List α := []
  handedOut : List α := []
  /-- What was still queued at a shutdown. -/
  dropped : List α := []
deriving Repr

variable {α : Type}

/-- What an act pushes. -/
def Act.pushed? : Act α → Option α
  | .push a => some a
  | .pop | .shutDown => none

/-- What is pushed by acts, the first one first. -/
def pushed (acts : List (Act α)) : List α := acts.filterMap Act.pushed?

namespace Record

/-- A record after one more act. -/
def act (r : Record α) : Act α → Record α
  | .push a =>
    match r.queue.push a with
    | (true, queue) => { r with queue, accepted := r.accepted ++ [a] }
    | (false, queue) => { r with queue, refused := r.refused ++ [a] }
  | .pop =>
    match r.queue.pop with
    | some (a, queue) => { r with queue, handedOut := r.handedOut ++ [a] }
    -- a consumer that finds nothing waits, or is told that there will be nothing
    | none => r
  | .shutDown =>
    let (dropped, queue) := r.queue.shutDown
    { r with queue, dropped := r.dropped ++ dropped }

end Record

/-- The record of acts on a queue.  What is queued at first counts as accepted. -/
def record (q : Queue α) (acts : List (Act α)) : Record α :=
  acts.foldl Record.act { queue := q, accepted := q.items }

/-- A queue that is shut down holds nothing. -/
def IsTidy (q : Queue α) : Prop := q.isOpen = false → q.items = []

/-- Acts on a queue keep what a queue promises. -/
structure IsFifo (q : Queue α) (acts : List (Act α)) : Prop where
  inOrder : (q.record acts).handedOut <+: (q.record acts).accepted
  /-- What was accepted and not handed out was dropped or is queued. -/
  accounted : (q.record acts).accepted =
    (q.record acts).handedOut ++ (q.record acts).dropped ++ (q.record acts).queue.items
  /-- Whoever pops gets the oldest. -/
  oldest : ∀ a rest, (q.record acts).queue.items = a :: rest →
    (q.record (acts ++ [.pop])).handedOut = (q.record acts).handedOut ++ [a] ∧
      (q.record (acts ++ [.pop])).queue = ⟨rest, true⟩
  /-- Without a shutdown all is accepted, and nothing is dropped. -/
  running : q.isOpen = true → .shutDown ∉ acts →
    (q.record acts).accepted = q.items ++ pushed acts ∧ (q.record acts).refused = [] ∧
      (q.record acts).dropped = []
  /-- A shutdown drops what is queued.  From then on all is refused, and nothing handed out. -/
  stopped : ∀ before after, acts = before ++ .shutDown :: after →
    q.record acts = { q.record before with
      queue := ⟨[], false⟩
      dropped := (q.record before).dropped ++ (q.record before).queue.items
      refused := (q.record before).refused ++ pushed after }
  once : (q.items ++ pushed acts).Nodup → (q.record acts).handedOut.Nodup

/-- Acts that hand out some tasks lead from one queue to another. -/
def Serves (q : Queue α) (handedOut : List α) (later : Queue α) : Prop :=
  ∃ acts, (q.record acts).queue = later ∧ (q.record acts).handedOut = handedOut

namespace Record

/-- All that was accepted is accounted for.  Nothing is dropped or refused while the queue is open,
    and nothing waits once it is shut down. -/
structure IsBalanced (r : Record α) : Prop where
  accounted : r.accepted = r.handedOut ++ r.dropped ++ r.queue.items
  whileOpen : r.queue.isOpen = true → r.dropped = [] ∧ r.refused = []
  tidy : r.queue.IsTidy

variable {r : Record α} {acts : List (Act α)} {a : α}

theorem act_push_of_open (isOpen : r.queue.isOpen = true) :
    r.act (.push a) = { r with
      queue := ⟨r.queue.items ++ [a], true⟩, accepted := r.accepted ++ [a] } := by
  simp only [act, push, isOpen, if_true]

theorem act_push_of_shut (shut : r.queue.isOpen = false) :
    r.act (.push a) = { r with refused := r.refused ++ [a] } := by
  simp only [act, push, shut, Bool.false_eq_true, if_false]

theorem act_pop_of_some {rest : Queue α} (next : r.queue.pop = some (a, rest)) :
    r.act .pop = { r with queue := rest, handedOut := r.handedOut ++ [a] } := by
  simp only [act, next]

theorem act_pop_of_none (none : r.queue.pop = none) : r.act .pop = r := by
  simp only [act, none]

/-- One act keeps a record balanced. -/
theorem IsBalanced.act (balanced : r.IsBalanced) (one : Act α) : (r.act one).IsBalanced := by
  obtain ⟨accounted, whileOpen, tidy⟩ := balanced
  cases one with
  | push a =>
    rcases isOpen : r.queue.isOpen with _ | _
    · rw [act_push_of_shut isOpen]
      exact ⟨accounted, fun opened => absurd (isOpen.symm.trans opened) Bool.noConfusion, tidy⟩
    · rw [act_push_of_open isOpen]
      refine ⟨?_, fun _ => whileOpen isOpen, fun shut => absurd shut.symm Bool.noConfusion⟩
      rw [accounted]
      exact List.append_assoc _ _ _
  | pop =>
    rcases next : r.queue.pop with _ | ⟨a, rest⟩
    · rw [act_pop_of_none next]
      exact ⟨accounted, whileOpen, tidy⟩
    · obtain ⟨same, isOpen⟩ := pop_eq_some_iff.mp next
      have nothing := whileOpen (by rw [same])
      rw [act_pop_of_some next]
      -- what is handed out goes from the front of the queue to the end of what was handed out
      refine ⟨?_, fun _ => nothing, fun shut => absurd (isOpen.symm.trans shut) Bool.noConfusion⟩
      rw [accounted, nothing.1, same]
      simp
  | shutDown =>
    refine ⟨?_, fun opened => absurd opened Bool.noConfusion, fun _ => rfl⟩
    show r.accepted = r.handedOut ++ (r.dropped ++ r.queue.items) ++ []
    rw [accounted, List.append_nil, List.append_assoc]

theorem IsBalanced.foldl (balanced : r.IsBalanced) (acts : List (Act α)) :
    (acts.foldl Record.act r).IsBalanced := by
  induction acts generalizing r with
  | nil => exact balanced
  | cons one rest ih => exact ih (balanced.act one)

/-- As long as nobody shuts the queue down, all that is pushed is accepted. -/
theorem foldl_act_of_open (isOpen : r.queue.isOpen = true) (runs : .shutDown ∉ acts) :
    (acts.foldl act r).queue.isOpen = true ∧
      (acts.foldl act r).accepted = r.accepted ++ pushed acts := by
  induction acts generalizing r with
  | nil => exact ⟨isOpen, (List.append_nil _).symm⟩
  | cons one rest ih =>
    have runs' : .shutDown ∉ rest := fun later => runs (List.mem_cons_of_mem one later)
    rw [List.foldl_cons]
    cases one with
    | push a =>
      rw [act_push_of_open isOpen]
      obtain ⟨stays, accepted⟩ := ih (r := { r with
        queue := ⟨r.queue.items ++ [a], true⟩, accepted := r.accepted ++ [a] }) rfl runs'
      exact ⟨stays, accepted.trans (List.append_assoc _ _ _)⟩
    | pop =>
      rcases next : r.queue.pop with _ | ⟨a, queue⟩
      · rw [act_pop_of_none next]
        exact ih isOpen runs'
      · rw [act_pop_of_some next]
        exact ih (pop_eq_some_iff.mp next).2 runs'
    | shutDown => exact absurd List.mem_cons_self runs

/-- Once the queue is shut down, all that is pushed is refused, and nothing else happens. -/
theorem foldl_act_of_shut (shut : r.queue = ⟨[], false⟩) (acts : List (Act α)) :
    acts.foldl act r = { r with refused := r.refused ++ pushed acts } := by
  induction acts generalizing r with
  | nil => simp [pushed]
  | cons one rest ih =>
    rw [List.foldl_cons]
    cases one with
    | push a =>
      rw [act_push_of_shut (congrArg Queue.isOpen shut),
        ih (r := { r with refused := r.refused ++ [a] }) shut]
      simp [pushed, Act.pushed?]
    | pop =>
      rw [act_pop_of_none (by rw [shut]; rfl), ih shut]
      rfl
    | shutDown =>
      -- there is nothing left that a second shutdown could drop
      have same : r.act .shutDown = r := by
        rcases r with ⟨_, _, _, _, dropped⟩
        obtain rfl := shut
        simp [act, shutDown]
      rw [same, ih shut]
      rfl

/-- One act accepts what it pushes, or nothing. -/
theorem accepted_act (r : Record α) (one : Act α) : (r.act one).accepted = r.accepted ∨
    ∃ a, one = .push a ∧ (r.act one).accepted = r.accepted ++ [a] := by
  cases one with
  | push a =>
    rcases isOpen : r.queue.isOpen with _ | _
    · exact .inl (by rw [act_push_of_shut isOpen])
    · exact .inr ⟨a, rfl, by rw [act_push_of_open isOpen]⟩
  | pop =>
    rcases next : r.queue.pop with _ | ⟨a, rest⟩
    · exact .inl (by rw [act_pop_of_none next])
    · exact .inl (by rw [act_pop_of_some next])
  | shutDown => exact .inl rfl

theorem accepted_prefix (r : Record α) (acts : List (Act α)) :
    r.accepted <+: (acts.foldl act r).accepted := by
  induction acts generalizing r with
  | nil => exact List.prefix_rfl
  | cons one rest ih =>
    refine List.IsPrefix.trans ?_ (ih (r.act one))
    rcases accepted_act r one with same | ⟨a, -, more⟩
    · exact ⟨[], (List.append_nil _).trans same.symm⟩
    · rw [more]
      exact List.prefix_append _ _

theorem accepted_foldl_sublist (r : Record α) (acts : List (Act α)) :
    (acts.foldl act r).accepted.Sublist (r.accepted ++ pushed acts) := by
  induction acts generalizing r with
  | nil => exact List.sublist_append_left _ _
  | cons one rest ih =>
    refine (ih (r.act one)).trans ?_
    rcases accepted_act r one with same | ⟨a, rfl, more⟩
    · rw [same]
      exact (List.Sublist.refl _).append ((List.sublist_cons_self one rest).filterMap _)
    · rw [more, List.append_assoc]
      exact List.Sublist.refl _

end Record

variable {q middle later : Queue α} {acts : List (Act α)} {a : α} {first second : List α}

theorem record_append (q : Queue α) (before after : List (Act α)) :
    q.record (before ++ after) = after.foldl Record.act (q.record before) := List.foldl_append

theorem pop_of_open {rest : List α} (isOpen : q.isOpen = true) (waits : q.items = a :: rest) :
    q.pop = some (a, ⟨rest, true⟩) := by
  rw [pop, if_pos isOpen, waits, isOpen]

theorem isTidy_of_open (isOpen : q.isOpen = true) : q.IsTidy :=
  fun shut => absurd (isOpen.symm.trans shut) Bool.noConfusion

/-- A queue in which something waits is open. -/
theorem IsTidy.isOpen_of_waits {rest : List α} (tidy : q.IsTidy) (waits : q.items = a :: rest) :
    q.isOpen = true := by
  rcases isOpen : q.isOpen with _ | _
  · rw [tidy isOpen] at waits
    cases waits
  · rfl

theorem IsTidy.isBalanced (tidy : q.IsTidy) (acts : List (Act α)) :
    (q.record acts).IsBalanced := by
  have start : Record.IsBalanced { queue := q, accepted := q.items } :=
    ⟨rfl, fun _ => ⟨rfl, rfl⟩, tidy⟩
  exact start.foldl acts

/-- What is accepted was queued at first, or it was pushed. -/
theorem accepted_sublist (q : Queue α) (acts : List (Act α)) :
    (q.record acts).accepted.Sublist (q.items ++ pushed acts) :=
  Record.accepted_foldl_sublist { queue := q, accepted := q.items } acts

/-- Whatever producers and consumers do, a queue keeps its promises. -/
theorem IsTidy.isFifo (tidy : q.IsTidy) (acts : List (Act α)) : q.IsFifo acts := by
  have balanced := tidy.isBalanced acts
  have inOrder : (q.record acts).handedOut <+: (q.record acts).accepted := by
    rw [balanced.accounted, List.append_assoc]
    exact List.prefix_append _ _
  refine ⟨inOrder, balanced.accounted, fun a rest waits => ?_, fun isOpen runs => ?_,
    fun before after same => ?_, fun distinct => ?_⟩
  · have next := pop_of_open (balanced.tidy.isOpen_of_waits waits) waits
    rw [record_append, List.foldl_cons, List.foldl_nil, Record.act_pop_of_some next]
    exact ⟨rfl, rfl⟩
  · obtain ⟨stays, accepted⟩ :=
      Record.foldl_act_of_open (r := { queue := q, accepted := q.items }) isOpen runs
    exact ⟨accepted, (balanced.whileOpen stays).2, (balanced.whileOpen stays).1⟩
  · rw [same, record_append, List.foldl_cons, Record.foldl_act_of_shut rfl]
    rfl
  · exact distinct.sublist (inOrder.sublist.trans (accepted_sublist q acts))

/-! ## From one moment to another -/

/-- What an act hands out, and the queue it leads to, depend on the queue only. -/
theorem Record.act_of_queue {r s : Record α} {before : List α} (queue : r.queue = s.queue)
    (handedOut : r.handedOut = before ++ s.handedOut) (one : Act α) :
    (r.act one).queue = (s.act one).queue ∧
      (r.act one).handedOut = before ++ (s.act one).handedOut := by
  cases one with
  | push a =>
    rcases isOpen : s.queue.isOpen with _ | _
    · rw [act_push_of_shut isOpen, act_push_of_shut (queue ▸ isOpen)]
      exact ⟨queue, handedOut⟩
    · rw [act_push_of_open isOpen, act_push_of_open (queue ▸ isOpen), queue]
      exact ⟨rfl, handedOut⟩
  | pop =>
    rcases next : s.queue.pop with _ | ⟨a, rest⟩
    · rw [act_pop_of_none next, act_pop_of_none (queue ▸ next)]
      exact ⟨queue, handedOut⟩
    · rw [act_pop_of_some next, act_pop_of_some (queue ▸ next), handedOut]
      exact ⟨rfl, List.append_assoc _ _ _⟩
  | shutDown => exact ⟨rfl, handedOut⟩

theorem foldl_act_of_queue {r s : Record α} {before : List α} (queue : r.queue = s.queue)
    (handedOut : r.handedOut = before ++ s.handedOut) (acts : List (Act α)) :
    (acts.foldl Record.act r).queue = (acts.foldl Record.act s).queue ∧
      (acts.foldl Record.act r).handedOut = before ++ (acts.foldl Record.act s).handedOut := by
  induction acts generalizing r s with
  | nil => exact ⟨queue, handedOut⟩
  | cons one rest ih =>
    obtain ⟨queue', handedOut'⟩ := Record.act_of_queue queue handedOut one
    exact ih queue' handedOut'

theorem serves_refl (q : Queue α) : q.Serves [] q := ⟨[], rfl, rfl⟩

theorem serves_push (q : Queue α) (a : α) : q.Serves [] (q.push a).2 := by
  refine ⟨[.push a], ?_⟩
  rcases q with ⟨items, _ | _⟩ <;> exact ⟨rfl, rfl⟩

theorem serves_shutDown (q : Queue α) : q.Serves [] ⟨[], false⟩ := ⟨[.shutDown], rfl, rfl⟩

theorem serves_pop (next : q.pop = some (a, later)) : q.Serves [a] later := by
  obtain ⟨rfl, isOpen⟩ := pop_eq_some_iff.mp next
  rcases later with ⟨items, _ | _⟩
  · cases isOpen
  · exact ⟨[.pop], rfl, rfl⟩

/-- Two records, one after the other, are one record. -/
theorem Serves.trans (one : q.Serves first middle) (other : middle.Serves second later) :
    q.Serves (first ++ second) later := by
  obtain ⟨acts, rfl, rfl⟩ := one
  obtain ⟨others, rfl, rfl⟩ := other
  refine ⟨acts ++ others, ?_⟩
  rw [record_append]
  -- the second record begins anew, with the queue that the first one has come to
  exact foldl_act_of_queue (r := q.record acts)
    (s := { queue := (q.record acts).queue, accepted := (q.record acts).queue.items }) rfl
    (List.append_nil _).symm others

theorem Serves.isTidy (serves : q.Serves first later) (tidy : q.IsTidy) : later.IsTidy := by
  obtain ⟨acts, rfl, rfl⟩ := serves
  exact (tidy.isBalanced acts).tidy

/-- A queue that is shut down stays so, and hands nothing out. -/
theorem Serves.of_shut (serves : q.Serves first later) (tidy : q.IsTidy)
    (shut : q.isOpen = false) : first = [] ∧ later = ⟨[], false⟩ := by
  obtain ⟨acts, rfl, rfl⟩ := serves
  have empty : q = ⟨[], false⟩ := by
    rcases q with ⟨items, isOpen⟩
    obtain rfl : isOpen = false := shut
    rw [show items = [] from tidy rfl]
  rw [record, Record.foldl_act_of_shut empty]
  exact ⟨rfl, empty⟩

/-- Unless the queue is shut down, what is queued is handed out before anything that comes
    later. -/
theorem Serves.items (serves : q.Serves first later) (tidy : q.IsTidy)
    (isOpen : later.isOpen = true) : q.items <+: first ++ later.items := by
  obtain ⟨acts, rfl, rfl⟩ := serves
  have balanced := tidy.isBalanced acts
  -- what was queued is the beginning of all that was accepted, and nothing of that was dropped
  have kept : q.items <+: (q.record acts).accepted :=
    Record.accepted_prefix { queue := q, accepted := q.items } acts
  rwa [balanced.accounted, (balanced.whileOpen isOpen).1, List.append_nil] at kept

end PinnedFile.Queue
