/-
  PinnedFile.Proofs.DrainCalls

  The order in which drain callbacks are registered and called.

  A callback that is called is the one that was registered last on its handle, it was not
  called before, and at that moment no more than half of what makes the queue full is
  outstanding, the write that has just ended no longer counted.  A registration that is not
  answered by a call right away finds more than that outstanding.
-/

import PinnedFile.Proofs.Counters
import PinnedFile.Proofs.DrainCalls.Changes

namespace PinnedFile

open Run

/-- The drain callbacks that were registered, the latest first. -/
def awaitsIn (history : List Entry) : List (HandleId × Nat) :=
  history.filterMap (·.event.awaited?)

/-- The drain callbacks that were called, the latest first. -/
def drainsIn (history : List Entry) : List (HandleId × Nat) :=
  history.filterMap (·.event.drained?)

/-- The operations that were accepted on a handle and are not delivered, by a history. -/
def undeliveredIn (history : List Entry) (h : HandleId) : List Job :=
  (history.filterMap (·.event.accepted?)).filter fun a =>
    a.handle = h ∧ a.id ∉ (history.filterMap (·.event.completed?)).map fun c => c.1.id

/-- A drain callback is called that is to be called: the one that was registered last, for the
    first time, on its own context and with the queue drained.  Outstanding is just what is
    not delivered by then. -/
structure Entry.CallsDue (e : Entry) (older : List Entry) (h : HandleId) (id : Nat) : Prop where
  latest : (awaitsIn older).lookup h = some id
  first : ∀ k, (k, id) ∉ drainsIn older
  drained : ∃ s v, e.handles[h]? = some s ∧ s.writer = some v ∧ e.context = some s.owner ∧
    s.outstanding ≤ v.lowwater ∧
    s.outstanding = ((undeliveredIn older h).map fun a => a.completion.outstanding).sum

/-- Whenever a drain callback is called, it is to be called. -/
def CallsWhenDue (history : List Entry) : Prop :=
  ∀ newer e older h id tag, history = newer ++ e :: older → e.event = .drained h id tag →
    e.CallsDue older h id

/-- Whenever a drain callback is registered, it is called next, or the queue has not drained. -/
def CallsOrWaits (history : List Entry) : Prop :=
  ∀ newer e older h id, history = newer ++ e :: older → e.event = .awaited h id →
    (∃ newer' e' tag, newer = newer' ++ [e'] ∧ e'.event = .drained h id tag) ∨
    ∃ s, e.handles[h]? = some s ∧ ∀ v, s.writer = some v → v.lowwater < s.outstanding

variable {mode : Mode} {w middle after : World} {h k : HandleId} {job : Job} {outcome : Outcome}
  {rest : Queue Task} {wait : DrainWait} {id : Nat} {older new : List Entry} {e : Entry}

/-! ## Registrations and calls in a history -/

theorem mem_awaitsIn : (h, id) ∈ awaitsIn older ↔ Tells older (.awaited h id) := by
  rw [awaitsIn, List.mem_filterMap]
  constructor
  · rintro ⟨e, listed, found⟩
    refine ⟨e, listed, ?_⟩
    revert found
    cases e.event <;> simp [Event.awaited?]
  · rintro ⟨e, listed, same⟩
    exact ⟨e, listed, by rw [same]; rfl⟩

theorem mem_drainsIn : (h, id) ∈ drainsIn older ↔ ∃ tag, Tells older (.drained h id tag) := by
  rw [drainsIn, List.mem_filterMap]
  constructor
  · rintro ⟨e, listed, found⟩
    revert found
    cases event : e.event <;> simp only [Event.drained?, Option.some.injEq, reduceCtorEq,
      IsEmpty.forall_iff, Prod.mk.injEq]
    rintro ⟨rfl, rfl⟩
    exact ⟨_, e, listed, event⟩
  · rintro ⟨tag, e, listed, same⟩
    exact ⟨e, listed, by rw [same]; rfl⟩

theorem awaitsIn_append_of_spares (spares : ∀ e ∈ new, e.event.SparesDrains) :
    awaitsIn (new ++ older) = awaitsIn older := by
  rw [awaitsIn, awaitsIn, List.filterMap_append,
    List.filterMap_eq_nil_iff.mpr fun e listed => (spares e listed).1, List.nil_append]

theorem drainsIn_append_of_spares (spares : ∀ e ∈ new, e.event.SparesDrains) :
    drainsIn (new ++ older) = drainsIn older := by
  rw [drainsIn, drainsIn, List.filterMap_append,
    List.filterMap_eq_nil_iff.mpr fun e listed => (spares e listed).2, List.nil_append]

theorem CallsWhenDue.append (calls : CallsWhenDue older)
    (none : ∀ e ∈ new, e.event.drained? = none) : CallsWhenDue (new ++ older) := by
  intro newer e rest h id tag split drained
  rcases append_eq_split split with ⟨middle, rfl, before⟩ | ⟨middle, rfl, -⟩
  · exact calls middle e rest h id tag before drained
  · have silent := none e (List.mem_append_right _ List.mem_cons_self)
    rw [drained] at silent
    cases silent

theorem CallsWhenDue.cons (calls : CallsWhenDue older)
    (due : ∀ h id tag, e.event = .drained h id tag → e.CallsDue older h id) :
    CallsWhenDue (e :: older) := by
  intro newer f rest h id tag split drained
  rcases newer with _ | ⟨first, newer⟩
  · obtain ⟨rfl, rfl⟩ := List.cons.inj split
    exact due h id tag drained
  · obtain ⟨rfl, before⟩ := List.cons.inj split
    exact calls newer f rest h id tag before drained

theorem CallsOrWaits.append (calls : CallsOrWaits older)
    (none : ∀ e ∈ new, e.event.awaited? = none) : CallsOrWaits (new ++ older) := by
  intro newer e rest h id split awaited
  rcases append_eq_split split with ⟨middle, rfl, before⟩ | ⟨middle, rfl, -⟩
  · rcases calls middle e rest h id before awaited with ⟨newer', e', tag, rfl, called⟩ | waits
    · exact .inl ⟨new ++ newer', e', tag, (List.append_assoc ..).symm, called⟩
    · exact .inr waits
  · have silent := none e (List.mem_append_right _ List.mem_cons_self)
    rw [awaited] at silent
    cases silent

/-- A registration that finds the queue not drained. -/
theorem CallsOrWaits.await (calls : CallsOrWaits older) (awaited : e.event = .awaited h id)
    (waits : ∃ s, e.handles[h]? = some s ∧ ∀ v, s.writer = some v → v.lowwater < s.outstanding) :
    CallsOrWaits (e :: older) := by
  intro newer f rest k id' split awaited'
  rcases newer with _ | ⟨first, newer⟩
  · obtain ⟨rfl, rfl⟩ := List.cons.inj split
    obtain ⟨rfl, rfl⟩ := Event.awaited.inj (awaited.symm.trans awaited')
    exact .inr waits
  · obtain ⟨rfl, before⟩ := List.cons.inj split
    rcases calls newer f rest k id' before awaited' with ⟨newer', e', tag, rfl, called⟩ | waits
    · exact .inl ⟨e :: newer', e', tag, rfl, called⟩
    · exact .inr waits

/-- A registration that is answered by a call right away. -/
theorem CallsOrWaits.call {e' : Entry} {tag : String} (calls : CallsOrWaits older)
    (awaited : e.event = .awaited h id) (called : e'.event = .drained h id tag) :
    CallsOrWaits (e' :: e :: older) := by
  intro newer f rest k id' split awaited'
  rcases newer with _ | ⟨first, _ | ⟨second, newer⟩⟩
  · obtain ⟨rfl, -⟩ := List.cons.inj split
    rw [called] at awaited'
    cases awaited'
  · obtain ⟨rfl, same⟩ := List.cons.inj split
    obtain ⟨rfl, -⟩ := List.cons.inj same
    obtain ⟨rfl, rfl⟩ := Event.awaited.inj (awaited.symm.trans awaited')
    exact .inl ⟨[], e', tag, rfl, called⟩
  · obtain ⟨rfl, same⟩ := List.cons.inj split
    obtain ⟨rfl, before⟩ := List.cons.inj same
    rcases calls newer f rest k id' before awaited' with ⟨newer', e'', tag, rfl, called⟩ | waits
    · exact .inl ⟨e' :: e :: newer', e'', tag, rfl, called⟩
    · exact .inr waits

/-! ## What holds at every moment -/

/-- Drain callbacks are numbered as they are registered, the one that waits on a handle is the
    one that was registered there last and was not called, and whenever one is called it is to
    be called. -/
structure KeepsDrainOrder (w : World) : Prop where
  marks : HalvesMarks w.handles
  noted : ∀ e ∈ w.history, HalvesMarks e.handles
  fresh : ∀ p ∈ awaitsIn w.history, p.2 < w.nextDrain
  unique : ((awaitsIn w.history).map Prod.snd).Nodup
  known : ∀ p ∈ drainsIn w.history, p ∈ awaitsIn w.history
  waiting : ∀ h wait, w.drain? h = some wait → (awaitsIn w.history).lookup h = some wait.id ∧
    ∀ k, (k, wait.id) ∉ drainsIn w.history
  calls : CallsWhenDue w.history

theorem keepsDrainOrder_start (workers : Nat) (files : FileTree) :
    KeepsDrainOrder (.start workers files) where
  marks _ listed := absurd listed List.not_mem_nil
  noted _ listed := absurd listed List.not_mem_nil
  fresh _ listed := absurd listed List.not_mem_nil
  unique := .nil
  known _ listed := absurd listed List.not_mem_nil
  waiting _ _ waiting := by cases waiting
  calls newer e older _ _ _ split := by cases newer <;> cases split

theorem KeepsDrainOrder.spares (order : KeepsDrainOrder w) (spares : SparesDrains w after) :
    KeepsDrainOrder after := by
  obtain ⟨new, added, noted⟩ := spares.notes
  have silent : ∀ e ∈ new, e.event.SparesDrains := fun e listed => (noted e listed).1
  have awaits : awaitsIn after.history = awaitsIn w.history := by
    rw [added, awaitsIn_append_of_spares silent]
  have drains : drainsIn after.history = drainsIn w.history := by
    rw [added, drainsIn_append_of_spares silent]
  refine ⟨spares.marks order.marks, fun e listed => ?_, ?_, ?_, ?_, fun h wait waiting => ?_, ?_⟩
  · rw [added] at listed
    rcases List.mem_append.mp listed with now | before
    · exact (noted e now).2 order.marks
    · exact order.noted e before
  · rw [awaits, spares.number]
    exact order.fresh
  · rw [awaits]
    exact order.unique
  · rw [awaits, drains]
    exact order.known
  · rw [awaits, drains]
    exact order.waiting h wait (spares.waits h wait waiting)
  · rw [added]
    exact order.calls.append fun e listed => (silent e listed).2

theorem CallsOrWaits.spares (answers : CallsOrWaits w.history) (spares : SparesDrains w after) :
    CallsOrWaits after.history := by
  obtain ⟨new, added, noted⟩ := spares.notes
  rw [added]
  exact answers.append fun e listed => (noted e listed).1.1

/-! ## A registration -/

namespace World

/-- What a registration leaves behind. -/
theorem exists_onDrain {handler : Callback Command} (ok : w.onDrain h handler = .ok after) :
    w.OnOwner h ∧
    after.handles = (w.modifyWriter h
      (·.awaiting ⟨w.nextDrain, w.handler handler⟩)).handles ∧
    after.context = w.context ∧ after.nextDrain = w.nextDrain + 1 ∧
    after.history = ⟨w.context, .awaited h w.nextDrain, after.handles⟩ :: w.history := by
  obtain ⟨s, checked, rfl⟩ := except_map_eq_ok.mp ok
  exact ⟨onOwner_of_check (check_of_checkStream checked), rfl, rfl, rfl, rfl⟩

/-- What waits on a handle whose write stream was changed. -/
theorem drain?_modifyWriter {f : Writer → Writer} : (w.modifyWriter h f).drain? k =
    if h = k then (w.writer? k).bind fun v => (f v).drain else w.drain? k := by
  rw [drain?, modifyWriter, modifyHandle]
  split
  next same =>
    subst same
    rw [List.getElem?_modify_eq, World.writer?]
    rcases w.handles[h]? with _ | s
    · rfl
    · simp only [Option.map_eq_map, Option.map_some, Option.bind_some, Handle.drain?]
      rcases s.writer with _ | v <;> rfl
  next other => rw [List.getElem?_modify_ne _ _ other, drain?]

end World

theorem HalvesMarks.modifyWriter {f : Writer → Writer} (halves : HalvesMarks w.handles)
    (marks : ∀ v, v.lowwater = v.highwater / 2 → (f v).lowwater = (f v).highwater / 2) :
    HalvesMarks (w.modifyWriter h f).handles := by
  refine Books.forall_modify halves fun s _ halved v made => ?_
  obtain ⟨before, known, rfl⟩ := Option.map_eq_some_iff.mp made
  exact marks before (halved before known)

/-- A callback that is registered gets a number that no other has, and waits in the place of the
    one that waited on the handle before. -/
theorem KeepsDrainOrder.register {handler : Callback Command} (order : KeepsDrainOrder w)
    (ok : w.onDrain h handler = .ok after) : KeepsDrainOrder after := by
  obtain ⟨-, handles, -, number, added⟩ := World.exists_onDrain ok
  have marks : HalvesMarks after.handles := by
    rw [handles]
    exact order.marks.modifyWriter fun _ half => half
  have awaits : awaitsIn after.history = (h, w.nextDrain) :: awaitsIn w.history := by
    rw [added]
    rfl
  have drains : drainsIn after.history = drainsIn w.history := by
    rw [added]
    rfl
  have new : ∀ p ∈ awaitsIn w.history, p.2 ≠ w.nextDrain := fun p listed =>
    Nat.ne_of_lt (order.fresh p listed)
  refine ⟨marks, fun e listed => ?_, fun p listed => ?_, ?_, fun p listed => ?_,
    fun k wait waiting => ?_, ?_⟩
  · rw [added] at listed
    rcases List.mem_cons.mp listed with rfl | before
    · exact marks
    · exact order.noted e before
  · rw [awaits] at listed
    rw [number]
    rcases List.mem_cons.mp listed with rfl | before
    · exact Nat.lt_succ_self _
    · exact Nat.lt_succ_of_lt (order.fresh p before)
  · rw [awaits, List.map_cons, List.nodup_cons]
    refine ⟨fun listed => ?_, order.unique⟩
    obtain ⟨p, before, same⟩ := List.mem_map.mp listed
    exact new p before same
  · rw [drains] at listed
    rw [awaits]
    exact List.mem_cons_of_mem _ (order.known p listed)
  · -- on other handles whatever waited waits still
    rw [World.drain?, handles] at waiting
    have found := World.drain?_modifyWriter.symm.trans waiting
    rw [awaits, drains]
    split at found
    next same =>
      -- this is the one that was registered just now
      subst same
      obtain ⟨v, -, now⟩ := Option.bind_eq_some_iff.mp found
      obtain rfl := Option.some.inj now
      exact ⟨List.lookup_cons_self, fun k listed => new _ (order.known _ listed) rfl⟩
    next other =>
      obtain ⟨latest, uncalled⟩ := order.waiting k wait found
      refine ⟨?_, uncalled⟩
      rw [List.lookup_cons, beq_false_of_ne fun same => other same.symm]
      exact latest
  · rw [added]
    exact order.calls.cons fun _ _ _ drained => by cases drained

/-! ## A call -/

theorem exists_of_hasDrained (drained : w.hasDrained h = true) :
    ∃ s v, w.handles[h]? = some s ∧ s.writer = some v ∧ s.outstanding ≤ v.lowwater := by
  unfold World.hasDrained at drained
  split at drained
  · cases drained
  next s known =>
    obtain ⟨v, made, low⟩ := (Option.any_eq_true _ _).mp drained
    exact ⟨s, v, known, made, of_decide_eq_true low⟩

theorem mem_of_lookup {l : List (HandleId × Nat)} (found : l.lookup h = some id) : (h, id) ∈ l := by
  obtain ⟨before, behind, rfl, -⟩ := List.lookup_eq_some_iff.mp found
  exact List.mem_append_right _ List.mem_cons_self

/-- What a call of the callback that waits on a handle is noted as. -/
theorem callsDue_clearDrain (order : KeepsDrainOrder w) (standing : w.books.Standing)
    (here : w.OnOwner h) (waiting : w.drain? h = some wait) (drained : w.hasDrained h = true)
    (event : Event) : Entry.CallsDue ⟨w.context, event, (w.clearDrain h).handles⟩ w.history h
      wait.id := by
  obtain ⟨latest, uncalled⟩ := order.waiting h wait waiting
  obtain ⟨s, v, known, made, low⟩ := exists_of_hasDrained drained
  obtain ⟨s', known', owner⟩ := here
  obtain rfl := Option.some.inj (known.symm.trans known')
  obtain ⟨loose, accounted⟩ := standing.accounted
  have bytes := (standing.counted .bytes).of_eq_undelivered accounted (World.books_handles known)
  refine ⟨latest, uncalled, { s with writer := s.writer.map ({ · with drain := none }) },
    { v with drain := none }, ?_, ?_, owner, low, bytes⟩
  · rw [World.clearDrain, World.modifyWriter, World.modifyHandle, List.getElem?_modify_eq, known]
    rfl
  · rw [made]
    rfl

/-- The callback that waits on a handle is called, and waits no more. -/
theorem KeepsDrainOrder.call (order : KeepsDrainOrder w) (standing : w.books.Standing)
    (here : w.OnOwner h) (waiting : w.drain? h = some wait) (drained : w.hasDrained h = true)
    (tag : String) : KeepsDrainOrder ((w.clearDrain h).record (.drained h wait.id tag)) := by
  have marks : HalvesMarks (w.clearDrain h).handles :=
    order.marks.modifyWriter fun _ half => half
  have registered : (h, wait.id) ∈ awaitsIn w.history :=
    mem_of_lookup (order.waiting h wait waiting).1
  refine ⟨marks, fun e listed => ?_, order.fresh, order.unique, fun p listed => ?_,
    fun k wait' waiting' => ?_, order.calls.cons fun k id tag' same => ?_⟩
  · rcases List.mem_cons.mp listed with rfl | before
    · exact marks
    · exact order.noted e before
  · rcases List.mem_cons.mp listed with rfl | before
    · exact registered
    · exact order.known p before
  · have found : (w.clearDrain h).drain? k = some wait' := waiting'
    rw [World.clearDrain, World.drain?_modifyWriter] at found
    split at found
    · obtain ⟨v, -, none⟩ := Option.bind_eq_some_iff.mp found
      cases none
    next other =>
      obtain ⟨latest, uncalled⟩ := order.waiting k wait' found
      refine ⟨latest, fun j listed => ?_⟩
      rcases List.mem_cons.mp listed with now | before
      · -- no two callbacks have the same number, so this one would wait on the same handle
        have same : (h, wait.id) = (k, wait'.id) := List.inj_on_of_nodup_map order.unique registered
          (mem_of_lookup latest) (congrArg Prod.snd now).symm
        exact other (congrArg Prod.fst same)
      · exact uncalled j before
  · obtain ⟨rfl, rfl, -⟩ := Event.drained.inj same
    exact callsDue_clearDrain order standing here waiting drained _

/-! ## Moves and deeds -/

/-- If the queue has drained by a registration, it is the callback registered that waits. -/
theorem drain?_onDrain {handler : Callback Command} (ok : w.onDrain h handler = .ok after)
    (drained : after.hasDrained h = true) :
    after.drain? h = some ⟨w.nextDrain, w.handler handler⟩ := by
  obtain ⟨-, handles, -⟩ := World.exists_onDrain ok
  obtain ⟨s, v, known, made, -⟩ := exists_of_hasDrained drained
  have found := known
  rw [handles, World.modifyWriter, World.modifyHandle, List.getElem?_modify_eq] at found
  obtain ⟨before, -, rfl⟩ := Option.map_eq_some_iff.mp found
  obtain ⟨stream, -, rfl⟩ := Option.map_eq_some_iff.mp made
  rw [World.drain?, known, Option.bind_some, Handle.drain?, made]
  rfl

/-- A registration that finds the queue not drained. -/
theorem waits_of_onDrain {handler : Callback Command} (ok : w.onDrain h handler = .ok after)
    (waits : after.hasDrained h = false) :
    ∃ s, after.handles[h]? = some s ∧ ∀ v, s.writer = some v → v.lowwater < s.outstanding := by
  obtain ⟨⟨s, known, -⟩, handles, -⟩ := World.exists_onDrain ok
  have found := congrArg (·[h]?) handles
  rw [World.modifyWriter, World.modifyHandle, List.getElem?_modify_eq, known] at found
  refine ⟨_, found, fun v made => ?_⟩
  unfold World.hasDrained at waits
  rw [found] at waits
  dsimp only [Option.map_eq_map, Option.map_some] at waits made
  rw [made, Option.any_some, decide_eq_false_iff_not] at waits
  exact Nat.lt_of_not_le waits

theorem KeepsDrainOrder.move (order : KeepsDrainOrder w) (answers : CallsOrWaits w.history)
    (standing : w.books.Standing) (move : Move w after) :
    KeepsDrainOrder after ∧ CallsOrWaits after.history := by
  rcases move.sparesDrains_or with spares | ⟨h, handler, ok, waits⟩ |
    ⟨h, handler, middle, ok, drained, rfl⟩ | ⟨h, wait, here, waiting, drained, rfl⟩
  · exact ⟨order.spares spares, answers.spares spares⟩
  · obtain ⟨-, -, -, -, added⟩ := World.exists_onDrain ok
    refine ⟨order.register ok, ?_⟩
    rw [added]
    exact answers.await rfl (waits_of_onDrain ok waits)
  · -- registered and called in one move: the call is that of a callback that waits
    obtain ⟨-, -, -, -, added⟩ := World.exists_onDrain ok
    have here : middle.OnOwner h := by
      rw [← World.isHome_books_iff, World.books_onDrain ok, World.isHome_books_iff]
      exact (World.exists_onDrain ok).1
    have standing' : middle.books.Standing := by rwa [World.books_onDrain ok]
    refine ⟨(order.register ok).call standing' here (drain?_onDrain ok drained) drained _, ?_⟩
    show CallsOrWaits (_ :: middle.history)
    rw [added]
    exact answers.call rfl rfl
  · refine ⟨order.call standing here waiting drained _, ?_⟩
    show CallsOrWaits ([_] ++ w.history)
    refine answers.append fun e listed => ?_
    rw [List.mem_singleton.mp listed]
    rfl

/-- At every moment of every run the drain callbacks are in order. -/
theorem Reachable.keepsDrainOrder (reached : Reachable mode w) :
    KeepsDrainOrder w ∧ CallsOrWaits w.history := by
  have spared {v v' : World} (spares : SparesDrains v v')
      (kept : KeepsDrainOrder v ∧ CallsOrWaits v.history) :
      KeepsDrainOrder v' ∧ CallsOrWaits v'.history :=
    ⟨kept.1.spares spares, kept.2.spares spares⟩
  refine Reachable.deeds_induct (P := fun w => KeepsDrainOrder w ∧ CallsOrWaits w.history)
    ?_ ?_ ?_ ?_ ?_ ?_ ?_ reached
  · intro workers files
    refine ⟨keepsDrainOrder_start workers files, fun newer e older _ _ split => ?_⟩
    cases newer <;> cases split
  · intro v v' standing kept deed
    rcases deed.sparesDrains_or_move with spares | move
    · exact spared spares kept
    · exact kept.1.move kept.2 standing move
  · intro v task rest _ _
    exact spared (sparesDrains_of_same rfl rfl rfl)
  · intro v job outcome rest _ _
    exact spared sparesDrains_completing
  · intro v v' takes _
    exact spared (sparesDrains_takeJob takes)
  · intro v job call a files backends _ _ _
    exact spared sparesDrains_answer
  · intro v job outcome _ _ _
    exact spared sparesDrains_finish

/-! ## Once, and never after it was replaced -/

/-- No callback is called twice. -/
theorem CallsWhenDue.nodup (calls : CallsWhenDue older) :
    ((drainsIn older).map Prod.snd).Nodup := by
  induction older with
  | nil => exact .nil
  | cons e older ih =>
    have before : CallsWhenDue older := fun newer f rest h id tag split =>
      calls (e :: newer) f rest h id tag (by rw [split]; rfl)
    rcases call : e.event.drained? with _ | ⟨h, id⟩
    · have same : drainsIn (e :: older) = drainsIn older := List.filterMap_cons_none call
      rw [same]
      exact ih before
    · have same : drainsIn (e :: older) = (h, id) :: drainsIn older :=
        List.filterMap_cons_some call
      rw [same, List.map_cons, List.nodup_cons]
      refine ⟨fun listed => ?_, ih before⟩
      obtain ⟨tag, drained⟩ : ∃ tag, e.event = .drained h id tag := by
        revert call
        cases e.event <;> simp [Event.drained?]
      obtain ⟨⟨k, id'⟩, there, rfl⟩ := List.mem_map.mp listed
      exact (calls [] e older h _ tag rfl drained).first k there

theorem awaitsIn_append {newer : List Entry} :
    awaitsIn (newer ++ older) = awaitsIn newer ++ awaitsIn older := List.filterMap_append

theorem awaitsIn_cons (awaited : e.event = .awaited h id) :
    awaitsIn (e :: older) = (h, id) :: awaitsIn older :=
  List.filterMap_cons_some (by rw [awaited]; rfl)

/-- Numbers are used once. -/
theorem KeepsDrainOrder.registered_once {newer : List Entry} (order : KeepsDrainOrder w)
    (split : w.history = newer ++ older) (listed : (h, id) ∈ awaitsIn older) :
    (k, id) ∉ awaitsIn newer := by
  have unique := order.unique
  rw [split, awaitsIn_append, List.map_append, List.nodup_append] at unique
  exact fun again => unique.2.2 _ (List.mem_map_of_mem again) _ (List.mem_map_of_mem listed) rfl

/-- A callback in whose place another was registered before it was called is never called. -/
theorem KeepsDrainOrder.not_called_of_replaced {newer middle : List Entry} {e' : Entry}
    {id' : Nat} {tag : String} (order : KeepsDrainOrder w)
    (split : w.history = newer ++ e :: (middle ++ e' :: older)) (again : e.event = .awaited h id)
    (first : e'.event = .awaited h id') (uncalled : ∀ tag, ¬ Tells middle (.drained h id' tag)) :
    ¬ Tells w.history (.drained k id' tag) := by
  rintro ⟨d, listed, drained⟩
  obtain ⟨later, earlier, there⟩ := List.append_of_mem listed
  have latest := (order.calls later d earlier k id' tag there drained).latest
  have registered : (h, id') ∈ awaitsIn (middle ++ e' :: older) := by
    rw [awaitsIn_append, awaitsIn_cons first]
    exact List.mem_append_right _ List.mem_cons_self
  -- the one called was registered on the same handle, for numbers are used once
  obtain rfl : h = k := by
    have one : (h, id') ∈ awaitsIn w.history := by
      rw [split, awaitsIn_append, awaitsIn_cons again]
      exact List.mem_append_right _ (List.mem_cons_of_mem _ registered)
    have other : (k, id') ∈ awaitsIn w.history := by
      rw [there, List.append_cons, awaitsIn_append]
      exact List.mem_append_right _ (mem_of_lookup latest)
    exact congrArg Prod.fst (List.inj_on_of_nodup_map order.unique one other rfl)
  rcases append_eq_split (split.symm.trans there) with ⟨_ | ⟨_, one⟩, -, behind⟩ | ⟨one, rfl, rfl⟩
  · obtain ⟨rfl, -⟩ := List.cons.inj behind
    rw [again] at drained
    cases drained
  · rcases append_eq_split (List.cons.inj behind).2 with
      ⟨_ | ⟨_, two⟩, -, behind'⟩ | ⟨two, rfl, -⟩
    · obtain ⟨rfl, -⟩ := List.cons.inj behind'
      rw [first] at drained
      cases drained
    · -- it would be called before it was registered
      obtain ⟨f, before, registers⟩ := mem_awaitsIn.mp (mem_of_lookup latest)
      have before' : f ∈ older := by
        rw [(List.cons.inj behind').2]
        exact List.mem_append_right _ (List.mem_cons_of_mem _ before)
      have parts : w.history = (newer ++ e :: middle ++ [e']) ++ older := by
        rw [split]
        simp
      exact order.registered_once (k := h) parts (mem_awaitsIn.mpr ⟨f, before', registers⟩)
        (mem_awaitsIn.mpr ⟨e', by simp, first⟩)
    · exact uncalled tag ⟨d, List.mem_append_right _ List.mem_cons_self, drained⟩
  · -- it would be called while another is the latest
    have parts : w.history = (later ++ d :: one ++ [e]) ++ (middle ++ e' :: older) := by
      rw [split]
      simp
    have never := order.registered_once (k := h) parts registered
    rw [awaitsIn_append, awaitsIn_cons again, List.lookup_append] at latest
    rcases found : (awaitsIn one).lookup h with _ | last
    · rw [found, Option.none_or, List.lookup_cons_self] at latest
      obtain rfl := Option.some.inj latest
      exact never (mem_awaitsIn.mpr ⟨e, by simp, again⟩)
    · rw [found, Option.some_or] at latest
      obtain rfl := Option.some.inj latest
      obtain ⟨f, between, registers⟩ := mem_awaitsIn.mp (mem_of_lookup found)
      exact never (mem_awaitsIn.mpr ⟨f, by simp [between], registers⟩)

/-! ## The discipline of drain callbacks -/

/-- In a world with the handles and the context of a call, a client that asks is told that the
    queue is not full. -/
theorem queueFull_of_drained {now : World} {s : Handle} {v : Writer}
    (known : now.handles[h]? = some s) (made : s.writer = some v)
    (here : now.context = some s.owner) (live : now.isLive h = true) (opened : s.closed = false)
    (low : s.outstanding ≤ v.lowwater) (half : v.lowwater = v.highwater / 2)
    (room : 0 < v.highwater) : now.queueFull h = .ok false := by
  have checked : now.checkStream h = .ok s := by
    rw [World.checkStream, if_pos live]
    exact World.check_eq_ok_iff.mpr ⟨known, here, opened⟩
  have below : s.outstanding < v.highwater := by omega
  rw [World.queueFull, checked]
  dsimp only [Except.map]
  rw [made, Option.any_some, decide_eq_false (Nat.not_le.mpr below)]

/-- In every run, whatever is written, registered and set, and in whatever order operations
    end: the lower mark of a write stream is half of the upper one, between tasks and whenever
    anything happens.  No drain callback is called twice, and one in whose place another was
    registered is never called.  When one is called, it is the one that was registered last on
    its handle; what is outstanding, which is just what is not delivered by then, is no more
    than the lower mark, and if the handle is open and there is room in the queue at all, the
    queue is not full.  And a registration that does not call its callback right away finds
    more outstanding than the lower mark. -/
theorem drain_callbacks_are_called_in_order (reached : Reachable mode w) :
    (HalvesMarks w.handles ∧ ∀ e ∈ w.history, HalvesMarks e.handles) ∧
    (((awaitsIn w.history).map Prod.snd).Nodup ∧ ((drainsIn w.history).map Prod.snd).Nodup) ∧
    (∀ newer e middle e' older h id id', w.history = newer ++ e :: (middle ++ e' :: older) →
      e.event = .awaited h id → e'.event = .awaited h id' →
      (∀ tag, ¬ Tells middle (.drained h id' tag)) →
      ∀ k tag, ¬ Tells w.history (.drained k id' tag)) ∧
    (∀ newer e older h id tag, w.history = newer ++ e :: older → e.event = .drained h id tag →
      (awaitsIn older).lookup h = some id ∧
      ∃ s v, e.handles[h]? = some s ∧ s.writer = some v ∧ s.outstanding ≤ v.lowwater ∧
        s.outstanding = ((undeliveredIn older h).map fun a => a.completion.outstanding).sum ∧
        (s.closed = false → 0 < v.highwater → ∀ now : World, now.handles = e.handles →
          now.context = e.context → now.isLive h = true → now.queueFull h = .ok false)) ∧
    ∀ newer e older h id, w.history = newer ++ e :: older → e.event = .awaited h id →
      (∃ newer' e' tag, newer = newer' ++ [e'] ∧ e'.event = .drained h id tag) ∨
      ∃ s, e.handles[h]? = some s ∧ ∀ v, s.writer = some v → v.lowwater < s.outstanding := by
  obtain ⟨order, answers⟩ := reached.keepsDrainOrder
  refine ⟨⟨order.marks, order.noted⟩, ⟨order.unique, order.calls.nodup⟩, ?_, ?_, answers⟩
  · intro newer e middle e' older h id id' split again first uncalled k tag
    exact order.not_called_of_replaced split again first uncalled
  · intro newer e older h id tag split drained
    have due := order.calls newer e older h id tag split drained
    obtain ⟨s, v, known, made, here, low, counted⟩ := due.drained
    refine ⟨due.latest, s, v, known, made, low, counted, ?_⟩
    intro opened room now handles context live
    have half := order.noted e (by rw [split]; simp) s (List.mem_of_getElem? known) v made
    rw [← handles] at known
    exact queueFull_of_drained known made (context.trans here) live opened low half room

/-- The answers that clients got when they asked whether a queue is full, the latest first. -/
def fullAnswers (history : List Entry) : List Bool :=
  history.filterMap fun e =>
    match e.event with
    | .ran (.queueFull _) (.flag full) => some full
    | _ => none

/-- A run in which a drain callback is registered in the place of another while five bytes are
    outstanding.  The first write fails, and the callback that is called then asks whether the
    queue is full, and registers one more. -/
def replacedRun : Option World :=
  (World.start 1 ⟨[], []⟩).follow
    [.body 0 [
      .openFile 0 { write := true } .log (.memory (.bytes []) none {}),
      .writeStream 0,
      .setQueueMax 0 4,
      .send 0 (.bytes [1, 2, 3]),
      .send 0 (.bytes [4, 5]),
      .onDrain 0 ⟨"old", [], []⟩,
      .onDrain 0 ⟨"new", [.queueFull 0, .onDrain 0 ⟨"again", [], []⟩], []⟩],
    .take, .answer 0 (.failed (.bare .storageFull)), .finish 0, .task]

theorem drain_callback_is_called_after_failed_write : ∃ w newer e older tag s v,
    replacedRun = some w ∧ awaitsIn w.history = [(0, 2), (0, 1), (0, 0)] ∧
    drainsIn w.history = [(0, 2), (0, 1)] ∧ fullAnswers w.history = [false] ∧
    w.history = newer ++ e :: older ∧ e.event = .drained 0 1 tag ∧
    (awaitsIn older).lookup 0 = some 1 ∧ e.handles[0]? = some s ∧ s.writer = some v ∧
    s.outstanding ≤ v.lowwater := by
  have stands : (replacedRun.map fun w =>
      (awaitsIn w.history, drainsIn w.history, fullAnswers w.history)) =
      some ([(0, 2), (0, 1), (0, 0)], [(0, 2), (0, 1)], [false]) := by decide +kernel
  obtain ⟨w, run, same⟩ := Option.map_eq_some_iff.mp stands
  simp only [Prod.mk.injEq] at same
  obtain ⟨awaits, drains, answers⟩ := same
  have reached : Reachable .calm w := World.reachable_of_follow run
  have called : (0, 1) ∈ drainsIn w.history := by
    rw [drains]
    exact List.mem_cons_of_mem _ List.mem_cons_self
  obtain ⟨tag, e, listed, drained⟩ := mem_drainsIn.mp called
  obtain ⟨newer, older, split⟩ := List.append_of_mem listed
  obtain ⟨-, -, -, due, -⟩ := drain_callbacks_are_called_in_order reached
  obtain ⟨latest, s, v, known, made, low, -⟩ := due newer e older 0 1 tag split drained
  exact ⟨w, newer, e, older, tag, s, v, run, awaits, drains, answers, split, drained, latest,
    known, made, low⟩

end PinnedFile
