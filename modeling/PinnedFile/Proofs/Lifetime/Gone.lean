/-
  PinnedFile.Proofs.Lifetime.Gone

  A handle that is gone stays gone.

  A reference to a handle is made from another one: out of a slot, or by a stream as long as
  something refers to its handle.  So whatever is done, no reference is made to a handle that
  nothing refers to, and nothing is done to it or on its behalf any more.  This is said of each
  change that does not make a reference from nothing, and hence of all code, which makes no
  other changes.
-/

import PinnedFile.Proofs.Histories
import PinnedFile.Proofs.Lifetime.References

namespace PinnedFile

open Run

variable {w middle after : World} {h k : HandleId} {s : Handle}

/-- Nothing refers to a handle, and it has no registrations. -/
structure World.IsGone (w : World) (h : HandleId) (s : Handle) : Prop where
  known : w.handles[h]? = some s
  dead : w.isLive h = false
  bare : s.isBare = true

theorem World.IsGone.not_refers (gone : w.IsGone h s) : ¬ w.Refers h :=
  World.isLive_eq_false_iff.mp gone.dead

/-- If a handle is gone, it stays so and stays as it is, and nothing is noted on its behalf. -/
def Spares (h : HandleId) (w after : World) : Prop :=
  ∀ s, w.IsGone h s → after.IsGone h s ∧ Notes (·.event.caller? ≠ some h) w after

theorem spares_refl : Spares h w w := fun _ gone => ⟨gone, notes_refl⟩

theorem Spares.trans (first : Spares h w middle) (second : Spares h middle after) :
    Spares h w after := by
  intro s gone
  obtain ⟨still, notes⟩ := first s gone
  obtain ⟨stays, notes'⟩ := second s still
  exact ⟨stays, notes.trans notes'⟩

instance : IsPreorder World (Spares h) where
  refl _ := spares_refl
  trans _ _ _ first second := Spares.trans first second

/-- It is enough to look at worlds in which nothing refers to the handle. -/
theorem spares_of_dead (spares : ¬ w.Refers h → Spares h w after) : Spares h w after :=
  fun s gone => spares gone.not_refers s gone

theorem leads_of_dead {α : Type} {code : Run α}
    (leads : ¬ w.Refers h → Leads (Spares h) code w) : Leads (Spares h) code w :=
  spares_of_dead leads

/-! ## Changes -/

theorem spares_intro
    (same : ∀ s, w.handles[h]? = some s → s.isBare = true → after.handles[h]? = some s)
    (refers : after.Refers h → w.Refers h)
    (notes : Notes (·.event.caller? ≠ some h) w after) : Spares h w after := by
  intro s gone
  refine ⟨⟨same s gone.known gone.bare, ?_, gone.bare⟩, notes⟩
  exact World.isLive_eq_false_iff.mpr fun still => gone.not_refers (refers still)

/-- No handle is changed, and what refers to one was referred to before. -/
theorem spares_of_places (handles : after.handles = w.handles)
    (history : after.history = w.history)
    (each : ∀ place, h ∈ after.heldAt place → h ∈ w.heldAt place ∨ w.Refers h) :
    Spares h w after :=
  spares_intro (fun s known _ => by rwa [handles]) (fun refers => refers.of_each each)
    (notes_of_same history)

/-- A world that differs in nothing that bears on references. -/
theorem spares_of_same (handles : after.handles = w.handles) (history : after.history = w.history)
    (places : ∀ place, after.heldAt place = w.heldAt place) : Spares h w after :=
  spares_of_places handles history fun place here => .inl (places place ▸ here)

theorem spares_record {event : Event} (other : event.caller? ≠ some h) :
    Spares h w (w.record event) := by
  refine spares_intro (fun _ known _ => known) (fun refers => ?_) (notes_record other)
  exact refers.of_each fun place here => .inl (by cases place <;> exact here)

theorem Spares.record (spares : Spares h w middle) (event : Event)
    (other : event.caller? ≠ some h) : Spares h w (middle.record event) :=
  spares.trans (spares_record other)

theorem World.handles_modifyHandle_ne {f : Handle → Handle} (other : k ≠ h) :
    (w.modifyHandle k f).handles[h]? = w.handles[h]? := List.getElem?_modify_ne f _ other

theorem World.handles_modifyHandle_self {f : Handle → Handle} :
    (w.modifyHandle h f).handles[h]? = w.handles[h]?.map f := List.getElem?_modify_eq f h w.handles

/-- Another handle is changed, and what it holds now was referred to before. -/
theorem spares_modifyHandle {f : Handle → Handle} (other : k ≠ h)
    (kept : ∀ s, w.handles[k]? = some s → h ∈ (f s).holds → w.Refers h) :
    Spares h w (w.modifyHandle k f) := by
  refine spares_intro (fun s known _ => ?_) (fun refers => ?_) notes_refl
  · rw [World.handles_modifyHandle_ne other]
    exact known
  · refine refers.of_each fun place here => ?_
    cases place with
    | handles =>
      right
      obtain ⟨s, listed, holds⟩ := List.mem_flatMap.mp here
      obtain ⟨i, known⟩ := List.mem_iff_getElem?.mp listed
      -- what is held by the handle that is changed, and by the others
      by_cases same : k = i
      · subst same
        rw [World.handles_modifyHandle_self] at known
        obtain ⟨s', known', rfl⟩ := Option.map_eq_some_iff.mp known
        exact kept s' known' holds
      · rw [World.handles_modifyHandle_ne same] at known
        exact World.refers_of_handle known holds
    | _ => exact .inl here

/-- The streams of another handle are changed, and what their registrations hold now was referred
    to before. -/
theorem spares_modifyStreams {f : Handle → Handle} (other : k ≠ h)
    (waits : ∀ s, (f s).pendingClose = s.pendingClose)
    (kept : ∀ s kind, w.handles[k]? = some s → h ∈ (f s).streamHolds kind →
      h ∈ s.streamHolds kind ∨ w.Refers h) : Spares h w (w.modifyHandle k f) := by
  refine spares_modifyHandle other fun s known holds => ?_
  rcases Handle.mem_holds.mp holds with ⟨kind, registered⟩ | waiting
  · rcases kept s kind known registered with before | refers
    · exact World.refers_of_handle known (Handle.mem_holds.mpr (.inl ⟨kind, before⟩))
    · exact refers
  · rw [waits] at waiting
    exact World.refers_of_handle known (Handle.mem_holds.mpr (.inr waiting))

theorem spares_modifyReader {f : Reader → Reader} (other : k ≠ h)
    (kept : ∀ r, h ∈ (f r).holds → h ∈ r.holds ∨ w.Refers h) :
    Spares h w (w.modifyReader k f) := by
  refine spares_modifyStreams other (fun _ => rfl) fun s kind known holds => ?_
  cases kind with
  | read =>
    obtain ⟨_, made, holds⟩ := Handle.mem_streamHolds_read.mp holds
    obtain ⟨r, reader, rfl⟩ := Option.map_eq_some_iff.mp made
    exact (kept r holds).imp_left fun before =>
      Handle.mem_streamHolds_read.mpr ⟨r, reader, before⟩
  | write => exact .inl holds

theorem spares_modifyWriter {f : Writer → Writer} (other : k ≠ h)
    (kept : ∀ r, h ∈ (f r).holds → h ∈ r.holds ∨ w.Refers h) :
    Spares h w (w.modifyWriter k f) := by
  refine spares_modifyStreams other (fun _ => rfl) fun s kind known holds => ?_
  cases kind with
  | read => exact .inl holds
  | write =>
    obtain ⟨_, made, holds⟩ := Handle.mem_streamHolds_write.mp holds
    obtain ⟨r, writer, rfl⟩ := Option.map_eq_some_iff.mp made
    exact (kept r holds).imp_left fun before =>
      Handle.mem_streamHolds_write.mpr ⟨r, writer, before⟩

theorem spares_sweep : Spares h w w.sweep := by
  refine World.sweep_induct spares_refl fun v before => before.trans ?_
  refine spares_intro (fun s known bare => ?_) World.refers_of_sweepOnce (notes_of_same rfl)
  rw [World.handles_sweepOnce, known, Option.map_some, Handle.unregistered_of_isBare bare, ite_self]

/-- A handle that cannot be taken down leaves behind what its registrations hold. -/
theorem spares_strand {kind : StreamKind} : Spares h w (w.strand k kind) := by
  refine spares_intro (fun s known bare => ?_) (fun refers => ?_) notes_refl
  · have left : (w.strand k kind).handles = w.handles.modify k Handle.unregistered := rfl
    rw [left]
    by_cases same : k = h
    · subst same
      rw [List.getElem?_modify_eq, known]
      exact congrArg some (Handle.unregistered_of_isBare bare)
    · rwa [List.getElem?_modify_ne _ _ same]
  · refine refers.of_each fun place here => ?_
    cases place with
    | handles =>
      right
      obtain ⟨s, listed, holds⟩ := List.mem_flatMap.mp here
      obtain ⟨i, known⟩ := List.mem_iff_getElem?.mp listed
      rcases Books.getElem?_modify_cases known with ⟨rfl, s', before, rfl⟩ | ⟨-, same⟩
      · exact World.refers_of_handle before (Handle.holds_unregistered_subset holds)
      · exact World.refers_of_handle same holds
    | remnants =>
      obtain ⟨r, listed, holds⟩ := List.mem_flatMap.mp here
      rcases List.mem_append.mp listed with new | before
      · exact .inr (World.refers_of_remnantsOf new holds)
      · exact .inl (List.mem_flatMap.mpr ⟨r, before, holds⟩)
    | _ => exact .inl here

/-- Other handles are held by the running task. -/
theorem spares_hold {handles : List HandleId} (others : h ∉ handles) :
    Spares h w { w with held := handles } := by
  refine spares_of_places rfl rfl fun place here => ?_
  cases place with
  | held => exact absurd here others
  | _ => exact .inl here

theorem mem_replaceSlot {f : Slot} {entry : SlotEntry} {e : Slot × SlotEntry}
    {slots : List (Slot × SlotEntry)} (listed : e ∈ World.replaceSlot f entry slots) :
    e = (f, entry) ∨ e ∈ slots := by
  induction slots with
  | nil => exact .inl (List.mem_singleton.mp listed)
  | cons first rest ih =>
    rw [World.replaceSlot] at listed
    split at listed
    · rcases List.mem_cons.mp listed with new | before
      · exact .inl new
      · exact .inr before
    · split at listed
      · rcases List.mem_cons.mp listed with new | before
        · exact .inl new
        · exact .inr (List.mem_cons_of_mem _ before)
      · rcases List.mem_cons.mp listed with rfl | later
        · exact .inr List.mem_cons_self
        · exact (ih later).imp id (List.mem_cons_of_mem _)

theorem spares_setSlot {f : Slot} {entry : SlotEntry} (other : entry.handle ≠ some h) :
    Spares h w (w.setSlot f entry) := by
  have replaced : Spares h w { w with
      slots := World.replaceSlot f entry w.slots
      remnants := w.remnants.filter (·.isIn (World.replaceSlot f entry w.slots)) } := by
    refine spares_of_places rfl rfl fun place here => ?_
    cases place with
    | slots =>
      obtain ⟨e, listed, holds⟩ := List.mem_filterMap.mp here
      rcases mem_replaceSlot listed with rfl | before
      · exact absurd holds other
      · exact .inl (List.mem_filterMap.mpr ⟨e, before, holds⟩)
    | remnants =>
      obtain ⟨r, kept, holds⟩ := List.mem_flatMap.mp here
      exact .inl (List.mem_flatMap.mpr ⟨r, List.mem_of_mem_filter kept, holds⟩)
    | _ => exact .inl here
  exact replaced.trans spares_sweep

/-- A handle is put into a slot, beside the streams that are there. -/
theorem spares_setSlotHandle {f : Slot} {handle : Option HandleId} (other : handle ≠ some h) :
    Spares h w (w.setSlotHandle f handle) := spares_setSlot other

/-- A job that does not hold the handle is put behind those that wait. -/
theorem spares_submit {job : Job} (others : h ∉ job.holds) : Spares h w (w.submit job) := by
  unfold World.submit
  split
  next jobs queued =>
    have listed (other : Job) (there : other ∈ jobs.items) :
        other ∈ w.jobs.items ∨ other = job := by
      apply Queue.mem_push
      rw [queued]
      exact there
    have waits : Spares h w { w with jobs := jobs } := by
      refine spares_of_places rfl rfl fun place here => ?_
      cases place with
      | jobs =>
        obtain ⟨other, there, holds⟩ := List.mem_flatMap.mp here
        rcases listed other there with before | rfl
        · exact .inl (List.mem_flatMap.mpr ⟨other, before, holds⟩)
        · exact absurd holds others
      | _ => exact .inl here
    exact waits.record _ nofun
  · exact spares_refl

theorem spares_post {task : Task} (others : h ∉ World.taskHolds task) :
    Spares h w (w.post task) := by
  refine spares_of_places rfl rfl fun place here => ?_
  cases place with
  | tasks =>
    obtain ⟨other, there, holds⟩ := List.mem_flatMap.mp here
    rcases Queue.mem_push there with before | rfl
    · exact .inl (List.mem_flatMap.mpr ⟨other, before, holds⟩)
    · exact absurd holds others
  | _ => exact .inl here

theorem spares_shutDown (origin : Origin) : Spares h w (w.shutDown origin) := by
  have dropped : Spares h w { w with
      tasks := w.tasks.shutDown.2, jobs := w.jobs.shutDown.2
      leaked := (if origin = .loop then []
        else w.tasks.items.flatMap World.taskHolds ++ w.jobs.items.flatMap Job.holds)
          ++ w.leaked } := by
    refine spares_of_places rfl rfl fun place here => ?_
    cases place with
    | jobs | tasks => cases here
    | leaked =>
      rcases List.mem_append.mp here with left | before
      · right
        split at left
        · cases left
        · rcases List.mem_append.mp left with tasks | jobs
          · exact ⟨.tasks, tasks⟩
          · exact ⟨.jobs, jobs⟩
      · exact .inl before
    | _ => exact .inl here
  exact (dropped.record .shutDown nofun).trans spares_sweep

/-- A new handle is another one. -/
theorem spares_addHandle {f : Slot} {owner : ContextId} {options : OpenOptions} {sink : Sink}
    {path : Bytes} {backend : BackendId} {native : Option BackendId} :
    Spares h w (w.addHandle f owner options sink path backend native) := by
  -- the handle is known, so the number of the new one is another
  intro s gone
  have there : h < w.handles.length := (List.getElem?_eq_some_iff.mp gone.known).1
  revert s
  unfold World.addHandle
  refine (show Spares h w { w with handles := w.handles ++ [_] } from ?_).trans (spares_setSlot ?_)
  · refine spares_intro (fun s known _ => ?_) (fun refers => ?_) notes_refl
    · rw [List.getElem?_append_left there]
      exact known
    · refine refers.of_each fun place here => ?_
      cases place with
      | handles =>
        obtain ⟨s, listed, holds⟩ := List.mem_flatMap.mp here
        rcases List.mem_append.mp listed with before | new
        · exact .inl (List.mem_flatMap.mpr ⟨s, before, holds⟩)
        · -- a new handle holds nothing
          rw [List.mem_singleton.mp new] at holds
          cases holds
      | _ => exact .inl here
  · exact fun same => Nat.ne_of_gt there (Option.some.inj same)

/-! ## Requests -/

theorem ne_of_refers (dead : ¬ w.Refers h) (refers : w.Refers k) : k ≠ h :=
  fun same => dead (same ▸ refers)

theorem World.refers_of_checkStream (passed : w.checkStream k = .ok s) : w.Refers k := by
  unfold World.checkStream at passed
  split at passed
  next live => exact World.isLive_iff.mp live
  · cases passed

theorem ne_of_checkStream (dead : ¬ w.Refers h) (passed : w.checkStream k = .ok s) : k ≠ h :=
  ne_of_refers dead (World.refers_of_checkStream passed)

/-- An operation on another handle is accepted. -/
theorem spares_accept {t : Transfer} {c : Completion} (other : k ≠ h) :
    Spares h w (w.accept k t c).2 := by
  have counted : Spares h w (w.modifyHandle k (·.taking c)) :=
    spares_modifyHandle other fun s known holds => World.refers_of_handle known holds
  refine (counted.record (.accepted ⟨w.nextOperation, k, t, c⟩)
    fun same => other (Option.some.inj same)).trans ?_
  exact spares_of_same rfl rfl fun place => by cases place <;> rfl

/-- An operation on another handle is accepted and queued, and its handler holds other
    handles. -/
theorem spares_enqueue {t : Transfer} {c : Completion} (other : k ≠ h) (others : h ∉ c.holds) :
    Spares h w (w.enqueue k t c) := by
  refine (spares_accept other).trans (spares_submit fun listed => ?_)
  rcases List.mem_cons.mp listed with same | holds
  · exact other same.symm
  · exact others holds

/-- What a request on a stream is made of: the stream is changed if something refers to its
    handle, and holds no more than what was referred to before. -/
theorem spares_readerRequest {f : Reader → Reader}
    (ok : ((w.checkStream k).map fun _ => w.modifyReader k f) = .ok after)
    (kept : ∀ r, h ∈ (f r).holds → h ∈ r.holds ∨ w.Refers h) : Spares h w after := by
  obtain ⟨s, passed, rfl⟩ := except_map_eq_ok.mp ok
  apply spares_of_dead
  intro dead
  exact spares_modifyReader (ne_of_checkStream dead passed) kept

theorem spares_writerRequest {f : Writer → Writer}
    (ok : ((w.checkStream k).map fun _ => w.modifyWriter k f) = .ok after)
    (kept : ∀ r, h ∈ (f r).holds → h ∈ r.holds ∨ w.Refers h) : Spares h w after := by
  obtain ⟨s, passed, rfl⟩ := except_map_eq_ok.mp ok
  apply spares_of_dead
  intro dead
  exact spares_modifyWriter (ne_of_checkStream dead passed) kept

theorem mem_holds_reader {r : Reader} : h ∈ r.holds ↔ h ∈ registrationHolds r.data ∨
    h ∈ registrationHolds r.failure ∨ h ∈ registrationHolds r.ending := by
  rw [Reader.holds, List.mem_append, List.mem_append, or_assoc]

/-- A registration holds what is in slots. -/
theorem refers_of_registration {l : Listener Command}
    (holds : h ∈ registrationHolds (some (w.registration l))) : w.Refers h :=
  World.refers_of_handlesIn holds

theorem spares_onData {listener : Listener Command} (ok : w.onData k listener = .ok after) :
    Spares h w after := by
  refine spares_readerRequest ok fun r holds => ?_
  rcases mem_holds_reader.mp holds with new | failure | ending
  · exact .inr (refers_of_registration new)
  · exact .inl (mem_holds_reader.mpr (.inr (.inl failure)))
  · exact .inl (mem_holds_reader.mpr (.inr (.inr ending)))

theorem spares_clearData (ok : w.clearData k = .ok after) : Spares h w after := by
  refine spares_readerRequest ok fun r holds => .inl ?_
  rcases mem_holds_reader.mp holds with none | others
  · cases none
  · exact mem_holds_reader.mpr (.inr others)

theorem spares_onReadFailure {listener : Listener Command}
    (ok : w.onReadFailure k listener = .ok after) : Spares h w after := by
  refine spares_readerRequest ok fun r holds => ?_
  rcases mem_holds_reader.mp holds with data | new | ending
  · exact .inl (mem_holds_reader.mpr (.inl data))
  · exact .inr (refers_of_registration new)
  · exact .inl (mem_holds_reader.mpr (.inr (.inr ending)))

theorem spares_onEnd {listener : Listener Command} (ok : w.onEnd k listener = .ok after) :
    Spares h w after := by
  refine spares_readerRequest ok fun r holds => ?_
  rcases mem_holds_reader.mp holds with data | failure | new
  · exact .inl (mem_holds_reader.mpr (.inl data))
  · exact .inl (mem_holds_reader.mpr (.inr (.inl failure)))
  · exact .inr (refers_of_registration new)

theorem spares_pause (ok : w.pause k = .ok after) : Spares h w after :=
  spares_readerRequest ok fun _ => .inl

theorem spares_resume (ok : w.resume k = .ok after) : Spares h w after :=
  spares_readerRequest ok fun _ => .inl

theorem spares_setChunkSize {size : Nat} (ok : w.setChunkSize k size = .ok after) :
    Spares h w after := by
  obtain ⟨s, passed, -, rfl⟩ := World.exists_setChunkSize ok
  apply spares_of_dead
  intro dead
  have other := ne_of_checkStream dead passed
  exact spares_modifyReader other fun _ => .inl

theorem spares_onWriteFailure {listener : Listener Command}
    (ok : w.onWriteFailure k listener = .ok after) : Spares h w after := by
  refine spares_writerRequest ok fun r holds => ?_
  rcases List.mem_append.mp holds with drain | new
  · exact .inl (List.mem_append_left _ drain)
  · exact .inr (refers_of_registration new)

theorem spares_setQueueMax {size : Nat} (ok : w.setQueueMax k size = .ok after) :
    Spares h w after := spares_writerRequest ok fun _ => .inl

theorem spares_send {data : Bytes} (ok : w.send k data = .ok after) : Spares h w after := by
  obtain ⟨s, passed, rfl⟩ := except_map_eq_ok.mp ok
  apply spares_of_dead
  intro dead
  have other := ne_of_checkStream dead passed
  exact (spares_enqueue other List.not_mem_nil).trans (spares_modifyWriter other fun _ => .inl)

theorem spares_onDrain {handler : Callback Command} (ok : w.onDrain k handler = .ok after) :
    Spares h w after := by
  obtain ⟨s, passed, rfl⟩ := except_map_eq_ok.mp ok
  apply spares_of_dead
  intro dead
  have other := ne_of_checkStream dead passed
  have numbered : Spares h w { w with nextDrain := w.nextDrain + 1 } := by
    exact spares_of_same rfl rfl fun place => by cases place <;> rfl
  refine (numbered.trans (spares_modifyWriter other fun r holds => ?_)).record _ nofun
  rcases List.mem_append.mp holds with new | failure
  · exact absurd (World.refers_of_handlesIn new) dead
  · exact .inl (List.mem_append_right _ failure)

/-- A stream holds nothing when it is got for the first time. -/
theorem spares_readStream (other : k ≠ h) (ok : w.readStream k = .ok after) :
    Spares h w after := by
  obtain ⟨s, passed, rfl⟩ := except_map_eq_ok.mp ok
  obtain ⟨known, -⟩ := World.check_eq_ok_iff.mp passed
  refine spares_modifyStreams other (fun _ => rfl) fun s' kind known' holds => .inl ?_
  obtain rfl := Option.some.inj (known.symm.trans known')
  cases kind with
  | read =>
    obtain ⟨r, made, holds⟩ := Handle.mem_streamHolds_read.mp holds
    obtain rfl := Option.some.inj made
    rcases reader : s.reader with _ | r
    · rw [reader] at holds
      cases holds
    · rw [reader] at holds
      exact Handle.mem_streamHolds_read.mpr ⟨r, reader, holds⟩
  | write => exact holds

theorem spares_writeStream (other : k ≠ h) (ok : w.writeStream k = .ok after) :
    Spares h w after := by
  obtain ⟨s, passed, rfl⟩ := except_map_eq_ok.mp ok
  obtain ⟨known, -⟩ := World.check_eq_ok_iff.mp passed
  refine spares_modifyStreams other (fun _ => rfl) fun s' kind known' holds => .inl ?_
  obtain rfl := Option.some.inj (known.symm.trans known')
  cases kind with
  | read => exact holds
  | write =>
    obtain ⟨r, made, holds⟩ := Handle.mem_streamHolds_write.mp holds
    obtain rfl := Option.some.inj made
    rcases writer : s.writer with _ | r
    · rw [writer] at holds
      cases holds
    · rw [writer] at holds
      exact Handle.mem_streamHolds_write.mpr ⟨r, writer, holds⟩

section Requests

variable (dead : ¬ w.Refers h)

include dead

theorem not_mem_handlesIn {slots : List Slot} : h ∉ w.handlesIn slots :=
  fun listed => dead (World.refers_of_handlesIn listed)

theorem not_mem_handler {handler : Option (Callback Command)} :
    h ∉ ((handler.map w.handler).map Handler.holds).getD [] := by
  cases handler with
  | none => exact List.not_mem_nil
  | some c => exact not_mem_handlesIn dead

theorem spares_write {data : Bytes} {position : Nat} {handler : Callback Command}
    (other : k ≠ h) (ok : w.write k data position handler = .ok after) : Spares h w after := by
  obtain ⟨s, -, rfl⟩ := except_map_eq_ok.mp ok
  exact spares_enqueue other (not_mem_handlesIn dead)

theorem spares_read {target : Bytes} {offset position length : Nat}
    {handler : Callback Command} (other : k ≠ h)
    (ok : w.read k target offset position length handler = .ok after) : Spares h w after := by
  obtain ⟨s, -, rfl⟩ := World.exists_read ok
  exact spares_enqueue other (not_mem_handlesIn dead)

theorem spares_flush {handler : Option (Callback Command)} (other : k ≠ h)
    (ok : w.flush k handler = .ok after) : Spares h w after := by
  obtain ⟨s, -, rfl⟩ := except_map_eq_ok.mp ok
  exact spares_enqueue other (not_mem_handler dead)

theorem spares_close {handler : Option (Callback Command)} (other : k ≠ h)
    (ok : w.close k handler = .ok after) : Spares h w after := by
  obtain ⟨s, -, rfl⟩ := except_map_eq_ok.mp ok
  have others : h ∉ Job.holds ⟨w.nextOperation, k, .close, .close (handler.map w.handler)⟩ := by
    intro listed
    rcases List.mem_cons.mp listed with same | holds
    · exact other same.symm
    · exact not_mem_handler dead holds
  have accepted : Spares h w (w.accept k .close (.close (handler.map w.handler))).2 :=
    spares_accept other
  have closed : Spares h w ((w.accept k .close (.close (handler.map w.handler))).2.modifyHandle k
      fun s => { s with closed := true }) :=
    accepted.trans (spares_modifyHandle other fun s known holds =>
      World.refers_of_handle known holds)
  dsimp only
  split
  · exact closed.trans (spares_submit others)
  · -- the close waits on its handle, and holds no more than if it were queued
    refine closed.trans (spares_modifyHandle other fun s known holds => ?_)
    rcases List.mem_append.mp holds with streams | waits
    · exact World.refers_of_handle known (List.mem_append_left _ streams)
    · exact absurd waits others

end Requests

end PinnedFile
