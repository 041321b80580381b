/-
  PinnedFile.Proofs.Lifetime.References

  What refers to a handle, and what becomes of a handle that nothing refers to.

  A handle is referred to by slots, by operations on their way and their handlers, by
  registrations of streams, and by the running task.  A handle that is gone gives up its
  registrations, and these may have been the last to refer to another handle.  So handles go
  in rounds; in each round one more is found to be gone, or nothing changes any more, and
  there are as many rounds as handles.
-/

import Mathlib.Data.Finset.Card
import Mathlib.Data.Finset.Range
import PinnedFile.World.Delivery

namespace PinnedFile

/-! ## Registrations -/

/-- Whether a read stream has no registrations. -/
def Reader.isBare (r : Reader) : Bool := r.data.isNone && r.failure.isNone && r.ending.isNone

/-- Whether a write stream has no registrations. -/
def Writer.isBare (r : Writer) : Bool := r.drain.isNone && r.failure.isNone

namespace Handle

variable {s : Handle} {k : HandleId}

/-- Whether neither stream of a handle has registrations. -/
def isBare (s : Handle) : Bool := s.reader.all Reader.isBare && s.writer.all Writer.isBare

theorem isBare_unregistered : s.unregistered.isBare = true := by
  rcases s with ⟨owner, backend, sink, path, chunk, queue, closed, bytes, operations, pending,
    _ | reader, _ | writer⟩ <;> rfl

/-- Registrations that are not there cannot be given up. -/
theorem unregistered_of_isBare (bare : s.isBare = true) : s.unregistered = s := by
  obtain ⟨reading, writing⟩ := Bool.and_eq_true_iff.mp bare
  have reader : s.reader.map Reader.unregistered = s.reader := by
    rcases known : s.reader with _ | r
    · rfl
    · simp only [known, Option.all_some, Reader.isBare, Bool.and_eq_true,
        Option.isNone_iff_eq_none] at reading
      obtain ⟨⟨data, failure⟩, ending⟩ := reading
      rcases r with ⟨position, chunk, paused, busy, ended, _, _, _, asked, captured⟩
      obtain rfl := data
      obtain rfl := failure
      obtain rfl := ending
      rfl
  have writer : s.writer.map Writer.unregistered = s.writer := by
    rcases known : s.writer with _ | r
    · rfl
    · simp only [known, Option.all_some, Writer.isBare, Bool.and_eq_true,
        Option.isNone_iff_eq_none] at writing
      obtain ⟨drain, failure⟩ := writing
      rcases r with ⟨position, highwater, lowwater, _, _, captured⟩
      obtain rfl := drain
      obtain rfl := failure
      rfl
  rw [unregistered, reader, writer]

theorem mem_holds : k ∈ s.holds ↔
    (∃ kind, k ∈ s.streamHolds kind) ∨ k ∈ (s.pendingClose.map Job.holds).getD [] := by
  rw [holds, List.mem_append, List.mem_append]
  refine or_congr_left ⟨fun registered => ?_, fun ⟨kind, registered⟩ => ?_⟩
  · rcases registered with reads | writes
    · exact ⟨.read, reads⟩
    · exact ⟨.write, writes⟩
  · cases kind with
    | read => exact .inl registered
    | write => exact .inr registered

theorem mem_streamHolds_read : k ∈ s.streamHolds .read ↔ ∃ r, s.reader = some r ∧ k ∈ r.holds := by
  rw [streamHolds]
  rcases s.reader with _ | r <;> simp

theorem mem_streamHolds_write :
    k ∈ s.streamHolds .write ↔ ∃ r, s.writer = some r ∧ k ∈ r.holds := by
  rw [streamHolds]
  rcases s.writer with _ | r <;> simp

theorem streamHolds_unregistered {kind : StreamKind} : s.unregistered.streamHolds kind = [] := by
  cases kind with
  | read =>
    rw [streamHolds, unregistered]
    rcases s.reader with _ | r <;> rfl
  | write =>
    rw [streamHolds, unregistered]
    rcases s.writer with _ | r <;> rfl

theorem holds_unregistered_subset : s.unregistered.holds ⊆ s.holds := by
  intro k holds
  rcases mem_holds.mp holds with ⟨kind, registered⟩ | waits
  · rw [streamHolds_unregistered] at registered
    cases registered
  · exact mem_holds.mpr (.inr waits)

end Handle

namespace World

variable {w : World} {h k : HandleId} {s : Handle}

/-! ## References -/

/-- Where references to handles are. -/
inductive Place where
  | slots | jobs | running | tasks | handles | held | leaked | remnants
deriving DecidableEq, Repr

/-- The handles that are referred to from a place. -/
def heldAt (w : World) : Place → List HandleId
  | .slots => w.slots.filterMap (·.2.handle)
  | .jobs => w.jobs.items.flatMap Job.holds
  | .running => w.running.flatMap Job.holds
  | .tasks => w.tasks.items.flatMap taskHolds
  | .handles => w.handles.flatMap Handle.holds
  | .held => w.held
  | .leaked => w.leaked
  | .remnants => w.remnants.flatMap Remnant.holds

/-- Something refers to a handle. -/
def Refers (w : World) (h : HandleId) : Prop := ∃ place, h ∈ w.heldAt place

theorem mem_references : h ∈ w.references ↔ w.Refers h := by
  simp only [references, List.mem_append]
  constructor
  · rintro (((((((here | here) | here) | here) | here) | here) | here) | here)
    · exact ⟨.slots, here⟩
    · exact ⟨.jobs, here⟩
    · exact ⟨.running, here⟩
    · exact ⟨.tasks, here⟩
    · exact ⟨.handles, here⟩
    · exact ⟨.held, here⟩
    · exact ⟨.leaked, here⟩
    · exact ⟨.remnants, here⟩
  · rintro ⟨place, here⟩
    cases place with
    | slots => exact .inl (.inl (.inl (.inl (.inl (.inl (.inl here))))))
    | jobs => exact .inl (.inl (.inl (.inl (.inl (.inl (.inr here))))))
    | running => exact .inl (.inl (.inl (.inl (.inl (.inr here)))))
    | tasks => exact .inl (.inl (.inl (.inl (.inr here))))
    | handles => exact .inl (.inl (.inl (.inr here)))
    | held => exact .inl (.inl (.inr here))
    | leaked => exact .inl (.inr here)
    | remnants => exact .inr here

/-- What is referred to from each place was referred to before. -/
theorem Refers.of_each {after : World} (refers : after.Refers h)
    (each : ∀ place, h ∈ after.heldAt place → h ∈ w.heldAt place ∨ w.Refers h) : w.Refers h := by
  obtain ⟨place, here⟩ := refers
  rcases each place here with before | elsewhere
  · exact ⟨place, before⟩
  · exact elsewhere

theorem isLive_iff : w.isLive h = true ↔ w.Refers h := by
  rw [isLive, List.contains_iff_mem, mem_references]

theorem isLive_eq_false_iff : w.isLive h = false ↔ ¬ w.Refers h := by
  rw [← isLive_iff, Bool.not_eq_true]

theorem refers_of_slot {f : Slot} (got : (w.slot f).handle = some h) : w.Refers h := by
  rw [slot] at got
  rcases found : w.slots.lookup f with _ | entry
  · rw [found] at got
    cases got
  · rw [found] at got
    obtain ⟨before, after, split, -⟩ := List.lookup_eq_some_iff.mp found
    refine ⟨.slots, List.mem_filterMap.mpr ⟨(f, entry), ?_, got⟩⟩
    rw [split]
    exact List.mem_append_right _ List.mem_cons_self

theorem refers_of_handlesIn {slots : List Slot} (listed : h ∈ w.handlesIn slots) :
    w.Refers h := by
  obtain ⟨f, -, got⟩ := List.mem_filterMap.mp listed
  exact refers_of_slot got

theorem refers_of_handle (known : w.handles[k]? = some s) (holds : h ∈ s.holds) : w.Refers h :=
  ⟨.handles, List.mem_flatMap.mpr ⟨s, List.mem_of_getElem? known, holds⟩⟩

theorem refers_of_reader {r : Reader} (known : w.reader? k = some r) (holds : h ∈ r.holds) :
    w.Refers h := by
  obtain ⟨s, there, reader⟩ := Option.bind_eq_some_iff.mp known
  refine refers_of_handle there ?_
  exact Handle.mem_holds.mpr (.inl ⟨.read, Handle.mem_streamHolds_read.mpr ⟨r, reader, holds⟩⟩)

theorem refers_of_writer {r : Writer} (known : w.writer? k = some r) (holds : h ∈ r.holds) :
    w.Refers h := by
  obtain ⟨s, there, writer⟩ := Option.bind_eq_some_iff.mp known
  refine refers_of_handle there ?_
  exact Handle.mem_holds.mpr (.inl ⟨.write, Handle.mem_streamHolds_write.mpr ⟨r, writer, holds⟩⟩)

/-- What is left of registrations holds what these held. -/
theorem refers_of_remnantsOf {kind : StreamKind} {r : Remnant} (left : r ∈ w.remnantsOf k kind)
    (holds : h ∈ r.holds) : w.Refers h := by
  obtain ⟨part, -, rfl⟩ := List.mem_map.mp (List.mem_of_mem_filter left)
  rcases known : w.handles[k]? with _ | s
  · rw [known] at holds
    cases holds
  · rw [known] at holds
    exact refers_of_handle known (Handle.mem_holds.mpr (.inl ⟨part, holds⟩))

/-! ## Rounds -/

/-- No handle that is gone has registrations. -/
def Swept (w : World) : Prop :=
  ∀ h s, w.handles[h]? = some s → w.isLive h = false → s.isBare = true

theorem handles_sweepOnce : w.sweepOnce.handles[h]? =
    w.handles[h]?.map fun s => if w.isLive h then s else s.unregistered := by
  rw [sweepOnce, List.getElem?_mapIdx]
  rfl

/-- No round makes a reference. -/
theorem refers_of_sweepOnce (refers : w.sweepOnce.Refers h) : w.Refers h := by
  refine refers.of_each fun place here => ?_
  cases place with
  | handles =>
    obtain ⟨s, listed, holds⟩ := List.mem_flatMap.mp here
    obtain ⟨k, known⟩ := List.mem_iff_getElem?.mp listed
    rw [handles_sweepOnce] at known
    obtain ⟨s', known', rfl⟩ := Option.map_eq_some_iff.mp known
    right
    split at holds
    · exact refers_of_handle known' holds
    · exact refers_of_handle known' (Handle.holds_unregistered_subset holds)
  | _ => exact .inl here

theorem not_isLive_sweepOnce (gone : w.isLive h = false) : w.sweepOnce.isLive h = false :=
  isLive_eq_false_iff.mpr fun refers => isLive_eq_false_iff.mp gone (refers_of_sweepOnce refers)

/-- Once no handle that is gone has registrations, rounds change nothing. -/
theorem sweepOnce_of_swept (swept : w.Swept) : w.sweepOnce = w := by
  have same : w.sweepOnce.handles = w.handles := by
    apply List.ext_getElem?
    intro h
    rw [handles_sweepOnce]
    rcases known : w.handles[h]? with _ | s
    · rfl
    · rw [Option.map_some]
      rcases live : w.isLive h with _ | _
      · rw [if_neg Bool.false_ne_true,
          Handle.unregistered_of_isBare (swept h s known live)]
      · rw [if_pos rfl]
  have whole : w.sweepOnce = { w with handles := w.sweepOnce.handles } := rfl
  rw [whole, same]

theorem sweep_of_swept (swept : w.Swept) : w.sweep = w := by
  have rounds (n : Nat) : Nat.repeat sweepOnce n w = w := by
    induction n with
    | zero => rfl
    | succ n ih => rw [Nat.repeat, ih, sweepOnce_of_swept swept]
  exact rounds _

/-- Whether a handle is gone and has no registrations. -/
def isLaidToRest (w : World) (h : HandleId) : Bool :=
  !w.isLive h && w.handles[h]?.any Handle.isBare

/-- The handles that are gone and have no registrations. -/
def laidToRest (w : World) : Finset HandleId :=
  (Finset.range w.handles.length).filter fun h => w.isLaidToRest h = true

theorem isLaidToRest_sweepOnce (known : h < w.handles.length) (gone : w.isLive h = false) :
    w.sweepOnce.isLaidToRest h = true := by
  rw [isLaidToRest, not_isLive_sweepOnce gone, handles_sweepOnce, List.getElem?_eq_getElem known,
    gone]
  exact Handle.isBare_unregistered

theorem length_sweepOnce : w.sweepOnce.handles.length = w.handles.length := List.length_mapIdx

/-- A round lays at least one more handle to rest, if there is any left to lay to rest. -/
theorem card_laidToRest_lt (unswept : ¬ w.Swept) :
    w.laidToRest.card < w.sweepOnce.laidToRest.card := by
  have still : w.laidToRest ⊆ w.sweepOnce.laidToRest := by
    intro h listed
    obtain ⟨known, rests⟩ := Finset.mem_filter.mp listed
    obtain ⟨gone, -⟩ := Bool.and_eq_true_iff.mp rests
    have known := Finset.mem_range.mp known
    refine Finset.mem_filter.mpr ⟨?_, isLaidToRest_sweepOnce known (by simpa using gone)⟩
    rwa [Finset.mem_range, length_sweepOnce]
  apply Finset.card_lt_card
  refine (Finset.ssubset_iff_of_subset still).mpr ?_
  -- a handle that is gone and has registrations is laid to rest in this round
  simp only [Swept, not_forall] at unswept
  obtain ⟨h, s, known, gone, registered⟩ := unswept
  have there : h < w.handles.length := (List.getElem?_eq_some_iff.mp known).1
  refine ⟨h, Finset.mem_filter.mpr ⟨?_, isLaidToRest_sweepOnce there gone⟩, fun listed => ?_⟩
  · rwa [Finset.mem_range, length_sweepOnce]
  · obtain ⟨-, rests⟩ := Finset.mem_filter.mp listed
    obtain ⟨-, bare⟩ := Bool.and_eq_true_iff.mp rests
    rw [known] at bare
    exact registered bare

theorem length_rounds (n : Nat) : (Nat.repeat sweepOnce n w).handles.length = w.handles.length := by
  induction n with
  | zero => rfl
  | succ n ih =>
    rw [Nat.repeat, length_sweepOnce]
    exact ih

/-- After so many rounds nothing changes any more, or at least so many handles are laid to
    rest. -/
theorem swept_or_le_card (n : Nat) : (Nat.repeat sweepOnce n w).Swept ∨
    n ≤ (Nat.repeat sweepOnce n w).laidToRest.card := by
  induction n with
  | zero => exact .inr (Nat.zero_le _)
  | succ n ih =>
    rw [Nat.repeat]
    by_cases swept : (Nat.repeat sweepOnce n w).Swept
    · rw [sweepOnce_of_swept swept]
      exact .inl swept
    · have more := ih.resolve_left swept
      exact .inr (Nat.lt_of_le_of_lt more (card_laidToRest_lt swept))

/-- The rounds of a sweep are enough: no handle that is gone has registrations after it. -/
theorem swept_sweep : w.sweep.Swept := by
  rcases @swept_or_le_card w w.handles.length with swept | all
  · exact swept
  · intro h s known gone
    have there : h < w.handles.length := by
      rw [← length_rounds w.handles.length]
      exact (List.getElem?_eq_some_iff.mp known).1
    -- as many are laid to rest as there are, so all are
    have every : w.sweep.laidToRest = Finset.range w.sweep.handles.length := by
      apply Finset.eq_of_subset_of_card_le (Finset.filter_subset _ _)
      rw [Finset.card_range, sweep, length_rounds]
      rwa [laidToRest, length_rounds] at all
    have listed : h ∈ w.sweep.laidToRest := by
      rw [every, Finset.mem_range, sweep, length_rounds]
      exact there
    obtain ⟨-, bare⟩ := Bool.and_eq_true_iff.mp (Finset.mem_filter.mp listed).2
    rw [known] at bare
    exact bare

/-- What holds of each round holds of a sweep. -/
theorem sweep_induct {P : World → Prop} (start : P w)
    (round : ∀ v, P v → P v.sweepOnce) : P w.sweep := by
  have rounds (n : Nat) : P (Nat.repeat sweepOnce n w) := by
    induction n with
    | zero => exact start
    | succ n ih => exact round _ ih
  exact rounds _

end World

end PinnedFile
