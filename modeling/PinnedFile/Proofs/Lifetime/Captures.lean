/-
  PinnedFile.Proofs.Lifetime.Captures

  What the handlers of streams have captured.

  Every stream keeps on record what its registrations have ever held.  The record only grows,
  and whatever a registration holds now, or left behind when its stream could not be taken down,
  is on it.  So as long as no handler of a stream has captured a handle, no handle is kept by a
  stream.
-/

import PinnedFile.Proofs.Deeds

namespace PinnedFile

open Run

variable {mode : Mode} {w after : World} {h k : HandleId} {job : Job} {outcome : Outcome}
  {s s' : Handle} {kind : StreamKind}

/-! ## Streams -/

namespace Reader

variable {r : Reader} {listener g : Registration}

theorem holds_listening : (r.listening listener).holds ⊆ listener.holds ++ r.holds := by
  intro h holds
  rw [List.mem_append, mem_holds_reader]
  rcases mem_holds_reader.mp holds with new | failure | ending
  · exact .inl new
  · exact .inr (.inr (.inl failure))
  · exact .inr (.inr (.inr ending))

theorem holds_listeningForFailure :
    (r.listeningForFailure listener).holds ⊆ listener.holds ++ r.holds := by
  intro h holds
  rw [List.mem_append, mem_holds_reader]
  rcases mem_holds_reader.mp holds with data | new | ending
  · exact .inr (.inl data)
  · exact .inl new
  · exact .inr (.inr (.inr ending))

theorem holds_listeningForEnd :
    (r.listeningForEnd listener).holds ⊆ listener.holds ++ r.holds := by
  intro h holds
  rw [List.mem_append, mem_holds_reader]
  rcases mem_holds_reader.mp holds with data | failure | new
  · exact .inr (.inl data)
  · exact .inr (.inr (.inl failure))
  · exact .inl new

theorem holds_unheard : ({ r with data := none } : Reader).holds ⊆ r.holds := by
  intro h holds
  rcases mem_holds_reader.mp holds with none | others
  · cases none
  · exact mem_holds_reader.mpr (.inr others)

/-- A listener that is called holds no more than before. -/
theorem holds_calledData (known : r.data = some g) :
    ({ r with data := some g.called } : Reader).holds ⊆ r.holds := by
  rw [holds, holds, known]
  exact List.Subset.refl _

theorem holds_calledFailure (known : r.failure = some g) :
    ({ r with failure := some g.called } : Reader).holds ⊆ r.holds := by
  rw [holds, holds, known]
  exact List.Subset.refl _

theorem holds_calledEnding (known : r.ending = some g) :
    ({ r with ending := some g.called } : Reader).holds ⊆ r.holds := by
  rw [holds, holds, known]
  exact List.Subset.refl _

end Reader

namespace Writer

variable {v : Writer} {listener g : Registration} {wait : DrainWait}

theorem holds_awaiting : (v.awaiting wait).holds ⊆ wait.handler.holds ++ v.holds := by
  intro h holds
  rcases List.mem_append.mp holds with new | failure
  · exact List.mem_append_left _ new
  · exact List.mem_append_right _ (List.mem_append_right _ failure)

theorem holds_listeningForFailure :
    (v.listeningForFailure listener).holds ⊆ listener.holds ++ v.holds := by
  intro h holds
  rcases List.mem_append.mp holds with drain | new
  · exact List.mem_append_right _ (List.mem_append_left _ drain)
  · exact List.mem_append_left _ new

theorem holds_undrained : ({ v with drain := none } : Writer).holds ⊆ v.holds := by
  intro h holds
  rcases List.mem_append.mp holds with none | failure
  · cases none
  · exact List.mem_append_right _ failure

theorem holds_calledFailure (known : v.failure = some g) :
    ({ v with failure := some g.called } : Writer).holds ⊆ v.holds := by
  rw [holds, holds, known]
  exact List.Subset.refl _

end Writer

/-! ## Handles -/

namespace Handle

/-- All that handlers registered at the streams of a handle have ever held. -/
def captured (s : Handle) : List HandleId :=
  (s.reader.map Reader.captured).getD [] ++ (s.writer.map Writer.captured).getD []

/-- What the registrations of a handle hold is on record. -/
def IsRecorded (s : Handle) : Prop := ∀ kind, s.streamHolds kind ⊆ s.captured

/-- What is held after a change was held before or is on record, and the record only grows. -/
structure Records (s s' : Handle) : Prop where
  grows : s.captured ⊆ s'.captured
  held : ∀ kind, ∀ h ∈ s'.streamHolds kind, h ∈ s.streamHolds kind ∨ h ∈ s'.captured

theorem mem_captured : h ∈ s.captured ↔ (∃ r, s.reader = some r ∧ h ∈ r.captured) ∨
    ∃ v, s.writer = some v ∧ h ∈ v.captured := by
  rw [captured, List.mem_append]
  rcases s.reader with _ | r <;> rcases s.writer with _ | v <;> simp

theorem IsRecorded.records (recorded : s.IsRecorded) (records : s.Records s') : s'.IsRecorded :=
  fun kind h holds => (records.held kind h holds).elim (fun before =>
    records.grows (recorded kind before)) id

theorem records_of_same (reader : s'.reader = s.reader) (writer : s'.writer = s.writer) :
    s.Records s' where
  grows := by rw [captured, captured, reader, writer]; exact List.Subset.refl _
  held kind h holds := by
    left
    cases kind with
    | read => rwa [streamHolds, reader] at holds
    | write => rwa [streamHolds, writer] at holds

/-- A change of the read stream. -/
theorem records_reader {f : Reader → Reader}
    (grows : ∀ r, s.reader = some r → r.captured ⊆ (f r).captured)
    (held : ∀ r, s.reader = some r → ∀ h ∈ (f r).holds, h ∈ r.holds ∨ h ∈ (f r).captured) :
    s.Records { s with reader := s.reader.map f } where
  grows h listed := by
    rcases mem_captured.mp listed with ⟨r, made, before⟩ | written
    · exact mem_captured.mpr (.inl ⟨f r, by rw [made]; rfl, grows r made before⟩)
    · exact mem_captured.mpr (.inr written)
  held kind h holds := by
    cases kind with
    | read =>
      obtain ⟨r', made', holds⟩ := mem_streamHolds_read.mp holds
      obtain ⟨r, made, rfl⟩ := Option.map_eq_some_iff.mp made'
      rcases held r made h holds with before | new
      · exact .inl (mem_streamHolds_read.mpr ⟨r, made, before⟩)
      · exact .inr (mem_captured.mpr (.inl ⟨f r, made', new⟩))
    | write => exact .inl holds

/-- A change of the write stream. -/
theorem records_writer {f : Writer → Writer}
    (grows : ∀ v, s.writer = some v → v.captured ⊆ (f v).captured)
    (held : ∀ v, s.writer = some v → ∀ h ∈ (f v).holds, h ∈ v.holds ∨ h ∈ (f v).captured) :
    s.Records { s with writer := s.writer.map f } where
  grows h listed := by
    rcases mem_captured.mp listed with read | ⟨v, made, before⟩
    · exact mem_captured.mpr (.inl read)
    · exact mem_captured.mpr (.inr ⟨f v, by rw [made]; rfl, grows v made before⟩)
  held kind h holds := by
    cases kind with
    | read => exact .inl holds
    | write =>
      obtain ⟨v', made', holds⟩ := mem_streamHolds_write.mp holds
      obtain ⟨v, made, rfl⟩ := Option.map_eq_some_iff.mp made'
      rcases held v made h holds with before | new
      · exact .inl (mem_streamHolds_write.mpr ⟨v, made, before⟩)
      · exact .inr (mem_captured.mpr (.inr ⟨f v, made', new⟩))

theorem records_unregistered : s.Records s.unregistered where
  grows h listed := by
    rcases mem_captured.mp listed with ⟨r, made, before⟩ | ⟨v, made, before⟩
    · exact mem_captured.mpr (.inl ⟨r.unregistered, by rw [unregistered, made]; rfl, before⟩)
    · exact mem_captured.mpr (.inr ⟨v.unregistered, by rw [unregistered, made]; rfl, before⟩)
  held kind h holds := by
    rw [streamHolds_unregistered] at holds
    cases holds

/-- A stream that is got for the first time has no registrations. -/
theorem records_readStream {size : Nat} :
    s.Records { s with reader := some (s.reader.getD { chunkSize := size }) } := by
  rcases made : s.reader with _ | r
  · refine ⟨fun h listed => ?_, fun kind h holds => ?_⟩
    · rcases mem_captured.mp listed with ⟨r, made', -⟩ | written
      · rw [made] at made'
        cases made'
      · exact mem_captured.mpr (.inr written)
    · cases kind with
      | read =>
        obtain ⟨r, made', holds⟩ := mem_streamHolds_read.mp holds
        obtain rfl := Option.some.inj made'
        cases holds
      | write => exact .inl holds
  · exact records_of_same made.symm rfl

theorem records_writeStream {size : Nat} :
    s.Records { s with writer := some (s.writer.getD (.ofQueueMax size)) } := by
  rcases made : s.writer with _ | v
  · refine ⟨fun h listed => ?_, fun kind h holds => ?_⟩
    · rcases mem_captured.mp listed with read | ⟨v, made', -⟩
      · exact mem_captured.mpr (.inl read)
      · rw [made] at made'
        cases made'
    · cases kind with
      | read => exact .inl holds
      | write =>
        obtain ⟨v, made', holds⟩ := mem_streamHolds_write.mp holds
        obtain rfl := Option.some.inj made'
        cases holds
  · exact records_of_same rfl made.symm

end Handle

/-! ## Worlds -/

/-- What registrations hold, and what is left of those that are gone, is on record. -/
structure World.IsRecorded (w : World) : Prop where
  handles : ∀ s ∈ w.handles, s.IsRecorded
  remnants : ∀ r ∈ w.remnants, ∀ h ∈ r.holds, ∃ s ∈ w.handles, h ∈ s.captured

/-- No handler that was ever registered at a stream has captured a handle. -/
def World.CapturesNone (w : World) : Prop := ∀ s ∈ w.handles, s.captured = []

instance : Decidable w.CapturesNone :=
  inferInstanceAs (Decidable (∀ s ∈ w.handles, s.captured = []))

namespace World.IsRecorded

section Changes

variable (recorded : w.IsRecorded)
include recorded

/-- Every handle is changed, in a way that is on record. -/
theorem of_map {f : HandleId → Handle → Handle}
    (handles : ∀ i : HandleId, after.handles[i]? = w.handles[i]?.map (f i))
    (records : ∀ (i : HandleId) (s : Handle), w.handles[i]? = some s → s.Records (f i s))
    (remnants : after.remnants = w.remnants) : after.IsRecorded where
  handles s' listed := by
    obtain ⟨i, known'⟩ := List.mem_iff_getElem?.mp listed
    rw [handles] at known'
    obtain ⟨s, known, rfl⟩ := Option.map_eq_some_iff.mp known'
    exact (recorded.handles s (List.mem_of_getElem? known)).records (records i s known)
  remnants r left h holds := by
    obtain ⟨s, listed, captured⟩ := recorded.remnants r (remnants ▸ left) h holds
    obtain ⟨i, known⟩ := List.mem_iff_getElem?.mp listed
    refine ⟨f i s, List.mem_of_getElem? (i := i) ?_, (records i s known).grows captured⟩
    rw [handles, known, Option.map_some]

theorem of_same (handles : after.handles = w.handles) (remnants : after.remnants = w.remnants) :
    after.IsRecorded := by
  constructor
  · rw [handles]
    exact recorded.handles
  · rw [handles, remnants]
    exact recorded.remnants

theorem modifyHandle {f : Handle → Handle}
    (records : ∀ s : Handle, w.handles[k]? = some s → s.Records (f s)) :
    (w.modifyHandle k f).IsRecorded := by
  refine recorded.of_map (f := fun i s => if k = i then f s else s) (fun i => ?_)
    (fun i s known => ?_) rfl
  · exact List.getElem?_modify f k w.handles i
  · split
    next same => exact records s (same ▸ known)
    · exact Handle.records_of_same rfl rfl

theorem modifyReader {f : Reader → Reader}
    (grows : ∀ r, w.reader? k = some r → r.captured ⊆ (f r).captured)
    (held : ∀ r, w.reader? k = some r → ∀ h ∈ (f r).holds, h ∈ r.holds ∨ h ∈ (f r).captured) :
    (w.modifyReader k f).IsRecorded := by
  refine recorded.modifyHandle fun s known => ?_
  have read (r : Reader) (made : s.reader = some r) : w.reader? k = some r := by
    rw [reader?, known, Option.bind_some, made]
  exact Handle.records_reader (fun r made => grows r (read r made)) fun r made =>
    held r (read r made)

theorem modifyWriter {f : Writer → Writer}
    (grows : ∀ v, w.writer? k = some v → v.captured ⊆ (f v).captured)
    (held : ∀ v, w.writer? k = some v → ∀ h ∈ (f v).holds, h ∈ v.holds ∨ h ∈ (f v).captured) :
    (w.modifyWriter k f).IsRecorded := by
  refine recorded.modifyHandle fun s known => ?_
  have written (v : Writer) (made : s.writer = some v) : w.writer? k = some v := by
    rw [writer?, known, Option.bind_some, made]
  exact Handle.records_writer (fun v made => grows v (written v made)) fun v made =>
    held v (written v made)

/-- A change of a handle that leaves its streams alone. -/
theorem modifyHandle_aside {f : Handle → Handle} (reader : ∀ s, (f s).reader = s.reader)
    (writer : ∀ s, (f s).writer = s.writer) : (w.modifyHandle k f).IsRecorded :=
  recorded.modifyHandle fun s _ => Handle.records_of_same (reader s) (writer s)

/-- A change of a read stream with which no listener is registered. -/
theorem modifyReader_of_subset {f : Reader → Reader} (grows : ∀ r, (f r).captured = r.captured)
    (held : ∀ r, w.reader? k = some r → (f r).holds ⊆ r.holds) :
    (w.modifyReader k f).IsRecorded :=
  recorded.modifyReader (fun r _ => by rw [grows]; exact List.Subset.refl _)
    fun r made _ holds => .inl (held r made holds)

theorem modifyWriter_of_subset {f : Writer → Writer} (grows : ∀ v, (f v).captured = v.captured)
    (held : ∀ v, w.writer? k = some v → (f v).holds ⊆ v.holds) :
    (w.modifyWriter k f).IsRecorded :=
  recorded.modifyWriter (fun v _ => by rw [grows]; exact List.Subset.refl _)
    fun v made _ holds => .inl (held v made holds)

theorem sweep : w.sweep.IsRecorded := by
  refine World.sweep_induct recorded fun v before => ?_
  refine before.of_map (fun i => handles_sweepOnce) (fun i s _ => ?_) rfl
  split
  · exact Handle.records_of_same rfl rfl
  · exact Handle.records_unregistered

theorem setSlot {f : Slot} {entry : SlotEntry} : (w.setSlot f entry).IsRecorded := by
  have replaced (slots : List (Slot × SlotEntry)) :
      ({ w with slots, remnants := w.remnants.filter (·.isIn slots) } : World).IsRecorded :=
    ⟨recorded.handles, fun r left => recorded.remnants r (List.mem_of_mem_filter left)⟩
  exact (replaced _).sweep

/-- What is left of registrations is on the record of the handle that is given up. -/
theorem strand : (w.strand k kind).IsRecorded := by
  have left : ({ w with remnants := w.remnantsOf k kind ++ w.remnants } : World).IsRecorded := by
    refine ⟨recorded.handles, fun r listed h holds => ?_⟩
    rcases List.mem_append.mp listed with new | before
    · obtain ⟨part, -, rfl⟩ := List.mem_map.mp (List.mem_of_mem_filter new)
      rcases known : w.handles[k]? with _ | s
      · rw [known] at holds
        cases holds
      · rw [known] at holds
        have there := List.mem_of_getElem? known
        exact ⟨s, there, recorded.handles s there part holds⟩
    · exact recorded.remnants r before h holds
  exact left.modifyHandle fun _ _ => Handle.records_unregistered

theorem submit (job : Job) : (w.submit job).IsRecorded := by
  unfold World.submit
  split
  · exact recorded.of_same rfl rfl
  · exact recorded

theorem enqueue {t : Transfer} {c : Completion} : (w.enqueue k t c).IsRecorded := by
  have counted := recorded.modifyHandle_aside (k := k) (f := (·.taking c)) (fun _ => rfl)
    fun _ => rfl
  have accepted : (w.accept k t c).2.IsRecorded := counted.of_same rfl rfl
  exact accepted.submit _

theorem readingOn : (w.readingOn k).IsRecorded := by
  rcases w.readingOn_cases k with same | ⟨stream, -, -, started⟩
  · rwa [same]
  · have marked := recorded.modifyReader_of_subset (k := k) (f := ({ · with busy := true }))
      (fun _ => rfl) fun _ _ => List.Subset.refl _
    rw [started]
    rcases w.startingRead_cases k stream with ⟨-, large⟩ | ⟨-, fits⟩
    · rwa [large]
    · rw [fits]
      exact marked.enqueue

/-- A handle that is opened has no streams yet. -/
theorem addHandle {f : Slot} {owner : ContextId} {options : OpenOptions} {sink : Sink}
    {path : Bytes} {backend : BackendId} {native : Option BackendId} :
    (w.addHandle f owner options sink path backend native).IsRecorded := by
  refine IsRecorded.setSlot ⟨fun s listed => ?_, fun r left h holds => ?_⟩
  · rcases List.mem_append.mp listed with before | new
    · exact recorded.handles s before
    · rw [List.mem_singleton.mp new]
      intro kind
      cases kind with
      | read => exact List.nil_subset _
      | write => exact List.nil_subset _
  · obtain ⟨s, there, captured⟩ := recorded.remnants r left h holds
    exact ⟨s, List.mem_append_left _ there, captured⟩

theorem close {handler : Option (Callback Command)} (ok : w.close k handler = .ok after) :
    after.IsRecorded := by
  obtain ⟨s, -, rfl⟩ := except_map_eq_ok.mp ok
  have counted := recorded.modifyHandle_aside (k := k)
    (f := (·.taking (.close (handler.map w.handler)))) (fun _ => rfl) fun _ => rfl
  have accepted : (w.accept k .close (.close (handler.map w.handler))).2.IsRecorded :=
    counted.of_same rfl rfl
  have closed := accepted.modifyHandle_aside (k := k) (f := ({ · with closed := true }))
    (fun _ => rfl) fun _ => rfl
  dsimp only
  split
  · exact closed.submit _
  · exact closed.modifyHandle_aside (fun _ => rfl) fun _ => rfl

end Changes

end World.IsRecorded

/-! ## Moves -/

namespace World.IsRecorded

section Registrations

variable (recorded : w.IsRecorded)
include recorded

/-- A listener that is registered comes on record with all that it holds. -/
theorem listen {f : Reader → Reader} {listener : Registration}
    (captured : ∀ r, (f r).captured = listener.holds ++ r.captured)
    (held : ∀ r, (f r).holds ⊆ listener.holds ++ r.holds) : (w.modifyReader k f).IsRecorded := by
  refine recorded.modifyReader (fun r _ => ?_) fun r _ h holds => ?_
  · rw [captured]
    exact List.subset_append_right _ _
  · rw [captured]
    rcases List.mem_append.mp (held r holds) with new | before
    · exact .inr (List.mem_append_left _ new)
    · exact .inl before

/-- And so does a callback or a listener of a write stream. -/
theorem register {f : Writer → Writer} {new : List HandleId}
    (captured : ∀ v, (f v).captured = new ++ v.captured)
    (held : ∀ v, (f v).holds ⊆ new ++ v.holds) : (w.modifyWriter k f).IsRecorded := by
  refine recorded.modifyWriter (fun v _ => ?_) fun v _ h holds => ?_
  · rw [captured]
    exact List.subset_append_right _ _
  · rw [captured]
    rcases List.mem_append.mp (held v holds) with now | before
    · exact .inr (List.mem_append_left _ now)
    · exact .inl before

theorem onDrain {handler : Callback Command} (ok : w.onDrain k handler = .ok after) :
    after.IsRecorded := by
  obtain ⟨s, -, rfl⟩ := except_map_eq_ok.mp ok
  have numbered : ({ w with nextDrain := w.nextDrain + 1 } : World).IsRecorded :=
    recorded.of_same rfl rfl
  have waits := numbered.register (k := k) (f := (·.awaiting ⟨w.nextDrain, w.handler handler⟩))
    (fun _ => rfl) fun _ => Writer.holds_awaiting
  exact waits.of_same rfl rfl

theorem clearDrain : (w.clearDrain k).IsRecorded :=
  recorded.modifyWriter_of_subset (fun _ => rfl) fun _ _ => Writer.holds_undrained

end Registrations

end World.IsRecorded

theorem Move.recorded (move : Move w after) (recorded : w.IsRecorded) : after.IsRecorded := by
  cases move with
  | openMemory accepted | openBackend held accepted =>
    obtain ⟨owner, -, rfl⟩ := except_map_eq_ok.mp accepted
    apply World.IsRecorded.addHandle
    exact recorded.of_same rfl rfl
  | openPath accepted =>
    obtain ⟨owner, descriptor, files, -, rfl⟩ := World.exists_openPath accepted
    apply World.IsRecorded.addHandle
    exact recorded.of_same rfl rfl
  | keep | giveUp => exact recorded.setSlot
  | write accepted | flush accepted =>
    obtain ⟨s, -, rfl⟩ := except_map_eq_ok.mp accepted
    exact recorded.enqueue
  | read accepted =>
    obtain ⟨s, -, rfl⟩ := World.exists_read accepted
    exact recorded.enqueue
  | close accepted => exact recorded.close accepted
  | readStream f accepted =>
    obtain ⟨s, checked, rfl⟩ := except_map_eq_ok.mp accepted
    obtain ⟨known, -⟩ := World.check_eq_ok_iff.mp checked
    refine World.IsRecorded.setSlot (recorded.modifyHandle fun s' known' => ?_)
    obtain rfl := Option.some.inj (known.symm.trans known')
    exact Handle.records_readStream
  | writeStream f accepted =>
    obtain ⟨s, checked, rfl⟩ := except_map_eq_ok.mp accepted
    obtain ⟨known, -⟩ := World.check_eq_ok_iff.mp checked
    refine World.IsRecorded.setSlot (recorded.modifyHandle fun s' known' => ?_)
    obtain rfl := Option.some.inj (known.symm.trans known')
    exact Handle.records_writeStream
  | listen accepted =>
    obtain ⟨s, -, rfl⟩ := except_map_eq_ok.mp accepted
    exact (recorded.listen (fun _ => rfl) fun _ => Reader.holds_listening).readingOn
  | @resume _ k accepted paused =>
    obtain ⟨s, -, rfl⟩ := except_map_eq_ok.mp accepted
    have resumed : (w.modifyReader k Reader.resumed).IsRecorded :=
      recorded.modifyReader_of_subset (fun _ => rfl) fun _ _ => List.Subset.refl _
    exact resumed.readingOn
  | clearData accepted =>
    obtain ⟨s, -, rfl⟩ := except_map_eq_ok.mp accepted
    exact recorded.modifyReader_of_subset (fun _ => rfl) fun _ _ => Reader.holds_unheard
  | onEnd accepted =>
    obtain ⟨s, -, rfl⟩ := except_map_eq_ok.mp accepted
    exact recorded.listen (fun _ => rfl) fun _ => Reader.holds_listeningForEnd
  | onReadFailure accepted =>
    obtain ⟨s, -, rfl⟩ := except_map_eq_ok.mp accepted
    exact recorded.listen (fun _ => rfl) fun _ => Reader.holds_listeningForFailure
  | pause accepted | resumeFlowing accepted flowing =>
    obtain ⟨s, -, rfl⟩ := except_map_eq_ok.mp accepted
    exact recorded.modifyReader_of_subset (fun _ => rfl) fun _ _ => List.Subset.refl _
  | setChunkSize accepted =>
    obtain ⟨s, -, -, rfl⟩ := World.exists_setChunkSize accepted
    exact recorded.modifyReader_of_subset (fun _ => rfl) fun _ _ => List.Subset.refl _
  | send got accepted =>
    obtain ⟨s, -, rfl⟩ := except_map_eq_ok.mp accepted
    exact recorded.enqueue.modifyWriter_of_subset (fun _ => rfl) fun _ _ => List.Subset.refl _
  | setQueueMax accepted =>
    obtain ⟨s, -, rfl⟩ := except_map_eq_ok.mp accepted
    exact recorded.modifyWriter_of_subset (fun _ => rfl) fun _ _ => List.Subset.refl _
  | awaitDrain accepted waits => exact recorded.onDrain accepted
  | drainAtOnce accepted drained =>
    exact (recorded.onDrain accepted).clearDrain.of_same rfl rfl
  | onWriteFailure accepted =>
    obtain ⟨s, -, rfl⟩ := except_map_eq_ok.mp accepted
    exact recorded.register (fun _ => rfl) fun _ => Writer.holds_listeningForFailure
  | drained here waiting drained =>
    exact recorded.clearDrain.of_same rfl rfl
  | hold | adjust | execute | ran | panicking =>
    exact recorded.of_same rfl rfl
  | sweep => exact recorded.sweep
  | strand => exact recorded.strand
  | shutDown origin =>
    have shut (v : World) (handles : v.handles = w.handles) (remnants : v.remnants = w.remnants) :
        v.sweep.IsRecorded := (recorded.of_same handles remnants).sweep
    exact shut _ rfl rfl

/-! ## Deliveries -/

namespace World.IsRecorded

section Told

variable (recorded : w.IsRecorded)
include recorded

theorem toldSink {e : FileError} : (w.toldSink k e).IsRecorded := by
  unfold World.toldSink
  split
  · exact recorded
  · exact recorded.of_same rfl rfl

theorem toldReadFailure {e : FileError} : (w.toldReadFailure k e).IsRecorded := by
  unfold World.toldReadFailure
  split
  · exact recorded.toldSink
  next g registered =>
    have called : (w.modifyReader k ({ · with failure := some g.called })).IsRecorded := by
      refine recorded.modifyReader_of_subset (fun _ => rfl) fun r made => ?_
      rw [made] at registered
      exact Reader.holds_calledFailure registered
    exact called.of_same rfl rfl

theorem toldWriteFailure {e : FileError} : (w.toldWriteFailure k e).IsRecorded := by
  unfold World.toldWriteFailure
  split
  · exact recorded.toldSink
  next g registered =>
    have called : (w.modifyWriter k ({ · with failure := some g.called })).IsRecorded := by
      refine recorded.modifyWriter_of_subset (fun _ => rfl) fun v made => ?_
      rw [made] at registered
      exact Writer.holds_calledFailure registered
    exact called.of_same rfl rfl

theorem toldEnd : (w.toldEnd k).IsRecorded := by
  unfold World.toldEnd
  split
  · exact recorded
  next g registered =>
    have called : (w.modifyReader k ({ · with ending := some g.called })).IsRecorded := by
      refine recorded.modifyReader_of_subset (fun _ => rfl) fun r made => ?_
      rw [made] at registered
      exact Reader.holds_calledEnding registered
    exact called.of_same rfl rfl

theorem toldData {chunk : Bytes} : (w.toldData k chunk).IsRecorded := by
  unfold World.toldData
  split
  · exact recorded
  next g registered =>
    have called : (w.modifyReader k ({ · with data := some g.called })).IsRecorded := by
      refine recorded.modifyReader_of_subset (fun _ => rfl) fun r made => ?_
      rw [made] at registered
      exact Reader.holds_calledData registered
    exact called.of_same rfl rfl

theorem toldChunk : (w.toldChunk k outcome).IsRecorded := by
  have received : (w.modifyReader k (·.receiving outcome)).IsRecorded := by
    apply recorded.modifyReader_of_subset
    · intro r
      rcases outcome with e | _ | ⟨first, more⟩ <;> rfl
    · intro r _
      rcases outcome with e | _ | ⟨first, more⟩ <;> exact List.Subset.refl _
  rcases outcome with e | _ | ⟨first, more⟩
  · exact received.toldReadFailure
  · exact received.toldEnd
  · exact received.toldData

theorem toldDrained : (w.toldDrained k).IsRecorded := by
  unfold World.toldDrained
  split
  · exact recorded
  · split
    · exact recorded.clearDrain.of_same rfl rfl
    · exact recorded

theorem told : (w.told job outcome).IsRecorded := by
  have about : (w.aboutToTell job).IsRecorded := by
    unfold World.aboutToTell
    split
    · exact recorded.modifyHandle fun _ _ => Handle.records_unregistered
    · exact recorded
  have handled : ((w.aboutToTell job).toldHandler job outcome).IsRecorded := by
    unfold World.toldHandler
    split
    · exact about
    · exact about.of_same rfl rfl
  rw [World.told]
  generalize (w.aboutToTell job).toldHandler job outcome = v at handled ⊢
  unfold World.toldWithoutHandler
  split
  · exact handled.toldChunk
  · exact handled.toldDrained
  · exact handled.toldWriteFailure
  · exact handled.toldSink
  · exact handled.toldSink
  · exact handled

end Told

end World.IsRecorded

/-! ## Runs -/

theorem Chore.recorded (chore : Chore w after) (recorded : w.IsRecorded) : after.IsRecorded := by
  cases chore with
  | move move => exact move.recorded recorded
  | delivered | post | switch => exact recorded.of_same rfl rfl
  | goOn here => exact recorded.readingOn
  | closeIfQuiet h =>
    rw [Run.closeIfQuiet, exec_get_bind]
    split
    · exact recorded
    · split
      · split
        · exact recorded
        next job waits =>
          have taken : (w.modifyHandle h ({ · with pendingClose := none })).IsRecorded :=
            recorded.modifyHandle_aside (fun _ => rfl) fun _ => rfl
          exact taken.submit job
      · exact recorded

theorem Deed.recorded (deed : Deed w after) (recorded : w.IsRecorded) : after.IsRecorded := by
  cases deed with
  | chore chore => exact chore.recorded recorded
  | start task =>
    cases task with
    | deliver => exact recorded
    | client | later => exact recorded.of_same rfl rfl
  | tell outcome here => exact recorded.told

/-- In every run, what registrations hold and have left behind is on record. -/
theorem Reachable.recorded (reached : Reachable mode w) : w.IsRecorded := by
  refine reached.deeds_induct (P := World.IsRecorded) ?_ ?_ ?_ ?_ ?_ ?_ ?_
  · exact fun workers files => ⟨fun _ => nofun, fun _ => nofun⟩
  · exact fun w after _ recorded deed => deed.recorded recorded
  · exact fun w task rest _ _ recorded => recorded.of_same rfl rfl
  · intro w job outcome rest _ _ recorded
    have begun : (w.delivering job outcome rest).IsRecorded :=
      recorded.of_same rfl rfl
    have released : ((w.delivering job outcome rest).modifyHandle job.handle
        (·.releasing job.completion)).IsRecorded :=
      begun.modifyHandle_aside (fun _ => rfl) fun _ => rfl
    exact released.of_same rfl rfl
  · intro w after takes _ recorded
    obtain ⟨job, rest, -, rfl⟩ := World.exists_takeJob takes
    exact recorded.of_same rfl rfl
  · intro w job call a files backends _ _ _ recorded
    unfold World.answer
    dsimp only
    split
    · exact recorded.of_same rfl rfl
    · exact recorded.of_same rfl rfl
  · intro w job outcome _ _ _ recorded
    unfold World.finish
    dsimp only
    split
    · exact recorded.of_same rfl rfl
    · exact recorded.of_same rfl rfl

/-- If no handler of a stream has captured a handle, no registration holds one. -/
theorem World.IsRecorded.streamHolds (recorded : w.IsRecorded) (uncaptured : w.CapturesNone)
    (listed : s ∈ w.handles) : s.streamHolds kind = [] :=
  List.eq_nil_of_subset_nil (uncaptured s listed ▸ recorded.handles s listed kind)

/-- And nothing that is left of registrations holds one. -/
theorem World.IsRecorded.remnantHolds {r : Remnant} (recorded : w.IsRecorded)
    (uncaptured : w.CapturesNone) (left : r ∈ w.remnants) : r.holds = [] := by
  apply List.eq_nil_iff_forall_not_mem.mpr
  intro h holds
  obtain ⟨s, listed, captured⟩ := recorded.remnants r left h holds
  rw [uncaptured s listed] at captured
  cases captured

end PinnedFile
