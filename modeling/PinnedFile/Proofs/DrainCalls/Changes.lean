/-
  PinnedFile.Proofs.DrainCalls.Changes

  Changes by which no drain callback is registered or called.

  Nearly all that happens spares the drain callbacks: whatever waits on a handle afterwards
  waited there before, the lower mark of every write stream stays half of the upper one, and
  no registration and no call is noted.  The moves that do not are looked at one by one.
-/

import PinnedFile.Proofs.Deeds

namespace PinnedFile

open Run

/-! ## Registrations and calls -/

namespace Event

/-- The handle and the number of a drain callback that begins to wait. -/
def awaited? : Event → Option (HandleId × Nat)
  | .awaited h id => some (h, id)
  | _ => none

/-- The handle and the number of a drain callback that is called. -/
def drained? : Event → Option (HandleId × Nat)
  | .drained h id _ => some (h, id)
  | _ => none

/-- An event by which no drain callback is registered or called. -/
def SparesDrains (e : Event) : Prop := e.awaited? = none ∧ e.drained? = none

end Event

/-- The lower mark of a write stream is half of the upper one. -/
def Handle.IsHalved (s : Handle) : Prop := ∀ v, s.writer = some v → v.lowwater = v.highwater / 2

/-- The callback that waits for the write queue of a handle to drain. -/
def Handle.drain? (s : Handle) : Option DrainWait := s.writer.bind Writer.drain

/-- The lower mark of every write stream is half of its upper one. -/
def HalvesMarks (handles : List Handle) : Prop := ∀ s ∈ handles, s.IsHalved

variable {mode : Mode} {w middle after : World} {h k : HandleId} {job : Job} {outcome : Outcome}
  {rest : Queue Task} {s s' s'' : Handle} {wait : DrainWait}

namespace World

/-- The callback that waits for the write queue of a handle to drain. -/
def drain? (w : World) (h : HandleId) : Option DrainWait := w.handles[h]?.bind Handle.drain?

theorem drain?_eq : w.drain? h = (w.writer? h).bind Writer.drain :=
  (Option.bind_assoc w.handles[h]? Handle.writer Writer.drain).symm

end World

/-! ## Handles on which no callback begins to wait -/

/-- A handle on which no drain callback waits that did not wait before, and whose marks are as
    they should be if they were before. -/
structure Handle.KeepsDrain (s s' : Handle) : Prop where
  halved : s.IsHalved → s'.IsHalved
  drain : s'.drain? = none ∨ s'.drain? = s.drain?

namespace Handle

theorem keepsDrain_of_same (same : s'.writer = s.writer) : s.KeepsDrain s' where
  halved halved v made := halved v (same ▸ made)
  drain := .inr (by rw [drain?, drain?, same])

theorem KeepsDrain.trans (first : s.KeepsDrain s') (second : s'.KeepsDrain s'') :
    s.KeepsDrain s'' where
  halved := second.halved ∘ first.halved
  drain := by
    rcases second.drain with none | same
    · exact .inl none
    · rw [same]
      exact first.drain

/-- A change of the write stream. -/
theorem keepsDrain_writer {f : Writer → Writer}
    (marks : ∀ v, v.lowwater = v.highwater / 2 → (f v).lowwater = (f v).highwater / 2)
    (drain : ∀ v, (f v).drain = none ∨ (f v).drain = v.drain) :
    s.KeepsDrain { s with writer := s.writer.map f } where
  halved halved v made := by
    obtain ⟨before, known, rfl⟩ := Option.map_eq_some_iff.mp made
    exact marks before (halved before known)
  drain := by
    rw [drain?, drain?]
    rcases s.writer with _ | v
    · exact .inl rfl
    · exact drain v

theorem keepsDrain_unregistered : s.KeepsDrain s.unregistered :=
  (keepsDrain_writer (f := Writer.unregistered) (fun _ half => half) fun _ => .inl rfl).trans
    (keepsDrain_of_same rfl)

/-- A write stream is made with marks as they should be, and with nobody waiting. -/
theorem keepsDrain_writeStream {size : Nat} :
    s.KeepsDrain { s with writer := some (s.writer.getD (.ofQueueMax size)) } where
  halved halved v made := by
    rcases known : s.writer with _ | before
    · rw [known] at made
      obtain rfl := Option.some.inj made
      rfl
    · rw [known] at made
      obtain rfl := Option.some.inj made
      exact halved _ known
  drain := by
    rw [drain?, drain?]
    rcases s.writer with _ | v
    · exact .inl rfl
    · exact .inr rfl

end Handle

/-! ## Changes by which no callback is registered or called -/

/-- No drain callback was registered or called, and the marks are as they should be if they
    were before. -/
structure SparesDrains (w after : World) : Prop where
  marks : HalvesMarks w.handles → HalvesMarks after.handles
  waits : ∀ h wait, after.drain? h = some wait → w.drain? h = some wait
  number : after.nextDrain = w.nextDrain
  notes : Notes (fun e => e.event.SparesDrains ∧ (HalvesMarks w.handles → HalvesMarks e.handles))
    w after

theorem sparesDrains_refl : SparesDrains w w := ⟨id, fun _ _ => id, rfl, notes_refl⟩

theorem SparesDrains.trans (first : SparesDrains w middle) (second : SparesDrains middle after) :
    SparesDrains w after where
  marks := second.marks ∘ first.marks
  waits h wait := first.waits h wait ∘ second.waits h wait
  number := second.number.trans first.number
  notes := first.notes.trans
    (second.notes.mono fun _ noted => ⟨noted.1, noted.2 ∘ first.marks⟩)

theorem sparesDrains_of_handles (history : after.history = w.history)
    (number : after.nextDrain = w.nextDrain)
    (keeps : ∀ (h : HandleId) s', after.handles[h]? = some s' →
      (∃ s, w.handles[h]? = some s ∧ s.KeepsDrain s') ∨ s'.IsHalved ∧ s'.drain? = none) :
    SparesDrains w after where
  marks halves s' listed := by
    obtain ⟨h, known'⟩ := List.mem_iff_getElem?.mp listed
    rcases keeps h s' known' with ⟨s, known, kept⟩ | ⟨halved, -⟩
    · exact kept.halved (halves s (List.mem_of_getElem? known))
    · exact halved
  waits h wait waiting := by
    obtain ⟨s', known', found⟩ := Option.bind_eq_some_iff.mp waiting
    rcases keeps h s' known' with ⟨s, known, kept⟩ | ⟨-, none⟩
    · rcases kept.drain with none | same
      · rw [none] at found
        cases found
      · rw [World.drain?, known, Option.bind_some, ← same, found]
    · rw [none] at found
      cases found
  number := number
  notes := notes_of_same history

theorem sparesDrains_of_same (handles : after.handles = w.handles)
    (history : after.history = w.history) (number : after.nextDrain = w.nextDrain) :
    SparesDrains w after := by
  refine sparesDrains_of_handles history number fun h s known => ?_
  rw [handles] at known
  exact .inl ⟨s, known, Handle.keepsDrain_of_same rfl⟩

theorem sparesDrains_record {e : Event} (spares : e.SparesDrains) :
    SparesDrains w (w.record e) := ⟨id, fun _ _ => id, rfl, notes_record ⟨spares, id⟩⟩

theorem sparesDrains_modifyHandle {f : Handle → Handle} (keeps : ∀ s : Handle, s.KeepsDrain (f s)) :
    SparesDrains w (w.modifyHandle k f) := by
  refine sparesDrains_of_handles rfl rfl fun h s' known => .inl ?_
  rcases Books.getElem?_modify_cases known with ⟨rfl, s, before, rfl⟩ | ⟨-, same⟩
  · exact ⟨s, before, keeps s⟩
  · exact ⟨s', same, Handle.keepsDrain_of_same rfl⟩

/-- A change of a handle that leaves its write stream as it is. -/
theorem sparesDrains_modifyHandle_of_same {f : Handle → Handle}
    (same : ∀ s, (f s).writer = s.writer) : SparesDrains w (w.modifyHandle k f) :=
  sparesDrains_modifyHandle fun s => Handle.keepsDrain_of_same (same s)

theorem sparesDrains_modifyReader {f : Reader → Reader} :
    SparesDrains w (w.modifyReader k f) := sparesDrains_modifyHandle_of_same fun _ => rfl

theorem sparesDrains_modifyWriter {f : Writer → Writer}
    (marks : ∀ v, v.lowwater = v.highwater / 2 → (f v).lowwater = (f v).highwater / 2)
    (drain : ∀ v, (f v).drain = v.drain) : SparesDrains w (w.modifyWriter k f) :=
  sparesDrains_modifyHandle fun _ => Handle.keepsDrain_writer marks fun v => .inr (drain v)

theorem sparesDrains_sweep : SparesDrains w w.sweep := by
  -- a round of the sweep takes the registrations of handles that are gone, and adds none
  refine World.sweep_induct sparesDrains_refl fun v before => before.trans ?_
  refine sparesDrains_of_handles rfl rfl fun h s' known => .inl ?_
  rw [World.handles_sweepOnce] at known
  obtain ⟨s, found, rfl⟩ := Option.map_eq_some_iff.mp known
  refine ⟨s, found, ?_⟩
  split
  · exact Handle.keepsDrain_of_same rfl
  · exact Handle.keepsDrain_unregistered

theorem sparesDrains_strand {kind : StreamKind} : SparesDrains w (w.strand k kind) := by
  have left (remnants : List Remnant) : SparesDrains w { w with remnants } :=
    sparesDrains_of_same rfl rfl rfl
  exact (left _).trans (sparesDrains_modifyHandle fun _ => Handle.keepsDrain_unregistered)

theorem sparesDrains_submit (job : Job) : SparesDrains w (w.submit job) := by
  have queued (v : World) (same : v.handles = w.handles) (history : v.history = w.history)
      (number : v.nextDrain = w.nextDrain) : SparesDrains w (v.record (.submitted job.id)) :=
    (sparesDrains_of_same same history number).trans (sparesDrains_record ⟨rfl, rfl⟩)
  unfold World.submit
  split
  · exact queued _ rfl rfl rfl
  · exact sparesDrains_refl

theorem sparesDrains_accept {t : Transfer} {c : Completion} :
    SparesDrains w (w.accept k t c).2 := by
  have counted : SparesDrains w (w.modifyHandle k (·.taking c)) :=
    sparesDrains_modifyHandle_of_same fun _ => rfl
  exact (counted.trans (sparesDrains_record (e := .accepted ⟨w.nextOperation, k, t, c⟩)
    ⟨rfl, rfl⟩)).trans (sparesDrains_of_same rfl rfl rfl)

theorem sparesDrains_enqueue {t : Transfer} {c : Completion} :
    SparesDrains w (w.enqueue k t c) := sparesDrains_accept.trans (sparesDrains_submit _)

theorem sparesDrains_readingOn : SparesDrains w (w.readingOn k) := by
  rcases w.readingOn_cases k with same | ⟨stream, -, -, started⟩
  · rw [same]
    exact sparesDrains_refl
  · have marked : SparesDrains w (w.modifyReader k ({ · with busy := true })) :=
      sparesDrains_modifyReader
    rw [started]
    rcases w.startingRead_cases k stream with ⟨-, large⟩ | ⟨-, fits⟩
    · rwa [large]
    · rw [fits]
      exact marked.trans sparesDrains_enqueue

theorem SparesDrains.setSlot {f : Slot} {entry : SlotEntry} (before : SparesDrains w middle) :
    SparesDrains w (middle.setSlot f entry) := by
  have replaced (slots : List (Slot × SlotEntry)) (remnants : List Remnant) :
      SparesDrains middle { middle with slots, remnants } := sparesDrains_of_same rfl rfl rfl
  exact (before.trans (replaced _ _)).trans sparesDrains_sweep

/-- A handle that is opened has no streams yet. -/
theorem SparesDrains.addHandle {f : Slot} {owner : ContextId} {options : OpenOptions}
    {sink : Sink} {path : Bytes} {backend : BackendId} {native : Option BackendId}
    (before : SparesDrains w middle) :
    SparesDrains w (middle.addHandle f owner options sink path backend native) := by
  refine SparesDrains.setSlot (before.trans ?_)
  refine sparesDrains_of_handles rfl rfl fun h s' known => ?_
  rcases Books.getElem?_append_cases known with old | ⟨-, rfl⟩
  · exact .inl ⟨s', old, Handle.keepsDrain_of_same rfl⟩
  · exact .inr ⟨(fun v made => by cases made), rfl⟩

theorem sparesDrains_close {handler : Option (Callback Command)}
    (ok : w.close k handler = .ok after) : SparesDrains w after := by
  obtain ⟨s, -, rfl⟩ := except_map_eq_ok.mp ok
  have accepted : SparesDrains w (w.accept k .close (.close (handler.map w.handler))).2 :=
    sparesDrains_accept
  have closed := accepted.trans
    (sparesDrains_modifyHandle_of_same (k := k) (f := ({ · with closed := true })) fun _ => rfl)
  dsimp only
  split
  · exact closed.trans (sparesDrains_submit _)
  · exact closed.trans (sparesDrains_modifyHandle_of_same fun _ => rfl)

theorem sparesDrains_shutDown {origin : Origin} : SparesDrains w (w.shutDown origin) := by
  have shut (v : World) (same : v.handles = w.handles) (history : v.history = w.history)
      (number : v.nextDrain = w.nextDrain) : SparesDrains w (v.record .shutDown).sweep :=
    ((sparesDrains_of_same same history number).trans (sparesDrains_record ⟨rfl, rfl⟩)).trans
      sparesDrains_sweep
  exact shut _ rfl rfl rfl

/-- A move spares the drain callbacks, or it registers one, with or without a call right away,
    or it calls the one that waits. -/
theorem Move.sparesDrains_or (move : Move w after) : SparesDrains w after ∨
    (∃ h handler, w.onDrain h handler = .ok after ∧ after.hasDrained h = false) ∨
    (∃ h handler middle, w.onDrain h handler = .ok middle ∧ middle.hasDrained h = true ∧
      after = (middle.clearDrain h).record (.drained h w.nextDrain handler.tag)) ∨
    ∃ h wait, w.OnOwner h ∧ w.drain? h = some wait ∧ w.hasDrained h = true ∧
      after = (w.clearDrain h).record (.drained h wait.id wait.handler.tag) := by
  cases move with
  | awaitDrain accepted waits => exact .inr (.inl ⟨_, _, accepted, waits⟩)
  | drainAtOnce accepted drained => exact .inr (.inr (.inl ⟨_, _, _, accepted, drained, rfl⟩))
  | drained here waiting drained =>
    exact .inr (.inr (.inr ⟨_, _, here, World.drain?_eq.trans waiting, drained, rfl⟩))
  | openMemory accepted | openBackend held accepted =>
    obtain ⟨owner, -, rfl⟩ := except_map_eq_ok.mp accepted
    exact .inl (SparesDrains.addHandle (sparesDrains_of_same rfl rfl rfl))
  | openPath accepted =>
    obtain ⟨owner, descriptor, files, -, rfl⟩ := World.exists_openPath accepted
    exact .inl (SparesDrains.addHandle (sparesDrains_of_same rfl rfl rfl))
  | keep | giveUp => exact .inl sparesDrains_refl.setSlot
  | write accepted | flush accepted =>
    obtain ⟨s, -, rfl⟩ := except_map_eq_ok.mp accepted
    exact .inl sparesDrains_enqueue
  | read accepted =>
    obtain ⟨s, -, rfl⟩ := World.exists_read accepted
    exact .inl sparesDrains_enqueue
  | close accepted => exact .inl (sparesDrains_close accepted)
  | readStream f accepted =>
    obtain ⟨s, -, rfl⟩ := except_map_eq_ok.mp accepted
    exact .inl (SparesDrains.setSlot (sparesDrains_modifyHandle_of_same fun _ => rfl))
  | @writeStream _ k f accepted =>
    obtain ⟨s, checked, rfl⟩ := except_map_eq_ok.mp accepted
    refine .inl (SparesDrains.setSlot (sparesDrains_of_handles rfl rfl fun h s' known => ?_))
    -- the stream is made from the handle that was found, which is the one that is changed
    obtain ⟨found, -⟩ := World.check_eq_ok_iff.mp checked
    rcases Books.getElem?_modify_cases known with ⟨rfl, before, there, rfl⟩ | ⟨-, same⟩
    · obtain rfl := Option.some.inj (found.symm.trans there)
      exact .inl ⟨s, there, Handle.keepsDrain_writeStream⟩
    · exact .inl ⟨s', same, Handle.keepsDrain_of_same rfl⟩
  | listen accepted | resume accepted paused =>
    obtain ⟨s, -, rfl⟩ := except_map_eq_ok.mp accepted
    exact .inl (sparesDrains_modifyReader.trans sparesDrains_readingOn)
  | clearData accepted | onEnd accepted | onReadFailure accepted | pause accepted
  | resumeFlowing accepted flowing =>
    obtain ⟨s, -, rfl⟩ := except_map_eq_ok.mp accepted
    exact .inl sparesDrains_modifyReader
  | setChunkSize accepted =>
    obtain ⟨s, -, -, rfl⟩ := World.exists_setChunkSize accepted
    exact .inl sparesDrains_modifyReader
  | send got accepted =>
    obtain ⟨s, -, rfl⟩ := except_map_eq_ok.mp accepted
    exact .inl (sparesDrains_enqueue.trans
      (sparesDrains_modifyWriter (fun _ half => half) fun _ => rfl))
  | setQueueMax accepted =>
    obtain ⟨s, -, rfl⟩ := except_map_eq_ok.mp accepted
    exact .inl (sparesDrains_modifyWriter (fun _ _ => rfl) fun _ => rfl)
  | onWriteFailure accepted =>
    obtain ⟨s, -, rfl⟩ := except_map_eq_ok.mp accepted
    exact .inl (sparesDrains_modifyWriter (fun _ half => half) fun _ => rfl)
  | hold | adjust | execute => exact .inl (sparesDrains_of_same rfl rfl rfl)
  | sweep => exact .inl sparesDrains_sweep
  | strand h kind => exact .inl sparesDrains_strand
  | shutDown origin => exact .inl sparesDrains_shutDown
  | ran | panicking => exact .inl (sparesDrains_record ⟨rfl, rfl⟩)

/-! ## Deliveries -/

theorem sparesDrains_completing :
    SparesDrains w ((w.delivering job outcome rest).completing job outcome) := by
  have begun : SparesDrains w (w.delivering job outcome rest) := sparesDrains_of_same rfl rfl rfl
  have released : SparesDrains (w.delivering job outcome rest)
      ((w.delivering job outcome rest).modifyHandle job.handle (·.releasing job.completion)) :=
    sparesDrains_modifyHandle_of_same fun _ => rfl
  exact (begun.trans released).trans (sparesDrains_record ⟨rfl, rfl⟩)

theorem sparesDrains_toldSink {e : FileError} : SparesDrains w (w.toldSink k e) := by
  unfold World.toldSink
  split
  · exact sparesDrains_refl
  · exact sparesDrains_record ⟨rfl, rfl⟩

theorem sparesDrains_toldReadFailure {e : FileError} : SparesDrains w (w.toldReadFailure k e) := by
  unfold World.toldReadFailure
  split
  · exact sparesDrains_toldSink
  · exact sparesDrains_modifyReader.trans (sparesDrains_record ⟨rfl, rfl⟩)

theorem sparesDrains_toldWriteFailure {e : FileError} :
    SparesDrains w (w.toldWriteFailure k e) := by
  unfold World.toldWriteFailure
  split
  · exact sparesDrains_toldSink
  next r _ =>
    have called : SparesDrains w (w.modifyWriter k ({ · with failure := some r.called })) :=
      sparesDrains_modifyWriter (fun _ half => half) fun _ => rfl
    exact called.trans (sparesDrains_record ⟨rfl, rfl⟩)

theorem sparesDrains_toldChunk : SparesDrains w (w.toldChunk k outcome) := by
  have received : SparesDrains w (w.modifyReader k (·.receiving outcome)) :=
    sparesDrains_modifyReader
  rcases outcome with e | _ | ⟨first, more⟩
  · exact received.trans sparesDrains_toldReadFailure
  · refine received.trans ?_
    show SparesDrains _ (World.toldEnd _ k)
    unfold World.toldEnd
    split
    · exact sparesDrains_refl
    · exact sparesDrains_modifyReader.trans (sparesDrains_record ⟨rfl, rfl⟩)
  · refine received.trans ?_
    show SparesDrains _ (World.toldData _ k _)
    unfold World.toldData
    split
    · exact sparesDrains_refl
    · exact sparesDrains_modifyReader.trans (sparesDrains_record ⟨rfl, rfl⟩)

/-- Only after a write of the stream is the drain callback looked at. -/
theorem sparesDrains_told_or (w : World) (job : Job) (outcome : Outcome) :
    SparesDrains w (w.told job outcome) ∨ w.told job outcome = w.toldDrained job.handle := by
  have about : SparesDrains w (w.aboutToTell job) := by
    unfold World.aboutToTell
    split
    · exact sparesDrains_modifyHandle fun _ => Handle.keepsDrain_unregistered
    · exact sparesDrains_refl
  have handled :
      SparesDrains (w.aboutToTell job) ((w.aboutToTell job).toldHandler job outcome) := by
    unfold World.toldHandler
    split
    · exact sparesDrains_refl
    · exact sparesDrains_record ⟨rfl, rfl⟩
  by_cases looks : ∃ n bytes, job.completion = .send n ∧ outcome = .ok bytes
  · -- nobody else is called for a write that went well
    obtain ⟨n, bytes, send, rfl⟩ := looks
    right
    simp only [World.told, World.aboutToTell, World.toldHandler, World.toldWithoutHandler,
      Completion.handler?, send]
  · left
    refine (about.trans handled).trans ?_
    rw [World.told]
    generalize (w.aboutToTell job).toldHandler job outcome = v
    unfold World.toldWithoutHandler
    split
    · exact sparesDrains_toldChunk
    next send => exact absurd ⟨_, _, send, rfl⟩ looks
    · exact sparesDrains_toldWriteFailure
    · exact sparesDrains_toldSink
    · exact sparesDrains_toldSink
    · exact sparesDrains_refl

/-- A chore spares the drain callbacks, or it is a move. -/
theorem Chore.sparesDrains_or_move (chore : Chore w after) :
    SparesDrains w after ∨ Move w after := by
  cases chore with
  | move move => exact .inr move
  | delivered id => exact .inl (sparesDrains_record ⟨rfl, rfl⟩)
  | goOn here => exact .inl sparesDrains_readingOn
  | closeIfQuiet h =>
    left
    rw [Run.closeIfQuiet, exec_get_bind]
    split
    · exact sparesDrains_refl
    · split
      · split
        · exact sparesDrains_refl
        next job waits =>
          have taken : SparesDrains w (w.modifyHandle h ({ · with pendingClose := none })) :=
            sparesDrains_modifyHandle_of_same fun _ => rfl
          exact taken.trans (sparesDrains_submit job)
      · exact sparesDrains_refl
  | post | switch => exact .inl (sparesDrains_of_same rfl rfl rfl)

/-- A deed spares the drain callbacks, or it is a move. -/
theorem Deed.sparesDrains_or_move (deed : Deed w after) : SparesDrains w after ∨ Move w after := by
  cases deed with
  | chore chore => exact chore.sparesDrains_or_move
  | start task =>
    left
    cases task with
    | deliver => exact sparesDrains_refl
    | client | later => exact sparesDrains_record ⟨rfl, rfl⟩
  | @tell job outcome here =>
    rcases sparesDrains_told_or w job outcome with spares | same
    · exact .inl spares
    · rw [same]
      unfold World.toldDrained
      split
      · exact .inl sparesDrains_refl
      next wait waiting =>
        split
        next drained => exact .inr (.drained here waiting drained)
        · exact .inl sparesDrains_refl

/-! ## Workers -/

theorem sparesDrains_takeJob (takes : w.takeJob = some after) : SparesDrains w after := by
  obtain ⟨job, rest, -, rfl⟩ := World.exists_takeJob takes
  have moved : SparesDrains w { w with jobs := rest, running := w.running ++ [job] } :=
    sparesDrains_of_same rfl rfl rfl
  exact moved.trans (sparesDrains_record ⟨rfl, rfl⟩)

theorem sparesDrains_answer {call : Call} {a : Answer} {files : FileTree}
    {backends : List Backend} :
    SparesDrains w ({ w with files, backends }.answer job call a) := by
  have freed : SparesDrains w (({ w with files, backends } : World).withoutJob job) :=
    sparesDrains_of_same rfl rfl rfl
  have noted := freed.trans (sparesDrains_record (e := .native job.id job.handle call a) ⟨rfl, rfl⟩)
  unfold World.answer
  dsimp only
  split
  · exact noted.trans (sparesDrains_of_same rfl rfl rfl)
  · exact noted.trans (sparesDrains_of_same rfl rfl rfl)

theorem sparesDrains_finish : SparesDrains w (w.finish job outcome) := by
  unfold World.finish
  dsimp only
  split
  · exact sparesDrains_of_same rfl rfl rfl
  · exact sparesDrains_of_same rfl rfl rfl

end PinnedFile
