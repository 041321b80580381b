/-
  PinnedFile.Proofs.Streams.Calls

  The record of the calls on a read stream.

  Each call on a read stream that bears on its reading is on record, and so each entry of a
  history shows the calls that had been made by then.  Nearly all that happens leaves the
  record alone or adds to it, and does not have the stream go on; what has it go on is a call
  of the right kind on top of the record, and then the beginning of a read.
-/

import PinnedFile.Proofs.Streams.Reading

namespace PinnedFile

/-- The calls that were made on the read stream of a handle, among some handles, the latest
    first. -/
def readerCallsIn (handles : List Handle) (h : HandleId) : List ReaderCall :=
  (handles[h]?.map fun s => s.readStream.asked).getD []

/-- Behind the calls that were on record at an entry there are others, and one of them had
    the stream go on. -/
def AskedSince (h : HandleId) (calls : List ReaderCall) (f : Entry) : Prop :=
  ∃ later, calls = later ++ readerCallsIn f.handles h ∧ ∃ c ∈ later, c.asks = true

/-- Of the calls behind those that were on record at an entry, none had the stream go on. -/
def RestsSince (h : HandleId) (calls : List ReaderCall) (f : Entry) : Prop :=
  ∃ later, calls = later ++ readerCallsIn f.handles h ∧ ∀ c ∈ later, c.asks = false

/-- A read of the read stream of a handle is accepted. -/
def Event.IsReadOf (h : HandleId) : Event → Prop
  | .accepted a => a.IsChunkOf h
  | _ => False

/-- A read of the read stream of a handle has failed. -/
def Event.IsFailureOf (h : HandleId) : Event → Prop
  | .completed job (.error _) => job.IsChunkOf h
  | _ => False

/-- Whether what is completed is a read of a read stream. -/
def Completion.isChunk : Completion → Bool
  | .chunk => true
  | _ => false

theorem Job.isChunkOf_iff {h : HandleId} {a : Job} :
    a.IsChunkOf h ↔ a.handle = h ∧ a.completion.isChunk = true := by
  rcases a with ⟨id, k, t, c⟩
  cases c <;> simp [Job.IsChunkOf, Completion.isChunk]

instance (h : HandleId) (a : Job) : Decidable (a.IsChunkOf h) :=
  decidable_of_iff _ Job.isChunkOf_iff.symm

theorem Event.isReadOf_iff {h : HandleId} {event : Event} :
    event.IsReadOf h ↔ event.accepted?.any (fun a => a.IsChunkOf h) = true := by
  cases event <;> simp [IsReadOf, accepted?]

theorem Event.isFailureOf_iff {h : HandleId} {event : Event} :
    event.IsFailureOf h ↔
      event.completed?.any (fun (a, outcome) => a.IsChunkOf h && !outcome.isOk) = true := by
  cases event with
  | completed job outcome =>
    rcases outcome with error | bytes <;> simp [IsFailureOf, completed?, Except.isOk, Except.toBool]
  | _ => simp [IsFailureOf, completed?]

instance (h : HandleId) (event : Event) : Decidable (event.IsReadOf h) :=
  decidable_of_iff _ Event.isReadOf_iff.symm

instance (h : HandleId) (event : Event) : Decidable (event.IsFailureOf h) :=
  decidable_of_iff _ Event.isFailureOf_iff.symm

/-- A handle whose read stream is as busy as it was, with what was called on record. -/
structure Handle.KeepsRecord (s s' : Handle) : Prop where
  busy : s'.readStream.busy = s.readStream.busy
  asked : s.readStream.asked <:+ s'.readStream.asked
  sized : s'.readStream.chunkSize = s.readStream.chunkSize ∨
    .resize s'.readStream.chunkSize ∈ s'.readStream.asked
  readChunk : s'.readChunk = s.readChunk
  paused : s.readStream.PausesAsAsked → s'.readStream.PausesAsAsked

/-- A handle whose read stream was not called upon. -/
structure Handle.AsksNothing (s s' : Handle) : Prop where
  busy : s'.readStream.busy = s.readStream.busy
  opened : s'.closed = false → s.closed = false
  rests : s.readStream.Rests s'.readStream
  readChunk : s'.readChunk = s.readChunk

/-- No read of a stream was begun or ended, and what was called on it is on record. -/
structure KeepsRecord (h : HandleId) (w after : World) : Prop where
  remains : Remains Handle.KeepsRecord w.handles[h]? after.handles[h]?
  notes : Notes (·.event.IsNoChunk h) w after

/-- No read of a stream was begun or ended, and the stream was not called upon. -/
structure AsksNothing (h : HandleId) (w after : World) : Prop where
  remains : Remains Handle.AsksNothing w.handles[h]? after.handles[h]?
  notes : Notes (·.event.IsNoChunk h) w after

section Record

variable {mode : Mode} {h k : HandleId} {w after : World} {s s' : Handle} {a job : Job}
  {outcome : Outcome} {rest : Queue Task} {e f : Entry} {event : Event}
  {calls later : List ReaderCall} {r : Reader}

theorem Event.IsNoChunk.not_failure (none : event.IsNoChunk h) : ¬ event.IsFailureOf h := by
  cases event with
  | completed job outcome =>
    rcases outcome with error | bytes
    · exact none
    · exact id
  | _ => exact id

theorem Event.IsNoChunk.not_read (none : event.IsNoChunk h) : ¬ event.IsReadOf h := by
  cases event with
  | accepted a => exact none
  | _ => exact id

theorem Event.IsClients.not_failure (clients : event.IsClients) : ¬ event.IsFailureOf h := by
  cases event with
  | completed => cases clients
  | _ => exact id

theorem AskedSince.grown (asked : AskedSince h calls f) (more : calls <:+ later) :
    AskedSince h later f := by
  obtain ⟨since, rfl, c, listed, asks⟩ := asked
  obtain ⟨new, rfl⟩ := more
  exact ⟨new ++ since, (List.append_assoc ..).symm, c, List.mem_append_right new listed, asks⟩

/-- A call that has the stream go on is made on top of all that were made before. -/
theorem askedSince_cons {c : ReaderCall} (asks : c.asks = true)
    (grown : readerCallsIn f.handles h <:+ calls) : AskedSince h (c :: calls) f := by
  obtain ⟨since, rfl⟩ := grown
  exact ⟨c :: since, rfl, c, List.mem_cons_self, asks⟩

theorem RestsSince.grown (rests : RestsSince h calls f)
    (more : ∃ new, later = new ++ calls ∧ ∀ c ∈ new, c.asks = false) : RestsSince h later f := by
  obtain ⟨since, rfl, quiet⟩ := rests
  obtain ⟨new, rfl, quiet'⟩ := more
  refine ⟨new ++ since, (List.append_assoc ..).symm, fun c listed => ?_⟩
  rcases List.mem_append.mp listed with late | early
  · exact quiet' c late
  · exact quiet c early

theorem readerCallsIn_of_known {handles : List Handle} (known : handles[h]? = some s) :
    readerCallsIn handles h = s.readStream.asked := by
  rw [readerCallsIn, known, Option.map_some, Option.getD_some]

/-! ## What keeps the record -/

theorem Handle.keepsRecord_refl : s.KeepsRecord s :=
  ⟨rfl, List.suffix_refl _, .inl rfl, rfl, id⟩

theorem Handle.AsksNothing.keepsRecord (nothing : s.AsksNothing s') : s.KeepsRecord s' where
  busy := nothing.busy
  asked := by
    obtain ⟨calls, after, -⟩ := nothing.rests.asked
    exact ⟨calls, after.symm⟩
  sized := nothing.rests.sized
  readChunk := nothing.readChunk
  paused := nothing.rests.paused

theorem Handle.Stays.asksNothing (stays : s.Stays s') : s.AsksNothing s' :=
  ⟨stays.busy, stays.opened, stays.rests, stays.readChunk⟩

theorem Handle.asksNothing_refl : s.AsksNothing s := Handle.stays_refl.asksNothing

theorem QuietFor.asksNothing (quiet : QuietFor h w after) : AsksNothing h w after where
  remains := quiet.remains.mono fun _ _ => Handle.Stays.asksNothing
  notes := quiet.readsNothing.notes.mono fun _ told => told.1

theorem AsksNothing.keepsRecord (nothing : AsksNothing h w after) : KeepsRecord h w after where
  remains := nothing.remains.mono fun _ _ => Handle.AsksNothing.keepsRecord
  notes := nothing.notes

theorem asksNothing_record (none : event.IsNoChunk h) : AsksNothing h w (w.record event) where
  remains := remains_refl fun _ => Handle.asksNothing_refl
  notes := notes_record none

/-- The record of the calls is only added to. -/
theorem KeepsRecord.recorded (keeps : KeepsRecord h w after) :
    readerCallsIn w.handles h <:+ readerCallsIn after.handles h := by
  have remains := keeps.remains
  unfold readerCallsIn
  generalize w.handles[h]? = one, after.handles[h]? = two at remains ⊢
  cases remains with
  | unknown => exact List.suffix_refl _
  | opened new => exact List.nil_suffix
  | known related => exact related.asked

/-- A stream that is not called upon has no such call added to its record. -/
theorem AsksNothing.recorded (nothing : AsksNothing h w after) : ∃ new,
    readerCallsIn after.handles h = new ++ readerCallsIn w.handles h ∧
      ∀ c ∈ new, c.asks = false := by
  have remains := nothing.remains
  unfold readerCallsIn
  generalize w.handles[h]? = one, after.handles[h]? = two at remains ⊢
  cases remains with
  | unknown => exact ⟨[], rfl, fun _ listed => by cases listed⟩
  | @opened s new => exact ⟨s.readStream.asked, (List.append_nil _).symm, new.asked⟩
  | known related => exact related.rests.asked

/-- What the read stream of a handle was before nothing of it was begun or ended. -/
theorem KeepsRecord.handle (keeps : KeepsRecord h w after) (known : after.handles[h]? = some s') :
    s'.IsNew ∨ ∃ s, w.handles[h]? = some s ∧ s.KeepsRecord s' := by
  have remains := keeps.remains
  rw [known] at remains
  generalize w.handles[h]? = before at remains
  cases remains with
  | opened new => exact .inl new
  | known related => exact .inr ⟨_, rfl, related⟩

/-- A failure that is in the history was there before what tells of none. -/
theorem Notes.failure_before (notes : Notes (fun e => ¬ e.event.IsFailureOf h) w after)
    (listed : f ∈ after.history) (failed : f.event.IsFailureOf h) : f ∈ w.history := by
  obtain ⟨new, added, none⟩ := notes
  rw [added] at listed
  rcases List.mem_append.mp listed with now | before
  · exact absurd failed (none f now)
  · exact before

theorem KeepsRecord.failures (keeps : KeepsRecord h w after) :
    Notes (fun e => ¬ e.event.IsFailureOf h) w after :=
  keeps.notes.mono fun _ none => none.not_failure

/-! ## Being called upon -/

theorem Handle.keepsRecord_reader {f : Reader → Reader} (busy : ∀ r, (f r).busy = r.busy)
    (asked : ∀ r, r.asked <:+ (f r).asked) (size : ∀ r, (f r).chunkSize = r.chunkSize)
    (paused : ∀ r, r.PausesAsAsked → (f r).PausesAsAsked) :
    s.KeepsRecord { s with reader := s.reader.map f } := by
  rcases made : s.reader with _ | r
  · have same : { s with reader := Option.map f none } = s := by
      rw [Option.map_none, ← made]
    rw [same]
    exact Handle.keepsRecord_refl
  · have before : s.readStream = r := by rw [Handle.readStream, made, Option.getD_some]
    refine ⟨?_, ?_, .inl ?_, rfl, ?_⟩
    · rw [before]
      exact busy r
    · rw [before]
      exact asked r
    · rw [before]
      exact size r
    · rw [before]
      exact paused r

theorem keepsRecord_modifyReader {f : Reader → Reader} (busy : ∀ r, (f r).busy = r.busy)
    (asked : ∀ r, r.asked <:+ (f r).asked) (size : ∀ r, (f r).chunkSize = r.chunkSize)
    (paused : ∀ r, r.PausesAsAsked → (f r).PausesAsAsked) :
    KeepsRecord h w (w.modifyReader h f) where
  remains := remains_modify (fun _ => Handle.keepsRecord_refl)
    fun _ _ => Handle.keepsRecord_reader busy asked size paused
  notes := notes_refl

/-- A change of the read stream by a call puts the call on record. -/
theorem readerCallsIn_modifyReader {f : Reader → Reader} {r : Reader} {c : ReaderCall}
    (made : w.reader? h = some r) (called : (f r).asked = c :: r.asked) :
    readerCallsIn (w.modifyReader h f).handles h = c :: readerCallsIn w.handles h := by
  obtain ⟨s, known, made⟩ := Option.bind_eq_some_iff.mp made
  have now : (w.modifyReader h f).handles[h]? = some { s with reader := s.reader.map f } := by
    rw [World.modifyReader, World.modifyHandle, List.getElem?_modify_eq, known]
    rfl
  rw [readerCallsIn_of_known now, readerCallsIn_of_known known, Handle.readStream,
    Handle.readStream, made, Option.map_some, Option.getD_some, Option.getD_some, called]

/-- What does not change of a read stream. -/
theorem figure_modifyReader {α : Type} {g : Reader → α} {zero : α} {f : Reader → Reader}
    (same : ∀ r, g (f r) = g r) :
    ((w.modifyReader k f).handles[h]?.map fun s => g s.readStream).getD zero =
      (w.handles[h]?.map fun s => g s.readStream).getD zero :=
  figure_modify fun s => by
    show g ((s.reader.map f).getD _) = g (s.reader.getD _)
    rcases s.reader with _ | r
    · rfl
    · exact same r

/-- A change of a read stream that is no call leaves the record as it is. -/
theorem readerCallsIn_modifyReader_aside {f : Reader → Reader}
    (same : ∀ r, (f r).asked = r.asked) :
    readerCallsIn (w.modifyReader k f).handles h = readerCallsIn w.handles h :=
  figure_modifyReader same

/-- What the code of a client does either does not call upon the stream, or it does and the
    stream goes on. -/
theorem Change.asks (change : Change h w after) : AsksNothing h w after ∨
    ∃ v, KeepsRecord h w v ∧ v.history = w.history ∧ after = v.readingOn h ∧
      (v.wantsRead h = true →
        ∃ c : ReaderCall, c.asks = true ∧
          readerCallsIn v.handles h = c :: readerCallsIn w.handles h) := by
  cases change with
  | quiet quiet => exact .inl quiet.asksNothing
  | listen listener =>
    refine .inr ⟨_, keepsRecord_modifyReader (f := (·.listening listener)) (fun _ => rfl)
      (fun r => List.suffix_cons _ r.asked) (fun _ => rfl) fun _ => id, rfl, rfl,
      fun wanted => ?_⟩
    rcases made : w.reader? h with _ | r
    · -- without a stream nothing is wanted
      rw [World.wantsRead, World.reader?_modifyReader, made] at wanted
      cases wanted
    · rw [World.wantsRead, World.reader?_modifyReader, made] at wanted
      refine ⟨.listen r.paused, ?_, readerCallsIn_modifyReader made rfl⟩
      exact (Bool.and_eq_true_iff.mp wanted).1
  | resume paused =>
    refine .inr ⟨_, keepsRecord_modifyReader (f := Reader.resumed) (fun _ => rfl)
      (fun r => List.suffix_cons _ r.asked) (fun _ => rfl) fun _ _ => rfl, rfl, rfl, fun _ => ?_⟩
    rcases made : w.reader? h with _ | r
    · rw [made] at paused
      cases paused
    · -- only a call that ends a pause has the stream go on
      rw [made, Option.any_some] at paused
      exact ⟨.resume r.paused, paused, readerCallsIn_modifyReader made rfl⟩
  | @send s data got known =>
    have plain : Completion.send data.length ≠ .chunk := nofun
    refine .inl ⟨?_, (notes_enqueue_chunkless plain).mono fun _ told => told.1⟩
    rw [World.modifyWriter, World.modifyHandle, World.handles_enqueue, List.modify_modify_eq]
    exact remains_modify (fun _ => Handle.asksNothing_refl)
      fun _ _ => ⟨rfl, id, Reader.rests_refl, rfl⟩
  | @awaitDrain wait waits =>
    refine .inl ⟨?_, ⟨[_], rfl, fun e listed => List.mem_singleton.mp listed ▸ trivial⟩⟩
    exact remains_modify (fun _ => Handle.asksNothing_refl)
      fun _ _ => ⟨rfl, id, Reader.rests_refl, rfl⟩

/-! ## The beginning of a read -/

/-- The start of a read leaves the stream as it is, but for the mark. -/
theorem handle_startingRead (idle : w.idleReader? h = some r) : ∃ s s',
    w.handles[h]? = some s ∧ s.readStream = r ∧ r.busy = false ∧
    (w.startingRead h r).handles[h]? = some s' ∧ s'.readStream = { r with busy := true } ∧
    s'.readChunk = s.readChunk := by
  obtain ⟨s, known, made, waits, -⟩ := World.idleReader?_eq_some idle
  have stream : s.readStream = r := by rw [Handle.readStream, made, Option.getD_some]
  let s' : Handle := { s with reader := some { r with busy := true } }
  have marked : (w.modifyReader h ({ · with busy := true })).handles[h]? = some s' := by
    simp [s', World.modifyReader, World.modifyHandle, known, made]
  rcases w.startingRead_cases h r with ⟨-, same⟩ | ⟨-, same⟩
  · rw [same]
    exact ⟨s, s', known, stream, waits, marked, rfl, rfl⟩
  · refine ⟨s, s'.taking .chunk, known, stream, waits, ?_, rfl, rfl⟩
    rw [same, World.handles_enqueue, List.getElem?_modify_eq, marked]
    rfl

/-- What a stream begins when it goes on adds nothing to the calls on record. -/
theorem readerCallsIn_readingOn :
    readerCallsIn (w.readingOn h).handles h = readerCallsIn w.handles h := by
  rcases w.readingOn_cases h with same | ⟨r, -, idle, started⟩
  · rw [same]
  · obtain ⟨s, s', known, stream, -, now, marked, -⟩ := handle_startingRead idle
    rw [started, readerCallsIn_of_known known, readerCallsIn_of_known now, stream, marked]

theorem failures_readingOn : Notes (fun e => ¬ e.event.IsFailureOf h) w (w.readingOn h) :=
  w.notes_readingOn.mono fun _ told => told.1.not_failure

/-- A read that is accepted is noted with the calls on record, and then it is submitted. -/
theorem history_enqueue {t : Transfer} {c : Completion} : ∃ new,
    (w.enqueue h t c).history = new ++ ⟨w.context, .accepted ⟨w.nextOperation, h, t, c⟩,
      w.handles.modify h (·.taking c)⟩ :: w.history ∧ ∀ e ∈ new, e.event.IsNoChunk k := by
  unfold World.enqueue World.submit
  dsimp only
  split
  · exact ⟨[_], rfl, fun e listed => List.mem_singleton.mp listed ▸ trivial⟩
  · exact ⟨[], rfl, fun e listed => by cases listed⟩

/-! ## The end of a read -/

/-- An outcome other than that of a read of the stream reaches the handle. -/
theorem asksNothing_arriving (own : job.handle = h) (plain : ¬ job.IsChunkOf h) :
    AsksNothing h w (w.arriving job outcome rest) := by
  rw [World.arriving_plain own plain]
  subst own
  refine ⟨?_, ⟨[_], rfl, fun e listed => List.mem_singleton.mp listed ▸ plain⟩⟩
  exact remains_modify (fun _ => Handle.asksNothing_refl)
    fun _ _ => ⟨rfl, id, Reader.rests_refl, rfl⟩

/-- After an outcome has reached its handle, telling does not call upon the stream. -/
theorem asksNothing_telling (v : World) (job : Job) (outcome : Outcome) (rest : Queue Task) :
    ∃ v', QuietFor h (v.arriving job outcome rest) v' ∧
      AsksNothing h v' (v.telling job outcome rest) := by
  obtain ⟨v', quiet, told | ⟨e, reading, told⟩⟩ := v.telling_record (h := h) job outcome rest
  · exact ⟨v', quiet, told ▸ quietFor_refl.asksNothing⟩
  · exact ⟨v', quiet, told ▸ asksNothing_record reading.isNoChunk⟩

/-- The handle when the outcome of a read has reached it. -/
theorem handle_of_arriving (own : job.IsChunkOf h) :
    (w.arriving job outcome rest).handles[h]? = w.handles[h]?.map fun s =>
      { s.releasing job.completion with reader := s.reader.map (·.receiving outcome) } := by
  obtain ⟨rfl, chunk⟩ := own
  rw [World.arriving_chunk chunk, World.modifyReader, World.modifyHandle,
    List.getElem?_modify_eq, World.completing]
  show Option.map _ ((w.handles.modify job.handle _)[job.handle]?) = _
  rw [List.getElem?_modify_eq, Option.map_eq_map, Option.map_map]
  rfl

theorem Reader.asked_receiving (r : Reader) (outcome : Outcome) :
    (r.receiving outcome).asked = r.asked ∧
    (r.receiving outcome).chunkSize = r.chunkSize ∧ (r.receiving outcome).busy = false := by
  rcases outcome with error | _ | ⟨first, more⟩ <;> exact ⟨rfl, rfl, rfl⟩

/-- The calls on record at the entry of an outcome are those that were on record before. -/
theorem readerCallsIn_completing :
    readerCallsIn ((w.delivering job outcome rest).completing job outcome).handles h =
      readerCallsIn w.handles h := figure_modify fun _ => rfl

/-- The outcome of a read adds nothing to the calls on record. -/
theorem readerCallsIn_arriving (own : job.IsChunkOf h) :
    readerCallsIn (w.arriving job outcome rest).handles h = readerCallsIn w.handles h := by
  rw [World.arriving_chunk own.2,
    readerCallsIn_modifyReader_aside fun r => (r.asked_receiving outcome).1,
    readerCallsIn_completing]

end Record

end PinnedFile
