/-
  PinnedFile.Proofs.Streams.Holding

  What a pause does to a read stream.

  A pause is in force from the call that makes it to the first call that ends one, so the
  calls on record at an entry of a history tell which pauses were in force there.  No read is
  begun under a pause.  The one read that may be under way when it is made is thus all that is
  completed under it, and all that is still handed to a listener is what that read came to.
-/

import PinnedFile.Proofs.Streams.Continuing

namespace PinnedFile

/-- A call on a read stream that ends a pause, if there is one. -/
def ReaderCall.resumes : ReaderCall → Bool
  | .resume _ => true
  | _ => false

/-- After these calls, the latest first, the pause is in force that was made behind the calls
    `before`. -/
def PausedSince (before calls : List ReaderCall) : Prop :=
  ∃ since, calls = since ++ .pause :: before ∧ ∀ c ∈ since, c.resumes = false

/-- At an entry the pause of a read stream is in force that was made behind the calls
    `before`. -/
def Entry.UnderPause (h : HandleId) (before : List ReaderCall) (e : Entry) : Prop :=
  PausedSince before (readerCallsIn e.handles h)

/-- The pause of a read stream is in force that was made behind the calls `before`. -/
def World.UnderPause (w : World) (h : HandleId) (before : List ReaderCall) : Prop :=
  PausedSince before (readerCallsIn w.handles h)

namespace Event

/-- A read of the read stream of a handle has come to its end. -/
def EndsReadOf (h : HandleId) : Event → Prop
  | .completed job _ => job.IsChunkOf h
  | _ => False

/-- A chunk is handed to the data listener of a handle. -/
def IsDataOf (h : HandleId) : Event → Prop
  | .data k .. => k = h
  | _ => False

instance (h : HandleId) (event : Event) : Decidable (event.IsDataOf h) :=
  decidable_of_iff ((match event with | .data k .. => decide (k = h) | _ => false) = true)
    (by cases event <;> simp [IsDataOf])

/-- A read of the read stream of a handle is begun or has ended, or a chunk is handed on. -/
def IsStep (h : HandleId) (event : Event) : Prop :=
  event.IsReadOf h ∨ event.EndsReadOf h ∨ event.IsDataOf h

end Event

/-- An entry of a chunk that is handed on: under the same calls a read has ended, and under the
    pauses that are in force no chunk was handed on before. -/
structure Entry.HandsOn (h : HandleId) (e : Entry) (older : List Entry) : Prop where
  ended : ∃ c ∈ older, c.event.EndsReadOf h ∧
    readerCallsIn c.handles h = readerCallsIn e.handles h
  first : ∀ before, e.UnderPause h before →
    ∀ f ∈ older, f.event.IsDataOf h → ¬ f.UnderPause h before

/-- What a read stream does agrees with the pauses on its record. -/
structure Holding (h : HandleId) (w : World) : Prop where
  asAsked : ∀ s, w.handles[h]? = some s → s.readStream.PausesAsAsked
  recorded : ∀ f ∈ w.history, f.event.IsStep h →
    readerCallsIn f.handles h <:+ readerCallsIn w.handles h
  ordered : Throughout (fun e older => e.event.IsStep h → ∀ f ∈ older, f.event.IsStep h →
    readerCallsIn f.handles h <:+ readerCallsIn e.handles h) w.history
  flowing : ∀ e ∈ w.history, e.event.IsReadOf h →
    ReaderCall.leavesPaused (readerCallsIn e.handles h) = false
  /-- As long as a read is under way that was begun before a pause, none has ended under it. -/
  spent : ∀ before, w.UnderPause h before → w.isReading h = true →
    ∀ c ∈ w.history, c.event.EndsReadOf h → ¬ c.UnderPause h before
  handed : Throughout (fun e older => e.event.IsDataOf h → e.HandsOn h older) w.history

section Holding

variable {mode : Mode} {h k : HandleId} {w after : World} {s : Handle} {job : Job}
  {outcome : Outcome} {rest : Queue Task} {e f : Entry} {event : Event}
  {before calls prior : List ReaderCall} {r : Reader} {older : List Entry}

/-! ## Pauses on record -/

theorem PausedSince.leavesPaused (paused : PausedSince before calls) :
    ReaderCall.leavesPaused calls = true := by
  obtain ⟨since, rfl, none⟩ := paused
  induction since with
  | nil => rfl
  | cons c since ih =>
    have still := ih fun c listed => none c (List.mem_cons_of_mem _ listed)
    have quiet := none c List.mem_cons_self
    cases c with
    | resume => cases quiet
    | pause => rfl
    | listen | clear | resize => exact still

/-- Of the calls that had been made earlier, either all were made before the pause or the pause
    was in force already. -/
theorem PausedSince.earlier (paused : PausedSince before calls) (suffix : prior <:+ calls) :
    prior <:+ before ∨ PausedSince before prior := by
  obtain ⟨since, split, none⟩ := paused
  have pause : .pause :: before <:+ calls := ⟨since, split.symm⟩
  rcases List.suffix_or_suffix_of_suffix suffix pause with behind | ⟨some, rfl⟩
  · rcases List.suffix_cons_iff.mp behind with rfl | old
    · exact .inr ⟨[], rfl, fun c listed => by cases listed⟩
    · exact .inl old
  · -- the calls since the pause that had been made by then are among all since the pause
    obtain ⟨late, same⟩ := suffix
    have within : late ++ some = since :=
      List.append_cancel_right ((List.append_assoc ..).trans (same.trans split))
    exact .inr ⟨some, rfl, fun c listed => none c (within ▸ List.mem_append_right late listed)⟩

/-- Before it is made a pause is not in force. -/
theorem not_pausedSince_of_suffix (suffix : prior <:+ before) : ¬ PausedSince before prior := by
  rintro ⟨since, rfl, -⟩
  have length := suffix.length_le
  simp only [List.length_append, List.length_cons] at length
  omega

/-- A pause that is accepted is in force. -/
theorem underPause_of_pause (made : (w.reader? h).isSome = true)
    (accepted : w.pause h = .ok after) :
    after.UnderPause h (readerCallsIn w.handles h) := by
  obtain ⟨s, -, rfl⟩ := except_map_eq_ok.mp accepted
  obtain ⟨r, found⟩ := Option.isSome_iff_exists.mp made
  exact ⟨[], readerCallsIn_modifyReader found rfl, fun c listed => by cases listed⟩

/-! ## What is no step of the stream -/

theorem Event.IsQuietFor.not_isStep (quiet : event.IsQuietFor h) : ¬ event.IsStep h := by
  rintro (reads | ends | hands)
  · cases event with
    | accepted a =>
      have plain := quiet reads.1
      rw [reads.2] at plain
      cases plain
    | _ => cases reads
  · cases event with
    | completed => exact quiet ends.1
    | _ => cases ends
  · cases event with
    | data => exact quiet hands
    | _ => cases hands

theorem Event.IsNoChunk.not_isStep (none : event.IsNoChunk h) (plain : ¬ event.IsDataOf h) :
    ¬ event.IsStep h := by
  rintro (reads | ends | hands)
  · exact none.not_read reads
  · cases event with
    | completed => exact none ends
    | _ => cases ends
  · exact plain hands

theorem Event.IsClients.not_isDataOf (clients : event.IsClients) : ¬ event.IsDataOf h := by
  cases event with
  | data => cases clients
  | _ => exact id

/-- The law is kept by whatever is no step of the stream, if what is called is on record. -/
theorem Holding.keepsRecord (holding : Holding h w) (keeps : KeepsRecord h w after)
    (aside : Notes (fun e => ¬ e.event.IsStep h) w after) : Holding h after := by
  have same : after.isReading h = w.isReading h :=
    keeps.remains.figure (fun _ => Handle.IsNew.busy) fun _ _ => Handle.KeepsRecord.busy
  obtain ⟨new, added, none⟩ := aside
  have old (f : Entry) (listed : f ∈ after.history) (step : f.event.IsStep h) : f ∈ w.history := by
    rw [added] at listed
    rcases List.mem_append.mp listed with now | before
    · exact absurd step (none f now)
    · exact before
  constructor
  case asAsked =>
    intro s' known
    rcases keeps.handle known with new | ⟨s, before, kept⟩
    · exact new.paused
    · exact kept.paused (holding.asAsked s before)
  case recorded =>
    intro f listed step
    exact (holding.recorded f (old f listed step) step).trans keeps.recorded
  case ordered =>
    rw [added]
    exact holding.ordered.append fun e listed _ step => absurd step (none e listed)
  case flowing =>
    intro e listed reads
    exact holding.flowing e (old e listed (.inl reads)) reads
  case spent =>
    intro before paused busy c listed ends under
    have listed := old c listed (.inr (.inl ends))
    -- a pause that was made just now is behind all that has happened
    rcases PausedSince.earlier paused keeps.recorded with behind | paused
    · exact not_pausedSince_of_suffix ((holding.recorded c listed (.inr (.inl ends))).trans behind)
        under
    · exact holding.spent before paused (same.symm.trans busy) c listed ends under
  case handed =>
    rw [added]
    exact holding.handed.append fun e listed _ hands =>
      absurd (.inr (.inr hands)) (none e listed)

theorem Holding.quiet (holding : Holding h w) (quiet : QuietFor h w after) : Holding h after :=
  holding.keepsRecord quiet.asksNothing.keepsRecord
    (quiet.notes.mono fun _ told => told.1.not_isStep)

theorem Holding.record (holding : Holding h w) (none : event.IsNoChunk h)
    (plain : ¬ event.IsDataOf h) : Holding h (w.record event) :=
  holding.keepsRecord (asksNothing_record none).keepsRecord (notes_record (none.not_isStep plain))

/-! ## The steps of a stream -/

/-- A step that the stream makes under the calls that are on record. -/
theorem Holding.ordered_cons (holding : Holding h w)
    (here : readerCallsIn e.handles h = readerCallsIn w.handles h) :
    Throughout (fun e older => e.event.IsStep h → ∀ f ∈ older, f.event.IsStep h →
      readerCallsIn f.handles h <:+ readerCallsIn e.handles h) (e :: w.history) :=
  holding.ordered.cons fun _ f listed step => by
    rw [here]
    exact holding.recorded f listed step

theorem Holding.recorded_cons (holding : Holding h w)
    (here : readerCallsIn e.handles h = readerCallsIn w.handles h)
    (same : readerCallsIn after.handles h = readerCallsIn w.handles h)
    (listed : f ∈ e :: w.history) (step : f.event.IsStep h) :
    readerCallsIn f.handles h <:+ readerCallsIn after.handles h := by
  rw [same]
  rcases List.mem_cons.mp listed with rfl | old
  · rw [here]
  · exact holding.recorded f old step

/-- A stream goes on only if no pause is in force. -/
theorem Holding.leavesPaused_of_wantsRead (holding : Holding h w) (wanted : w.wantsRead h = true) :
    ReaderCall.leavesPaused (readerCallsIn w.handles h) = false := by
  obtain ⟨r, made, wants⟩ := (Option.any_eq_true _ _).mp wanted
  obtain ⟨s, known, made⟩ := Option.bind_eq_some_iff.mp made
  have stream : s.readStream = r := by rw [Handle.readStream, made, Option.getD_some]
  have asAsked : r.paused = ReaderCall.leavesPaused r.asked := stream ▸ holding.asAsked s known
  simp only [Bool.and_eq_true, Bool.not_eq_true'] at wants
  rw [readerCallsIn_of_known known, stream, ← asAsked, wants.1]

theorem not_underPause_of_flowing
    (flows : ReaderCall.leavesPaused (readerCallsIn w.handles h) = false) :
    ¬ w.UnderPause h before := fun paused => by
  rw [PausedSince.leavesPaused paused] at flows
  cases flows

/-- A stream under a pause is paused. -/
theorem Holding.paused (holding : Holding h w) (under : w.UnderPause h before) :
    (w.reader? h).any Reader.paused = true := by
  have leaves := PausedSince.leavesPaused under
  rcases known : w.handles[h]? with _ | s
  · rw [readerCallsIn, known] at leaves
    cases leaves
  · have asAsked : s.readStream.paused = ReaderCall.leavesPaused s.readStream.asked :=
      holding.asAsked s known
    rw [readerCallsIn_of_known known, ← asAsked] at leaves
    rw [World.reader?, known, Option.bind_some]
    rcases made : s.reader with _ | r
    · rw [Handle.readStream, made] at leaves
      cases leaves
    · rwa [Handle.readStream, made, Option.getD_some] at leaves

/-- A stream that is marked as busy, with nothing noted of it. -/
theorem Holding.marked (holding : Holding h w)
    (flows : ReaderCall.leavesPaused (readerCallsIn w.handles h) = false) :
    Holding h (w.modifyReader h ({ · with busy := true })) := by
  have same : readerCallsIn (w.modifyReader h ({ · with busy := true })).handles h =
      readerCallsIn w.handles h := readerCallsIn_modifyReader_aside fun _ => rfl
  constructor
  case asAsked =>
    intro s' known
    rw [World.modifyReader, World.modifyHandle, List.getElem?_modify_eq] at known
    obtain ⟨s, before, rfl⟩ := Option.map_eq_some_iff.mp known
    have asAsked := holding.asAsked s before
    rw [Handle.readStream] at asAsked ⊢
    rcases made : s.reader with _ | r
    · rwa [made] at asAsked
    · rwa [made] at asAsked
  case recorded =>
    intro f listed step
    rw [same]
    exact holding.recorded f listed step
  case ordered => exact holding.ordered
  case flowing => exact holding.flowing
  case spent =>
    intro before paused
    exact absurd paused (not_underPause_of_flowing (same.symm ▸ flows))
  case handed => exact holding.handed

/-- A read is accepted while no pause is in force. -/
theorem Holding.accept {t : Transfer} (holding : Holding h w)
    (flows : ReaderCall.leavesPaused (readerCallsIn w.handles h) = false) :
    Holding h (w.accept h t .chunk).2 := by
  let e : Entry := ⟨w.context, .accepted ⟨w.nextOperation, h, t, .chunk⟩,
    w.handles.modify h (·.taking .chunk)⟩
  have here : readerCallsIn e.handles h = readerCallsIn w.handles h := figure_modify fun _ => rfl
  have history : (w.accept h t .chunk).2.history = e :: w.history := rfl
  have same : readerCallsIn (w.accept h t .chunk).2.handles h = readerCallsIn w.handles h := here
  constructor
  case asAsked =>
    intro s' known
    replace known : (w.handles.modify h (·.taking .chunk))[h]? = some s' := known
    rw [List.getElem?_modify_eq] at known
    obtain ⟨s, before, rfl⟩ := Option.map_eq_some_iff.mp known
    exact holding.asAsked s before
  case recorded =>
    intro f listed step
    exact holding.recorded_cons here same (history ▸ listed) step
  case ordered =>
    rw [history]
    exact holding.ordered_cons here
  case flowing =>
    intro f listed reads
    rw [history] at listed
    rcases List.mem_cons.mp listed with rfl | old
    · rw [here, flows]
    · exact holding.flowing f old reads
  case spent =>
    intro before paused
    exact absurd paused (not_underPause_of_flowing (same.symm ▸ flows))
  case handed =>
    rw [history]
    exact holding.handed.cons fun hands => by cases hands

/-- A stream that goes on begins a read, but not under a pause. -/
theorem Holding.readingOn (holding : Holding h w) : Holding h (w.readingOn h) := by
  rcases w.readingOn_cases h with same | ⟨r, wanted, -, started⟩
  · rwa [same]
  have flows := holding.leavesPaused_of_wantsRead wanted
  have marked := holding.marked flows
  rw [started]
  rcases w.startingRead_cases h r with ⟨-, same⟩ | ⟨-, same⟩
  · rwa [same]
  · rw [same]
    refine (marked.accept ?_).quiet (quietFor_submit _)
    rwa [readerCallsIn_modifyReader_aside (f := ({ · with busy := true })) fun _ => rfl]

/-- The read that is under way has come to its end, and then none is under way. -/
theorem Holding.receive (holding : Holding h w) (own : job.IsChunkOf h) :
    Holding h (w.arriving job outcome rest) := by
  have same : readerCallsIn (w.arriving job outcome rest).handles h =
      readerCallsIn w.handles h := readerCallsIn_arriving own
  have now : (w.arriving job outcome rest).handles[h]? = _ := handle_of_arriving own
  have history : (w.arriving job outcome rest).history = _ := w.history_arriving
  have here : readerCallsIn ((w.delivering job outcome rest).completing job outcome).handles h =
      readerCallsIn w.handles h := readerCallsIn_completing
  generalize w.arriving job outcome rest = after at same now history ⊢
  constructor
  case asAsked =>
    intro s' known
    rw [now] at known
    obtain ⟨s, before, rfl⟩ := Option.map_eq_some_iff.mp known
    have asAsked := holding.asAsked s before
    rw [Handle.readStream] at asAsked ⊢
    rcases made : s.reader with _ | r
    · rwa [made] at asAsked
    · rw [made] at asAsked
      rcases outcome with error | _ | ⟨first, more⟩ <;> exact asAsked
  case recorded =>
    intro f listed step
    exact holding.recorded_cons here same (history ▸ listed) step
  case ordered =>
    rw [history]
    exact holding.ordered_cons here
  case flowing =>
    intro f listed reads
    rw [history] at listed
    rcases List.mem_cons.mp listed with rfl | old
    · cases reads
    · exact holding.flowing f old reads
  case spent =>
    intro before paused busy
    have idle : after.isReading h = false := by
      rw [World.isReading, now, Option.map_map]
      rcases w.handles[h]? with _ | s
      · rfl
      · show ((s.reader.map (Reader.receiving · outcome)).getD _).busy = false
        rcases s.reader with _ | r
        · rfl
        · exact (r.asked_receiving outcome).2.2
    rw [idle] at busy
    cases busy
  case handed =>
    rw [history]
    exact holding.handed.cons fun hands => by cases hands

/-! ## Telling -/

/-- What is told of the outcome of a read is no call on the stream. -/
theorem readerCallsIn_telling (own : job.IsChunkOf h) :
    readerCallsIn (w.telling job outcome rest).handles h = readerCallsIn w.handles h := by
  obtain ⟨rfl, chunk⟩ := own
  rw [World.telling, World.told_chunk chunk]
  have completed : readerCallsIn ((w.delivering job outcome rest).completing job outcome).handles
      job.handle = readerCallsIn w.handles job.handle := readerCallsIn_completing
  refine Eq.trans ?_ completed
  generalize (w.delivering job outcome rest).completing job outcome = v
  have received : readerCallsIn (v.modifyReader job.handle (·.receiving outcome)).handles
      job.handle = readerCallsIn v.handles job.handle :=
    readerCallsIn_modifyReader_aside fun r => (r.asked_receiving outcome).1
  refine Eq.trans ?_ received
  unfold World.toldChunk
  rcases outcome with error | _ | ⟨first, more⟩
  · dsimp only
    unfold World.toldReadFailure World.toldSink
    split
    · split <;> rfl
    · exact readerCallsIn_modifyReader_aside fun _ => rfl
  · dsimp only
    unfold World.toldEnd
    split
    · rfl
    · exact readerCallsIn_modifyReader_aside fun _ => rfl
  · dsimp only
    unfold World.toldData
    split
    · rfl
    · exact readerCallsIn_modifyReader_aside fun _ => rfl

/-- The first chunk under the pauses that are in force is handed on. -/
theorem Holding.hand {tag : String} {chunk : Bytes} (holding : Holding h w)
    (ended : ∃ c ∈ w.history, c.event.EndsReadOf h ∧
      readerCallsIn c.handles h = readerCallsIn w.handles h)
    (first : ∀ before, w.UnderPause h before →
      ∀ f ∈ w.history, f.event.IsDataOf h → ¬ f.UnderPause h before) :
    Holding h (w.record (.data h tag chunk)) where
  asAsked := holding.asAsked
  recorded _ listed step := holding.recorded_cons (e := ⟨w.context, .data h tag chunk, w.handles⟩)
    rfl rfl listed step
  ordered := holding.ordered_cons (e := ⟨w.context, .data h tag chunk, w.handles⟩) rfl
  flowing e listed reads := by
    rcases List.mem_cons.mp listed with rfl | old
    · cases reads
    · exact holding.flowing e old reads
  spent before paused busy c listed ends := by
    rcases List.mem_cons.mp listed with rfl | old
    · cases ends
    · exact holding.spent before paused busy c old ends
  handed := holding.handed.cons fun _ => ⟨ended, first⟩

/-- As long as a read is under way, no chunk was handed on under the pauses in force. -/
theorem Holding.not_handed (holding : Holding h w) (busy : w.isReading h = true)
    (paused : w.UnderPause h before) (listed : f ∈ w.history) (hands : f.event.IsDataOf h) :
    ¬ f.UnderPause h before := by
  intro under
  obtain ⟨newer, older, split⟩ := List.append_of_mem listed
  obtain ⟨c, earlier, ends, same⟩ := (holding.handed newer f older split hands).ended
  have there : c ∈ w.history := by
    rw [split]
    exact List.mem_append_right newer (List.mem_cons_of_mem f earlier)
  refine holding.spent before paused busy c there ends ?_
  rwa [Entry.UnderPause, same]

/-- A chunk is told of under the calls under which its read has ended. -/
theorem Holding.tellChunk (holding : Holding h w) (reading : Reading h w) (due : w.IsDue job)
    (own : job.IsChunkOf h) : Holding h (w.telling job outcome rest) := by
  have arrived : Holding h (w.arriving job outcome rest) := holding.receive own
  rcases w.telling_cases (h := h) job outcome rest with
    ⟨quiet, -⟩ | ⟨v, tag, first, more, quiet, told, -⟩ | ⟨v, tag, quiet, told, -⟩
  · exact arrived.quiet quiet
  · obtain ⟨s, r, known, made, busy, -⟩ := reading.busy_of_due due own
    have reads : w.isReading h = true := by
      rw [World.isReading_of_known known, Handle.readStream, made, Option.getD_some, busy]
    have same : readerCallsIn v.handles h = readerCallsIn w.handles h := by
      have telling : readerCallsIn (w.telling job outcome rest).handles h = _ :=
        readerCallsIn_telling own
      rw [told] at telling
      exact telling
    obtain ⟨new, added, none⟩ := quiet.notes
    rw [w.history_arriving] at added
    let e : Entry := ⟨(w.delivering job outcome rest).context, .completed job outcome,
      ((w.delivering job outcome rest).completing job outcome).handles⟩
    have here : readerCallsIn e.handles h = readerCallsIn w.handles h := readerCallsIn_completing
    rw [told, own.1]
    refine (arrived.quiet quiet).hand ⟨e, ?_, own, here.trans same.symm⟩
      fun before paused f listed hands => ?_
    · rw [added]
      exact List.mem_append_right new List.mem_cons_self
    · have old : f ∈ w.history := by
        rw [added] at listed
        rcases List.mem_append.mp listed with now | listed
        · exact absurd (.inr (.inr hands)) (none f now).1.not_isStep
        · rcases List.mem_cons.mp listed with rfl | old
          · cases hands
          · exact old
      have paused : w.UnderPause h before := by
        rw [World.UnderPause, ← same]
        exact paused
      exact holding.not_handed reads paused old hands
  · rw [told]
    exact (arrived.quiet quiet).record trivial id

theorem Holding.telling (holding : Holding h w) (reading : Reading h w) (due : w.IsDue job)
    (handle : job.handle = h) : Holding h (w.telling job outcome rest) := by
  by_cases own : job.IsChunkOf h
  · exact holding.tellChunk reading due own
  · have plain : ¬ job.completion = .chunk := fun chunk => own ⟨handle, chunk⟩
    have none : Event.IsNoChunk h (.completed job outcome) := own
    have arrived : Holding h (w.arriving job outcome rest) :=
      holding.keepsRecord (asksNothing_arriving handle own).keepsRecord
        ⟨[_], w.history_arriving, fun e listed => by
          rw [List.mem_singleton.mp listed]
          exact none.not_isStep id⟩
    rcases w.telling_cases (h := h) job outcome rest with
      ⟨quiet, -⟩ | ⟨v, tag, first, more, -, -, chunk, -⟩ | ⟨v, tag, -, -, chunk, -⟩
    · exact arrived.quiet quiet
    · exact absurd chunk plain
    · exact absurd chunk plain

/-! ## In every run -/

theorem holding_start (workers : Nat) (files : FileTree) :
    Holding h (World.start workers files) where
  asAsked _ known := by cases known
  recorded _ listed := absurd listed List.not_mem_nil
  ordered := throughout_nil
  flowing _ listed := absurd listed List.not_mem_nil
  spent _ _ _ _ listed := absurd listed List.not_mem_nil
  handed := throughout_nil

theorem Holding.change (holding : Holding h w) (change : Change h w after) : Holding h after := by
  rcases change.asks with nothing | ⟨v, keeps, history, rfl, -⟩
  · refine holding.keepsRecord nothing.keepsRecord
      ((nothing.notes.and change.notes).mono fun e told => told.1.not_isStep ?_)
    rcases told.2 with quiet | clients
    · exact fun hands => quiet.not_isStep (.inr (.inr hands))
    · exact clients.not_isDataOf
  · exact (holding.keepsRecord keeps (notes_of_same history)).readingOn

/-- In every run a read stream agrees with the pauses on its record. -/
theorem Reachable.holding (reached : Reachable mode w) (h : HandleId) : Holding h w := by
  suffices both : Reading h w ∧ Holding h w from both.2
  refine Reachable.streams_induct (h := h) (P := fun w => Reading h w ∧ Holding h w)
    (fun workers files => ⟨reading_start workers files, holding_start workers files⟩)
    ?_ ?_ ?_ ?_ reached
  · intro w after ⟨reading, holding⟩ change
    exact ⟨reading.change change, holding.change change⟩
  · intro w job outcome rest _ due handle ⟨reading, holding⟩
    exact ⟨reading.telling due handle, holding.telling reading due handle⟩
  · intro w number ⟨reading, holding⟩
    exact ⟨reading.readsNothing (readsNothing_record trivial), holding.record trivial id⟩
  · intro w ⟨reading, holding⟩
    exact ⟨reading.readingOn, holding.readingOn⟩

end Holding

end PinnedFile
