/-
  PinnedFile.Proofs.Streams.Reading

  How a read stream goes on.

  It reads one chunk at a time: a read is for the place that the stream has come to, and as
  long as it is under way no other is started and the stream stays there.  So each chunk
  begins where the one before has ended, whatever is registered, paused or resumed meanwhile.
-/

import PinnedFile.Proofs.Streams.Acts

namespace PinnedFile

/-! ## What a history tells of a stream -/

/-- A read of the read stream of a handle. -/
def Job.IsChunkOf (h : HandleId) (a : Job) : Prop := a.handle = h ∧ a.completion = .chunk

/-- The bytes that a read of the read stream of a handle came to. -/
def Event.chunk? (h : HandleId) : Event → Option Bytes
  | .completed ⟨_, k, _, .chunk⟩ (.ok bytes) => if k = h then some bytes else none
  | _ => none

/-- All that the read stream of a handle has read, in the order of the reads. -/
def bytesRead (h : HandleId) : List Entry → Bytes
  | [] => []
  | e :: older => bytesRead h older ++ (e.event.chunk? h).getD []

/-- What holds of every entry of a history, given those before it. -/
def Throughout (Q : Entry → List Entry → Prop) (history : List Entry) : Prop :=
  ∀ newer e older, history = newer ++ e :: older → Q e older

/-- An event that tells of no read of the stream of a handle. -/
def Event.IsNoChunk (h : HandleId) : Event → Prop
  | .accepted a | .completed a _ => ¬ a.IsChunkOf h
  | _ => True

section History

variable {Q : Entry → List Entry → Prop} {h : HandleId} {w after : World} {e : Entry}
  {new older : List Entry} {event : Event} {job a : Job} {bytes : Bytes}

/-- Tickets tell the reads of a stream. -/
theorem Job.IsChunkOf.of_ticket (own : job.IsChunkOf h) (same : a.ticket = job.ticket) :
    a.IsChunkOf h :=
  ⟨(congrArg Ticket.handle same).trans own.1, (congrArg Ticket.completion same).trans own.2⟩

theorem throughout_nil : Throughout Q [] := by
  intro newer e older split
  cases newer <;> cases split

theorem Throughout.cons (all : Throughout Q older) (first : Q e older) :
    Throughout Q (e :: older) := by
  intro newer e' older' split
  cases newer with
  | nil =>
    obtain ⟨rfl, rfl⟩ := List.cons.inj split
    exact first
  | cons latest newer =>
    obtain ⟨-, before⟩ := List.cons.inj split
    exact all newer e' older' before

theorem Throughout.tail (all : Throughout Q (e :: older)) : Throughout Q older := by
  intro newer e' older' split
  exact all (e :: newer) e' older' (by rw [split, List.cons_append])

theorem Event.chunk?_eq_some_iff : event.chunk? h = some bytes ↔
    ∃ job, job.IsChunkOf h ∧ event = .completed job (.ok bytes) := by
  constructor
  · intro told
    unfold Event.chunk? at told
    split at told
    · split at told
      next own =>
        obtain rfl := Option.some.inj told
        exact ⟨_, ⟨own, rfl⟩, rfl⟩
      · cases told
    · cases told
  · rintro ⟨⟨id, k, t, c⟩, ⟨rfl, rfl⟩, rfl⟩
    exact if_pos rfl

theorem Event.chunk?_completed_error {e : IoError} :
    (Event.completed job (.error e)).chunk? h = none := by
  rw [Option.eq_none_iff_forall_ne_some]
  intro bytes told
  obtain ⟨other, -, same⟩ := Event.chunk?_eq_some_iff.mp told
  cases same

theorem Event.IsNoChunk.chunk? (none : event.IsNoChunk h) : event.chunk? h = .none := by
  rw [Option.eq_none_iff_forall_ne_some]
  intro bytes told
  obtain ⟨job, own, rfl⟩ := Event.chunk?_eq_some_iff.mp told
  exact none own

theorem Event.IsOfReading.isNoChunk (reading : event.IsOfReading) : event.IsNoChunk h := by
  cases event with
  | accepted | completed => cases reading
  | _ => exact trivial

theorem bytesRead_cons_of_none (none : e.event.chunk? h = .none) :
    bytesRead h (e :: older) = bytesRead h older := by
  rw [bytesRead, none, Option.getD_none, List.append_nil]

theorem bytesRead_append (none : ∀ e ∈ new, e.event.IsNoChunk h) :
    bytesRead h (new ++ older) = bytesRead h older := by
  induction new with
  | nil => rfl
  | cons e new ih =>
    rw [List.cons_append, bytesRead_cons_of_none (none e List.mem_cons_self).chunk?,
      ih fun e listed => none e (List.mem_cons_of_mem _ listed)]

theorem mem_accepted_iff : a ∈ w.accepted ↔ ∃ e ∈ w.history, e.event = .accepted a := by
  constructor
  · intro listed
    obtain ⟨e, there, told⟩ := List.mem_filterMap.mp listed
    exact ⟨e, there, Event.accepted?_eq_some_iff.mp told⟩
  · rintro ⟨e, there, told⟩
    exact List.mem_filterMap.mpr ⟨e, there, Event.accepted?_eq_some_iff.mpr told⟩

end History

namespace World

/-- A read of the stream of a handle is under way. -/
def IsPending (w : World) (h : HandleId) (a : Job) : Prop :=
  a ∈ w.accepted ∧ a.IsChunkOf h ∧ a.id ∉ w.books.delivered

end World

/-! ## The law of a read stream -/

/-- Each entry of a history finds the stream where the reads before it have brought it.  A
    read is begun there, for as many bytes as are asked for at the time, and the stream is
    there still when the read is completed. -/
structure Tile (h : HandleId) (e : Entry) (older : List Entry) : Prop where
  position : readPositionIn e.handles h = (bytesRead h older).length
  begun : ∀ a, e.event = .accepted a → a.IsChunkOf h →
    ∃ r, e.handles[h]?.bind Handle.reader = some r ∧ 0 < r.chunkSize ∧
      a.transfer = .ofRead (bytesRead h older).length r.chunkSize
  ended : ∀ job outcome, e.event = .completed job outcome → job.IsChunkOf h →
    ∃ b ∈ older, ∃ a, b.event = .accepted a ∧ a.ticket = job.ticket ∧
      ∃ size, a.transfer = .ofRead (bytesRead h older).length size

/-- The state of a read stream agrees with what it has read. -/
structure Reading (h : HandleId) (w : World) : Prop where
  position : readPositionIn w.handles h = (bytesRead h w.history).length
  tiled : Throughout (Tile h) w.history
  asks : ∀ s, w.handles[h]? = some s → 0 < s.readStream.chunkSize
  pending : ∀ a, w.IsPending h a →
    (∃ s, w.handles[h]? = some s ∧ s.readStream.busy = true ∧ s.readStream.ended = false) ∧
    (∃ size, a.transfer = .ofRead (bytesRead h w.history).length size) ∧
    ∀ b, w.IsPending h b → b = a
  ended : ∀ s, w.handles[h]? = some s → s.readStream.ended = true →
    ∃ newer e older job, w.history = newer ++ e :: older ∧ e.event = .completed job (.ok []) ∧
      job.IsChunkOf h ∧ bytesRead h w.history = bytesRead h older

/-! ## What reads nothing -/

/-- A handle whose read stream has read nothing and begins no read. -/
structure Handle.ReadsNothing (s s' : Handle) : Prop where
  position : s'.readStream.position = s.readStream.position
  busy : s.readStream.busy = true → s'.readStream.busy = true
  ended : s'.readStream.ended = s.readStream.ended
  asks : 0 < s.readStream.chunkSize → 0 < s'.readStream.chunkSize

/-- Nothing was read from a stream, and no read was begun or ended. -/
structure ReadsNothing (h : HandleId) (w after : World) : Prop where
  remains : Remains Handle.ReadsNothing w.handles[h]? after.handles[h]?
  notes : Notes (fun e => e.event.IsNoChunk h ∧ SamePlace h w.handles e.handles) w after

section Reading

variable {mode : Mode} {h k : HandleId} {w after : World} {a job : Job} {outcome : Outcome}
  {rest : Queue Task} {s : Handle} {r : Reader}

theorem Handle.readsNothing_refl : s.ReadsNothing s := ⟨rfl, id, rfl, id⟩

theorem Handle.Stays.readsNothing {s' : Handle} (stays : s.Stays s') : s.ReadsNothing s' where
  position := stays.read
  busy busy := stays.busy.trans busy
  ended := stays.ended
  asks := stays.asks

theorem QuietFor.readsNothing (quiet : QuietFor h w after) : ReadsNothing h w after where
  remains := quiet.remains.mono fun _ _ => Handle.Stays.readsNothing
  notes := by
    refine quiet.notes.mono fun e told => ⟨?_, told.2⟩
    rcases e with ⟨context, event, handles⟩
    cases event with
    | accepted a =>
      rintro ⟨own, chunk⟩
      have plain := told.1 own
      rw [chunk] at plain
      cases plain
    | completed job outcome => exact fun own => told.1 own.1
    | _ => exact trivial

/-- A read stream that has read nothing and begins no read. -/
structure Reader.ReadsNothing (r r' : Reader) : Prop where
  position : r'.position = r.position
  busy : r.busy = true → r'.busy = true
  ended : r'.ended = r.ended
  asks : 0 < r.chunkSize → 0 < r'.chunkSize

/-- A change of the read stream by which nothing is read. -/
theorem Handle.readsNothing_reader {f : Reader → Reader}
    (nothing : ∀ r : Reader, r.ReadsNothing (f r)) :
    s.ReadsNothing { s with reader := s.reader.map f } := by
  rcases made : s.reader with _ | r
  · have same : { s with reader := Option.map f none } = s := by
      rw [Option.map_none, ← made]
    rw [same]
    exact Handle.readsNothing_refl
  · have before : s.readStream = r := by rw [Handle.readStream, made, Option.getD_some]
    rw [Option.map_some]
    refine ⟨?_, ?_, ?_, ?_⟩
    · rw [before]
      exact (nothing r).position
    · rw [before]
      exact (nothing r).busy
    · rw [before]
      exact (nothing r).ended
    · rw [before]
      exact (nothing r).asks

/-- What is noted and tells of no read. -/
theorem readsNothing_record {e : Event} (none : e.IsNoChunk h) :
    ReadsNothing h w (w.record e) where
  remains := remains_refl fun _ => Handle.readsNothing_refl
  notes := notes_record ⟨none, samePlace_refl⟩

theorem readsNothing_modifyHandle {f : Handle → Handle}
    (nothing : ∀ s : Handle, s.ReadsNothing (f s)) :
    ReadsNothing h w (w.modifyHandle h f) where
  remains := remains_modify (fun _ => Handle.readsNothing_refl) fun _ => nothing
  notes := notes_refl

theorem readsNothing_modifyReader {f : Reader → Reader}
    (nothing : ∀ r : Reader, r.ReadsNothing (f r)) :
    ReadsNothing h w (w.modifyReader h f) :=
  readsNothing_modifyHandle fun _ => Handle.readsNothing_reader nothing

/-- What is accepted that is no read of a stream is no read of this stream. -/
theorem notes_enqueue_chunkless {t : Transfer} {c : Completion} (plain : c ≠ .chunk) :
    Notes (fun e => e.event.IsNoChunk h ∧ SamePlace h w.handles e.handles) w
      (w.enqueue k t c) := by
  have other : ¬ Job.IsChunkOf h ⟨w.nextOperation, k, t, c⟩ := fun own => plain own.2
  refine (notes_samePlace_enqueue.and ?_).mono fun e ⟨there, told⟩ => ⟨told, there⟩
  unfold World.enqueue World.submit
  dsimp only
  split
  · exact ⟨[_, _], rfl, fun e listed => by
      rcases List.mem_pair.mp listed with rfl | rfl
      · exact trivial
      · exact other⟩
  · exact ⟨[_], rfl, fun e listed => List.mem_singleton.mp listed ▸ other⟩

/-- What the code of a client does reads nothing, and then the stream may go on. -/
theorem Change.readsNothing (change : Change h w after) : ReadsNothing h w after ∨
    ∃ v, ReadsNothing h w v ∧ v.history = w.history ∧ after = v.readingOn h := by
  cases change with
  | quiet quiet => exact .inl quiet.readsNothing
  | listen listener =>
    refine .inr ⟨w.modifyReader h (·.listening listener), ?_, rfl, rfl⟩
    exact readsNothing_modifyReader fun _ => ⟨rfl, id, rfl, id⟩
  | resume paused =>
    refine .inr ⟨w.modifyReader h Reader.resumed, ?_, rfl, rfl⟩
    exact readsNothing_modifyReader fun _ => ⟨rfl, id, rfl, id⟩
  | @send s data got known =>
    refine .inl ⟨?_, notes_enqueue_chunkless nofun⟩
    rw [World.modifyWriter, World.modifyHandle, World.handles_enqueue, List.modify_modify_eq]
    exact remains_modify (fun _ => Handle.readsNothing_refl) fun _ _ => ⟨rfl, id, rfl, id⟩
  | @awaitDrain wait waits =>
    refine .inl ⟨?_, ⟨[_], rfl, fun e listed => ?_⟩⟩
    · exact remains_modify (fun _ => Handle.readsNothing_refl) fun _ _ => ⟨rfl, id, rfl, id⟩
    · exact List.mem_singleton.mp listed ▸ ⟨trivial, samePlace_modifyWriter⟩

/-- A read that is under way was under way before, if none was begun or ended. -/
theorem World.IsPending.of_notes (pending : after.IsPending h a)
    (notes : Notes (·.event.IsNoChunk h) w after) : w.IsPending h a := by
  obtain ⟨accepted, own, undelivered⟩ := pending
  obtain ⟨new, added, none⟩ := notes
  refine ⟨?_, own, fun delivered => undelivered ?_⟩
  · obtain ⟨e, listed, told⟩ := mem_accepted_iff.mp accepted
    rw [added] at listed
    rcases List.mem_append.mp listed with now | before
    · have other : e.event.IsNoChunk h := none e now
      rw [told] at other
      exact absurd own other
    · exact mem_accepted_iff.mpr ⟨e, before, told⟩
  · obtain ⟨job, outcome, told, same⟩ := mem_delivered_iff.mp delivered
    rw [mem_delivered_iff, added]
    exact ⟨job, outcome, told.append new, same⟩

theorem tile_of_noChunk {e : Entry} {older : List Entry} (none : e.event.IsNoChunk h)
    (position : readPositionIn e.handles h = (bytesRead h older).length) : Tile h e older where
  position := position
  begun a told own := by
    rw [told] at none
    exact absurd own none
  ended job outcome told own := by
    rw [told] at none
    exact absurd own none

/-- The law is kept by whatever reads nothing. -/
theorem Reading.readsNothing (reading : Reading h w) (nothing : ReadsNothing h w after) :
    Reading h after := by
  obtain ⟨new, added, noted⟩ := nothing.notes
  have same : bytesRead h after.history = bytesRead h w.history := by
    rw [added, bytesRead_append fun e listed => (noted e listed).1]
  have position := nothing.remains.readPosition fun _ _ => Handle.ReadsNothing.position
  have handle (s' : Handle) (known : after.handles[h]? = some s') :
      s'.IsNew ∨ ∃ s, w.handles[h]? = some s ∧ s.ReadsNothing s' := by
    have remains := nothing.remains
    rw [known] at remains
    generalize w.handles[h]? = before at remains
    cases remains with
    | opened new => exact .inl new
    | known related => exact .inr ⟨_, rfl, related⟩
  constructor
  · rw [position, same, reading.position]
  · rw [added]
    clear added same
    induction new with
    | nil => exact reading.tiled
    | cons e new ih =>
      have later := fun e listed => noted e (List.mem_cons_of_mem _ listed)
      obtain ⟨none, there⟩ := noted e List.mem_cons_self
      refine (ih later).cons (tile_of_noChunk none ?_)
      rw [there.1, reading.position, bytesRead_append fun e listed => (later e listed).1]
  · intro s' known
    rcases handle s' known with new | ⟨s, before, nothing⟩
    · exact new.asks
    · exact nothing.asks (reading.asks s before)
  · intro a pending
    have notes := nothing.notes.mono fun _ told => told.1
    obtain ⟨⟨s, known, busy, goes_on⟩, transfer, single⟩ :=
      reading.pending a (pending.of_notes notes)
    refine ⟨?_, by rwa [same], fun b other => single b (other.of_notes notes)⟩
    have remains := nothing.remains
    rw [known] at remains
    generalize after.handles[h]? = later at remains
    cases remains with
    | known related => exact ⟨_, rfl, related.busy busy, related.ended.trans goes_on⟩
  · intro s' known isEnded
    rcases handle s' known with new | ⟨s, before, nothing⟩
    · rw [new.ended] at isEnded
      cases isEnded
    · obtain ⟨newer, e, older, job, split, told, own, sameRead⟩ :=
        reading.ended s before (nothing.ended.symm.trans isEnded)
      exact ⟨new ++ newer, e, older, job, by rw [added, split, List.append_assoc], told, own,
        same.trans sameRead⟩

theorem ReadsNothing.samePlace (nothing : ReadsNothing h w after) :
    SamePlace h w.handles after.handles :=
  ⟨nothing.remains.readPosition fun _ _ => Handle.ReadsNothing.position,
    nothing.remains.readEnded fun _ _ => Handle.ReadsNothing.ended⟩

/-! ## The beginning of a read -/

/-- A stream that goes on stays where it is until its read comes to its end. -/
theorem samePlace_readingOn : SamePlace h w.handles (w.readingOn h).handles ∧
    Notes (fun e => SamePlace h w.handles e.handles) w (w.readingOn h) := by
  rcases w.readingOn_cases h with same | ⟨r, -, -, started⟩
  · rw [same]
    exact ⟨samePlace_refl, notes_refl⟩
  · have marked : SamePlace h w.handles (w.modifyReader h ({ · with busy := true })).handles :=
      (readsNothing_modifyReader (f := ({ · with busy := true }))
        fun _ => ⟨rfl, fun _ => rfl, rfl, id⟩).samePlace
    rw [started]
    rcases w.startingRead_cases h r with ⟨-, same⟩ | ⟨-, same⟩
    · rw [same]
      exact ⟨marked, notes_refl⟩
    · rw [same]
      refine ⟨?_, notes_samePlace_enqueue.mono fun e there => marked.trans there⟩
      rw [World.handles_enqueue]
      exact marked.trans (samePlace_modify (fun _ => rfl) fun _ => rfl)

/-- A read is begun where the stream is, and it is the only one. -/
theorem Reading.startRead (reading : Reading h w) (known : w.handles[h]? = some s)
    (made : s.reader = some r) (idle : r.busy = false) (goes_on : r.ended = false) :
    Reading h ((w.modifyReader h ({ · with busy := true })).enqueue h
      (.ofRead r.position r.chunkSize) .chunk) := by
  have stream : s.readStream = r := by rw [Handle.readStream, made, Option.getD_some]
  have asks : 0 < r.chunkSize := stream ▸ reading.asks s known
  have there : r.position = (bytesRead h w.history).length := by
    rw [← reading.position, readPositionIn, known, Option.map_some, Option.getD_some, stream]
  have none_before (b : Job) : ¬ w.IsPending h b := by
    intro pending
    obtain ⟨⟨s', known', busy, -⟩, -⟩ := reading.pending b pending
    obtain rfl := Option.some.inj (known.symm.trans known')
    rw [stream, idle] at busy
    cases busy
  -- the read is noted first, and then it is submitted
  let a : Job := ⟨w.nextOperation, h, .ofRead r.position r.chunkSize, .chunk⟩
  let begun := ((w.modifyReader h ({ · with busy := true })).accept h a.transfer .chunk).2
  let s' : Handle := { s with reader := some { r with busy := true } }.taking .chunk
  have now : begun.handles[h]? = some s' := by
    simp [begun, s', World.accept, World.modifyReader, World.modifyHandle, World.record, known,
      made]
  have position : readPositionIn begun.handles h = (bytesRead h w.history).length := by
    rw [readPositionIn, now]
    exact there
  have same : bytesRead h begun.history = bytesRead h w.history := bytesRead_cons_of_none rfl
  suffices Reading h begun from this.readsNothing (quietFor_submit _).readsNothing
  constructor
  · rw [position, same]
  · refine reading.tiled.cons ⟨position, fun b told _ => ?_, fun job outcome told => by cases told⟩
    obtain rfl : a = b := Event.accepted.inj told
    refine ⟨{ r with busy := true }, ?_, asks, ?_⟩
    · show begun.handles[h]?.bind Handle.reader = _
      rw [now]
      rfl
    · rw [← there]
  · intro s'' known'
    obtain rfl := Option.some.inj (now.symm.trans known')
    exact asks
  · intro b pending
    have new : ∀ c, begun.IsPending h c → c = a := by
      rintro c ⟨accepted, own, undelivered⟩
      obtain ⟨e, listed, told⟩ := mem_accepted_iff.mp accepted
      rcases List.mem_cons.mp listed with rfl | before
      · exact (Event.accepted.inj told).symm
      · exact absurd ⟨mem_accepted_iff.mpr ⟨e, before, told⟩, own, undelivered⟩ (none_before c)
    obtain rfl := new b pending
    refine ⟨⟨s', now, rfl, goes_on⟩, ⟨r.chunkSize, ?_⟩, new⟩
    rw [same, ← there]
  · intro s'' known' isEnded
    obtain rfl := Option.some.inj (now.symm.trans known')
    rw [show s'.readStream.ended = r.ended from rfl, goes_on] at isEnded
    cases isEnded

/-! ## The end of a read -/

theorem World.arriving_chunk (chunk : job.completion = .chunk) :
    w.arriving job outcome rest = ((w.delivering job outcome rest).completing job
      outcome).modifyReader job.handle (·.receiving outcome) := by
  rw [World.arriving, chunk]

theorem World.arriving_plain (own : job.handle = h) (plain : ¬ job.IsChunkOf h) :
    w.arriving job outcome rest = (w.delivering job outcome rest).completing job outcome := by
  unfold World.arriving
  dsimp only
  split
  next chunk => exact absurd ⟨own, chunk⟩ plain
  · rfl

/-- An outcome other than that of a read of the stream reaches the handle. -/
theorem readsNothing_arriving (own : job.handle = h) (plain : ¬ job.IsChunkOf h) :
    ReadsNothing h w (w.arriving job outcome rest) := by
  rw [World.arriving_plain own plain]
  subst own
  refine ⟨remains_modify (fun _ => Handle.readsNothing_refl) fun _ _ => ⟨rfl, id, rfl, id⟩,
    ⟨[_], rfl, fun e listed => ?_⟩⟩
  exact List.mem_singleton.mp listed ▸ ⟨plain, samePlace_modify (fun _ => rfl) fun _ => rfl⟩

/-- What a stream makes of the outcome of a read agrees with what it has read then. -/
theorem position_receiving {e : Entry} {older : List Entry} (own : job.IsChunkOf h)
    (completes : e.event = .completed job outcome)
    (there : r.position = (bytesRead h older).length) :
    (r.receiving outcome).position = (bytesRead h (e :: older)).length := by
  rw [bytesRead, completes]
  rcases outcome with error | bytes
  · rw [Event.chunk?_completed_error, Option.getD_none, List.append_nil, ← there]
    rfl
  · have told : (Event.completed job (.ok bytes)).chunk? h = some bytes :=
      Event.chunk?_eq_some_iff.mpr ⟨job, own, rfl⟩
    rw [told, Option.getD_some, List.length_append, ← there]
    rcases bytes with _ | ⟨first, more⟩ <;> rfl

/-- Only a read that found nothing ends a stream, and it leaves the stream where it is. -/
theorem receiving_ended (goes_on : r.ended = false) (ends : (r.receiving outcome).ended = true) :
    outcome = .ok [] := by
  rcases outcome with error | _ | ⟨first, more⟩
  · rw [show (r.receiving (.error error)).ended = r.ended from rfl, goes_on] at ends
    cases ends
  · rfl
  · rw [show (r.receiving (.ok (first :: more))).ended = r.ended from rfl, goes_on] at ends
    cases ends

/-- A read that is due is under way, under the job that was accepted. -/
theorem World.IsDue.pending (due : w.IsDue job) (own : job.IsChunkOf h) :
    ∃ a, w.IsPending h a ∧ a.ticket = job.ticket := by
  obtain ⟨a, accepted, ticket, undelivered⟩ := due
  exact ⟨a, ⟨accepted, own.of_ticket ticket, undelivered⟩, ticket⟩

/-- As long as a read is due, its stream is busy and has not come to its end. -/
theorem Reading.busy_of_due (reading : Reading h w) (due : w.IsDue job) (own : job.IsChunkOf h) :
    ∃ s r, w.handles[h]? = some s ∧ s.reader = some r ∧ r.busy = true ∧ r.ended = false := by
  obtain ⟨a, pending, -⟩ := due.pending own
  obtain ⟨⟨s, known, busy, goes_on⟩, -⟩ := reading.pending a pending
  rcases made : s.reader with _ | r
  · rw [Handle.readStream, made] at busy
    cases busy
  · rw [Handle.readStream, made, Option.getD_some] at busy goes_on
    exact ⟨s, r, known, made, busy, goes_on⟩

/-- The chunk of the read that is under way is put behind those read before, and then no
    read is under way. -/
theorem Reading.receive (reading : Reading h w) (due : w.IsDue job) (own : job.IsChunkOf h) :
    Reading h (w.arriving job outcome rest) := by
  obtain ⟨s, r, known, made, -, goes_on⟩ := reading.busy_of_due due own
  obtain ⟨a, pending, ticket⟩ := due.pending own
  have accepted := pending.1
  obtain rfl : job.handle = h := own.1
  obtain ⟨-, ⟨size, transfer⟩, single⟩ := reading.pending a pending
  have stream : s.readStream = r := by rw [Handle.readStream, made, Option.getD_some]
  have there : r.position = (bytesRead job.handle w.history).length := by
    rw [← reading.position, readPositionIn, known, Option.map_some, Option.getD_some, stream]
  -- the world after, with the entry that was made and the handle as it is then
  rw [World.arriving_chunk own.2]
  generalize after_eq : ((w.delivering job outcome rest).completing job outcome).modifyReader
    job.handle (·.receiving outcome) = after
  let e : Entry := ⟨(w.delivering job outcome rest).context, .completed job outcome,
    w.handles.modify job.handle (·.releasing job.completion)⟩
  have history : after.history = e :: w.history := by
    rw [← after_eq]
    rfl
  let s' : Handle := { s.releasing job.completion with reader := some (r.receiving outcome) }
  have now : after.handles[job.handle]? = some s' := by
    rw [← after_eq]
    simp [s', World.modifyReader, World.modifyHandle, World.completing, World.record,
      World.delivering, World.entered, known, Handle.releasing, made]
  have position := position_receiving (e := e) own rfl there
  have nobody (b : Job) : ¬ after.IsPending job.handle b := by
    rintro ⟨accepted', own', undelivered'⟩
    obtain ⟨e', listed, told⟩ := mem_accepted_iff.mp accepted'
    rw [history] at listed
    have completed (id : OperationId) (before : id ∈ w.books.delivered) :
        id ∈ after.books.delivered := by
      obtain ⟨job', outcome', told', same⟩ := mem_delivered_iff.mp before
      exact mem_delivered_iff.mpr ⟨job', outcome', by rw [history]; exact told'.append [e], same⟩
    rcases List.mem_cons.mp listed with rfl | before
    · cases told
    · obtain rfl := single b ⟨mem_accepted_iff.mpr ⟨e', before, told⟩, own',
        fun before => undelivered' (completed _ before)⟩
      refine undelivered' (mem_delivered_iff.mpr ⟨job, outcome, ⟨e, ?_, rfl⟩, ?_⟩)
      · rw [history]
        exact List.mem_cons_self
      · exact (congrArg Ticket.id ticket).symm
  constructor
  · rw [history, ← position, readPositionIn, now]
    rfl
  · rw [history]
    refine reading.tiled.cons ⟨?_, (fun b told _ => by cases told), fun job' outcome' told _ => ?_⟩
    · rw [← reading.position]
      exact figure_modify fun _ => rfl
    · obtain ⟨rfl, -⟩ := Event.completed.inj told
      obtain ⟨b, listed, begins⟩ := mem_accepted_iff.mp accepted
      exact ⟨b, listed, a, begins, ticket, size, transfer⟩
  · intro s'' known'
    obtain rfl := Option.some.inj (now.symm.trans known')
    have asks := reading.asks s known
    rw [stream] at asks
    rcases outcome with error | _ | ⟨first, more⟩ <;> exact asks
  · intro b under
    exact absurd under (nobody b)
  · intro s'' known' isEnded
    obtain rfl := Option.some.inj (now.symm.trans known')
    obtain rfl := receiving_ended goes_on isEnded
    refine ⟨[], e, w.history, job, history, rfl, own, ?_⟩
    have told : e.event.chunk? job.handle = some [] := Event.chunk?_eq_some_iff.mpr ⟨job, own, rfl⟩
    rw [history, bytesRead, told, Option.getD_some, List.append_nil]

/-! ## In every run -/

theorem reading_start (workers : Nat) (files : FileTree) :
    Reading h (World.start workers files) where
  position := rfl
  tiled := throughout_nil
  asks _ known := by cases known
  pending _ pending := absurd pending.1 List.not_mem_nil
  ended _ known := by cases known

/-- A stream that goes on begins a read where it is, or is marked as busy only. -/
theorem Reading.readingOn (reading : Reading h w) : Reading h (w.readingOn h) := by
  rcases w.readingOn_cases h with same | ⟨r, -, idle, started⟩
  · rwa [same]
  · rw [started]
    rcases w.startingRead_cases h r with ⟨-, large⟩ | ⟨-, fits⟩
    · rw [large]
      exact reading.readsNothing (readsNothing_modifyReader fun _ => ⟨rfl, fun _ => rfl, rfl, id⟩)
    · obtain ⟨s, known, made, waits, goes_on⟩ := World.idleReader?_eq_some idle
      rw [fits]
      exact reading.startRead known made waits goes_on

theorem Reading.change (reading : Reading h w) (change : Change h w after) : Reading h after := by
  rcases change.readsNothing with nothing | ⟨v, nothing, -, rfl⟩
  · exact reading.readsNothing nothing
  · exact (reading.readsNothing nothing).readingOn

theorem Reading.arriving (reading : Reading h w) (due : w.IsDue job) (handle : job.handle = h) :
    Reading h (w.arriving job outcome rest) := by
  by_cases own : job.IsChunkOf h
  · exact reading.receive due own
  · exact reading.readsNothing (readsNothing_arriving handle own)

theorem Reading.telling (reading : Reading h w) (due : w.IsDue job) (handle : job.handle = h) :
    Reading h (w.telling job outcome rest) := by
  have arrived : Reading h (w.arriving job outcome rest) := reading.arriving due handle
  obtain ⟨v, quiet, told | ⟨e, read, told⟩⟩ := w.telling_record (h := h) job outcome rest
  · rw [told]
    exact arrived.readsNothing quiet.readsNothing
  · rw [told]
    exact (arrived.readsNothing quiet.readsNothing).readsNothing
      (readsNothing_record read.isNoChunk)

/-- In every run the state of a read stream agrees with what it has read. -/
theorem Reachable.reading (reached : Reachable mode w) (h : HandleId) : Reading h w := by
  refine Reachable.streams_induct (h := h) reading_start ?_ ?_ ?_ ?_ reached
  · intro w after reading change
    exact reading.change change
  · intro w job outcome rest _ due handle reading
    exact reading.telling due handle
  · intro w id reading
    exact reading.readsNothing (readsNothing_record trivial)
  · intro w reading
    exact reading.readingOn

end Reading

end PinnedFile
