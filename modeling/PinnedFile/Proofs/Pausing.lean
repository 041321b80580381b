/-
  PinnedFile.Proofs.Pausing

  A pause holds a read stream back, and the call that ends it has the stream go on.

  All this is so at every moment at which the code of a client can run, so it does not matter
  from where the calls come: from outside, from the data listener after it has had another read
  begun, or between the beginning of a read and its delivery.

  When a pause is ended and the stream goes on, one read is under way.  The one exception, as
  long as no stream asks for more bytes than any buffer has room for, is a read that was lost
  with a panic of its native call.  It never comes back, and the stream, which reads one chunk at
  a time, waits for it for ever.
-/

import PinnedFile.Proofs.ReadLoop
import PinnedFile.Proofs.Registrations
import PinnedFile.Proofs.Streams.Holding

namespace PinnedFile

open Run

/-! ## Within a run -/

/-- A world that occurs in a run, be it between two tasks or as the code of a client runs. -/
inductive World.Occurs : World → Prop where
  | between {w : World} (reached : Reachable .any w) : Occurs w
  /-- A client is about to have something done on a context. -/
  | enters {w : World} (reached : Reachable .any w) (context : ContextId) :
      Occurs (w.entered context [])
  /-- A task of a client begins. -/
  | begins {w : World} {context : ContextId} {task : Callback Command} {rest : Queue Task}
      (reached : Reachable .any w) (next : w.tasks.pop = some (.client context task, rest)) :
      Occurs (({ w with tasks := rest }.entered context []).record (.started task.tag))
  /-- The client is told of an outcome, and now its code runs. -/
  | tells {w : World} {job : Job} {outcome : Outcome} {rest : Queue Task}
      (reached : Reachable .any w) (next : w.tasks.pop = some (.deliver job outcome, rest)) :
      Occurs (w.telling job outcome rest)
  /-- The code of the client goes on. -/
  | moves {w after : World} (occurs : Occurs w) (move : Move w after) : Occurs after

namespace World

/-- The native call of a read of a read stream has panicked, and the read is lost. -/
def HasLostRead (w : World) (h : HandleId) : Prop := ∃ a ∈ w.readsBegun h, w.HasPanicked a

/-- A read stream is busy, but no read of it is under way: the last one was broken off as it was
    to be begun. -/
def BrokeOffRead (w : World) (h : HandleId) : Prop :=
  w.isReading h = true ∧ ∀ a, ¬ w.IsPending h a

/-- What is so under the pause of a read stream that was made behind the calls `before`. -/
structure KeepsPause (w : World) (h : HandleId) (before : List ReaderCall) : Prop where
  /-- No read is begun. -/
  begins : ∀ e ∈ w.history, e.UnderPause h before → ¬ e.event.IsReadOf h
  /-- A chunk is handed on at most once. -/
  once : Throughout (fun e older => e.event.IsDataOf h → e.UnderPause h before →
    ∀ f ∈ older, f.event.IsDataOf h → ¬ f.UnderPause h before) w.history
  /-- It comes of a read that was under way when the stream was paused: begun before the pause,
      and ended under it. -/
  underway : Throughout (fun e older => e.event.IsDataOf h → e.UnderPause h before →
    ∃ c ∈ older, ∃ job outcome, c.event = .completed job outcome ∧ job.IsChunkOf h ∧
      c.UnderPause h before ∧ ∃ b ∈ older, ∃ a, b.event = .accepted a ∧ a.ticket = job.ticket ∧
        readerCallsIn b.handles h <:+ before) w.history

end World

section Pausing

variable {w after : World} {h : HandleId} {a job : Job} {before : List ReaderCall} {r : Reader}

/-- What holds between two tasks, and is kept by every change and by the telling of every
    outcome, holds as the code of a client runs. -/
theorem World.Occurs.induct {P : World → Prop} (between : ∀ w, Reachable .any w → P w)
    (change : ∀ w after, P w → Change h w after → P after)
    (tell : ∀ (w : World) job outcome rest, w.IsDue job → P w → P (w.telling job outcome rest))
    (occurs : w.Occurs) : P w := by
  induction occurs with
  | between reached => exact between _ reached
  | enters reached context =>
    exact change _ _ (between _ reached) (.quiet (quietFor_of_same rfl rfl rfl))
  | @begins w context task rest reached next =>
    have entered : QuietFor h w ({ w with tasks := rest }.entered context []) :=
      quietFor_of_same rfl rfl rfl
    exact change _ _ (between _ reached) (.quiet (entered.record trivial))
  | tells reached next =>
    have due := isDue_of_posted reached.sound (Queue.mem_of_pop next)
    exact tell _ _ _ _ due (between _ reached)
  | moves _ move ih => exact change _ _ ih move.change

/-- A read stream agrees with its reads and with the calls on its record at every moment. -/
theorem World.Occurs.streams (occurs : w.Occurs) (h : HandleId) : Looping h w ∧ Holding h w := by
  refine World.Occurs.induct (h := h) (P := fun w => Looping h w ∧ Holding h w)
    (fun w reached => ⟨reached.looping h, reached.holding h⟩) ?_ ?_ occurs
  · intro w after ⟨looping, holding⟩ change
    exact ⟨looping.change change, holding.change change⟩
  · intro w job outcome rest due ⟨looping, holding⟩
    refine ⟨looping.telling due, ?_⟩
    by_cases handle : job.handle = h
    · exact holding.telling looping.reading due handle
    · exact holding.quiet (quietFor_telling_ne handle)

/-- On the books, every moment comes after a few turns. -/
theorem World.Occurs.turns (occurs : w.Occurs) :
    ∃ v, Reachable .any v ∧ Books.Turns .any v.books w.books := by
  induction occurs with
  | between reached => exact ⟨_, reached, .refl⟩
  | enters reached context => exact ⟨_, reached, .single (.switch (some context))⟩
  | @begins w context task rest reached next =>
    refine ⟨w, reached, .head (.begin next rfl) ?_⟩
    rw [World.books_record_aside ⟨rfl, rfl, rfl, rfl, rfl⟩]
    exact .single (.switch (some context))
  | @tells w job outcome rest reached next =>
    obtain ⟨s, known⟩ := known_of_sound reached.sound job outcome (Queue.mem_of_pop next)
    have here := World.onOwner_delivering outcome rest known
    have told : Books.Moves ((w.delivering job outcome rest).books.complete job outcome)
        (w.telling job outcome rest).books := World.enters_completing here
    rw [World.books_complete_delivering known] at told
    exact ⟨w, reached, .single (.breakOff next (World.books_handles known) told
      fun calm => by cases calm)⟩
  | moves _ move ih =>
    obtain ⟨v, reached, turns⟩ := ih
    rcases move.books with same | entry
    · exact ⟨v, reached, by rwa [same]⟩
    · exact ⟨v, reached, turns.tail (.move entry)⟩

theorem World.Occurs.sound (occurs : w.Occurs) : Books.Sound .any w.books := by
  obtain ⟨v, reached, turns⟩ := occurs.turns
  exact Books.Turns.sound turns reached.sound

theorem World.Occurs.losesPanickedOnly (occurs : w.Occurs) (alive : w.IsAlive) :
    w.books.LosesPanickedOnly := by
  obtain ⟨v, reached, turns⟩ := occurs.turns
  exact turns.losesPanickedOnly reached.sound (fun alive => reached.losesPanickedOnly alive) alive

/-- Wherever the code of a client leads, that occurs as well. -/
theorem World.Occurs.leads (occurs : w.Occurs) (moves : Moves w after) : after.Occurs := by
  induction moves with
  | refl => exact occurs
  | tail _ last ih => exact .moves ih last

/-! ## Under a pause -/

theorem World.Occurs.keepsPause (occurs : w.Occurs) (h : HandleId) (before : List ReaderCall) :
    w.KeepsPause h before := by
  obtain ⟨looping, holding⟩ := occurs.streams h
  have begins (e : Entry) (listed : e ∈ w.history) (under : e.UnderPause h before) :
      ¬ e.event.IsReadOf h := by
    intro reads
    have flows := holding.flowing e listed reads
    rw [PausedSince.leavesPaused under] at flows
    cases flows
  refine ⟨begins, fun newer e older split hands => ?_, fun newer e older split hands under => ?_⟩
  · exact (holding.handed newer e older split hands).first before
  · obtain ⟨c, earlier, ends, same⟩ := (holding.handed newer e older split hands).ended
    obtain ⟨job, outcome, completes, own⟩ : ∃ job outcome, c.event = .completed job outcome ∧
        job.IsChunkOf h := by
      rcases told : c.event
      case completed job outcome =>
        rw [told] at ends
        exact ⟨job, outcome, rfl, ends⟩
      all_goals
        rw [told] at ends
        cases ends
    have paused : c.UnderPause h before := by rwa [Entry.UnderPause, same]
    -- the read was begun before it has ended, so before the pause, as none is begun under it
    obtain ⟨between, oldest, split'⟩ := List.append_of_mem earlier
    have whole : w.history = (newer ++ e :: between) ++ c :: oldest := by
      rw [split, split', List.append_assoc, List.cons_append]
    obtain ⟨b, listed, a, accepts, ticket, -⟩ :=
      (looping.reading.tiled _ c oldest whole).ended job outcome completes own
    have reads : b.event.IsReadOf h := by
      rw [accepts]
      exact own.of_ticket ticket
    have there : b ∈ older := by
      rw [split']
      exact List.mem_append_right between (List.mem_cons_of_mem c listed)
    have behind := holding.ordered _ c oldest whole (.inr (.inl ends)) b listed (.inl reads)
    refine ⟨c, earlier, job, outcome, completes, own, paused, b, there, a, accepts, ticket, ?_⟩
    rcases PausedSince.earlier paused behind with prior | under
    · exact prior
    · refine absurd reads (begins b ?_ under)
      rw [split]
      exact List.mem_append_right newer (List.mem_cons_of_mem e there)

/-! ## The end of a pause -/

/-- A call that ends a pause and returns has the stream go on, and there was room for the read
    that it begins. -/
theorem readingOn_of_resumeReading (paused : (w.reader? h).any Reader.paused = true)
    (returns : exec (resumeReading h) w = (.ok (.result (.ok ())), after)) :
    (∃ s, w.handles[h]? = some s ∧ s.closed = false) ∧
    after = (w.modifyReader h Reader.resumed).readingOn h ∧
    (w.modifyReader h Reader.resumed).HasRoomFor h := by
  rw [resumeReading, exec_get_bind] at returns
  rcases decided : w.resume h with e | middle
  · rw [exec_bind_ok (exec_request_error decided)] at returns
    cases returns
  · rw [exec_bind_ok (exec_request_ok decided), exec_get_bind] at returns
    obtain ⟨s, checked, rfl⟩ := except_map_eq_ok.mp decided
    obtain ⟨known, -, opened⟩ := World.check_eq_ok_iff.mp (World.check_of_checkStream checked)
    refine ⟨⟨s, known, opened⟩, ?_⟩
    simp only [paused, Except.isOk, Except.toBool, Bool.true_and] at returns
    split at returns
    next wanted =>
      by_cases room : (w.modifyReader h Reader.resumed).HasRoomFor h
      · rw [exec_bind_ok (exec_startRead_of_room wanted room)] at returns
        exact ⟨(congrArg Prod.snd returns).symm, room⟩
      · -- without room the call does not return
        simp only [World.HasRoomFor, not_forall, Nat.not_le] at room
        obtain ⟨stream, -, idle, large⟩ := room
        rcases starts : exec (startRead h) (w.modifyReader h Reader.resumed) with ⟨result, last⟩
        have panics := exec_startRead_of_no_room idle large
        rw [starts] at panics
        obtain rfl : result = .error capacityOverflow := panics
        rw [exec_bind_error starts] at returns
        cases returns
    next unwanted =>
      have unwanted := Bool.eq_false_iff.mpr unwanted
      refine ⟨?_, fun stream wanted => ?_⟩
      · rw [World.readingOn_of_unwanted unwanted]
        exact (congrArg Prod.snd returns).symm
      · rw [unwanted] at wanted
        cases wanted

/-- What of a read stream is under way or lost are reads that were begun and have not ended. -/
theorem World.pending_of_unended {loose : List Job} (accounted : w.books.Accounted loose)
    (listed : job ∈ w.books.underway ++ loose) (own : job.IsChunkOf h) :
    ∃ a, w.IsPending h a ∧ a.id = job.id := by
  have there := ticket_mem_bag listed
  have undelivered := accounted.not_completed there
  obtain ⟨a, accepted, ticket⟩ : ∃ a ∈ w.books.accepted, a.ticket = job.ticket := by
    rw [bag_append, Multiset.mem_add] at there
    refine List.mem_map.mp (Multiset.mem_coe.mp (?_ : job.ticket ∈ bag w.books.accepted))
    rw [accounted.balanced, Multiset.mem_add, Multiset.mem_add]
    exact there.imp_left .inl
  have number : a.id = job.id := congrArg Ticket.id ticket
  refine ⟨a, ⟨accepted, own.of_ticket ticket, ?_⟩, number⟩
  rwa [show a.id = job.ticket.id from number]

/-- No read of a stream is broken off as it is to be begun, unless the stream was asked for more
    bytes than any buffer has room for. -/
theorem World.Occurs.not_brokeOffRead (occurs : w.Occurs)
    (fits : ∀ s, w.handles[h]? = some s → s.ChunksFit) : ¬ w.BrokeOffRead h := by
  rintro ⟨busy, none⟩
  obtain ⟨looping, -⟩ := occurs.streams h
  obtain ⟨loose, accounted, -⟩ := occurs.sound.accounted
  -- one read more was begun than has ended, so one is under way or lost
  have balanced := looping.continuing.balanced fits
  rw [busy, if_pos rfl, length_readsBegun accounted] at balanced
  have unended : 0 < ((w.books.underway ++ loose).filter fun a => a.IsChunkOf h).length := by
    rw [List.filter_append, List.length_append, ← World.readsUnderway]
    omega
  obtain ⟨job, listed⟩ := List.exists_mem_of_length_pos unended
  obtain ⟨listed, own⟩ := List.mem_filter.mp listed
  obtain ⟨a, pending, -⟩ := World.pending_of_unended accounted listed (of_decide_eq_true own)
  exact none a pending

/-- There is never more than one read of a stream under way. -/
theorem World.Occurs.readsUnderway_le_one (occurs : w.Occurs) (h : HandleId) :
    (w.readsUnderway h).length ≤ 1 := by
  obtain ⟨looping, -⟩ := occurs.streams h
  obtain ⟨loose, accounted, -⟩ := occurs.sound.accounted
  have begun (job : Job) (listed : job ∈ w.readsUnderway h) :
      ∃ a, w.IsPending h a ∧ a.id = job.id := by
    obtain ⟨underway, own⟩ := List.mem_filter.mp listed
    exact World.pending_of_unended accounted (List.mem_append_left loose underway)
      (of_decide_eq_true own)
  have apart : ((w.readsUnderway h).map Job.id).Nodup :=
    accounted.nodup.sublist (.map _ (List.filter_sublist.trans (by simp)))
  rcases first : (w.readsUnderway h).head? with _ | job
  · rw [List.head?_eq_none_iff.mp first]
    exact Nat.zero_le _
  · obtain ⟨a, pending, -⟩ := begun job (List.mem_of_head? first)
    apply Books.length_le_one apart (k := a.id)
    intro other listed
    obtain ⟨b, pending', number⟩ := begun other listed
    rw [← number, (looping.reading.pending a pending).2.2 b pending']

/-- A read that has not ended is under way, unless its native call has panicked. -/
theorem World.Occurs.underway_of_pending (occurs : w.Occurs) (alive : w.IsAlive)
    (pending : w.IsPending h a) (returns : ¬ w.HasPanicked a) :
    ∃ job, job ∈ w.readsUnderway h := by
  obtain ⟨accepted, own, undelivered⟩ := pending
  rcases (occurs.losesPanickedOnly alive).underway_or_completed accepted returns with
    ⟨job, underway, ticket⟩ | ⟨c, completed, ticket⟩
  · exact ⟨job, List.mem_filter.mpr ⟨underway, decide_eq_true (own.of_ticket ticket)⟩⟩
  · exact absurd (List.mem_map.mpr ⟨c, completed, congrArg Ticket.id ticket⟩) undelivered

/-- A stream that has gone on and is busy has a read begun that has not ended, if it had one
    whenever it was busy before. -/
theorem World.pending_readingOn (fresh : w.nextOperation ∉ w.books.delivered)
    (room : w.HasRoomFor h) (before : w.isReading h = true → ∃ a, w.IsPending h a)
    (busy : (w.readingOn h).isReading h = true) : ∃ a, (w.readingOn h).IsPending h a := by
  rcases w.readingOn_cases h with same | ⟨r, wanted, idle, started⟩
  · rw [same] at busy ⊢
    exact before busy
  · rcases w.startingRead_cases h r with ⟨large, -⟩ | ⟨-, same⟩
    · exact absurd (room r wanted idle) (Nat.not_le_of_lt large)
    · let a : Job := ⟨w.nextOperation, h, .ofRead r.position r.chunkSize, .chunk⟩
      let marked := w.modifyReader h ({ · with busy := true })
      rw [started, same]
      refine ⟨a, ?_, ⟨rfl, rfl⟩, ?_⟩
      · rw [World.accepted_enqueue]
        exact List.mem_cons_self
      · show a.id ∉ (marked.enqueue h a.transfer .chunk).completed.map fun c => c.1.id
        rwa [World.completed_enqueue]

/-- At every moment, as long as a pause of a read stream is in force: no read is begun, chunks
    are handed on once at most, and what is handed on then comes of a read that was under way
    when the stream was paused.  When a call ends the pause and returns, one read is under way
    if anybody listens and the stream is open and not at its end, unless a read was lost with a
    panic of its native call, or broken off as it was to be begun.  The latter needs a stream that
    was asked for more bytes than any buffer has room for. -/
theorem pause_holds_until_resume (occurs : w.Occurs) (h : HandleId) :
    (∀ after, (w.reader? h).isSome = true → w.pause h = .ok after →
      after.UnderPause h (readerCallsIn w.handles h)) ∧
    ((∀ s, w.handles[h]? = some s → s.ChunksFit) → ¬ w.BrokeOffRead h) ∧
    ∀ before, w.KeepsPause h before ∧
      (w.UnderPause h before →
        ∀ after s, exec (resumeReading h) w = (.ok (.result (.ok ())), after) →
          after.IsAlive → after.handles[h]? = some s → s.closed = false →
          s.readStream.data.isSome = true → s.readStream.ended = false →
          ¬ after.HasLostRead h → ¬ w.BrokeOffRead h → (after.readsUnderway h).length = 1) := by
  refine ⟨fun after made accepted => underPause_of_pause made accepted, occurs.not_brokeOffRead,
    fun before => ⟨occurs.keepsPause h before, ?_⟩⟩
  intro under after s returns alive known opened heard goes_on kept whole
  obtain ⟨-, holding⟩ := occurs.streams h
  have paused := holding.paused under
  have occurs' : after.Occurs := by
    have led := occurs.leads (moves_resumeReading (h := h))
    rwa [returns] at led
  obtain ⟨-, holding'⟩ := occurs'.streams h
  obtain ⟨-, rfl, room⟩ := readingOn_of_resumeReading paused returns
  have flows : s.readStream.paused = false := by
    obtain ⟨r, made, -⟩ := (Option.any_eq_true _ _).mp paused
    have asAsked : s.readStream.paused = _ := holding'.asAsked s known
    rw [asAsked, ← readerCallsIn_of_known known, readerCallsIn_readingOn,
      readerCallsIn_modifyReader made rfl]
    rfl
  have busy : ((w.modifyReader h Reader.resumed).readingOn h).isReading h = true := by
    rw [World.isReading_of_known known, busy_readingOn known opened ⟨heard, flows, goes_on⟩]
  -- whatever the stream was busy with when it was resumed is under way
  have before : (w.modifyReader h Reader.resumed).isReading h = true →
      ∃ a, (w.modifyReader h Reader.resumed).IsPending h a := by
    intro reading
    by_contra none
    refine whole ⟨?_, fun a pending => none ⟨a, pending⟩⟩
    rwa [World.isReading, figure_modifyReader (f := Reader.resumed) fun _ => rfl] at reading
  obtain ⟨loose, accounted, -⟩ := occurs.sound.accounted
  obtain ⟨a, pending⟩ := World.pending_readingOn (w := w.modifyReader h Reader.resumed)
    (fun listed => Nat.lt_irrefl _ (accounted.lt_of_delivered listed)) room before busy
  have returned : ¬ World.HasPanicked _ a := fun panicked =>
    kept ⟨a, List.mem_filter.mpr ⟨pending.1, decide_eq_true pending.2.1⟩, panicked⟩
  obtain ⟨job, underway⟩ := occurs'.underway_of_pending alive pending returned
  exact Nat.le_antisymm (occurs'.readsUnderway_le_one h) (List.length_pos_of_mem underway)

end Pausing

/-- A call that ends a pause returns, and leaves a world with some property.  All is up then, and
    somebody listens to the stream, which is open and not at its end. -/
def World.resumesTo (w : World) (h : HandleId) (holds : World → Bool) : Bool :=
  match exec (resumeReading h) w with
  | (.ok (.result (.ok ())), after) =>
    holds after && (after.jobs.isOpen && after.tasks.isOpen) && after.handles[h]?.any fun s =>
      !s.closed && (s.readStream.data.isSome && !s.readStream.ended)
  | _ => false

theorem exists_of_resumesTo {w : World} {h : HandleId} {holds : World → Bool}
    (resumes : w.resumesTo h holds = true) :
    ∃ after s, exec (resumeReading h) w = (.ok (.result (.ok ())), after) ∧
      holds after = true ∧ after.IsAlive ∧ after.handles[h]? = some s ∧ s.closed = false ∧
      s.readStream.data.isSome = true ∧ s.readStream.ended = false := by
  unfold World.resumesTo at resumes
  split at resumes
  next after ends =>
    simp only [Bool.and_eq_true] at resumes
    obtain ⟨⟨held, alive⟩, there⟩ := resumes
    obtain ⟨s, known, stands⟩ := (Option.any_eq_true _ _).mp there
    simp only [Bool.and_eq_true, Bool.not_eq_true'] at stands
    exact ⟨after, s, ends, held, alive, known, stands⟩
  · cases resumes

/-- The record of a read stream that was paused when its listener was registered. -/
theorem pausedSince_of_record {calls : List ReaderCall}
    (recorded : calls = [.pause, .listen false]) : PausedSince [.listen false] calls :=
  ⟨[], recorded, fun c listed => by cases listed⟩

/-- A client listens for the chunks of a file and pauses the stream with a read under way. -/
def pausing : List Choice :=
  [.body 0 [
    .openFile 0 { read := true, readBufferSize := 2 } .log (.memory (.bytes [1, 2, 3]) none {}),
    .readStream 0,
    .onData 0 ⟨"data", [], [], []⟩,
    .pause 0],
  .take]

/-- The read comes to an end, and its chunk is handed on. -/
def pausedRun : Option World :=
  (World.start 1 ⟨[], []⟩).follow (pausing ++ [.answer 0 (.moved 2 [1, 2]), .finish 0, .task])

theorem paused_stream_hands_on_one_chunk : ∃ w after, pausedRun = some w ∧
    (w.entered ⟨0⟩ []).Occurs ∧ (w.entered ⟨0⟩ []).UnderPause 0 [.listen false] ∧
    (∃ e ∈ w.history, e.event.IsDataOf 0 ∧ e.UnderPause 0 [.listen false]) ∧
    (w.entered ⟨0⟩ []).KeepsPause 0 [.listen false] ∧
    exec (resumeReading 0) (w.entered ⟨0⟩ []) = (.ok (.result (.ok ())), after) ∧
    (after.readsUnderway 0).length = 1 := by
  have facts : (pausedRun.any fun w =>
      decide (readerCallsIn w.handles 0 = [.pause, .listen false]) && !w.isReading 0 &&
      (w.history.any fun e => decide (e.event.IsDataOf 0) &&
        decide (readerCallsIn e.handles 0 = [.pause, .listen false])) &&
      (w.entered ⟨0⟩ []).resumesTo 0 fun after => decide after.NativesReturn) = true := by
    decide +kernel
  obtain ⟨w, run, stands⟩ := (Option.any_eq_true _ _).mp facts
  simp only [Bool.and_eq_true] at stands
  obtain ⟨⟨⟨recorded, idle⟩, handed⟩, resumes⟩ := stands
  obtain ⟨after, s, returns, natives, alive, known, opened, heard, goes_on⟩ :=
    exists_of_resumesTo resumes
  obtain ⟨e, listed, stands⟩ := List.any_eq_true.mp handed
  obtain ⟨hands, under⟩ := Bool.and_eq_true_iff.mp stands
  have occurs : (w.entered ⟨0⟩ []).Occurs := .enters (World.reachable_of_follow run) ⟨0⟩
  obtain ⟨-, -, holds⟩ := pause_holds_until_resume occurs 0
  obtain ⟨keeps, goesOn⟩ := holds [.listen false]
  have paused : (w.entered ⟨0⟩ []).UnderPause 0 [.listen false] :=
    pausedSince_of_record (of_decide_eq_true recorded)
  have kept : ¬ after.HasLostRead 0 := fun ⟨a, listed, panicked⟩ => by
    have returned := of_decide_eq_true natives a (List.mem_of_mem_filter listed)
    rw [show a.transfer.afterCalls _ = none from panicked] at returned
    cases returned
  have whole : ¬ (w.entered ⟨0⟩ []).BrokeOffRead 0 := fun ⟨busy, _⟩ => by
    rw [show w.isReading 0 = true from busy] at idle
    cases idle
  exact ⟨w, after, run, occurs, paused, ⟨e, listed, of_decide_eq_true hands,
    pausedSince_of_record (of_decide_eq_true under)⟩, keeps, returns,
    goesOn paused after s returns alive known opened heard goes_on kept whole⟩

/-- The native call of the read panics. -/
def lostReadRun : Option World :=
  ((World.start 1 ⟨[], []⟩).follow pausing).bind fun w => w.running.head?.bind fun job =>
    job.transfer.call?.map fun call => w.answer job call (.panicked "gone")

/-- When the pause is ended no read is begun, and none is under way. -/
theorem resumed_stream_may_begin_no_read : ∃ w after s, lostReadRun = some w ∧
    Reachable .any w ∧ (w.entered ⟨0⟩ []).UnderPause 0 [.listen false] ∧
    exec (resumeReading 0) (w.entered ⟨0⟩ []) = (.ok (.result (.ok ())), after) ∧
    after.IsAlive ∧ after.handles[0]? = some s ∧ s.closed = false ∧
    s.readStream.data.isSome = true ∧ s.readStream.ended = false ∧
    after.readsUnderway 0 = [] := by
  have facts : (lostReadRun.any fun w =>
      decide (readerCallsIn w.handles 0 = [.pause, .listen false]) &&
      (w.entered ⟨0⟩ []).resumesTo 0 fun after => (after.readsUnderway 0).isEmpty) = true := by
    decide +kernel
  obtain ⟨w, run, stands⟩ := (Option.any_eq_true _ _).mp facts
  obtain ⟨recorded, resumes⟩ := Bool.and_eq_true_iff.mp stands
  obtain ⟨after, s, returns, none, alive, known, opened, heard, goes_on⟩ :=
    exists_of_resumesTo resumes
  refine ⟨w, after, s, run, ?_, pausedSince_of_record (of_decide_eq_true recorded),
    returns, alive, known, opened, heard, goes_on, List.isEmpty_iff.mp none⟩
  obtain ⟨v, begun, answered⟩ := Option.bind_eq_some_iff.mp run
  obtain ⟨job, first, answered⟩ := Option.bind_eq_some_iff.mp answered
  obtain ⟨call, calls, rfl⟩ := Option.map_eq_some_iff.mp answered
  exact (World.reachable_of_follow begun).step (.answer (.panicked "gone") v.files v.backends
    (List.mem_of_head? first) calls fun calm => by cases calm)

end PinnedFile
