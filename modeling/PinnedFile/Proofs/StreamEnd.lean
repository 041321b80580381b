/-
  PinnedFile.Proofs.StreamEnd

  The end of a read stream is genuine and final, and it is told at most once.

  A stream comes to its end by a read that found nothing, and in no other way.  From then on
  it stays where it is, whatever is called on it: it begins no read, and hands nothing on.
-/

import PinnedFile.Proofs.Chunks
import PinnedFile.Proofs.Streams.Calls

namespace PinnedFile

/-- The end of the read stream of a handle is told to its listener. -/
def Event.tellsEnd (h : HandleId) : Event → Bool
  | .ended k _ => k = h
  | _ => false

/-- An event by which the read stream of a handle begins no read and ends none, and no chunk of
    it is handed on. -/
def Event.IsStill (h : HandleId) (event : Event) : Prop :=
  event.IsNoChunk h ∧ event.handed? h = none

/-- A read of the stream of a handle has found nothing. -/
def HasEnded (h : HandleId) (history : List Entry) : Prop :=
  ∃ e ∈ history, e.event.chunk? h = some []

/-- A stream is at its end in an entry if a read before has found nothing; it is still from
    then on, and its end is told once. -/
structure Settled (h : HandleId) (e : Entry) (older : List Entry) : Prop where
  ended : readEndedIn e.handles h = true ↔ HasEnded h older
  still : HasEnded h older → e.event.IsStill h
  told : e.event.tellsEnd h = true → HasEnded h older ∧ ∀ f ∈ older, f.event.tellsEnd h = false

/-- The state of a read stream agrees with what is known of its end. -/
structure Finality (h : HandleId) (w : World) : Prop where
  ended : readEndedIn w.handles h = true ↔ HasEnded h w.history
  settled : Throughout (Settled h) w.history

section Finality

variable {mode : Mode} {h : HandleId} {w after : World} {job : Job} {outcome : Outcome}
  {rest : Queue Task} {e : Entry} {newer new older : List Entry} {event : Event} {s : Handle}

theorem hasEnded_append (none : ∀ e ∈ new, e.event.chunk? h ≠ some []) :
    HasEnded h (new ++ older) ↔ HasEnded h older := by
  constructor
  · rintro ⟨e, listed, found⟩
    rcases List.mem_append.mp listed with now | before
    · exact absurd found (none e now)
    · exact ⟨e, before, found⟩
  · rintro ⟨e, listed, found⟩
    exact ⟨e, List.mem_append_right new listed, found⟩

/-- Before the end nothing was told of it. -/
theorem Finality.untold (final : Finality h w) (goes_on : ¬ HasEnded h w.history) :
    ∀ f ∈ w.history, f.event.tellsEnd h = false := by
  intro f listed
  by_contra tells
  obtain ⟨newer, older, split⟩ := List.append_of_mem listed
  obtain ⟨⟨e, before, found⟩, -⟩ :=
    (final.settled newer f older split).told (Bool.not_eq_false _ ▸ tells)
  refine goes_on ⟨e, ?_, found⟩
  rw [split]
  exact List.mem_append_right newer (List.mem_cons_of_mem f before)

/-! ## What neither ends a stream nor tells of it -/

/-- An event by which nobody is told of a chunk of the stream, or of its end. -/
def Event.IsMute (h : HandleId) (event : Event) : Prop :=
  event.handed? h = none ∧ event.tellsEnd h = false

theorem Event.IsQuietFor.mute (quiet : event.IsQuietFor h) : event.IsMute h := by
  cases event with
  | data k tag chunk => exact ⟨if_neg quiet, rfl⟩
  | ended k tag => exact ⟨rfl, decide_eq_false quiet⟩
  | _ => exact ⟨rfl, rfl⟩

theorem Event.IsClients.mute (clients : event.IsClients) : event.IsMute h := by
  cases event with
  | data | ended => cases clients
  | _ => exact ⟨rfl, rfl⟩

theorem Change.mute (change : Change h w after) : Notes (·.event.IsMute h) w after := by
  refine change.notes.mono fun e told => ?_
  rcases told with quiet | clients
  · exact quiet.mute
  · exact clients.mute

/-- The law is kept by whatever reads nothing and tells nobody. -/
theorem Finality.readsNothing (final : Finality h w) (nothing : ReadsNothing h w after)
    (mute : Notes (·.event.IsMute h) w after) : Finality h after := by
  have same := nothing.remains.readEnded fun _ _ => Handle.ReadsNothing.ended
  obtain ⟨new, added, noted⟩ := nothing.notes.and mute
  have none (e : Entry) (listed : e ∈ new) : e.event.chunk? h ≠ some [] := by
    rw [(noted e listed).1.1.chunk?]
    exact nofun
  constructor
  case ended =>
    rw [same, added, hasEnded_append none]
    exact final.ended
  case settled =>
    rw [added]
    clear added
    induction new with
    | nil => exact final.settled
    | cons e new ih =>
      have later := fun e listed => noted e (List.mem_cons_of_mem _ listed)
      have none' := fun e listed => none e (List.mem_cons_of_mem _ listed)
      obtain ⟨⟨isNoChunk, there⟩, unheard, untold⟩ := noted e List.mem_cons_self
      refine (ih later none').cons ⟨?_, fun _ => ⟨isNoChunk, unheard⟩, fun tells => ?_⟩
      · rw [there.2, hasEnded_append none']
        exact final.ended
      · rw [untold] at tells
        cases tells

theorem Finality.quiet (final : Finality h w) (quiet : QuietFor h w after) : Finality h after :=
  final.readsNothing quiet.readsNothing (quiet.notes.mono fun _ told => told.1.mute)

theorem QuietFor.hasEnded (quiet : QuietFor h w after) :
    HasEnded h after.history ↔ HasEnded h w.history := by
  obtain ⟨new, added, noted⟩ := quiet.readsNothing.notes
  rw [added]
  refine hasEnded_append fun e listed => ?_
  rw [(noted e listed).1.chunk?]
  exact nofun

/-- An event that is no end leaves the law as it is, if it is still after an end, and if it
    tells of an end that there was. -/
theorem Finality.record (final : Finality h w) (none : event.chunk? h ≠ some [])
    (still : HasEnded h w.history → event.IsStill h)
    (told : event.tellsEnd h = true → HasEnded h w.history ∧
      ∀ f ∈ w.history, f.event.tellsEnd h = false) : Finality h (w.record event) where
  ended := by
    have same : HasEnded h ([⟨w.context, event, w.handles⟩] ++ w.history) ↔
        HasEnded h w.history :=
      hasEnded_append fun e listed => List.mem_singleton.mp listed ▸ none
    exact final.ended.trans same.symm
  settled := final.settled.cons ⟨final.ended, still, told⟩

/-! ## A stream that has not ended -/

/-- As long as a stream goes on, anything may happen but that a read finds nothing. -/
theorem Finality.goesOn (final : Finality h w) (before : readEndedIn w.handles h = false)
    (now : readEndedIn after.handles h = false)
    (notes : Notes (fun e => readEndedIn e.handles h = false ∧ e.event.chunk? h ≠ some [] ∧
      e.event.tellsEnd h = false) w after) : Finality h after := by
  have goes_on : ¬ HasEnded h w.history := by
    rw [← final.ended, before]
    exact Bool.false_ne_true
  obtain ⟨new, added, noted⟩ := notes
  constructor
  case ended =>
    rw [now, added, hasEnded_append fun e listed => (noted e listed).2.1]
    exact iff_of_false Bool.false_ne_true goes_on
  case settled =>
    rw [added]
    clear added
    induction new with
    | nil => exact final.settled
    | cons e new ih =>
      have later := fun e listed => noted e (List.mem_cons_of_mem _ listed)
      obtain ⟨unended, -, untold⟩ := noted e List.mem_cons_self
      have still_goes : ¬ HasEnded h (new ++ w.history) := by
        rwa [hasEnded_append fun e listed => (later e listed).2.1]
      refine (ih later).cons ⟨?_, fun ended => absurd ended still_goes, fun tells => ?_⟩
      · rw [unended]
        exact iff_of_false Bool.false_ne_true still_goes
      · rw [untold] at tells
        cases tells

theorem Finality.readingOn (final : Finality h w) : Finality h (w.readingOn h) := by
  by_cases isEnded : readEndedIn w.handles h = true
  · -- a stream that has ended begins no read
    rcases w.readingOn_cases h with same | ⟨r, -, idle, -⟩
    · rwa [same]
    · obtain ⟨s, known, made, -, goes_on⟩ := World.idleReader?_eq_some idle
      rw [readEndedIn, known, Option.map_some, Option.getD_some, Handle.readStream, made,
        Option.getD_some, goes_on] at isEnded
      cases isEnded
  · rw [Bool.not_eq_true] at isEnded
    obtain ⟨now, there⟩ := samePlace_readingOn (w := w) (h := h)
    refine final.goesOn isEnded (now.2.trans isEnded) ?_
    refine (there.and w.notes_readingOn).mono fun e told => ?_
    obtain ⟨there, clients, -⟩ := told
    refine ⟨there.2.trans isEnded, ?_, clients.mute.2⟩
    rw [clients.silent.1]
    exact fun found => by cases found

/-! ## The end of a read -/

/-- The outcome of a read ends the stream if nothing was found, and else the stream goes on. -/
theorem Finality.receive (final : Finality h w) (reading : Reading h w) (due : w.IsDue job)
    (own : job.IsChunkOf h) (outcome : Outcome) (rest : Queue Task) : ¬ HasEnded h w.history ∧
    Finality h (w.arriving job outcome rest) ∧
    (HasEnded h (w.arriving job outcome rest).history ↔ outcome = .ok []) := by
  obtain ⟨s, r, known, made, -, goes_on⟩ := reading.busy_of_due due own
  have before : readEndedIn w.handles h = false := by
    rw [readEndedIn, known, Option.map_some, Option.getD_some, Handle.readStream, made,
      Option.getD_some, goes_on]
  have unended : ¬ HasEnded h w.history := by
    rw [← final.ended, before]
    exact Bool.false_ne_true
  have now : readEndedIn (w.arriving job outcome rest).handles h = (r.receiving outcome).ended := by
    rw [readEndedIn, handle_of_arriving own, known, Option.map_some, Option.map_some,
      Option.getD_some, Handle.readStream, made, Option.map_some, Option.getD_some]
  let e : Entry := ⟨(w.delivering job outcome rest).context, .completed job outcome,
    ((w.delivering job outcome rest).completing job outcome).handles⟩
  have same : readEndedIn e.handles h = readEndedIn w.handles h := figure_modify fun _ => rfl
  have there : ¬ readEndedIn e.handles h = true := by
    rw [same, before]
    exact Bool.false_ne_true
  have found : e.event.chunk? h = some [] ↔ outcome = .ok [] := by
    rw [Event.chunk?_eq_some_iff]
    constructor
    · rintro ⟨job', -, same⟩
      exact (Event.completed.inj same).2
    · rintro rfl
      exact ⟨job, own, rfl⟩
  have history : (w.arriving job outcome rest).history = [e] ++ w.history := w.history_arriving
  generalize w.arriving job outcome rest = after at now history ⊢
  refine ⟨unended, ?_⟩
  by_cases nothing : outcome = .ok []
  · have hasEnded : HasEnded h after.history := by
      rw [history]
      exact ⟨e, List.mem_cons_self, found.mpr nothing⟩
    rw [nothing] at now
    refine ⟨⟨iff_of_true now hasEnded, ?_⟩, iff_of_true hasEnded nothing⟩
    rw [history]
    exact final.settled.cons ⟨iff_of_false there unended, fun ended => absurd ended unended,
      fun tells => by cases tells⟩
  · have stays : readEndedIn after.handles h = false := by
      rw [now, ← Bool.not_eq_true]
      exact fun ends => nothing (receiving_ended goes_on ends)
    have none : e.event.chunk? h ≠ some [] := fun ends => nothing (found.mp ends)
    refine ⟨final.goesOn before stays ⟨[e], history, fun e' listed => ?_⟩,
      iff_of_false ?_ nothing⟩
    · obtain rfl := List.mem_singleton.mp listed
      exact ⟨Bool.not_eq_true _ ▸ there, none, rfl⟩
    · rwa [history, hasEnded_append fun e' listed => List.mem_singleton.mp listed ▸ none]

theorem Finality.arriving (final : Finality h w) (reading : Reading h w) (due : w.IsDue job)
    (handle : job.handle = h) : Finality h (w.arriving job outcome rest) := by
  by_cases own : job.IsChunkOf h
  · exact (final.receive reading due own outcome rest).2.1
  · refine final.readsNothing (readsNothing_arriving handle own) ?_
    rw [World.arriving_plain handle own]
    exact ⟨[_], rfl, fun e listed => List.mem_singleton.mp listed ▸ ⟨rfl, rfl⟩⟩

/-- What is told of a stream after an outcome has reached it: a chunk is handed on only as long
    as the stream has not ended, and its end is told when it has just ended. -/
theorem Finality.telling (final : Finality h w) (reading : Reading h w) (due : w.IsDue job)
    (handle : job.handle = h) : Finality h (w.telling job outcome rest) := by
  have arrived : Finality h (w.arriving job outcome rest) := final.arriving reading due handle
  rcases w.telling_cases (h := h) job outcome rest with
    ⟨quiet, -⟩ | ⟨v, tag, first, more, quiet, told, chunk, rfl, -⟩ |
    ⟨v, tag, quiet, told, chunk, rfl⟩
  · exact arrived.quiet quiet
  · obtain ⟨-, -, ends⟩ := final.receive reading due ⟨handle, chunk⟩ (.ok (first :: more)) rest
    have goes_on : ¬ HasEnded h v.history := by
      rw [quiet.hasEnded, ends]
      exact nofun
    rw [told]
    exact (arrived.quiet quiet).record nofun (fun ended => absurd ended goes_on)
      fun tells => by cases tells
  · obtain ⟨unended, -, ends⟩ := final.receive reading due ⟨handle, chunk⟩ (.ok []) rest
    rw [told]
    refine (arrived.quiet quiet).record nofun (fun _ => ⟨trivial, rfl⟩) fun _ => ⟨?_, ?_⟩
    · rw [quiet.hasEnded, ends]
    · -- what came before this delivery told of no end, and since then nothing was told
      obtain ⟨new, added, noted⟩ := quiet.notes
      rw [added, World.history_arriving]
      intro f listed
      rcases List.mem_append.mp listed with now | before
      · exact (noted f now).1.mute.2
      · rcases List.mem_cons.mp before with rfl | before
        · rfl
        · exact final.untold unended f before

/-! ## In every run -/

theorem finality_start (workers : Nat) (files : FileTree) :
    Finality h (World.start workers files) where
  ended := by
    refine iff_of_false Bool.false_ne_true ?_
    rintro ⟨e, listed, -⟩
    exact absurd listed List.not_mem_nil
  settled := throughout_nil

theorem Finality.change (final : Finality h w) (change : Change h w after) :
    Finality h after := by
  rcases change.readsNothing with nothing | ⟨v, nothing, same, rfl⟩
  · exact final.readsNothing nothing change.mute
  · exact (final.readsNothing nothing (notes_of_same same)).readingOn

/-- In every run the state of a read stream agrees with what is known of its end. -/
theorem Reachable.finality (reached : Reachable mode w) (h : HandleId) : Finality h w := by
  suffices Reading h w ∧ Finality h w from this.2
  refine Reachable.streams_induct (h := h) (P := fun w => Reading h w ∧ Finality h w)
    (fun workers files => ⟨reading_start workers files, finality_start workers files⟩)
    ?_ ?_ ?_ ?_ reached
  · intro w after ⟨reading, final⟩ change
    exact ⟨reading.change change, final.change change⟩
  · intro w job outcome rest _ due handle ⟨reading, final⟩
    exact ⟨reading.telling due handle, final.telling reading due handle⟩
  · intro w id ⟨reading, final⟩
    exact ⟨reading.readsNothing (readsNothing_record trivial),
      final.record nofun (fun _ => ⟨trivial, rfl⟩) fun tells => by cases tells⟩
  · intro w ⟨reading, final⟩
    exact ⟨reading.readingOn, final.readingOn⟩

/-! ## What an end is -/

/-- The read stream of a handle is at its end, and at a position, among some handles. -/
def StandsEnded (handles : List Handle) (h : HandleId) (position : Nat) : Prop :=
  ∃ r, handles[h]?.bind Handle.reader = some r ∧ r.ended = true ∧ r.position = position

/-- What an entry of a history is that ends the read stream of a handle, `r` being the stream
    when the read was asked for. -/
structure IsEndOf (w : World) (h : HandleId) (newer : List Entry) (e : Entry)
    (older : List Entry) (job : Job) (r : Reader) : Prop where
  /-- The read was asked for by the stream, -/
  asked : ∃ b ∈ older, ∃ a, b.event = .accepted a ∧ a.id = job.id ∧
    b.handles[h]?.bind Handle.reader = some r
  /-- for some bytes at its position, -/
  sized : 0 < r.chunkSize
  /-- the stream was there still when the read came back, -/
  there : readPositionIn e.handles h = r.position ∧ readEndedIn e.handles h = false
  /-- and it came back with nothing, by the first of its calls that was not cut short. -/
  nothing : Transfer.FoundNothing r.position r.chunkSize (w.books.exchangesOf job.id)
  /-- Since then the stream is at its end and where it was, -/
  stands : StandsEnded w.handles h r.position
  /-- and it begins no read, and hands nothing on. -/
  still : ∀ e' ∈ newer, e'.event.IsStill h ∧ StandsEnded e'.handles h r.position

theorem standsEnded_of {handles : List Handle} {position : Nat}
    (there : readPositionIn handles h = position) (isEnded : readEndedIn handles h = true) :
    StandsEnded handles h position := by
  subst there
  unfold readEndedIn at isEnded
  rcases known : handles[h]? with _ | s
  · rw [known] at isEnded
    cases isEnded
  · rw [known, Option.map_some, Option.getD_some] at isEnded
    rcases made : s.reader with _ | r
    · rw [Handle.readStream, made] at isEnded
      cases isEnded
    · have stream : s.readStream = r := by rw [Handle.readStream, made, Option.getD_some]
      rw [stream] at isEnded
      refine ⟨r, ?_, isEnded, ?_⟩
      · rw [known, Option.bind_some, made]
      · rw [readPositionIn, known, Option.map_some, Option.getD_some, stream]

theorem readEndedIn_of_reader {handles : List Handle} {r : Reader}
    (made : handles[h]?.bind Handle.reader = some r) : readEndedIn handles h = r.ended := by
  obtain ⟨s, known, made⟩ := Option.bind_eq_some_iff.mp made
  rw [readEndedIn, known, Option.map_some, Option.getD_some, Handle.readStream, made,
    Option.getD_some]

/-- After an end nothing is read. -/
theorem bytesRead_of_end (found : e.event.chunk? h = some [])
    (still : ∀ e' ∈ newer, e'.event.IsNoChunk h) :
    bytesRead h (newer ++ e :: older) = bytesRead h older := by
  rw [bytesRead_append still, bytesRead, found, Option.getD_some, List.append_nil]

/-- The history is still after an end. -/
theorem Finality.isStill (final : Finality h w) (split : w.history = newer ++ e :: older)
    (found : e.event.chunk? h = some []) :
    ∀ e' ∈ newer, e'.event.IsStill h ∧ readEndedIn e'.handles h = true := by
  intro e' listed
  obtain ⟨later, middle, rfl⟩ := List.append_of_mem listed
  have settled := final.settled later e' (middle ++ e :: older) (by
    rw [split, List.append_assoc, List.cons_append])
  have ended : HasEnded h (middle ++ e :: older) :=
    ⟨e, List.mem_append_right middle List.mem_cons_self, found⟩
  exact ⟨settled.still ended, settled.ended.mpr ended⟩

/-- The end of a stream is told once at most. -/
theorem countP_tellsEnd (settled : Throughout (Settled h) older) :
    older.countP (·.event.tellsEnd h) ≤ 1 := by
  induction older with
  | nil => exact Nat.zero_le 1
  | cons e older ih =>
    rw [List.countP_cons]
    split
    next tells =>
      have first := (settled [] e older rfl).told tells
      rw [List.countP_eq_zero.mpr fun f listed => Bool.not_eq_true _ ▸ first.2 f listed]
    · exact ih settled.tail

/-- A read that found nothing is an end. -/
theorem Reachable.isEndOf (reached : Reachable mode w) (split : w.history = newer ++ e :: older)
    (completes : e.event = .completed job (.ok [])) (own : job.IsChunkOf h) :
    ∃ r, IsEndOf w h newer e older job r := by
  have reading := reached.reading h
  have final := reached.finality h
  have found : e.event.chunk? h = some [] := Event.chunk?_eq_some_iff.mpr ⟨job, own, completes⟩
  have still := final.isStill split found
  obtain ⟨b, earlier, a, r, begins, number, -, stream, asks, position, transfer, made, ended⟩ :=
    reached.made_of_completed split completes own
  rw [transfer, number] at made
  -- the stream is at the end of what it has read, and nothing is read after an end
  have same {middle : List Entry} (none : ∀ e' ∈ middle, e'.event.IsNoChunk h) :
      (bytesRead h (middle ++ e :: older)).length = r.position := by
    rw [bytesRead_of_end found none, position]
  refine ⟨r, ?_⟩
  constructor
  case asked => exact ⟨b, earlier, a, begins, number, stream⟩
  case sized => exact asks
  case nothing => exact made.foundNothing asks ended
  case there =>
    refine ⟨by rw [(reading.tiled newer e older split).position, position], ?_⟩
    have settled := final.settled newer e older split
    rw [← Bool.not_eq_true, settled.ended]
    intro ended
    have none := (settled.still ended).1.chunk?
    rw [found] at none
    cases none
  case stands =>
    refine standsEnded_of ?_ (final.ended.mpr ⟨e, ?_, found⟩)
    · rw [reading.position, split, same fun e' listed => (still e' listed).1.1]
    · rw [split]
      exact List.mem_append_right newer List.mem_cons_self
  case still =>
    intro e' listed
    refine ⟨(still e' listed).1, ?_⟩
    -- between the end and this entry nothing is read either
    obtain ⟨later, middle, rfl⟩ := List.append_of_mem listed
    refine standsEnded_of ?_ (still e' listed).2
    rw [(reading.tiled later e' (middle ++ e :: older) (by
      rw [split, List.append_assoc, List.cons_append])).position]
    refine same fun f listed => (still f ?_).1.1
    exact List.mem_append_right later (List.mem_cons_of_mem e' listed)

/-- A read stream comes to its end only by a read that it asked for at its position, for some
    bytes, and of which the first call that was not cut short found nothing.  From then on the
    stream stays at its end and where it is, begins no read and hands nothing on, whatever is
    done.  Its end is told at most once. -/
theorem end_of_stream_is_final (reached : Reachable mode w) (h : HandleId) :
    (∀ newer e older job, w.history = newer ++ e :: older → e.event = .completed job (.ok []) →
      job.IsChunkOf h → ∃ r, IsEndOf w h newer e older job r) ∧
    (∀ newer e older r, w.history = newer ++ e :: older →
      e.handles[h]?.bind Handle.reader = some r → r.ended = true → HasEnded h older) ∧
    (∀ r, w.reader? h = some r → r.ended = true → HasEnded h w.history) ∧
    w.history.countP (·.event.tellsEnd h) ≤ 1 := by
  have final := reached.finality h
  refine ⟨fun newer e older job split => reached.isEndOf split, ?_, ?_,
    countP_tellsEnd final.settled⟩
  · intro newer e older r split made isEnded
    rw [← (final.settled newer e older split).ended, readEndedIn_of_reader made, isEnded]
  · intro r made isEnded
    rw [← final.ended, readEndedIn_of_reader made, isEnded]

/-- A run in which the first read of a stream is cut short and then finds nothing, the listener
    for the end pauses and resumes the stream, and a client listens for chunks once more. -/
def endingRun : Option World :=
  (World.start 1 ⟨[], []⟩).follow
    [.body 0 [
      .openFile 0 { read := true, readBufferSize := 3 } .log (.memory (.bytes []) none {}),
      .readStream 0,
      .onEnd 0 ⟨"end", [], [.pause 0, .resume 0], []⟩,
      .onData 0 ⟨"data", [], [], []⟩],
    .take, .answer 0 (.failed (.bare .interrupted)), .answer 0 (.moved 0 []), .finish 0, .task,
    .body 0 [.setChunkSize 0 5, .clearData 0, .onData 0 ⟨"more", [], [], []⟩]]

theorem empty_file_ends_once : ∃ w newer e older job r, endingRun = some w ∧
    w.history = newer ++ e :: older ∧ e.event = .completed job (.ok []) ∧ job.IsChunkOf 0 ∧
    IsEndOf w 0 newer e older job r ∧ w.history.countP (·.event.tellsEnd 0) = 1 := by
  have stands : (endingRun.any fun w => 1 ≤ w.history.countP (·.event.tellsEnd 0) &&
      w.history.any fun e => e.event.chunk? 0 = some []) = true := by decide +kernel
  obtain ⟨w, run, found⟩ := (Option.any_eq_true _ _).mp stands
  obtain ⟨told, found⟩ := Bool.and_eq_true_iff.mp found
  obtain ⟨e, listed, found⟩ := List.any_eq_true.mp found
  obtain ⟨job, own, completes⟩ := Event.chunk?_eq_some_iff.mp (of_decide_eq_true found)
  obtain ⟨newer, older, split⟩ := List.append_of_mem listed
  have reached : Reachable .calm w := World.reachable_of_follow run
  obtain ⟨genuine, -, -, once⟩ := end_of_stream_is_final reached 0
  obtain ⟨r, isEnd⟩ := genuine newer e older job split completes own
  exact ⟨w, newer, e, older, job, r, run, split, completes, own, isEnd,
    Nat.le_antisymm once (of_decide_eq_true told)⟩

end Finality

end PinnedFile
