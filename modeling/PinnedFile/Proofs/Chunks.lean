/-
  PinnedFile.Proofs.Chunks

  The chunks of a read stream are the file, cut into pieces.

  Over a file that does not change every chunk is what the file holds where the chunk before
  has ended, as much as was asked for or all that is left.  A chunk is handed to the listener
  that is registered when it arrives.  One that arrives when nobody listens is handed to
  nobody, and the stream goes on behind it all the same.
-/

import PinnedFile.Proofs.Streams.Reading
import PinnedFile.Proofs.Transfers

namespace PinnedFile

open Run

namespace World

/-- Reads on behalf of a handle were answered from `contents`. -/
def IsServed (w : World) (h : HandleId) (contents : Bytes) : Prop :=
  ∀ x ∈ w.exchanges, x.handle = h → x.call.ReadsFrom contents x.answer

end World

variable {mode : Mode} {w after : World} {h : HandleId} {contents : Bytes} {e : Entry}
  {newer older : List Entry} {job : Job} {outcome : Outcome} {chunk : Bytes} {r : Reader}

/-! ## Chunks are windows of the file -/

/-- How far a stream has come is what it shows as its position. -/
theorem readPositionIn_of_reader {handles : List Handle}
    (made : handles[h]?.bind Handle.reader = some r) : readPositionIn handles h = r.position := by
  obtain ⟨s, known, made⟩ := Option.bind_eq_some_iff.mp made
  rw [readPositionIn, known, Option.map_some, Option.getD_some, Handle.readStream, made,
    Option.getD_some]

/-- A read of a stream was asked for at the place where those before it ended, and came to what
    the calls of this very operation have made of it. -/
theorem Reachable.made_of_completed (reached : Reachable mode w)
    (split : w.history = newer ++ e :: older) (told : e.event = .completed job outcome)
    (own : job.IsChunkOf h) :
    ∃ b ∈ older, ∃ a r, b.event = .accepted a ∧ a.id = job.id ∧ a.handle = h ∧
      b.handles[h]?.bind Handle.reader = some r ∧ 0 < r.chunkSize ∧
      r.position = (bytesRead h older).length ∧ a.transfer = .ofRead r.position r.chunkSize ∧
      a.transfer.Made (w.books.exchangesOf a.id) (some job.transfer) ∧
      job.transfer.outcome? = some outcome := by
  have reading := reached.reading h
  obtain ⟨b, earlier, a, begins, ticket, size, transfer⟩ :=
    (reading.tiled newer e older split).ended job _ told own
  have ownA : a.IsChunkOf h := own.of_ticket ticket
  -- what was asked for stands at the entry of the request
  obtain ⟨newer', older', split'⟩ := List.append_of_mem earlier
  have tile := reading.tiled (newer ++ e :: newer') b older'
    (by rw [split, split', List.append_assoc, List.cons_append])
  obtain ⟨r, made, asks, transfer'⟩ := tile.begun a begins ownA
  obtain ⟨same, rfl⟩ : (bytesRead h older).length = (bytesRead h older').length ∧
      size = r.chunkSize := by
    rw [transfer, Transfer.ofRead, Transfer.ofRead, Transfer.read.injEq] at transfer'
    exact ⟨transfer'.1, transfer'.2.1⟩
  have position : r.position = (bytesRead h older).length := by
    rw [same, ← tile.position]
    exact (readPositionIn_of_reader made).symm
  have listed : (job, outcome) ∈ w.books.completed := by
    refine List.mem_filterMap.mpr ⟨e, ?_, ?_⟩
    · rw [split]
      exact List.mem_append_right _ List.mem_cons_self
    · rw [told]
      rfl
  have accepted : a ∈ w.books.accepted := by
    refine mem_accepted_iff.mpr ⟨b, ?_, begins⟩
    rw [split]
    exact List.mem_append_right _ (List.mem_cons_of_mem _ earlier)
  have number : a.id = job.id := congrArg Ticket.id ticket
  exact ⟨b, earlier, a, r, begins, number, ownA.1, made, asks, position, by rw [transfer, position],
    reached.sound.made_of_completed accepted listed number.symm⟩

/-- A chunk was asked for at the place where those before it ended, and it is what the file
    holds there. -/
theorem Reachable.chunk_of_completed (reached : Reachable mode w) (served : w.IsServed h contents)
    (split : w.history = newer ++ e :: older) (told : e.event = .completed job (.ok chunk))
    (own : job.IsChunkOf h) :
    ∃ b ∈ older, ∃ a r, b.event = .accepted a ∧ a.id = job.id ∧
      b.handles[h]?.bind Handle.reader = some r ∧ 0 < r.chunkSize ∧
      a.transfer = .ofRead (bytesRead h older).length r.chunkSize ∧
      chunk = contents.window (bytesRead h older).length r.chunkSize := by
  obtain ⟨b, earlier, a, r, begins, number, handle, stream, asks, position, transfer, made,
    ended⟩ := reached.made_of_completed split told own
  rw [← position]
  refine ⟨b, earlier, a, r, begins, number, stream, asks, transfer, ?_⟩
  rw [transfer] at made
  refine made.eq_window (fun x calls => ?_) ended
  have accepted : a ∈ w.books.accepted := by
    refine mem_accepted_iff.mpr ⟨b, ?_, begins⟩
    rw [split]
    exact List.mem_append_right _ (List.mem_cons_of_mem _ earlier)
  obtain ⟨called, own⟩ := reached.sound.handle_of_exchange accepted calls
  exact served x called (own.trans handle)

/-- What is read up to some place is what the file holds up to there. -/
theorem Bytes.take_window {contents b : Bytes} {n : Nat}
    (before : b = contents.take b.length) :
    b ++ contents.window b.length n = contents.take (b ++ contents.window b.length n).length := by
  have all : b ++ contents.window b.length n = contents.take (b.length + n) := by
    rw [List.take_add, ← before, Bytes.window]
  rw [all, List.length_take, ← List.take_eq_take_min]

/-- All that a stream has read at any time is the beginning of the file. -/
theorem Reachable.bytesRead_eq_take (reached : Reachable mode w) (served : w.IsServed h contents)
    (newer older : List Entry) (split : w.history = newer ++ older) :
    bytesRead h older = contents.take (bytesRead h older).length := by
  induction older generalizing newer with
  | nil => rfl
  | cons e older ih =>
    have before := ih (newer ++ [e]) (by rw [split, List.append_assoc, List.singleton_append])
    rcases found : e.event.chunk? h with _ | chunk
    · rwa [bytesRead_cons_of_none found]
    · obtain ⟨job, own, told⟩ := Event.chunk?_eq_some_iff.mp found
      obtain ⟨-, -, -, r, -, -, -, -, -, same⟩ :=
        reached.chunk_of_completed served split told own
      rw [bytesRead, found, Option.getD_some, same]
      exact Bytes.take_window before

/-- A stream ends where the file ends. -/
theorem Reachable.length_of_ended (reached : Reachable mode w) (served : w.IsServed h contents)
    (made : w.reader? h = some r) (isEnded : r.ended = true) : r.position = contents.length := by
  have reading := reached.reading h
  have position := (readPositionIn_of_reader made).symm.trans reading.position
  obtain ⟨s, known, made⟩ := Option.bind_eq_some_iff.mp made
  have stream : s.readStream = r := by rw [Handle.readStream, made, Option.getD_some]
  obtain ⟨newer, e, older, job, split, told, own, same⟩ :=
    reading.ended s known (stream ▸ isEnded)
  obtain ⟨-, -, -, r', -, -, -, asks, -, nothing⟩ :=
    reached.chunk_of_completed served split told own
  -- nothing was found although something was asked for, and what was read is in the file
  have short : contents.length - (bytesRead h older).length = 0 := by
    have none : (contents.window (bytesRead h older).length r'.chunkSize).length = 0 := by
      rw [← nothing, List.length_nil]
    rw [Bytes.length_window] at none
    omega
  have within := congrArg List.length
    (reached.bytesRead_eq_take served [] w.history rfl)
  rw [List.length_take] at within
  rw [position]
  rw [same] at within ⊢
  omega

/-- The chunks of a read stream tile the file.  Each was asked for where those before it had
    ended, for as many bytes as were to be asked for then, and is what the file holds there.
    The stream is always at the end of what it has read, at every entry of the history; and
    once it is ended it is at the end of the file. -/
theorem chunks_tile_the_file (reached : Reachable mode w) (served : w.IsServed h contents) :
    (∀ newer e older job chunk, w.history = newer ++ e :: older →
      e.event = .completed job (.ok chunk) → job.IsChunkOf h →
      ∃ b ∈ older, ∃ a r, b.event = .accepted a ∧ a.id = job.id ∧
        b.handles[h]?.bind Handle.reader = some r ∧ 0 < r.chunkSize ∧
        a.transfer = .ofRead (bytesRead h older).length r.chunkSize ∧
        chunk = contents.window (bytesRead h older).length r.chunkSize) ∧
    (∀ newer e older r, w.history = newer ++ e :: older →
      e.handles[h]?.bind Handle.reader = some r → r.position = (bytesRead h older).length) ∧
    ∀ r, w.reader? h = some r →
      r.position = (bytesRead h w.history).length ∧
      bytesRead h w.history = contents.take r.position ∧
      (r.ended = true → r.position = contents.length) := by
  have reading := reached.reading h
  refine ⟨fun newer e older job chunk split => reached.chunk_of_completed served split, ?_, ?_⟩
  · intro newer e older r split made
    rw [← readPositionIn_of_reader made]
    exact (reading.tiled newer e older split).position
  · intro r made
    have position := (readPositionIn_of_reader made).symm.trans reading.position
    refine ⟨position, ?_, reached.length_of_ended served made⟩
    rw [position]
    exact reached.bytesRead_eq_take served [] w.history rfl

/-- A run in which a file of five bytes is read in chunks of three, over short reads and an
    interruption. -/
def tilingRun : Option World :=
  (World.start 1 ⟨[], []⟩).follow
    [.body 0 [
      .openFile 0 { read := true, readBufferSize := 3 } .log (.memory (.bytes []) none {}),
      .readStream 0,
      .onData 0 ⟨"data", [], [], []⟩],
    .take, .answer 0 (.moved 2 [1, 2]), .answer 0 (.failed (.bare .interrupted)),
    .answer 0 (.moved 1 [3]), .finish 0, .task,
    .take, .answer 1 (.moved 2 [4, 5]), .answer 1 (.moved 0 []), .finish 1, .task,
    .take, .answer 2 (.moved 0 []), .finish 2, .task]

theorem chunks_tile_five_bytes : ∃ w r, tilingRun = some w ∧ w.reader? 0 = some r ∧
    w.IsServed 0 [1, 2, 3, 4, 5] ∧ r.ended = true ∧ r.position = 5 ∧
    bytesRead 0 w.history = [1, 2, 3, 4, 5] := by
  have stands : (tilingRun.bind fun w => (w.reader? 0).map fun r => (r.ended, w.exchanges.all
      fun x => decide (x.handle = 0 → x.call.ReadsFrom [1, 2, 3, 4, 5] x.answer))) =
      some (true, true) := by decide +kernel
  obtain ⟨w, run, found⟩ := Option.bind_eq_some_iff.mp stands
  obtain ⟨r, made, same⟩ := Option.map_eq_some_iff.mp found
  obtain ⟨isEnded, answered⟩ := Prod.mk.inj same
  have served : w.IsServed 0 [1, 2, 3, 4, 5] := fun x listed =>
    of_decide_eq_true (List.all_eq_true.mp answered x listed)
  have reached : Reachable .calm w := World.reachable_of_follow run
  obtain ⟨-, -, at_end⟩ := chunks_tile_the_file reached served
  obtain ⟨-, read, ends⟩ := at_end r made
  have position : r.position = 5 := ends isEnded
  exact ⟨w, r, run, made, served, isEnded, position, by rw [read, position]; rfl⟩

/-! ## Chunks that are handed to somebody -/

/-- The chunk that a data listener of a handle is called with. -/
def Event.handed? (h : HandleId) : Event → Option Bytes
  | .data k _ chunk => if k = h then some chunk else none
  | _ => none

/-- A listener for the chunks of a handle is registered at the moment of an entry. -/
def Entry.HasListener (h : HandleId) (e : Entry) : Prop :=
  ((e.handles[h]?.bind Handle.reader).bind Reader.data).isSome = true

instance : Decidable (e.HasListener h) := inferInstanceAs (Decidable (_ = true))

/-- The chunk that arrives with an entry, if there is a listener for it, or if there is none. -/
def Entry.arrived? (h : HandleId) (listens : Bool) (e : Entry) : Option Bytes :=
  match e.event.chunk? h with
  | some (first :: more) => if decide (e.HasListener h) = listens then some (first :: more) else none
  | _ => none

namespace World

/-- The chunks that data listeners of a handle were called with, in the order of the calls. -/
def handed (w : World) (h : HandleId) : List Bytes :=
  (w.history.filterMap (·.event.handed? h)).reverse

/-- The chunks that arrived on a handle when there was a listener for them. -/
def heard (w : World) (h : HandleId) : List Bytes :=
  (w.history.filterMap (·.arrived? h true)).reverse

/-- The chunks that arrived on a handle when there was no listener for them. -/
def unheard (w : World) (h : HandleId) : List Bytes :=
  (w.history.filterMap (·.arrived? h false)).reverse

end World

theorem reverse_filterMap_cons {f : Entry → Option Bytes} :
    ((e :: older).filterMap f).reverse = (older.filterMap f).reverse ++ (f e).toList := by
  rw [List.filterMap_cons]
  rcases f e with _ | chunk
  · exact (List.append_nil _).symm
  · exact List.reverse_cons

/-- An event by which no chunk arrives and none is handed to anybody. -/
def Event.IsSilent (h : HandleId) (event : Event) : Prop :=
  event.chunk? h = none ∧ event.handed? h = none

theorem arrived?_of_chunk? {listens : Bool} (none : e.event.chunk? h = none) :
    e.arrived? h listens = .none := by
  rw [Entry.arrived?, none]

/-- Silence leaves both lists as they are. -/
theorem Notes.silent (notes : Notes (·.event.IsSilent h) w after) :
    after.handed h = w.handed h ∧ after.heard h = w.heard h := by
  obtain ⟨new, added, silent⟩ := notes
  have handed : new.filterMap (·.event.handed? h) = [] :=
    List.filterMap_eq_nil_iff.mpr fun e listed => (silent e listed).2
  have heard : new.filterMap (·.arrived? h true) = [] :=
    List.filterMap_eq_nil_iff.mpr fun e listed => arrived?_of_chunk? (silent e listed).1
  constructor
  · rw [World.handed, added, List.filterMap_append, handed, List.nil_append, World.handed]
  · rw [World.heard, added, List.filterMap_append, heard, List.nil_append, World.heard]

theorem Event.IsQuietFor.silent {event : Event} (quiet : event.IsQuietFor h) :
    event.IsSilent h := by
  cases event with
  | data k tag chunk => exact ⟨rfl, if_neg quiet⟩
  | completed job outcome =>
    refine ⟨Event.IsNoChunk.chunk? ?_, rfl⟩
    exact fun own => quiet own.1
  | _ => exact ⟨rfl, rfl⟩

theorem Event.IsClients.silent {event : Event} (clients : event.IsClients) :
    event.IsSilent h := by
  cases event with
  | data | completed => cases clients
  | _ => exact ⟨rfl, rfl⟩

theorem Change.silent (change : Change h w after) : Notes (·.event.IsSilent h) w after := by
  refine change.notes.mono fun e told => ?_
  rcases told with quiet | clients
  · exact quiet.silent
  · exact clients.silent

/-- When an outcome is told, what arrives with it is handed on if there is a listener. -/
theorem handed_telling (handle : job.handle = h) (rest : Queue Task)
    (before : w.handed h = w.heard h) :
    (w.telling job outcome rest).handed h = (w.telling job outcome rest).heard h := by
  subst handle
  let e : Entry := ⟨(w.delivering job outcome rest).context, .completed job outcome,
    ((w.delivering job outcome rest).completing job outcome).handles⟩
  have history : (w.arriving job outcome rest).history = e :: w.history := w.history_arriving
  have arrived : (w.arriving job outcome rest).handed job.handle = w.handed job.handle := by
    rw [World.handed, history]
    rfl
  have heard : (w.arriving job outcome rest).heard job.handle =
      w.heard job.handle ++ (e.arrived? job.handle true).toList := by
    rw [World.heard, history]
    exact reverse_filterMap_cons
  rcases w.telling_cases (h := job.handle) job outcome rest with
    ⟨quiet, nobody⟩ | ⟨v, tag, first, more, quiet, told, chunk, rfl, listens⟩ |
    ⟨v, tag, quiet, told, chunk, rfl⟩
  · -- nothing is handed on, and nobody would have heard of it
    obtain ⟨sameHanded, sameHeard⟩ := (quiet.notes.mono fun _ told => told.1.silent).silent
    have unheard : e.arrived? job.handle true = none := by
      unfold Entry.arrived?
      split
      next first more found =>
        obtain ⟨other, own, same⟩ := Event.chunk?_eq_some_iff.mp found
        obtain ⟨rfl, rfl⟩ := Event.completed.inj same
        refine if_neg fun listens => ?_
        have found := of_decide_eq_true listens
        rw [Entry.HasListener, show (e.handles[job.handle]?.bind Handle.reader).bind Reader.data =
          none from nobody first more own.2 rfl] at found
        cases found
      · rfl
    rw [sameHanded, sameHeard, arrived, heard, unheard, before]
    exact (List.append_nil _).symm
  · obtain ⟨sameHanded, sameHeard⟩ := (quiet.notes.mono fun _ told => told.1.silent).silent
    have found : e.arrived? job.handle true = some (first :: more) := by
      have arrives : e.event.chunk? job.handle = some (first :: more) :=
        Event.chunk?_eq_some_iff.mpr ⟨job, ⟨rfl, chunk⟩, rfl⟩
      rw [Entry.arrived?, arrives]
      exact if_pos (decide_eq_true listens)
    have handedNow : (v.record (.data job.handle tag (first :: more))).handed job.handle =
        v.handed job.handle ++ [first :: more] := by
      have own : (Event.data job.handle tag (first :: more)).handed? job.handle =
          some (first :: more) := if_pos rfl
      rw [World.handed, World.record, reverse_filterMap_cons, own]
      rfl
    have heardNow : (v.record (.data job.handle tag (first :: more))).heard job.handle =
        v.heard job.handle := rfl
    rw [told, handedNow, heardNow, sameHanded, sameHeard, arrived, heard, found, before]
    rfl
  · -- at the end no chunk has arrived
    obtain ⟨sameHanded, sameHeard⟩ := (quiet.notes.mono fun _ told => told.1.silent).silent
    have told' : Notes (·.event.IsSilent job.handle) v (v.record (.ended job.handle tag)) :=
      notes_record ⟨rfl, rfl⟩
    obtain ⟨nowHanded, nowHeard⟩ := told'.silent
    have arrives : e.event.chunk? job.handle = some [] :=
      Event.chunk?_eq_some_iff.mpr ⟨job, ⟨rfl, chunk⟩, rfl⟩
    have unheard : e.arrived? job.handle true = none := by rw [Entry.arrived?, arrives]
    rw [told, nowHanded, nowHeard, sameHanded, sameHeard, arrived, heard, unheard, before]
    exact (List.append_nil _).symm

/-- In every run the chunks that are handed on are those that arrive when there is a listener,
    each once and in their order. -/
theorem Reachable.handed_eq_heard (reached : Reachable mode w) (h : HandleId) :
    w.handed h = w.heard h := by
  refine Reachable.streams_induct (h := h) (P := fun w => w.handed h = w.heard h)
    (fun _ _ => rfl) ?_ ?_ (fun _ _ same => same) ?_ reached
  · intro w after same change
    obtain ⟨handed, heard⟩ := change.silent.silent
    rw [handed, heard, same]
  · intro w job outcome rest _ _ handle same
    exact handed_telling handle rest same
  · intro w same
    obtain ⟨handed, heard⟩ := (w.notes_readingOn.mono fun _ told => told.1.silent).silent
    rw [handed, heard, same]

/-! ## Nothing is lost but what nobody listens for -/

/-- All that was read was read in chunks, which arrived with or without a listener. -/
theorem length_bytesRead (history : List Entry) :
    (bytesRead h history).length =
      (history.filterMap (·.arrived? h true)).reverse.flatten.length +
      (history.filterMap (·.arrived? h false)).reverse.flatten.length := by
  induction history with
  | nil => rfl
  | cons e older ih =>
    rw [reverse_filterMap_cons, reverse_filterMap_cons, List.flatten_append, List.flatten_append,
      List.length_append, List.length_append, bytesRead, List.length_append, ih]
    have parts : ((e.event.chunk? h).getD []).length =
        (e.arrived? h true).toList.flatten.length + (e.arrived? h false).toList.flatten.length := by
      unfold Entry.arrived?
      rcases e.event.chunk? h with _ | _ | ⟨first, more⟩
      · rfl
      · rfl
      · by_cases listens : e.HasListener h <;> simp [listens]
    rw [parts]
    omega

/-- If nothing arrived without a listener, then all that was read was heard of. -/
theorem bytesRead_eq_heard (history : List Entry)
    (all : (history.filterMap (·.arrived? h false)).reverse = []) :
    bytesRead h history = (history.filterMap (·.arrived? h true)).reverse.flatten := by
  induction history with
  | nil => rfl
  | cons e older ih =>
    rw [reverse_filterMap_cons, List.append_eq_nil_iff] at all
    rw [reverse_filterMap_cons, List.flatten_append, bytesRead, ih all.1]
    have now := all.2
    congr 1
    unfold Entry.arrived? at now ⊢
    rcases chunk : e.event.chunk? h with _ | _ | ⟨first, more⟩
    · rfl
    · rfl
    · rw [chunk] at now
      by_cases listens : e.HasListener h
      · simp [listens]
      · simp [listens] at now

/-- Each chunk that arrives when a data listener is registered is handed to one, once and in
    order, and no other chunk is.  The stream goes on behind a chunk that arrives when nobody
    listens; if there is none of these, all of the file up to the position was handed on. -/
theorem heard_chunks_are_handed_on (reached : Reachable mode w) (served : w.IsServed h contents) :
    w.handed h = w.heard h ∧
    ∀ r, w.reader? h = some r →
      r.position = (w.handed h).flatten.length + (w.unheard h).flatten.length ∧
      (w.unheard h = [] → (w.handed h).flatten = contents.take r.position) := by
  have same := reached.handed_eq_heard h
  have reading := reached.reading h
  refine ⟨same, fun r made => ?_⟩
  have position := (readPositionIn_of_reader made).symm.trans reading.position
  refine ⟨?_, fun all => ?_⟩
  · rw [position, same]
    exact length_bytesRead w.history
  · rw [position, same, ← reached.bytesRead_eq_take served [] w.history rfl]
    exact (bytesRead_eq_heard w.history all).symm

/-- A run in which a file of three bytes is read in two chunks, and the listener is replaced
    while the second is read. -/
def replacingRun : Option World :=
  (World.start 1 ⟨[], []⟩).follow
    [.body 0 [
      .openFile 0 { read := true, readBufferSize := 2 } .log (.memory (.bytes []) none {}),
      .readStream 0,
      .onData 0 ⟨"first", [], [], []⟩],
    .take, .answer 0 (.moved 2 [1, 2]), .finish 0, .task,
    .body 0 [.clearData 0, .onData 0 ⟨"second", [], [], []⟩],
    .take, .answer 1 (.moved 1 [3]), .answer 1 (.moved 0 []), .finish 1, .task]

theorem three_bytes_are_handed_on : ∃ w r, replacingRun = some w ∧ w.reader? 0 = some r ∧
    w.IsServed 0 [1, 2, 3] ∧ w.unheard 0 = [] ∧ r.position = 3 ∧
    (w.handed 0).flatten = [1, 2, 3] := by
  have stands : (replacingRun.bind fun w => (w.reader? 0).map fun r => (r.position, w.unheard 0,
      w.exchanges.all fun x => decide (x.handle = 0 → x.call.ReadsFrom [1, 2, 3] x.answer))) =
      some (3, [], true) := by decide +kernel
  obtain ⟨w, run, found⟩ := Option.bind_eq_some_iff.mp stands
  obtain ⟨r, made, same⟩ := Option.map_eq_some_iff.mp found
  obtain ⟨position, all, answered⟩ : r.position = 3 ∧ w.unheard 0 = [] ∧ _ := by
    simpa only [Prod.mk.injEq] using same
  have served : w.IsServed 0 [1, 2, 3] := fun x listed =>
    of_decide_eq_true (List.all_eq_true.mp answered x listed)
  have reached : Reachable .calm w := World.reachable_of_follow run
  have handed := ((heard_chunks_are_handed_on reached served).2 r made).2 all
  exact ⟨w, r, run, made, served, all, position, by rw [handed, position]; rfl⟩

/-- A run in which the listener is removed while the first chunk is read. -/
def clearingRun : Option World :=
  (World.start 1 ⟨[], []⟩).follow
    [.body 0 [
      .openFile 0 { read := true, readBufferSize := 3 } .log (.memory (.bytes []) none {}),
      .readStream 0,
      .onData 0 ⟨"data", [], [], []⟩,
      .clearData 0],
    .take, .answer 0 (.moved 3 [1, 2, 3]), .finish 0, .task]

/-- A chunk that arrives after its listener was removed is skipped: the stream stands behind
    it, and no listener was called with any byte. -/
theorem cleared_listener_misses_chunk : ∃ w r, clearingRun = some w ∧ Reachable .calm w ∧
    w.reader? 0 = some r ∧ w.IsServed 0 [1, 2, 3] ∧ r.position = 3 ∧ w.handed 0 = [] := by
  have stands : (clearingRun.bind fun w => (w.reader? 0).map fun r => (r.position, w.handed 0,
      w.exchanges.all fun x => decide (x.handle = 0 → x.call.ReadsFrom [1, 2, 3] x.answer))) =
      some (3, [], true) := by decide +kernel
  obtain ⟨w, run, found⟩ := Option.bind_eq_some_iff.mp stands
  obtain ⟨r, made, same⟩ := Option.map_eq_some_iff.mp found
  obtain ⟨position, nothing, answered⟩ : r.position = 3 ∧ w.handed 0 = [] ∧ _ := by
    simpa only [Prod.mk.injEq] using same
  have served : w.IsServed 0 [1, 2, 3] := fun x listed =>
    of_decide_eq_true (List.all_eq_true.mp answered x listed)
  exact ⟨w, r, run, World.reachable_of_follow run, made, served, position, nothing⟩

end PinnedFile
