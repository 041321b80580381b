/-
  PinnedFile.Proofs.Streams.Changes

  What the code of a client can do to the streams of one handle, said once.

  Seen from one handle nearly every move is quiet: its streams stay where they are, and
  nothing is noted of them.  What is not quiet has the read stream go on, sends, or has a
  callback wait for the queue to drain.  So a law of the streams of a handle is looked at in
  these few cases, and not for each move.
-/

import PinnedFile.Proofs.Histories

namespace PinnedFile

/-- The operations of a handle that its streams ask for. -/
def Completion.isStreams : Completion → Bool
  | .send _ | .chunk => true
  | _ => false

/-- A call has a read stream go on: a listener is registered while the stream is not paused, or
    a pause comes to its end. -/
def ReaderCall.asks : ReaderCall → Bool
  | .listen paused => !paused
  | .resume paused => paused
  | _ => false

/-- Whether the calls that were made on a read stream, the latest first, leave it paused. -/
def ReaderCall.leavesPaused : List ReaderCall → Bool
  | [] => false
  | .pause :: _ => true
  | .resume _ :: _ => false
  | _ :: earlier => leavesPaused earlier

/-- A read stream is paused just if the calls on its record leave it so. -/
def Reader.PausesAsAsked (r : Reader) : Prop := r.paused = ReaderCall.leavesPaused r.asked

/-- Somebody listens for the chunks of a read stream, and it is not held back. -/
structure Reader.IsWanted (r : Reader) : Prop where
  heard : r.data.isSome = true
  flowing : r.paused = false
  goes_on : r.ended = false

/-- A read stream was not called upon to go on, and the calls that were made are on record. -/
structure Reader.Rests (r r' : Reader) : Prop where
  wanted : r'.IsWanted → r.IsWanted
  asked : ∃ calls, r'.asked = calls ++ r.asked ∧ ∀ c ∈ calls, c.asks = false
  sized : r'.chunkSize = r.chunkSize ∨ .resize r'.chunkSize ∈ r'.asked
  paused : r.PausesAsAsked → r'.PausesAsAsked

namespace Reader

variable {r r' r'' : Reader}

theorem rests_refl : r.Rests r :=
  ⟨id, ⟨[], rfl, fun _ listed => by cases listed⟩, .inl rfl, id⟩

theorem Rests.trans (first : r.Rests r') (second : r'.Rests r'') : r.Rests r'' where
  wanted := first.wanted ∘ second.wanted
  asked := by
    obtain ⟨earlier, before, quiet⟩ := first.asked
    obtain ⟨later, after, quiet'⟩ := second.asked
    refine ⟨later ++ earlier, by rw [after, before, List.append_assoc], fun c listed => ?_⟩
    rcases List.mem_append.mp listed with late | early
    · exact quiet' c late
    · exact quiet c early
  sized := by
    obtain ⟨later, after, -⟩ := second.asked
    rcases second.sized with same | called
    · rw [same]
      rcases first.sized with same | called
      · exact .inl same
      · exact .inr (after ▸ List.mem_append_right later called)
    · exact .inr called
  paused := second.paused ∘ first.paused

/-- A stream that rests when nothing was called. -/
theorem rests_of_same (wanted : r'.IsWanted → r.IsWanted) (asked : r'.asked = r.asked)
    (size : r'.chunkSize = r.chunkSize) (paused : r'.paused = r.paused) : r.Rests r' where
  wanted := wanted
  asked := ⟨[], asked, fun _ listed => by cases listed⟩
  sized := .inl size
  paused asAsked := by rw [PausesAsAsked, paused, asAsked, asked]

/-- A stream that rests when one call was made. -/
theorem rests_of_call {c : ReaderCall} (wanted : r'.IsWanted → r.IsWanted)
    (asked : r'.asked = c :: r.asked) (quiet : c.asks = false)
    (sized : r'.chunkSize = r.chunkSize ∨ .resize r'.chunkSize ∈ r'.asked)
    (paused : r.PausesAsAsked → r'.paused = ReaderCall.leavesPaused (c :: r.asked)) :
    r.Rests r' where
  wanted := wanted
  asked := ⟨[c], asked, fun _ listed => List.mem_singleton.mp listed ▸ quiet⟩
  sized := sized
  paused asAsked := by rw [PausesAsAsked, asked, paused asAsked]

end Reader

namespace Handle

/-- The read stream of a handle.  One that was not asked for yet is as it will be made. -/
def readStream (s : Handle) : Reader := s.reader.getD { chunkSize := s.readChunk }

/-- The write stream of a handle.  One that was not asked for yet is as it will be made. -/
def writeStream (s : Handle) : Writer := s.writer.getD (.ofQueueMax s.queueMax)

/-- The streams of a handle have not gone on.  What is registered, how much a read asks for
    and where the marks of the queue are may have changed; but no drain callback waits that
    did not wait before, and nothing was taken off what is outstanding. -/
structure Stays (s s' : Handle) : Prop where
  read : s'.readStream.position = s.readStream.position
  busy : s'.readStream.busy = s.readStream.busy
  ended : s'.readStream.ended = s.readStream.ended
  asks : 0 < s.readStream.chunkSize → 0 < s'.readStream.chunkSize
  writer : s.writer.isSome = true → s'.writer.isSome = true
  sent : s'.writeStream.position = s.writeStream.position
  drain : s'.writeStream.drain = none ∨ s'.writeStream.drain = s.writeStream.drain
  outstanding : s.outstanding ≤ s'.outstanding
  opened : s'.closed = false → s.closed = false
  rests : s.readStream.Rests s'.readStream
  readChunk : s'.readChunk = s.readChunk

/-- A handle whose streams nothing has happened to yet. -/
structure IsNew (s : Handle) : Prop where
  read : s.readStream.position = 0
  busy : s.readStream.busy = false
  ended : s.readStream.ended = false
  asks : 0 < s.readStream.chunkSize
  sent : s.writeStream.position = 0
  drain : s.writeStream.drain = none
  unwanted : ¬ s.readStream.IsWanted
  asked : ∀ c ∈ s.readStream.asked, c.asks = false
  sized : s.readStream.chunkSize = s.readChunk ∨
    .resize s.readStream.chunkSize ∈ s.readStream.asked
  paused : s.readStream.PausesAsAsked

variable {s s' s'' : Handle}

theorem stays_refl : s.Stays s :=
  ⟨rfl, rfl, rfl, id, id, rfl, .inr rfl, Nat.le_refl _, id, Reader.rests_refl, rfl⟩

theorem Stays.trans (first : s.Stays s') (second : s'.Stays s'') : s.Stays s'' where
  read := second.read.trans first.read
  busy := second.busy.trans first.busy
  ended := second.ended.trans first.ended
  asks := second.asks ∘ first.asks
  writer := second.writer ∘ first.writer
  sent := second.sent.trans first.sent
  drain := by
    rcases second.drain with none | same
    · exact .inl none
    · rw [same]
      exact first.drain
  outstanding := Nat.le_trans first.outstanding second.outstanding
  opened := first.opened ∘ second.opened
  rests := first.rests.trans second.rests
  readChunk := second.readChunk.trans first.readChunk

theorem IsNew.stays (new : s.IsNew) (stays : s.Stays s') : s'.IsNew where
  read := stays.read.trans new.read
  busy := stays.busy.trans new.busy
  ended := stays.ended.trans new.ended
  asks := stays.asks new.asks
  sent := stays.sent.trans new.sent
  drain := by
    rcases stays.drain with none | same
    · exact none
    · rw [same, new.drain]
  unwanted := new.unwanted ∘ stays.rests.wanted
  asked c listed := by
    obtain ⟨calls, after, quiet⟩ := stays.rests.asked
    rw [after] at listed
    rcases List.mem_append.mp listed with late | early
    · exact quiet c late
    · exact new.asked c early
  sized := by
    obtain ⟨calls, after, -⟩ := stays.rests.asked
    rcases stays.rests.sized with same | called
    · rw [same, stays.readChunk]
      rcases new.sized with same | called
      · exact .inl same
      · exact .inr (after ▸ List.mem_append_right calls called)
    · exact .inr called
  paused := stays.rests.paused new.paused

/-- A change of the read stream that leaves it where it is. -/
theorem stays_reader {f : Reader → Reader} (position : ∀ r, (f r).position = r.position)
    (busy : ∀ r, (f r).busy = r.busy) (ended : ∀ r, (f r).ended = r.ended)
    (asks : ∀ r, 0 < r.chunkSize → 0 < (f r).chunkSize)
    (rests : ∀ r, s.reader = some r → r.Rests (f r)) :
    s.Stays { s with reader := s.reader.map f } := by
  rcases made : s.reader with _ | r
  · have same : { s with reader := Option.map f none } = s := by
      rw [Option.map_none, ← made]
    rw [same]
    exact stays_refl
  · have before : s.readStream = r := by rw [readStream, made, Option.getD_some]
    refine ⟨?_, ?_, ?_, ?_, id, rfl, .inr rfl, Nat.le_refl _, id, ?_, rfl⟩
    · rw [before]
      exact position r
    · rw [before]
      exact busy r
    · rw [before]
      exact ended r
    · rw [before]
      exact asks r
    · rw [before]
      exact rests r made

/-- A change of the write stream that leaves it where it is. -/
theorem stays_writer {f : Writer → Writer} (position : ∀ v, (f v).position = v.position)
    (drain : ∀ v, (f v).drain = none ∨ (f v).drain = v.drain) :
    s.Stays { s with writer := s.writer.map f } := by
  rcases made : s.writer with _ | v
  · have same : { s with writer := Option.map f none } = s := by
      rw [Option.map_none, ← made]
    rw [same]
    exact stays_refl
  · have before : s.writeStream = v := by rw [writeStream, made, Option.getD_some]
    refine ⟨rfl, rfl, rfl, id, fun _ => rfl, ?_, ?_, Nat.le_refl _, id, Reader.rests_refl, rfl⟩
    · rw [before]
      exact position v
    · rw [before]
      exact drain v

/-- What is accepted counts from then on, and that is all. -/
theorem stays_taking {c : Completion} : s.Stays (s.taking c) :=
  ⟨rfl, rfl, rfl, id, id, rfl, .inr rfl, Nat.le_add_right _ _, id, Reader.rests_refl, rfl⟩

/-- The read stream is made as it was thought of before. -/
theorem stays_readStream : s.Stays { s with reader := some s.readStream } :=
  ⟨rfl, rfl, rfl, id, id, rfl, .inr rfl, Nat.le_refl _, id, Reader.rests_refl, rfl⟩

/-- The write stream is made as it was thought of before. -/
theorem stays_writeStream : s.Stays { s with writer := some s.writeStream } :=
  ⟨rfl, rfl, rfl, id, fun _ => rfl, rfl, .inr rfl, Nat.le_refl _, id, Reader.rests_refl, rfl⟩

theorem stays_closed : s.Stays { s with closed := true } :=
  ⟨rfl, rfl, rfl, id, id, rfl, .inr rfl, Nat.le_refl _, (fun opened => by cases opened),
    Reader.rests_refl, rfl⟩

/-- Whether a close waits makes no difference to the streams. -/
theorem stays_pendingClose {job : Option Job} : s.Stays { s with pendingClose := job } :=
  ⟨rfl, rfl, rfl, id, id, rfl, .inr rfl, Nat.le_refl _, id, Reader.rests_refl, rfl⟩

theorem stays_unregistered : s.Stays s.unregistered := by
  have silent (r : Reader) : r.Rests r.unregistered :=
    Reader.rests_of_same (fun wanted => by cases wanted.heard) rfl rfl rfl
  exact (stays_reader (f := Reader.unregistered) (fun _ => rfl) (fun _ => rfl) (fun _ => rfl)
    (fun _ => id) fun r _ => silent r).trans (stays_writer (f := Writer.unregistered) (fun _ => rfl)
      fun _ => .inl rfl)

end Handle

/-- What a handle has become is related to what it was, or it has just been opened. -/
inductive Remains (R : Handle → Handle → Prop) : Option Handle → Option Handle → Prop where
  | unknown : Remains R none none
  | opened {s : Handle} (new : s.IsNew) : Remains R none (some s)
  | known {s s' : Handle} (related : R s s') : Remains R (some s) (some s')

section Remains

variable {R R' : Handle → Handle → Prop} {one two three : Option Handle}

theorem Remains.mono (remains : Remains R one two) (weaker : ∀ s s', R s s' → R' s s') :
    Remains R' one two := by
  cases remains with
  | unknown => exact .unknown
  | opened new => exact .opened new
  | known related => exact .known (weaker _ _ related)

theorem remains_refl (refl : ∀ s, R s s) : Remains R one one := by
  rcases one with _ | s
  · exact .unknown
  · exact .known (refl s)

theorem remains_stays : Remains Handle.Stays one one := remains_refl fun _ => Handle.stays_refl

theorem Remains.trans (first : Remains Handle.Stays one two)
    (second : Remains Handle.Stays two three) : Remains Handle.Stays one three := by
  cases first with
  | unknown => exact second
  | opened new =>
    cases second with
    | known stays => exact .opened (new.stays stays)
  | known stays =>
    cases second with
    | known stays' => exact .known (stays.trans stays')

theorem remains_map {f : Handle → Handle} (related : ∀ s, one = some s → R s (f s)) :
    Remains R one (one.map f) := by
  rcases one with _ | s
  · exact .unknown
  · exact .known (related s rfl)

theorem remains_modify {handles : List Handle} {h k : HandleId} {f : Handle → Handle}
    (refl : ∀ s, R s s) (related : k = h → ∀ s : Handle, R s (f s)) :
    Remains R handles[h]? (handles.modify k f)[h]? := by
  by_cases same : k = h
  · subst same
    rw [List.getElem?_modify_eq]
    exact remains_map fun s _ => related rfl s
  · rw [List.getElem?_modify_ne _ _ same]
    exact remains_refl refl

end Remains

/-- How far the read stream of a handle has come among some handles. -/
def readPositionIn (handles : List Handle) (h : HandleId) : Nat :=
  (handles[h]?.map fun s => s.readStream.position).getD 0

/-- Whether the read stream of a handle has come to its end among some handles. -/
def readEndedIn (handles : List Handle) (h : HandleId) : Bool :=
  (handles[h]?.map fun s => s.readStream.ended).getD false

section Figures

variable {α : Type} {g : Handle → α} {zero : α} {R : Handle → Handle → Prop}

/-- A figure that is zero of a new handle stays, if no change of a handle is one of it. -/
theorem Remains.figure {one two : Option Handle} (remains : Remains R one two)
    (new : ∀ s, s.IsNew → g s = zero) (same : ∀ s s', R s s' → g s' = g s) :
    (two.map g).getD zero = (one.map g).getD zero := by
  cases remains with
  | unknown => rfl
  | opened isNew => exact new _ isNew
  | known related => exact same _ _ related

theorem figure_modify {handles : List Handle} {h k : HandleId} {f : Handle → Handle}
    (same : ∀ s, g (f s) = g s) :
    ((handles.modify k f)[h]?.map g).getD zero = (handles[h]?.map g).getD zero := by
  by_cases equal : k = h
  · subst equal
    rw [List.getElem?_modify_eq, Option.map_eq_map, Option.map_map]
    congr 2
    funext s
    exact same s
  · rw [List.getElem?_modify_ne _ _ equal]

theorem Remains.readPosition {before after : List Handle} {h : HandleId}
    (remains : Remains R before[h]? after[h]?)
    (same : ∀ s s', R s s' → s'.readStream.position = s.readStream.position) :
    readPositionIn after h = readPositionIn before h :=
  remains.figure (fun _ => Handle.IsNew.read) same

theorem Remains.readEnded {before after : List Handle} {h : HandleId}
    (remains : Remains R before[h]? after[h]?)
    (same : ∀ s s', R s s' → s'.readStream.ended = s.readStream.ended) :
    readEndedIn after h = readEndedIn before h :=
  remains.figure (fun _ => Handle.IsNew.ended) same

end Figures

/-- The read stream of a handle has come as far, and to its end or not, among some handles as
    among others. -/
def SamePlace (h : HandleId) (handles others : List Handle) : Prop :=
  readPositionIn others h = readPositionIn handles h ∧ readEndedIn others h = readEndedIn handles h

section SamePlace

variable {h k : HandleId} {one two three : List Handle}

theorem samePlace_refl : SamePlace h one one := ⟨rfl, rfl⟩

theorem SamePlace.trans (first : SamePlace h one two) (second : SamePlace h two three) :
    SamePlace h one three := ⟨second.1.trans first.1, second.2.trans first.2⟩

theorem samePlace_modify {f : Handle → Handle}
    (position : ∀ s, (f s).readStream.position = s.readStream.position)
    (ended : ∀ s, (f s).readStream.ended = s.readStream.ended) :
    SamePlace h one (one.modify k f) := ⟨figure_modify position, figure_modify ended⟩

theorem samePlace_modifyWriter {w : World} {f : Writer → Writer} :
    SamePlace h w.handles (w.modifyWriter k f).handles :=
  samePlace_modify (fun _ => rfl) fun _ => rfl

theorem Remains.samePlace (remains : Remains Handle.Stays one[h]? two[h]?) :
    SamePlace h one two :=
  ⟨remains.readPosition fun _ _ => Handle.Stays.read,
    remains.readEnded fun _ _ => Handle.Stays.ended⟩

end SamePlace

/-- An event that tells nothing of the streams of a handle: neither that something was
    accepted for them, nor that an operation of the handle was completed, nor that a chunk
    was handed out or the end told. -/
def Event.IsQuietFor (h : HandleId) : Event → Prop
  | .accepted job => job.handle = h → job.completion.isStreams = false
  | .completed job _ => job.handle ≠ h
  | .data k .. | .ended k _ => k ≠ h
  | .delivered _ => False
  | _ => True

/-- Nothing has happened to the streams of a handle. -/
structure QuietFor (h : HandleId) (w after : World) : Prop where
  remains : Remains Handle.Stays w.handles[h]? after.handles[h]?
  notes : Notes (fun e => e.event.IsQuietFor h ∧ SamePlace h w.handles e.handles) w after
  /-- A slot that has got the write stream has got one that was made. -/
  slots : ∀ f, (after.slot f).writer = some h →
    (w.slot f).writer = some h ∨ ∃ s, after.handles[h]? = some s ∧ s.writer.isSome = true

section Quiet

variable {h k : HandleId} {w middle after : World}

theorem QuietFor.trans (first : QuietFor h w middle) (second : QuietFor h middle after) :
    QuietFor h w after where
  remains := first.remains.trans second.remains
  notes := by
    refine first.notes.trans (second.notes.mono fun e quiet => ?_)
    exact ⟨quiet.1, first.remains.samePlace.trans quiet.2⟩
  slots f got := by
    rcases second.slots f got with before | made
    · rcases first.slots f before with before | ⟨s, known, made⟩
      · exact .inl before
      · have remains := second.remains
        rw [known] at remains
        rcases known' : after.handles[h]? with _ | s'
        · rw [known'] at remains
          cases remains
        · rw [known'] at remains
          cases remains with
          | known stays => exact .inr ⟨s', rfl, stays.writer made⟩
    · exact .inr made

theorem quietFor_of_same (handles : after.handles = w.handles)
    (history : after.history = w.history) (slots : after.slots = w.slots) :
    QuietFor h w after where
  remains := by
    rw [handles]
    exact remains_stays
  notes := notes_of_same history
  slots f got := by
    rw [World.slot, slots] at got
    exact .inl got

theorem quietFor_refl : QuietFor h w w := quietFor_of_same rfl rfl rfl

/-- What is quiet from a world that is the same in all that matters. -/
theorem QuietFor.of_same (quiet : QuietFor h middle after) (handles : middle.handles = w.handles)
    (history : middle.history = w.history) (slots : middle.slots = w.slots) :
    QuietFor h w after := (quietFor_of_same handles history slots).trans quiet

theorem quietFor_record {e : Event} (quiet : e.IsQuietFor h) : QuietFor h w (w.record e) where
  remains := remains_stays
  notes := notes_record ⟨quiet, samePlace_refl⟩
  slots _ := .inl

theorem QuietFor.record {e : Event} (quiet : QuietFor h w middle) (aside : e.IsQuietFor h) :
    QuietFor h w (middle.record e) := quiet.trans (quietFor_record aside)

theorem quietFor_modifyHandle {f : Handle → Handle}
    (stays : k = h → ∀ s : Handle, s.Stays (f s)) :
    QuietFor h w (w.modifyHandle k f) where
  remains := remains_modify (fun _ => Handle.stays_refl) stays
  notes := notes_refl
  slots _ := .inl

theorem quietFor_sweep : QuietFor h w w.sweep := by
  have once (v : World) : QuietFor h v v.sweepOnce := by
    refine ⟨?_, notes_refl, fun _ => .inl⟩
    simp only [World.sweepOnce, List.getElem?_mapIdx]
    apply remains_map
    intro s _
    split
    · exact Handle.stays_refl
    · exact Handle.stays_unregistered
  have rounds (n : Nat) : QuietFor h w (Nat.repeat World.sweepOnce n w) := by
    induction n with
    | zero => exact quietFor_refl
    | succ n ih => exact ih.trans (once _)
  exact rounds _

theorem lookup_replaceSlot {f g : Slot} {entry : SlotEntry} {slots : List (Slot × SlotEntry)} :
    (World.replaceSlot f entry slots).lookup g =
      if g = f then some entry else slots.lookup g := by
  -- along the list, up to the place of the slot
  rcases same : g == f with _ | _
  · have apart : g ≠ f := ne_of_beq_false same
    rw [if_neg apart]
    induction slots with
    | nil => rw [World.replaceSlot, List.lookup_cons, same]
    | cons first rest ih =>
      rw [World.replaceSlot]
      split
      · rw [List.lookup_cons, same]
      · split
        next equal => rw [List.lookup_cons, List.lookup_cons, same, ← equal, same]
        next => rw [List.lookup_cons, List.lookup_cons, ih]
  · obtain rfl := eq_of_beq same
    rw [if_pos rfl]
    induction slots with
    | nil => rw [World.replaceSlot, List.lookup_cons, same]
    | cons first rest ih =>
      rw [World.replaceSlot]
      split
      · rw [List.lookup_cons, same]
      · split
        next => rw [List.lookup_cons, same]
        next apart => rw [List.lookup_cons, beq_false_of_ne apart, ih]

theorem quietFor_setSlot {f : Slot} {entry : SlotEntry}
    (writer : entry.writer = some h → (w.slot f).writer = some h ∨
      ∃ s, w.handles[h]? = some s ∧ s.writer.isSome = true) :
    QuietFor h w (w.setSlot f entry) := by
  have replaced (remnants : List Remnant) : QuietFor h w
      { w with slots := World.replaceSlot f entry w.slots, remnants } := by
    refine ⟨remains_stays, notes_refl, fun g got => ?_⟩
    rw [World.slot, lookup_replaceSlot] at got
    split at got
    next same =>
      subst same
      exact writer got
    · exact .inl got
  exact (replaced _).trans quietFor_sweep

theorem quietFor_submit (job : Job) : QuietFor h w (w.submit job) := by
  unfold World.submit
  split
  next jobs _ =>
    have queued : QuietFor h w { w with jobs := jobs } := quietFor_of_same rfl rfl rfl
    exact queued.record trivial
  · exact quietFor_refl

/-- An operation is accepted that the streams of the handle have not asked for. -/
theorem quietFor_accept {t : Transfer} {c : Completion}
    (plain : k = h → c.isStreams = false) : QuietFor h w (w.accept k t c).2 := by
  have counted : QuietFor h w (w.modifyHandle k (·.taking c)) :=
    quietFor_modifyHandle fun _ _ => Handle.stays_taking
  exact (counted.record (e := .accepted ⟨w.nextOperation, k, t, c⟩) plain).trans
    (quietFor_of_same rfl rfl rfl)

theorem World.reader?_modifyReader {f : Reader → Reader} :
    (w.modifyReader h f).reader? h = (w.reader? h).map f := by
  rw [reader?, reader?, modifyReader, modifyHandle, List.getElem?_modify_eq]
  cases w.handles[h]? <;> rfl

theorem World.handles_enqueue {t : Transfer} {c : Completion} :
    (w.enqueue h t c).handles = w.handles.modify h (·.taking c) := by
  unfold World.enqueue World.submit
  dsimp only
  split <;> rfl

/-- While an operation is queued, no stream goes on. -/
theorem notes_samePlace_enqueue {t : Transfer} {c : Completion} :
    Notes (fun e => SamePlace h w.handles e.handles) w (w.enqueue k t c) := by
  have there : SamePlace h w.handles (w.handles.modify k (·.taking c)) :=
    samePlace_modify (fun _ => rfl) fun _ => rfl
  unfold World.enqueue World.submit
  dsimp only
  split
  · exact ⟨[_, _], rfl, fun e listed => by
      rcases List.mem_pair.mp listed with rfl | rfl
      · exact there
      · exact there⟩
  · exact ⟨[_], rfl, fun e listed => List.mem_singleton.mp listed ▸ there⟩

theorem quietFor_enqueue {t : Transfer} {c : Completion}
    (plain : k = h → c.isStreams = false) : QuietFor h w (w.enqueue k t c) :=
  (quietFor_accept plain).trans (quietFor_submit _)

theorem quietFor_close {handler : Option (Callback Command)}
    (ok : w.close k handler = .ok after) : QuietFor h w after := by
  obtain ⟨s, -, rfl⟩ := except_map_eq_ok.mp ok
  have accepted : QuietFor h w (w.accept k .close (.close (handler.map w.handler))).2 :=
    quietFor_accept fun _ => rfl
  have closed := accepted.trans (quietFor_modifyHandle (k := k) fun _ _ => Handle.stays_closed)
  dsimp only
  split
  · exact closed.trans (quietFor_submit _)
  · exact closed.trans (quietFor_modifyHandle fun _ _ => Handle.stays_pendingClose)

/-- Nothing has happened yet to the streams of a handle that is opened. -/
theorem quietFor_addHandle {f : Slot} {owner : ContextId} {options : OpenOptions} {sink : Sink}
    {path : Bytes} {backend : BackendId} {native : Option BackendId} {current : Option ContextId}
    (valid : options.owner current = .ok owner) :
    QuietFor h w (w.addHandle f owner options sink path backend native) := by
  have asks : 0 < options.readBufferSize := by
    unfold OpenOptions.owner OpenOptions.validate at valid
    by_contra zero
    rw [if_pos (Nat.eq_zero_of_not_pos zero)] at valid
    split at valid
    · cases valid
    next passed =>
      split at passed
      · cases passed
      · cases passed
  have added (s : Handle) (new : s.IsNew) :
      QuietFor h w { w with handles := w.handles ++ [s] } := by
    refine ⟨?_, notes_refl, fun _ => .inl⟩
    rcases Nat.lt_trichotomy h w.handles.length with old | rfl | beyond
    · rw [List.getElem?_append_left old]
      exact remains_stays
    · rw [List.getElem?_eq_none (Nat.le_refl _), List.getElem?_concat_length]
      exact .opened new
    · rw [List.getElem?_eq_none (Nat.le_of_lt beyond),
        List.getElem?_eq_none (by rw [List.length_append]; exact beyond)]
      exact .unknown
  refine (added _ ?_).trans (quietFor_setSlot fun none => by cases none)
  exact ⟨rfl, rfl, rfl, asks, rfl, rfl, (fun wanted => by cases wanted.heard),
    (fun _ listed => by cases listed), .inl rfl, rfl⟩

theorem quietFor_modifyReader {f : Reader → Reader} (position : ∀ r, (f r).position = r.position)
    (busy : ∀ r, (f r).busy = r.busy) (ended : ∀ r, (f r).ended = r.ended)
    (asks : ∀ r, 0 < r.chunkSize → 0 < (f r).chunkSize)
    (rests : ∀ r, w.reader? k = some r → r.Rests (f r)) : QuietFor h w (w.modifyReader k f) := by
  refine ⟨?_, notes_refl, fun _ => .inl⟩
  by_cases same : k = h
  · subst same
    rw [World.modifyReader, World.modifyHandle, List.getElem?_modify_eq]
    apply remains_map
    intro s known
    refine Handle.stays_reader position busy ended asks fun r made => rests r ?_
    rw [World.reader?, known]
    exact made
  · rw [World.modifyReader, World.modifyHandle, List.getElem?_modify_ne _ _ same]
    exact remains_stays

theorem quietFor_modifyWriter {f : Writer → Writer} (position : ∀ v, (f v).position = v.position)
    (drain : ∀ v, (f v).drain = none ∨ (f v).drain = v.drain) :
    QuietFor h w (w.modifyWriter k f) :=
  quietFor_modifyHandle fun _ _ => Handle.stays_writer position drain

/-- The drain callback that waits is gone. -/
theorem quietFor_clearDrain : QuietFor h w (w.clearDrain k) :=
  quietFor_modifyWriter (fun _ => rfl) fun _ => .inl rfl

end Quiet

/-! ## What is not quiet -/

/-- What the code of a client can do, seen from one handle. -/
inductive Change (h : HandleId) : World → World → Prop where
  | quiet {w after : World} (quiet : QuietFor h w after) : Change h w after
  /-- A listener for chunks is registered, and the stream goes on unless it is paused. -/
  | listen {w : World} (listener : Registration) :
      Change h w ((w.modifyReader h (·.listening listener)).readingOn h)
  /-- A pause is ended, and the stream goes on if anybody listens. -/
  | resume {w : World} (paused : (w.reader? h).any Reader.paused = true) :
      Change h w ((w.modifyReader h Reader.resumed).readingOn h)
  /-- Something is written to the stream. -/
  | send {w : World} {s : Handle} {data : Bytes} (got : ∃ f, (w.slot f).writer = some h)
      (known : w.handles[h]? = some s) :
      Change h w ((w.enqueue h (.ofWrite data s.writeStream.position)
        (.send data.length)).modifyWriter h fun v =>
          { v with position := v.position + data.length })
  /-- A callback begins to wait for the queue to drain. -/
  | awaitDrain {w : World} {wait : DrainWait}
      (waits : (w.modifyWriter h (·.awaiting wait)).hasDrained h = false) :
      Change h w (({ w with nextDrain := w.nextDrain + 1 }.modifyWriter h
        (·.awaiting wait)).record (.awaited h wait.id))

/-- What a change notes is quiet, or the code of a client brings it about. -/
theorem Change.notes {h : HandleId} {w after : World} (change : Change h w after) :
    Notes (fun e => e.event.IsQuietFor h ∨ e.event.IsClients) w after := by
  cases change with
  | quiet quiet => exact quiet.notes.mono fun _ told => .inl told.1
  | listen listener | resume paused =>
    exact (World.notes_readingOn (w := w.modifyReader h _)).mono fun _ told => .inr told.1
  | @send s data got known =>
    have sent := World.notes_enqueue (w := w) (h := h)
      (t := .ofWrite data s.writeStream.position) (c := .send data.length)
    exact sent.mono fun _ told => .inr told.1
  | awaitDrain waits =>
    exact ⟨[_], rfl, fun e listed => List.mem_singleton.mp listed ▸ .inr trivial⟩

section Moves

variable {h k : HandleId} {w after : World}

/-- A request that changes what the handle is found to be. -/
theorem quietFor_request {s : Handle} {f : Handle → Handle} (checked : w.check k = .ok s)
    (stays : s.Stays (f s)) : QuietFor h w (w.modifyHandle k f) := by
  obtain ⟨known, -⟩ := World.check_eq_ok_iff.mp checked
  refine ⟨?_, notes_refl, fun _ => .inl⟩
  by_cases same : k = h
  · subst same
    rw [World.modifyHandle, List.getElem?_modify_eq, known]
    exact .known stays
  · rw [World.modifyHandle, List.getElem?_modify_ne _ _ same]
    exact remains_stays

theorem quietFor_shutDown {origin : Origin} : QuietFor h w (w.shutDown origin) :=
  ((quietFor_record (e := .shutDown) trivial).trans quietFor_sweep).of_same rfl rfl rfl

theorem change_send {data : Bytes} (got : ∃ f, (w.slot f).writer = some k)
    (ok : w.send k data = .ok after) : Change h w after := by
  obtain ⟨s, checked, rfl⟩ := except_map_eq_ok.mp ok
  obtain ⟨known, -⟩ := World.check_eq_ok_iff.mp (World.check_of_checkStream checked)
  by_cases same : k = h
  · subst same
    have position : (s.writer.map Writer.position).getD 0 = s.writeStream.position := by
      rw [Handle.writeStream]
      rcases s.writer with _ | v <;> rfl
    rw [position]
    exact .send got known
  · have sent : QuietFor h w (w.enqueue k (.ofWrite data ((s.writer.map Writer.position).getD 0))
      (.send data.length)) := quietFor_enqueue fun own => absurd own same
    exact .quiet (sent.trans (quietFor_modifyHandle fun own => absurd own same))

theorem change_awaitDrain {handler : Callback Command} (ok : w.onDrain k handler = .ok after)
    (waits : after.hasDrained k = false) : Change h w after := by
  obtain ⟨s, -, rfl⟩ := except_map_eq_ok.mp ok
  by_cases same : k = h
  · subst same
    exact .awaitDrain waits
  · have waiting (v : World) (f : Handle → Handle) : QuietFor h v (v.modifyHandle k f) :=
      quietFor_modifyHandle fun own => absurd own same
    exact .quiet (((waiting _ _).record (e := .awaited k w.nextDrain)
      trivial).of_same rfl rfl rfl)

/-- A drain callback that is called at once does not come to wait. -/
theorem quietFor_drainAtOnce {handler : Callback Command} (ok : w.onDrain k handler = .ok after) :
    QuietFor h w ((after.clearDrain k).record (.drained k w.nextDrain handler.tag)) := by
  obtain ⟨s, -, rfl⟩ := except_map_eq_ok.mp ok
  refine ⟨?_, ⟨[_, _], rfl, fun e listed => ?_⟩, fun f => .inl⟩
  · simp only [World.clearDrain, World.modifyWriter, World.modifyHandle, World.record,
      List.modify_modify_eq, Function.comp_def, Option.map_map]
    have cleared : QuietFor h w (w.modifyWriter k fun v =>
        { v.awaiting ⟨w.nextDrain, w.handler handler⟩ with drain := none }) :=
      quietFor_modifyWriter (fun _ => rfl) fun _ => .inl rfl
    exact cleared.remains
  · -- the one entry is made when the callback waits, the other when it is gone
    rcases List.mem_pair.mp listed with rfl | rfl
    · exact ⟨trivial, samePlace_modifyWriter.trans samePlace_modifyWriter⟩
    · exact ⟨trivial, samePlace_modifyWriter⟩

theorem World.idleReader?_eq_some {r : Reader} (idle : w.idleReader? k = some r) :
    ∃ s, w.handles[k]? = some s ∧ s.reader = some r ∧ r.busy = false ∧ r.ended = false := by
  unfold World.idleReader? at idle
  split at idle
  · cases idle
  next s known =>
    split at idle
    · cases idle
    · obtain ⟨made, waits⟩ := Option.filter_eq_some_iff.mp idle
      refine ⟨s, known, made, ?_⟩
      simpa using waits

/-- The stream of another handle goes on. -/
theorem quietFor_readingOn_ne (other : k ≠ h) : QuietFor h w (w.readingOn k) := by
  rcases w.readingOn_cases k with same | ⟨stream, -, -, started⟩
  · rw [same]
    exact quietFor_refl
  · have marked : QuietFor h w (w.modifyReader k ({ · with busy := true })) :=
      quietFor_modifyHandle fun own => absurd own other
    rw [started]
    rcases w.startingRead_cases k stream with ⟨-, large⟩ | ⟨-, fits⟩
    · rw [large]
      exact marked
    · rw [fits]
      exact marked.trans (quietFor_enqueue fun own => absurd own other)

theorem quietFor_asked_ne {f : Reader → Reader} (other : k ≠ h) :
    QuietFor h w ((w.modifyReader k f).readingOn k) :=
  (quietFor_modifyHandle fun own => absurd own other).trans (quietFor_readingOn_ne other)

theorem change_listen {listener : Registration} :
    Change h w ((w.modifyReader k (·.listening listener)).readingOn k) := by
  by_cases same : k = h
  · subst same
    exact .listen listener
  · exact .quiet (quietFor_asked_ne same)

theorem change_resume (paused : (w.reader? k).any Reader.paused = true) :
    Change h w ((w.modifyReader k Reader.resumed).readingOn k) := by
  by_cases same : k = h
  · subst same
    exact .resume paused
  · exact .quiet (quietFor_asked_ne same)

/-- A stream that is not paused rests when it is resumed. -/
theorem quietFor_resumed (flowing : (w.reader? k).any Reader.paused = false) :
    QuietFor h w (w.modifyReader k Reader.resumed) := by
  refine quietFor_modifyReader (f := Reader.resumed) (fun _ => rfl) (fun _ => rfl) (fun _ => rfl)
    (fun _ => id) fun r found => ?_
  rw [found, Option.any_some] at flowing
  exact Reader.rests_of_call (fun wanted => ⟨wanted.heard, flowing, wanted.goes_on⟩) rfl flowing
    (.inl rfl) fun _ => rfl

/-- Seen from one handle, a move is one of a few changes. -/
theorem Move.change (move : Move w after) : Change h w after := by
  cases move with
  | openMemory accepted =>
    obtain ⟨owner, valid, rfl⟩ := except_map_eq_ok.mp accepted
    exact .quiet ((quietFor_addHandle valid).of_same rfl rfl rfl)
  | openBackend held accepted =>
    obtain ⟨owner, valid, rfl⟩ := except_map_eq_ok.mp accepted
    exact .quiet (quietFor_addHandle valid)
  | openPath accepted =>
    obtain ⟨owner, descriptor, files, valid, rfl⟩ := World.exists_openPath accepted
    exact .quiet ((quietFor_addHandle valid).of_same rfl rfl rfl)
  | keep | giveUp => exact .quiet (quietFor_setSlot .inl)
  | write accepted | flush accepted =>
    obtain ⟨s, -, rfl⟩ := except_map_eq_ok.mp accepted
    exact .quiet (quietFor_enqueue fun _ => rfl)
  | read accepted =>
    obtain ⟨s, -, rfl⟩ := World.exists_read accepted
    exact .quiet (quietFor_enqueue fun _ => rfl)
  | close accepted => exact .quiet (quietFor_close accepted)
  | readStream f accepted =>
    obtain ⟨s, checked, rfl⟩ := except_map_eq_ok.mp accepted
    exact .quiet ((quietFor_request checked Handle.stays_readStream).trans (quietFor_setSlot .inl))
  | @writeStream _ k f accepted =>
    obtain ⟨s, checked, rfl⟩ := except_map_eq_ok.mp accepted
    refine .quiet ((quietFor_request checked Handle.stays_writeStream).trans
      (quietFor_setSlot fun own => ?_))
    obtain rfl := Option.some.inj own
    obtain ⟨known, -⟩ := World.check_eq_ok_iff.mp checked
    refine .inr ⟨{ s with writer := some s.writeStream }, ?_, rfl⟩
    rw [World.modifyHandle, List.getElem?_modify_eq, known]
    rfl
  | listen accepted =>
    obtain ⟨s, -, rfl⟩ := except_map_eq_ok.mp accepted
    exact change_listen
  | @resume _ k accepted paused =>
    obtain ⟨s, -, rfl⟩ := except_map_eq_ok.mp accepted
    exact change_resume paused
  | resumeFlowing accepted flowing =>
    obtain ⟨s, -, rfl⟩ := except_map_eq_ok.mp accepted
    exact .quiet (quietFor_resumed flowing)
  | clearData accepted =>
    obtain ⟨s, -, rfl⟩ := except_map_eq_ok.mp accepted
    exact .quiet (quietFor_modifyReader (fun _ => rfl) (fun _ => rfl) (fun _ => rfl) (fun _ => id)
      fun _ _ => Reader.rests_of_call (fun wanted => by cases wanted.heard) rfl rfl (.inl rfl) id)
  | onEnd accepted | onReadFailure accepted =>
    obtain ⟨s, -, rfl⟩ := except_map_eq_ok.mp accepted
    exact .quiet (quietFor_modifyReader (fun _ => rfl) (fun _ => rfl) (fun _ => rfl) (fun _ => id)
      fun _ _ => Reader.rests_of_same (fun wanted => ⟨wanted.heard, wanted.flowing, wanted.goes_on⟩)
        rfl rfl rfl)
  | pause accepted =>
    obtain ⟨s, -, rfl⟩ := except_map_eq_ok.mp accepted
    exact .quiet (quietFor_modifyReader (fun _ => rfl) (fun _ => rfl) (fun _ => rfl) (fun _ => id)
      fun _ _ => Reader.rests_of_call (fun wanted => by cases wanted.flowing) rfl rfl (.inl rfl)
        fun _ => rfl)
  | setQueueMax accepted | onWriteFailure accepted =>
    obtain ⟨s, -, rfl⟩ := except_map_eq_ok.mp accepted
    exact .quiet (quietFor_modifyWriter (fun _ => rfl) fun _ => .inr rfl)
  | setChunkSize accepted =>
    obtain ⟨s, -, positive, rfl⟩ := World.exists_setChunkSize accepted
    exact .quiet (quietFor_modifyReader (fun _ => rfl) (fun _ => rfl) (fun _ => rfl)
      (fun _ _ => positive) fun _ _ => Reader.rests_of_call
        (fun wanted => ⟨wanted.heard, wanted.flowing, wanted.goes_on⟩) rfl rfl
        (.inr List.mem_cons_self) id)
  | send got accepted => exact change_send got accepted
  | awaitDrain accepted waits => exact change_awaitDrain accepted waits
  | drainAtOnce accepted drained => exact .quiet (quietFor_drainAtOnce accepted)
  | drained => exact .quiet (quietFor_clearDrain.record trivial)
  | hold | execute | adjust => exact .quiet (quietFor_of_same rfl rfl rfl)
  | sweep => exact .quiet quietFor_sweep
  | strand =>
    have given_up (v : World) (k : HandleId) : QuietFor h v (v.modifyHandle k .unregistered) :=
      quietFor_modifyHandle fun _ _ => Handle.stays_unregistered
    exact .quiet ((given_up _ _).of_same rfl rfl rfl)
  | shutDown origin => exact .quiet quietFor_shutDown
  | ran | panicking => exact .quiet (quietFor_record trivial)

end Moves

end PinnedFile
