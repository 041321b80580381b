/-
  PinnedFile.Proofs.Streams.Continuing

  How a read stream keeps going.

  A read stream goes on by itself, one read after the other, for as long as somebody listens
  and it is not held back.  It stops at a failure, and then it waits to be called upon.  Two
  laws say so.  One is kept by whatever happens: a stream that is busy has been called upon
  since each of its failures.  The other is a law of calm runs: a stream that is wanted is
  busy, or it has failed and was not called upon since.  The second is not kept inside the
  delivery of a chunk, where the stream is idle while its listener runs; it is made good
  when the stream goes on.
-/

import PinnedFile.Proofs.Streams.Calls

namespace PinnedFile

/-- Every number of bytes that the reads of the stream were ever to ask for is one for which
    there can be room. -/
def Handle.ChunksFit (s : Handle) : Prop :=
  s.readChunk ≤ Buffer.maxLength ∧
    ∀ size, .resize size ∈ s.readStream.asked → size ≤ Buffer.maxLength

namespace World

/-- The reads of the read stream of a handle that were accepted. -/
def readsBegun (w : World) (h : HandleId) : List Job := w.accepted.filter fun a => a.IsChunkOf h

/-- The reads of the read stream of a handle that were completed. -/
def readsEnded (w : World) (h : HandleId) : List Job :=
  (w.completed.map Prod.fst).filter fun a => a.IsChunkOf h

/-- Whether the read stream of a handle is busy. -/
def isReading (w : World) (h : HandleId) : Bool :=
  (w.handles[h]?.map fun s => s.readStream.busy).getD false

/-- The read stream of a handle was called upon since each of its failures. -/
def IsArmed (w : World) (h : HandleId) : Prop :=
  ∀ f ∈ w.history, f.event.IsFailureOf h → AskedSince h (readerCallsIn w.handles h) f

/-- The last read of the stream of a handle has failed, and the stream was not called upon
    since. -/
def IsStalled (w : World) (h : HandleId) : Prop :=
  ∃ newer f older, w.history = newer ++ f :: older ∧ f.event.IsFailureOf h ∧
    (∀ e ∈ newer, e.event.IsNoChunk h) ∧ RestsSince h (readerCallsIn w.handles h) f

/-- The read stream of a handle is busy whenever it is wanted, but for one that has failed. -/
def GoesOn (w : World) (h : HandleId) : Prop :=
  ∀ s, w.handles[h]? = some s → s.closed = false → s.readStream.IsWanted →
    s.readStream.busy = true ∨ w.IsStalled h

end World

/-- The record of the calls on a read stream agrees with its reads and with what it asks for. -/
structure Continuing (h : HandleId) (w : World) : Prop where
  grown : ∀ f ∈ w.history, f.event.IsFailureOf h →
    readerCallsIn f.handles h <:+ readerCallsIn w.handles h
  armed : w.isReading h = true → w.IsArmed h
  begun : Throughout (fun e older => e.event.IsReadOf h → ∀ f ∈ older, f.event.IsFailureOf h →
    AskedSince h (readerCallsIn e.handles h) f) w.history
  sized : ∀ s, w.handles[h]? = some s → s.readStream.chunkSize = s.readChunk ∨
    .resize s.readStream.chunkSize ∈ s.readStream.asked
  balanced : (∀ s, w.handles[h]? = some s → s.ChunksFit) →
    (w.readsBegun h).length = (w.readsEnded h).length + if w.isReading h then 1 else 0

section Continuing

variable {mode : Mode} {h k : HandleId} {w after : World} {s s' : Handle} {a job : Job}
  {outcome : Outcome} {rest : Queue Task} {e f : Entry} {event : Event}
  {calls later : List ReaderCall} {r : Reader}

/-! ## What begins and ends no read -/

theorem Throughout.append {Q : Entry → List Entry → Prop} {new older : List Entry}
    (all : Throughout Q older) (each : ∀ e ∈ new, ∀ before, Q e before) :
    Throughout Q (new ++ older) := by
  induction new with
  | nil => exact all
  | cons e new ih =>
    refine (ih fun e listed => each e (List.mem_cons_of_mem _ listed)).cons ?_
    exact each e List.mem_cons_self _

/-- What tells of no read leaves the counts of reads as they are. -/
theorem Notes.reads (notes : Notes (·.event.IsNoChunk h) w after) :
    after.readsBegun h = w.readsBegun h ∧ after.readsEnded h = w.readsEnded h := by
  obtain ⟨new, added, none⟩ := notes
  have begun : (new.filterMap (·.event.accepted?)).filter (fun a => a.IsChunkOf h) = [] := by
    rw [List.filter_eq_nil_iff]
    intro a listed own
    obtain ⟨e, there, told⟩ := List.mem_filterMap.mp listed
    have other : e.event.IsNoChunk h := none e there
    rw [Event.accepted?_eq_some_iff.mp told] at other
    exact other (of_decide_eq_true own)
  have ended : ((new.filterMap (·.event.completed?)).map Prod.fst).filter
      (fun a => a.IsChunkOf h) = [] := by
    rw [List.filter_eq_nil_iff]
    intro a listed own
    obtain ⟨c, completed, rfl⟩ := List.mem_map.mp listed
    obtain ⟨e, there, told⟩ := List.mem_filterMap.mp completed
    have other : e.event.IsNoChunk h := none e there
    rw [Event.completed?_eq_some_iff.mp told] at other
    exact other (of_decide_eq_true own)
  constructor
  · rw [World.readsBegun, World.accepted, added, List.filterMap_append, List.filter_append, begun]
    rfl
  · rw [World.readsEnded, World.completed, added, List.filterMap_append, List.map_append,
      List.filter_append, ended]
    rfl

/-- What fits after what was called is on record has fitted before. -/
theorem Handle.KeepsRecord.fits (keeps : s.KeepsRecord s') (fits : s'.ChunksFit) :
    s.ChunksFit := by
  refine ⟨keeps.readChunk ▸ fits.1, fun size listed => fits.2 size ?_⟩
  exact keeps.asked.subset listed

theorem World.IsArmed.keepsRecord (armed : w.IsArmed h) (keeps : KeepsRecord h w after) :
    after.IsArmed h := fun f listed failed =>
  (armed f (keeps.failures.failure_before listed failed) failed).grown keeps.recorded

/-- The law is kept by whatever begins and ends no read, if what is called is on record. -/
theorem Continuing.keepsRecord (continuing : Continuing h w) (keeps : KeepsRecord h w after) :
    Continuing h after := by
  have same : after.isReading h = w.isReading h :=
    keeps.remains.figure (fun _ => Handle.IsNew.busy) fun _ _ => Handle.KeepsRecord.busy
  obtain ⟨begun, ended⟩ := keeps.notes.reads
  constructor
  case grown =>
    intro f listed failed
    exact (continuing.grown f (keeps.failures.failure_before listed failed) failed).trans
      keeps.recorded
  case armed =>
    intro busy
    exact (continuing.armed (same ▸ busy)).keepsRecord keeps
  case begun =>
    obtain ⟨new, added, none⟩ := keeps.notes
    rw [added]
    exact continuing.begun.append fun e listed _ reads => absurd reads (none e listed).not_read
  case sized =>
    intro s' known
    rcases keeps.handle known with new | ⟨s, before, kept⟩
    · exact new.sized
    · rcases kept.sized with same | called
      · rw [same, kept.readChunk]
        rcases continuing.sized s before with same | called
        · exact .inl same
        · exact .inr (kept.asked.subset called)
      · exact .inr called
  case balanced =>
    intro fits
    rw [begun, ended, same]
    -- that all chunks fit is said of the record, and that has only grown
    refine continuing.balanced fun s known => ?_
    have remains := keeps.remains
    rw [known] at remains
    generalize later : after.handles[h]? = now at remains
    cases remains with
    | @known _ s' related => exact related.fits (fits s' later)

/-- A stream that is not called upon goes on, or waits, as before. -/
theorem World.GoesOn.asksNothing (goes_on : w.GoesOn h) (nothing : AsksNothing h w after) :
    after.GoesOn h := by
  intro s' known opened wanted
  have remains := nothing.remains
  rw [known] at remains
  generalize before : w.handles[h]? = one at remains
  cases remains with
  | opened new => exact absurd wanted new.unwanted
  | @known s _ related =>
    rcases goes_on s before (related.opened opened) (related.rests.wanted wanted) with
      busy | ⟨newer, f, older, split, failed, none, rests⟩
    · exact .inl (related.busy.trans busy)
    · -- the failure is still the last, and nothing on record since then had the stream go on
      obtain ⟨new, added, none'⟩ := nothing.notes
      refine .inr ⟨new ++ newer, f, older, ?_, failed, fun e listed => ?_, ?_⟩
      · rw [added, split, List.append_assoc]
      · rcases List.mem_append.mp listed with now | later
        · exact none' e now
        · exact none e later
      · exact rests.grown nothing.recorded

/-! ## The beginning of a read -/

theorem World.isReading_of_known (known : w.handles[h]? = some s) :
    w.isReading h = s.readStream.busy := by
  rw [isReading, known, Option.map_some, Option.getD_some]

theorem World.IsArmed.readingOn (armed : w.IsArmed h) : (w.readingOn h).IsArmed h := by
  intro f listed failed
  rw [readerCallsIn_readingOn]
  exact armed f (failures_readingOn.failure_before listed failed) failed

theorem World.IsArmed.change (armed : w.IsArmed h) (change : Change h w after) :
    after.IsArmed h := by
  rcases change.asks with nothing | ⟨v, keeps, -, rfl, -⟩
  · exact armed.keepsRecord nothing.keepsRecord
  · exact (armed.keepsRecord keeps).readingOn

/-- A read for which there is room is one more read, and all before it are ended. -/
theorem Continuing.balanced_startingRead (continuing : Continuing h w)
    (idle : w.idleReader? h = some r) (fits : ∀ s, w.handles[h]? = some s → s.ChunksFit) :
    ((w.startingRead h r).readsBegun h).length =
      ((w.startingRead h r).readsEnded h).length + 1 := by
  obtain ⟨s, s', known, stream, waits, -⟩ := handle_startingRead idle
  have before := continuing.balanced fits
  -- what the stream asks for now is what it asked for first, or a call has set it
  have room : r.chunkSize ≤ Buffer.maxLength := by
    rw [← stream]
    rcases continuing.sized s known with same | called
    · rw [same]
      exact (fits s known).1
    · exact (fits s known).2 _ called
  rcases w.startingRead_cases h r with ⟨large, -⟩ | ⟨-, same⟩
  · exact absurd room (Nat.not_le_of_lt large)
  · rw [World.isReading_of_known known, stream, waits] at before
    let a : Job := ⟨w.nextOperation, h, .ofRead r.position r.chunkSize, .chunk⟩
    let marked := w.modifyReader h ({ · with busy := true })
    have begun : (marked.enqueue h a.transfer .chunk).readsBegun h = a :: w.readsBegun h := by
      rw [World.readsBegun, World.accepted_enqueue]
      exact List.filter_cons_of_pos (decide_eq_true ⟨rfl, rfl⟩)
    have ended : (marked.enqueue h a.transfer .chunk).readsEnded h = w.readsEnded h := by
      rw [World.readsEnded, World.completed_enqueue]
      rfl
    rw [same]
    show ((marked.enqueue h a.transfer .chunk).readsBegun h).length =
      ((marked.enqueue h a.transfer .chunk).readsEnded h).length + 1
    rw [begun, ended, List.length_cons]
    exact congrArg (· + 1) before

/-- A stream that goes on is armed, and begins the one read that is under way then. -/
theorem Continuing.readingOn (continuing : Continuing h w)
    (armed : w.wantsRead h = true → w.IsArmed h) : Continuing h (w.readingOn h) := by
  rcases w.readingOn_cases h with same | ⟨r, wanted, idle, started⟩
  · rwa [same]
  obtain ⟨s, s', known, stream, -, now, marked, readChunk⟩ := handle_startingRead idle
  rw [← started] at now
  constructor
  case grown =>
    intro f listed failed
    rw [readerCallsIn_readingOn]
    exact continuing.grown f (failures_readingOn.failure_before listed failed) failed
  case armed =>
    exact fun _ => (armed wanted).readingOn
  case begun =>
    rw [started]
    rcases w.startingRead_cases h r with ⟨-, same⟩ | ⟨-, same⟩
    · rw [same]
      exact continuing.begun
    · obtain ⟨new, added, none⟩ := history_enqueue
        (w := w.modifyReader h ({ · with busy := true })) (h := h) (k := h)
        (t := .ofRead r.position r.chunkSize) (c := .chunk)
      rw [same, added]
      -- the entry of the read shows the same record as the world that begins it
      refine Throughout.append (continuing.begun.cons fun _ f listed failed => ?_)
        fun e listed _ reads => absurd reads (none e listed).not_read
      have recorded := readerCallsIn_readingOn (w := w) (h := h)
      rw [started, same, World.handles_enqueue] at recorded
      exact recorded ▸ armed wanted f listed failed
  case sized =>
    intro s'' known'
    obtain rfl := Option.some.inj (now.symm.trans known')
    have sized := continuing.sized s known
    rw [stream] at sized
    rwa [marked, readChunk]
  case balanced =>
    intro fits
    have fits := fits s' now
    have busy : (w.readingOn h).isReading h = true := by
      rw [World.isReading_of_known now, marked]
    rw [busy, started]
    refine continuing.balanced_startingRead idle fun s'' known' => ?_
    obtain rfl := Option.some.inj (known.symm.trans known')
    rw [Handle.ChunksFit, marked, readChunk] at fits
    rwa [Handle.ChunksFit, stream]

/-- A stream that is wanted was made, and its next read is wanted. -/
theorem Reader.IsWanted.wantsRead (known : w.handles[h]? = some s)
    (wanted : s.readStream.IsWanted) :
    s.reader = some s.readStream ∧ w.wantsRead h = true := by
  rcases made : s.reader with _ | r
  · have heard := wanted.heard
    rw [Handle.readStream, made] at heard
    cases heard
  · have stream : s.readStream = r := by rw [Handle.readStream, made, Option.getD_some]
    rw [stream] at wanted ⊢
    refine ⟨rfl, ?_⟩
    rw [World.wantsRead, World.reader?, known, Option.bind_some, made, Option.any_some,
      wanted.flowing, wanted.heard]
    rfl

/-- When a stream has gone on, it is busy if it is wanted. -/
theorem busy_readingOn (known : (w.readingOn h).handles[h]? = some s) (opened : s.closed = false)
    (wanted : s.readStream.IsWanted) : s.readStream.busy = true := by
  unfold World.readingOn at known
  split at known
  · split at known
    next none =>
      -- it could not go on, and it is open and not at its end
      obtain ⟨made, -⟩ := wanted.wantsRead known
      rw [World.idleReader?, known] at none
      dsimp only at none
      rw [opened, if_neg Bool.false_ne_true, made, Option.filter_some] at none
      by_contra idle
      rw [Bool.not_eq_true] at idle
      rw [idle, wanted.goes_on] at none
      cases none
    next r idle =>
      obtain ⟨-, s', -, -, -, now, marked, -⟩ := handle_startingRead idle
      obtain rfl := Option.some.inj (now.symm.trans known)
      rw [marked]
  next unwanted => exact absurd (wanted.wantsRead known).2 unwanted

theorem goesOn_readingOn (w : World) (h : HandleId) : (w.readingOn h).GoesOn h :=
  fun _ known opened wanted => .inl (busy_readingOn known opened wanted)

/-! ## The end of a read -/

/-- The read that is under way comes to its end, and then none is under way. -/
theorem Continuing.receive (continuing : Continuing h w) (reading : Reading h w)
    (due : w.IsDue job) (own : job.IsChunkOf h) :
    Continuing h (w.arriving job outcome rest) := by
  obtain ⟨s, r, known, made, busy, -⟩ := reading.busy_of_due due own
  have stream : s.readStream = r := by rw [Handle.readStream, made, Option.getD_some]
  have recorded : readerCallsIn (w.arriving job outcome rest).handles h =
      readerCallsIn w.handles h := readerCallsIn_arriving own
  have now : (w.arriving job outcome rest).handles[h]? =
      some { s.releasing job.completion with reader := some (r.receiving outcome) } := by
    rw [handle_of_arriving own, known, Option.map_some, made, Option.map_some]
  have history : (w.arriving job outcome rest).history = _ := w.history_arriving
  generalize w.arriving job outcome rest = after at recorded now history ⊢
  obtain ⟨asked, size, idle⟩ := r.asked_receiving outcome
  have rests : after.isReading h = false := (World.isReading_of_known now).trans idle
  constructor
  case grown =>
    intro f listed failed
    rw [recorded]
    rw [history] at listed
    rcases List.mem_cons.mp listed with rfl | before
    · rw [readerCallsIn_completing]
    · exact continuing.grown f before failed
  case armed =>
    intro reads
    rw [rests] at reads
    cases reads
  case begun =>
    rw [history]
    exact continuing.begun.cons fun reads => by cases reads
  case sized =>
    intro s' known'
    obtain rfl := Option.some.inj (now.symm.trans known')
    have sized := continuing.sized s known
    rw [stream, ← size, ← asked] at sized
    exact sized
  case balanced =>
    intro fits
    have fits := fits _ now
    have before := continuing.balanced fun s' known' => by
      obtain rfl := Option.some.inj (known.symm.trans known')
      refine ⟨fits.1, fun n listed => fits.2 n ?_⟩
      rw [stream, ← asked] at listed
      exact listed
    have one : after.readsEnded h = job :: w.readsEnded h := by
      rw [World.readsEnded, World.completed, history]
      exact List.filter_cons_of_pos (decide_eq_true own)
    have same : after.readsBegun h = w.readsBegun h := by
      rw [World.readsBegun, World.accepted, history]
      rfl
    rw [World.isReading_of_known known, stream, busy] at before
    rw [same, one, rests, before]
    rfl

/-- A read that came to something leaves the stream as armed as it was. -/
theorem World.IsArmed.receive {bytes : Bytes} (armed : w.IsArmed h) (own : job.IsChunkOf h) :
    (w.arriving job (.ok bytes) rest).IsArmed h := by
  intro f listed failed
  rw [readerCallsIn_arriving own]
  rw [World.history_arriving] at listed
  rcases List.mem_cons.mp listed with rfl | before
  · cases failed
  · exact armed f before failed

/-- A stream whose read has failed waits to be called upon. -/
theorem isStalled_arriving {error : IoError} (own : job.IsChunkOf h) :
    (w.arriving job (.error error) rest).IsStalled h := by
  refine ⟨[], _, w.history, w.history_arriving, own, (fun e listed => by cases listed), [], ?_,
    fun c listed => by cases listed⟩
  rw [readerCallsIn_arriving own, readerCallsIn_completing]
  rfl

/-- A stream that has come to its end is not wanted. -/
theorem goesOn_end (own : job.IsChunkOf h) : (w.arriving job (.ok []) rest).GoesOn h := by
  intro s' known _ wanted
  obtain ⟨made, -⟩ := wanted.wantsRead known
  rw [handle_of_arriving own] at known
  obtain ⟨s, -, rfl⟩ := Option.map_eq_some_iff.mp known
  obtain ⟨r, -, same⟩ := Option.map_eq_some_iff.mp made
  have goes_on := wanted.goes_on
  rw [← same] at goes_on
  cases goes_on

/-! ## In every run -/

/-- The laws that are kept by whatever happens to a read stream. -/
structure Looping (h : HandleId) (w : World) : Prop where
  reading : Reading h w
  continuing : Continuing h w

theorem looping_start (workers : Nat) (files : FileTree) :
    Looping h (World.start workers files) where
  reading := reading_start workers files
  continuing :=
    { grown _ listed := absurd listed List.not_mem_nil
      armed _ _ listed := absurd listed List.not_mem_nil
      begun := throughout_nil
      sized _ known := by cases known
      balanced _ := rfl }

theorem Looping.change (looping : Looping h w) (change : Change h w after) :
    Looping h after where
  reading := looping.reading.change change
  continuing := by
    rcases change.asks with nothing | ⟨v, keeps, -, rfl, called⟩
    · exact looping.continuing.keepsRecord nothing.keepsRecord
    · refine (looping.continuing.keepsRecord keeps).readingOn fun wanted f listed failed => ?_
      obtain ⟨c, asks, recorded⟩ := called wanted
      rw [recorded]
      have before := keeps.failures.failure_before listed failed
      exact askedSince_cons asks (looping.continuing.grown f before failed)

theorem Looping.quiet (looping : Looping h w) (quiet : QuietFor h w after) : Looping h after :=
  looping.change (.quiet quiet)

theorem Looping.changes (looping : Looping h w) (changes : Changes h w after) :
    Looping h after := by
  induction changes with
  | refl => exact looping
  | tail _ last ih => exact ih.change last

theorem Looping.record (looping : Looping h w) (none : event.IsNoChunk h) :
    Looping h (w.record event) where
  reading := looping.reading.readsNothing (readsNothing_record none)
  continuing := looping.continuing.keepsRecord (asksNothing_record none).keepsRecord

theorem Looping.arriving (looping : Looping h w) (due : w.IsDue job) (handle : job.handle = h) :
    Looping h (w.arriving job outcome rest) where
  reading := looping.reading.arriving due handle
  continuing := by
    by_cases own : job.IsChunkOf h
    · exact looping.continuing.receive looping.reading due own
    · exact looping.continuing.keepsRecord (asksNothing_arriving handle own).keepsRecord

theorem Looping.telling (looping : Looping h w) (due : w.IsDue job) :
    Looping h (w.telling job outcome rest) := by
  by_cases handle : job.handle = h
  · have arrived : Looping h (w.arriving job outcome rest) := looping.arriving due handle
    obtain ⟨v, quiet, told | ⟨e, reading, told⟩⟩ :=
      w.telling_record (h := h) job outcome rest
    · exact told ▸ arrived.quiet quiet
    · exact told ▸ (arrived.quiet quiet).record reading.isNoChunk
  · exact looping.quiet (quietFor_telling_ne handle)

theorem World.IsArmed.changes (armed : w.IsArmed h) (changes : Changes h w after) :
    after.IsArmed h := by
  induction changes with
  | refl => exact armed
  | tail _ last ih => exact ih.change last

/-- While a chunk is handed on and the listener runs, the stream is as armed as its read was. -/
theorem Looping.isArmed_delivered {bytes : Bytes} (looping : Looping h w) (due : w.IsDue job)
    (own : job.IsChunkOf h) (calls : Changes h (w.telling job (.ok bytes) rest) after) :
    (after.record (.delivered job.id)).IsArmed h := by
  obtain ⟨s, r, known, made, busy, -⟩ := looping.reading.busy_of_due due own
  have reads : w.isReading h = true := by
    rw [World.isReading_of_known known, Handle.readStream, made, Option.getD_some, busy]
  have arrived : (w.arriving job (.ok bytes) rest).IsArmed h :=
    (looping.continuing.armed reads).receive own
  obtain ⟨v, quiet, nothing⟩ := asksNothing_telling (h := h) w job (.ok bytes) rest
  have told := (arrived.keepsRecord quiet.asksNothing.keepsRecord).keepsRecord nothing.keepsRecord
  have delivered : AsksNothing h after (after.record (.delivered job.id)) :=
    asksNothing_record trivial
  exact (told.changes calls).keepsRecord delivered.keepsRecord

theorem Looping.act (looping : Looping h w) (act : Act mode h w after) : Looping h after := by
  cases act with
  | change change => exact looping.change change
  | @deliver before job outcome rest next due calls looks =>
    have delivered : Looping h (before.record (.delivered job.id)) :=
      ((looping.telling due).changes calls).record trivial
    rcases readsOn_cases (h := h) (before.record (.delivered job.id)) job outcome with
      quiet | ⟨own, ⟨first, more, rfl⟩, same⟩
    · exact delivered.quiet quiet
    · have armed := looping.isArmed_delivered due own calls
      rw [same]
      exact ⟨delivered.reading.readingOn, delivered.continuing.readingOn fun _ => armed⟩
  | breakOff next due calls panics => exact (looping.telling due).changes calls

/-- In every run a read stream begins a read after a failure only if it was called upon. -/
theorem Reachable.looping (reached : Reachable mode w) (h : HandleId) : Looping h w :=
  Reachable.acts_induct looping_start (fun _ _ looping act => looping.act act) reached

theorem World.GoesOn.change (goes_on : w.GoesOn h) (change : Change h w after) :
    after.GoesOn h := by
  rcases change.asks with nothing | ⟨v, keeps, -, rfl, -⟩
  · exact goes_on.asksNothing nothing
  · exact goesOn_readingOn v h

theorem World.GoesOn.changes (goes_on : w.GoesOn h) (changes : Changes h w after) :
    after.GoesOn h := by
  induction changes with
  | refl => exact goes_on
  | tail _ last ih => exact ih.change last

/-- The outcome of an operation of the handle arrives, which is not a chunk of the stream. -/
theorem World.GoesOn.arriving (goes_on : w.GoesOn h) (handle : job.handle = h)
    (plain : job.IsChunkOf h → ∀ first more, outcome ≠ .ok (first :: more)) :
    (w.arriving job outcome rest).GoesOn h := by
  by_cases own : job.IsChunkOf h
  · rcases outcome with error | _ | ⟨first, more⟩
    · exact fun _ _ _ _ => .inr (isStalled_arriving own)
    · exact goesOn_end own
    · exact absurd rfl (plain own first more)
  · exact goes_on.asksNothing (asksNothing_arriving handle own)

/-- In a calm run a delivery leaves a stream that goes on.  While a chunk is handed on nothing
    is said of the stream, and then it goes on whatever its listener did. -/
theorem World.GoesOn.act (goes_on : w.GoesOn h) (act : Act .calm h w after) :
    after.GoesOn h := by
  cases act with
  | change change => exact goes_on.change change
  | @deliver before job outcome rest next due calls looks =>
    by_cases chunk : job.IsChunkOf h ∧ ∃ first more, outcome = .ok (first :: more)
    · obtain ⟨⟨rfl, completion⟩, first, more, rfl⟩ := chunk
      have same : (before.record (.delivered job.id)).readsOn job (.ok (first :: more)) =
          (before.record (.delivered job.id)).readingOn job.handle := by
        unfold World.readsOn
        rw [completion]
      rw [same]
      exact goesOn_readingOn _ _
    · have told : (w.telling job outcome rest).GoesOn h := by
        by_cases handle : job.handle = h
        · have arrived : (w.arriving job outcome rest).GoesOn h :=
            goes_on.arriving handle fun own first more is => chunk ⟨own, first, more, is⟩
          obtain ⟨v, quiet, nothing⟩ := asksNothing_telling (h := h) w job outcome rest
          exact (arrived.asksNothing quiet.asksNothing).asksNothing nothing
        · exact goes_on.asksNothing (quietFor_telling_ne handle).asksNothing
      have delivered : (before.record (.delivered job.id)).GoesOn h :=
        (told.changes calls).asksNothing (asksNothing_record trivial)
      rcases readsOn_cases (h := h) (before.record (.delivered job.id)) job outcome with
        quiet | ⟨own, nonempty, -⟩
      · exact delivered.asksNothing quiet.asksNothing
      · exact absurd ⟨own, nonempty⟩ chunk
  | breakOff next due calls panics => exact absurd rfl panics

/-- In a calm run a read stream that is wanted is busy, or it waits after a failure. -/
theorem Reachable.goesOn (reached : Reachable .calm w) (h : HandleId) : w.GoesOn h := by
  refine Reachable.acts_induct (h := h) (P := fun w => w.GoesOn h) ?_ ?_ reached
  · intro workers files s known
    cases known
  · intro w after goes_on act
    exact goes_on.act act

end Continuing

end PinnedFile
