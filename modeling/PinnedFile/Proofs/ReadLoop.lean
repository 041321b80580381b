/-
  PinnedFile.Proofs.ReadLoop

  The read loop neither doubles nor stalls.

  Between two tasks of a calm run a read stream has one read under way or none, and is busy
  if it has one.  It has one whenever somebody listens and nothing holds it back, but for a
  stream whose last read has failed.  That one begins no read until it is called upon.
-/

import PinnedFile.Proofs.Handlers
import PinnedFile.Proofs.Streams.Continuing

namespace PinnedFile

open Books

variable {w : World} {h : HandleId} {s : Handle} {r : Reader}

namespace World

/-- The reads of the read stream of a handle that are on their way: with a worker, or waiting
    for one or for their delivery. -/
def readsUnderway (w : World) (h : HandleId) : List Job :=
  w.books.underway.filter fun a => a.IsChunkOf h

end World

/-- The reads of a stream among some operations can be told by their tickets. -/
theorem countP_bag (jobs : List Job) :
    (bag jobs).countP (fun t => t.handle = h ∧ t.completion.isChunk = true) =
      (jobs.filter fun a => a.IsChunkOf h).length := by
  rw [Multiset.countP_eq_card_filter, bag_filter, bag, Multiset.coe_card, List.length_map]
  congr 2
  funext a
  exact decide_eq_decide.mpr Job.isChunkOf_iff.symm

/-- The reads that were begun are on their way, or they have ended, or they are lost. -/
theorem length_readsBegun {loose : List Job} (accounted : w.books.Accounted loose)
    (h : HandleId) :
    (w.readsBegun h).length = (w.readsUnderway h).length + (w.readsEnded h).length +
      (loose.filter fun a => a.IsChunkOf h).length := by
  have counts := congrArg
    (Multiset.countP fun t : Ticket => t.handle = h ∧ t.completion.isChunk = true)
    accounted.balanced
  rw [Multiset.countP_add, Multiset.countP_add, countP_bag, countP_bag, countP_bag,
    countP_bag] at counts
  exact counts

/-- In a calm run none is lost. -/
theorem Reachable.length_readsBegun (reached : Reachable .calm w) (alive : w.IsAlive)
    (h : HandleId) :
    (w.readsBegun h).length = (w.readsUnderway h).length + (w.readsEnded h).length := by
  obtain ⟨loose, accounted, kept⟩ := reached.sound.accounted
  obtain rfl := kept rfl alive
  exact PinnedFile.length_readsBegun accounted h

/-- Between two tasks of a calm run a read stream is busy exactly when one read of it is on its
    way, and there is never more than one.  If somebody listens, the stream is neither paused
    nor at its end and its handle is open, then one is on its way, unless the last read has
    failed and no call since then had the stream go on.  No read is accepted after a failure
    unless such a call has come between. -/
theorem reads_go_on_one_at_a_time (reached : Reachable .calm w) (alive : w.IsAlive)
    (known : w.handles[h]? = some s) (made : s.reader = some r) (fits : s.ChunksFit) :
    (w.readsUnderway h).length = (if r.busy then 1 else 0) ∧
    (s.closed = false → r.IsWanted → (w.readsUnderway h).length = 1 ∨ w.IsStalled h) ∧
    ∀ newer e older, w.history = newer ++ e :: older → e.event.IsReadOf h →
      ∀ f ∈ older, f.event.IsFailureOf h → AskedSince h (readerCallsIn e.handles h) f := by
  have continuing := (reached.looping h).continuing
  have stream : s.readStream = r := by rw [Handle.readStream, made, Option.getD_some]
  have single : (w.readsUnderway h).length = if r.busy then 1 else 0 := by
    have begun := reached.length_readsBegun alive h
    rw [continuing.balanced fun s' known' => Option.some.inj (known.symm.trans known') ▸ fits,
      World.isReading_of_known known, stream] at begun
    omega
  refine ⟨single, fun opened wanted => ?_, continuing.begun⟩
  rcases reached.goesOn h s known opened (stream ▸ wanted) with busy | stalled
  · rw [stream] at busy
    rw [single, busy]
    exact .inl rfl
  · exact .inr stalled

/-- A run in which the first read of a stream fails, a client pauses and resumes the stream,
    and the read that begins then fails as well. -/
def failingRun : Option World :=
  (World.start 1 ⟨[], []⟩).follow
    [.body 0 [
      .openFile 0 { read := true } .log (.memory (.bytes [1, 2, 3]) none {}),
      .readStream 0,
      .onData 0 ⟨"data", [], [], []⟩],
    .take, .answer 0 (.failed (.bare .other)), .finish 0, .task,
    .body 0 [.pause 0, .resume 0],
    .take, .answer 1 (.failed (.bare .other)), .finish 1, .task]

theorem stream_stalls_after_second_failure : ∃ w s r, failingRun = some w ∧ w.IsAlive ∧
    w.handles[0]? = some s ∧ s.reader = some r ∧ s.ChunksFit ∧ s.closed = false ∧ r.IsWanted ∧
    w.readsUnderway 0 = [] ∧ w.IsStalled 0 ∧
    ∃ newer e older, w.history = newer ++ e :: older ∧ e.event.IsReadOf 0 ∧
      ∃ f ∈ older, f.event.IsFailureOf 0 ∧ AskedSince 0 (readerCallsIn e.handles 0) f := by
  have stands : (failingRun.any fun w => w.handles[0]?.any fun s => s.reader.any fun r =>
      (w.jobs.isOpen && w.tasks.isOpen && !s.closed && !r.busy) &&
      (decide (s.readChunk ≤ Buffer.maxLength) && r.data.isSome && !r.paused && !r.ended) &&
      decide (r.asked = [.resume true, .pause, .listen false]) &&
      w.history.tails.any fun tail => tail.head?.any fun e =>
        decide (e.event.IsReadOf 0) && tail.tail.any fun f => f.event.IsFailureOf 0) = true := by
    decide +kernel
  obtain ⟨w, run, found⟩ := (Option.any_eq_true _ _).mp stands
  obtain ⟨s, known, found⟩ := (Option.any_eq_true _ _).mp found
  obtain ⟨r, made, same⟩ := (Option.any_eq_true _ _).mp found
  simp only [Bool.and_eq_true, Bool.not_eq_true', decide_eq_true_eq] at same
  obtain ⟨⟨⟨⟨⟨⟨jobs, tasks⟩, opened⟩, idle⟩, ⟨⟨room, heard⟩, flowing⟩, goes_on⟩, asked⟩, split⟩ :=
    same
  have stream : s.readStream = r := by rw [Handle.readStream, made, Option.getD_some]
  have alive : w.IsAlive := ⟨jobs, tasks⟩
  have fits : s.ChunksFit := ⟨room, fun size listed => by simp [stream, asked] at listed⟩
  have wanted : r.IsWanted := ⟨heard, flowing, goes_on⟩
  obtain ⟨single, stalls, armed⟩ := reads_go_on_one_at_a_time
    (World.reachable_of_follow run) alive known made fits
  rw [idle] at single
  have stalled : w.IsStalled 0 := (stalls opened wanted).resolve_left fun one => by
    rw [single] at one
    cases one
  obtain ⟨tail, listed, reads⟩ := List.any_eq_true.mp split
  obtain ⟨newer, split⟩ := (List.mem_tails _ _).mp listed
  obtain ⟨e, first, reads⟩ := (Option.any_eq_true _ _).mp reads
  rw [List.eq_cons_of_mem_head? first] at split
  obtain ⟨reads, failed⟩ := Bool.and_eq_true_iff.mp reads
  obtain ⟨f, listed, failed⟩ := List.any_eq_true.mp failed
  have reads := of_decide_eq_true reads
  have failed := of_decide_eq_true failed
  exact ⟨w, s, r, run, alive, known, made, fits, opened, wanted,
    List.eq_nil_of_length_eq_zero single, stalled, newer, e, tail.tail, split.symm, reads, f,
    listed, failed, armed newer e tail.tail split.symm reads f listed failed⟩

end PinnedFile
