/-
  PinnedFile.Proofs.Counters

  What the two counters of a handle and its waiting close stand for.

  Between two tasks of any run the counters stand at what was accepted on the handle and is
  not delivered: one at the bytes of the writes, the other at the number of reads and
  flushes.  So no delivery takes more from them than there is.  In a calm run a close waits
  on a handle exactly as long as the handle is closed and one of the counters is not zero.
-/

import PinnedFile.Proofs.Books.Sound

namespace PinnedFile

/-- The number of bytes that an operation is to write. -/
def Job.bytes (a : Job) : Nat :=
  match a.transfer with
  | .write data _ _ => data.length
  | _ => 0

/-- Whether an operation is a read or a flush. -/
def Job.readsOrFlushes (a : Job) : Bool :=
  a.completion.operation = .read || a.completion.operation = .flush

namespace Completion

variable {c : Completion} {t : Transfer}

theorem Fits.bytes {a : Job} (fits : a.completion.Fits a.transfer) :
    a.completion.outstanding = a.bytes := by
  rcases a with ⟨id, h, t, c⟩
  cases c with
  | write n handler | send n =>
    obtain ⟨data, position, rfl, length⟩ := fits
    exact length.symm
  | read | chunk =>
    obtain ⟨position, length, rfl⟩ := fits
    rfl
  | flush | close =>
    obtain rfl : t = _ := fits
    rfl

/-- Each read and each flush counts for one. -/
theorem sum_inFlight {jobs : List Job} :
    (jobs.map fun a => a.completion.inFlight).sum = jobs.countP Job.readsOrFlushes := by
  induction jobs with
  | nil => rfl
  | cons a rest ih =>
    have first : a.completion.inFlight = if a.readsOrFlushes then 1 else 0 := by
      rcases a with ⟨id, h, t, c⟩
      cases c <;> rfl
    rw [List.map_cons, List.sum_cons, List.countP_cons, ih, first, Nat.add_comm]

end Completion

namespace World

/-- The operations that were accepted on a handle and are not delivered, the latest first. -/
def undelivered (w : World) (h : HandleId) : List Job := w.books.undelivered h

end World

variable {mode : Mode} {w : World}

/-- Between two tasks of a run the counters of a handle stand at what was accepted on it and
    is not delivered, and if the run is calm, a close waits exactly on a closed handle one of
    whose counters is not zero.  The next delivery takes from each counter no more than it
    stands at, calm or not. -/
theorem counters_stand_at_undelivered (reached : Reachable mode w) :
    (∀ h s, w.handles[h]? = some s →
      s.outstanding = ((w.undelivered h).map Job.bytes).sum ∧
      s.inFlight = (w.undelivered h).countP Job.readsOrFlushes ∧
      (mode = .calm → (s.pendingClose.isSome = true ↔
        s.closed = true ∧ (s.outstanding ≠ 0 ∨ s.inFlight ≠ 0)))) ∧
    ∀ job outcome rest, w.tasks.pop = some (.deliver job outcome, rest) →
      ∃ s, w.handles[job.handle]? = some s ∧
        (s.releasing job.completion).outstanding + job.completion.outstanding = s.outstanding ∧
        (s.releasing job.completion).inFlight + job.completion.inFlight = s.inFlight := by
  have sound := reached.sound
  obtain ⟨loose, accounted, -⟩ := sound.accounted
  constructor
  · intro h s known
    have knownCore := World.books_handles known
    have bytes := (sound.counted .bytes).of_eq_undelivered accounted knownCore
    have operations := (sound.counted .operations).of_eq_undelivered accounted knownCore
    refine ⟨bytes.trans ?_, operations.trans ?_, fun calm => ⟨fun waits => ?_, fun busy => ?_⟩⟩
    · congr 1
      apply List.map_congr_left
      intro a listed
      exact (sound.traced.fits a (List.mem_of_mem_filter listed)).bytes
    · exact Completion.sum_inFlight
    · have closed : s.closed = true := by
        by_contra opened
        have none := (sound.coherent _ (List.mem_of_getElem? knownCore)).opened
          (eq_false_of_ne_true opened)
        rw [show s.core.pendingClose = s.pendingClose from rfl] at none
        rw [none] at waits
        cases waits
      have busy : s.core.isQuiet = false := sound.prompt calm h s.core knownCore
        (fun none => by cases none) waits
      exact ⟨closed, Handle.isQuiet_eq_false_iff.mp busy⟩
    · exact (sound.coherent _ (List.mem_of_getElem? knownCore)).busy busy.1
        (Handle.isQuiet_eq_false_iff.mpr busy.2)
  · intro job outcome rest next
    have posted : .deliver job outcome ∈ w.books.tasks.items := Queue.mem_of_pop next
    obtain ⟨s, known⟩ := sound.known_of_deliver posted
    have there : job ∈ w.books.underway := Books.underway_of_posted posted
    have bytes := (sound.counted .bytes).load_le accounted known there
    have operations := (sound.counted .operations).load_le accounted known there
    obtain ⟨s', known', rfl⟩ := World.handles_of_books known
    exact ⟨s', known', Nat.sub_add_cancel bytes, Nat.sub_add_cancel operations⟩

/-- A run that comes to a handle on which a write of three bytes is half done, a read and a
    flush have not begun, and a close waits. -/
def busyRun : Option World :=
  (World.start 2 ⟨[], []⟩).follow
    [.body 0 [
      .openFile 0 { read := true, write := true } .log (.memory (.bytes [1, 2, 3]) none {}),
      .write 0 (.bytes [7, 8, 9]) 0 ⟨"written", [], []⟩,
      .read 0 (.bytes []) 0 0 2 ⟨"read", [], []⟩,
      .flush 0 none,
      .close 0 none],
    .take, .answer 0 (.moved 1 [])]

theorem counters_of_busy_handle : ∃ w s, busyRun = some w ∧ w.handles[0]? = some s ∧
    (s.outstanding = 3 ∧ ((w.undelivered 0).map Job.bytes).sum = 3) ∧
    (s.inFlight = 2 ∧ (w.undelivered 0).countP Job.readsOrFlushes = 2) ∧
    s.closed = true ∧ s.pendingClose.isSome = true := by
  have stands : (busyRun.bind fun w => w.handles[0]?.map fun s =>
      (s.outstanding, s.inFlight, s.closed)) = some (3, 2, true) := by decide +kernel
  obtain ⟨w, run, known⟩ := Option.bind_eq_some_iff.mp stands
  obtain ⟨s, known, counts⟩ := Option.map_eq_some_iff.mp known
  obtain ⟨bytes, operations, closed⟩ : s.outstanding = 3 ∧ s.inFlight = 2 ∧ s.closed = true := by
    simpa using counts
  have reached : Reachable .calm w := World.reachable_of_follow run
  obtain ⟨sum, count, waits⟩ := (counters_stand_at_undelivered reached).1 0 s known
  refine ⟨w, s, run, known, ⟨bytes, ?_⟩, ⟨operations, ?_⟩, closed, ?_⟩
  · rw [← sum, bytes]
  · rw [← count, operations]
  · rw [waits rfl, bytes]
    exact ⟨closed, .inl (by decide)⟩

end PinnedFile
