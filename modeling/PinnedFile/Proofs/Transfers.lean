/-
  PinnedFile.Proofs.Transfers

  What a transfer comes to, whatever its native calls move at a time.

  A read collects a window of the file, one piece behind the other; a write has its data
  stored piece by piece, each where the last one ended.  Interruptions leave both where they
  are.  Reads come to what they should over a backend with contents that do not change.
-/

import PinnedFile.Proofs.Books.Traces
import PinnedFile.Proofs.Placement

namespace PinnedFile

/-! ## Windows of a file -/

namespace Bytes

variable {b : Bytes} {p m n : Nat}

theorem window_append : b.window p m ++ b.window (p + m) n = b.window p (m + n) := by
  rw [window, window, window, List.take_add, List.drop_drop]

theorem window_eq_nil (beyond : b.length ≤ p) : b.window p n = [] := by
  rw [window, List.drop_eq_nil_of_le beyond, List.take_nil]

end Bytes

/-! ## Reads -/

/-- What a backend answers to a read as long as it holds `contents`: a piece of what is
    there, nothing only where nothing is, or a failure. -/
def Call.ReadsFrom (contents : Bytes) : Call → Answer → Prop
  | .read position length, .moved count bytes =>
    bytes = contents.window position count ∧ bytes.length = count ∧ count ≤ length ∧
      (count = 0 → contents.length ≤ position)
  | _, _ => True

instance (contents : Bytes) : (c : Call) → (a : Answer) → Decidable (c.ReadsFrom contents a)
  | .read _ _, .moved _ _ => inferInstanceAs (Decidable (_ ∧ _))
  | .read _ _, .failed _ | .read _ _, .panicked _ => isTrue trivial
  | .write _ _, _ | .sync, _ | .close, _ => isTrue trivial

namespace Transfer

variable {contents data : Bytes} {p n filled written : Nat} {t u : Transfer} {a : Answer}
  {calls : List Exchange} {r : Option Transfer}

/-- A read that has collected the first `filled` bytes of its window. -/
def reading (contents : Bytes) (p n filled : Nat) : Transfer :=
  .read p n filled (contents.window p filled)

/-- What a read can be on its way: it has collected a part of its window, it has failed, or
    it has found the whole window. -/
inductive ReadingFrom (contents : Bytes) (p n : Nat) : Transfer → Prop where
  | collecting {filled : Nat} (within : filled ≤ n)
      (there : (contents.window p filled).length = filled) :
      ReadingFrom contents p n (reading contents p n filled)
  | failed (e : IoError) : ReadingFrom contents p n (.ended (.error e))
  | found : ReadingFrom contents p n (.ended (.ok (contents.window p n)))

theorem readBytes_of_length {scratch : Bytes} (there : scratch.length = filled)
    (within : filled ≤ n) : readBytes n filled scratch = scratch := by
  rw [readBytes, Nat.min_eq_left within, ← there, Bytes.upTo, List.take_length, Nat.sub_self]
  simp [Bytes.zeros]

/-- A window that ends with the file is the whole window. -/
theorem window_of_end (within : filled ≤ n) (ends : contents.length ≤ p + filled) :
    contents.window p filled = contents.window p n := by
  rw [← Nat.add_sub_cancel' within, ← Bytes.window_append, Bytes.window_eq_nil ends,
    List.append_nil]

/-- A piece that is read is put behind what was collected before. -/
theorem readingFrom_feed (within : filled ≤ n) (there : (contents.window p filled).length = filled)
    (more : filled < n)
    (honest : (Call.read (p + filled) (n - filled)).ReadsFrom contents a)
    (fed : (reading contents p n filled).feed a = some u) : ReadingFrom contents p n u := by
  cases a with
  | panicked message => cases fed
  | failed e =>
    simp only [reading, feed] at fed
    split at fed
    · obtain rfl := Option.some.inj fed
      exact .collecting within there
    · obtain rfl := Option.some.inj fed
      exact .failed e
  | moved count bytes =>
    obtain ⟨rfl, length, fits, ends⟩ := honest
    have placed : (contents.window p filled).place filled (contents.window (p + filled) count) =
        contents.window p (filled + count) := by
      rw [Bytes.place_of_length there, Bytes.window_append]
    simp only [reading, feed, placed, filledBy] at fed
    split at fed
    next zero =>
      -- nothing was there, so the window ends with the file
      obtain rfl := Option.some.inj fed
      rw [zero, Nat.add_zero, readBytes_of_length there within,
        window_of_end within (ends zero)]
      exact .found
    · split at fed
      · cases fed
      · split at fed
        · cases fed
        · obtain rfl := Option.some.inj fed
          refine .collecting (by omega) ?_
          rw [← Bytes.window_append, List.length_append, there, length]

/-- A read collects its window over any number of calls. -/
theorem Made.readingFrom (made : (ofRead p n).Made calls (some u))
    (honest : ∀ e ∈ calls, e.call.ReadsFrom contents e.answer) : ReadingFrom contents p n u := by
  -- from the first call to the latest
  induction calls generalizing u with
  | nil =>
    cases made
    have empty : contents.window p 0 = [] := List.take_zero
    have begun : ReadingFrom contents p n (reading contents p n 0) :=
      .collecting (Nat.zero_le n) (by rw [empty, List.length_nil])
    rwa [reading, empty] at begun
  | cons e older ih =>
    obtain ⟨v, before, makes, fed⟩ := made.cons
    cases ih before fun e listed => honest e (List.mem_cons_of_mem _ listed) with
    | @collecting filled within there =>
      simp only [reading, call?] at makes
      split at makes
      next more =>
        have answered := honest e List.mem_cons_self
        rw [← Option.some.inj makes] at answered
        exact readingFrom_feed within there more answered fed
      · cases makes
    | failed | found => cases makes

/-- What a read comes to is the whole window: as many bytes as it asked for, or all up to the
    end of the file. -/
theorem Made.eq_window {bytes : Bytes} (made : (ofRead p n).Made calls (some u))
    (honest : ∀ e ∈ calls, e.call.ReadsFrom contents e.answer)
    (ended : u.outcome? = some (.ok bytes)) : bytes = contents.window p n := by
  cases made.readingFrom honest with
  | @collecting filled within there =>
    simp only [reading, outcome?] at ended
    split at ended
    · cases ended
    next full =>
      obtain rfl := Nat.le_antisymm within (Nat.le_of_not_lt full)
      rw [readBytes_of_length there (Nat.le_refl _)] at ended
      exact (Except.ok.inj (Option.some.inj ended)).symm
  | failed e => cases ended
  | found => exact (Except.ok.inj (Option.some.inj ended)).symm

/-- A native call was cut short by a signal. -/
def IsInterruption (e : Exchange) : Prop :=
  ∃ error, e.answer = .failed error ∧ error.isInterrupted = true

/-- The last of some calls found nothing, and all before it were cut short; all of them asked
    for the same. -/
def FoundNothing (p n : Nat) (calls : List Exchange) : Prop :=
  ∃ e older bytes, calls = e :: older ∧ e.call = .read p n ∧ e.answer = .moved 0 bytes ∧
    ∀ e' ∈ older, e'.call = .read p n ∧ IsInterruption e'

/-- What a read can be on its way, seen from the question whether it has found nothing. -/
inductive Finding (p n : Nat) (calls : List Exchange) : Transfer → Prop where
  | waiting (interrupted : ∀ e ∈ calls, e.call = .read p n ∧ IsInterruption e) :
      Finding p n calls (ofRead p n)
  | collected {filled : Nat} {scratch : Bytes} (got : 0 < filled) :
      Finding p n calls (.read p n filled scratch)
  | failed (e : IoError) : Finding p n calls (.ended (.error e))
  | found {bytes : Bytes} (got : bytes ≠ []) : Finding p n calls (.ended (.ok bytes))
  | nothing (nothing : FoundNothing p n calls) : Finding p n calls (.ended (.ok []))

theorem readBytes_ne_nil {scratch : Bytes} (got : 0 < filled) (asks : 0 < n) :
    readBytes n filled scratch ≠ [] := by
  have length : (readBytes n filled scratch).length = min filled n := Bytes.length_upTo ..
  intro none
  rw [none, List.length_nil] at length
  omega

/-- A read that has not found anything yet is at its beginning. -/
theorem finding_feed_waiting {e : Exchange}
    (interrupted : ∀ e ∈ calls, e.call = .read p n ∧ IsInterruption e)
    (makes : e.call = .read p n) (fed : (ofRead p n).feed e.answer = some u) :
    Finding p n (e :: calls) u := by
  rcases e with ⟨id, h, call, a⟩
  cases a with
  | panicked message => cases fed
  | failed error =>
    simp only [ofRead, feed] at fed
    split at fed
    next again =>
      obtain rfl := Option.some.inj fed
      refine .waiting fun e' listed => ?_
      rcases List.mem_cons.mp listed with rfl | before
      · exact ⟨makes, error, rfl, again⟩
      · exact interrupted e' before
    · obtain rfl := Option.some.inj fed
      exact .failed error
  | moved count bytes =>
    simp only [ofRead, feed, filledBy] at fed
    split at fed
    next zero =>
      obtain rfl := Option.some.inj fed
      have none : readBytes n 0 (Bytes.place [] 0 bytes) = [] := by
        rw [← List.length_eq_zero_iff, readBytes, Bytes.length_upTo, Nat.zero_min]
      rw [none]
      exact .nothing ⟨_, calls, bytes, rfl, makes, by rw [zero], interrupted⟩
    next more =>
      split at fed
      · cases fed
      · split at fed
        · cases fed
        · obtain rfl := Option.some.inj fed
          exact .collected (by omega)

/-- A read that has found something does not come to nothing any more. -/
theorem finding_feed_collected {scratch : Bytes} (got : 0 < filled) (asks : 0 < n)
    (fed : (read p n filled scratch).feed a = some u) : Finding p n calls u := by
  cases a with
  | panicked message => cases fed
  | failed error =>
    simp only [feed] at fed
    split at fed
    · obtain rfl := Option.some.inj fed
      exact .collected got
    · obtain rfl := Option.some.inj fed
      exact .failed error
  | moved count bytes =>
    simp only [feed, filledBy] at fed
    split at fed
    · obtain rfl := Option.some.inj fed
      exact .found (readBytes_ne_nil got asks)
    · split at fed
      · cases fed
      · split at fed
        · cases fed
        · obtain rfl := Option.some.inj fed
          exact .collected (by omega)

theorem Made.finding (made : (ofRead p n).Made calls (some u)) (asks : 0 < n) :
    Finding p n calls u := by
  induction calls generalizing u with
  | nil =>
    cases made
    exact .waiting fun e listed => absurd listed List.not_mem_nil
  | cons e older ih =>
    obtain ⟨v, before, makes, fed⟩ := made.cons
    cases ih before with
    | waiting interrupted =>
      simp only [ofRead, call?, if_pos asks, Nat.add_zero, Nat.sub_zero] at makes
      exact finding_feed_waiting interrupted (Option.some.inj makes).symm fed
    | collected got => exact finding_feed_collected got asks fed
    | failed | found | nothing => cases makes

/-- A read that comes to nothing has called for all that it asked for, and its first call that
    was not cut short found nothing. -/
theorem Made.foundNothing (made : (ofRead p n).Made calls (some u)) (asks : 0 < n)
    (ended : u.outcome? = some (.ok [])) : FoundNothing p n calls := by
  cases made.finding asks with
  | waiting =>
    simp only [ofRead, outcome?, if_pos asks] at ended
    cases ended
  | @collected filled scratch got =>
    simp only [outcome?] at ended
    split at ended
    · cases ended
    · exact absurd (Except.ok.inj (Option.some.inj ended)) (readBytes_ne_nil got asks)
  | failed => cases ended
  | found got => exact absurd (Except.ok.inj (Option.some.inj ended)) got
  | nothing nothing => exact nothing

/-! ## Writes -/

/-- A byte of the data of a write is among those that a call has stored. -/
def Stored (data : Bytes) (p : Nat) (calls : List Exchange) (i : Nat) : Prop :=
  ∃ e ∈ calls, ∃ k count bytes, e.call = .write (data.drop k) (p + k) ∧
    e.answer = .moved count bytes ∧ k ≤ i ∧ i < k + count

/-- What a write can be on its way: some of its data is stored, or it has failed. -/
inductive Writing (data : Bytes) (p : Nat) (calls : List Exchange) : Transfer → Prop where
  | storing {written : Nat} (stored : ∀ i < written, Stored data p calls i) :
      Writing data p calls (.write data p written)
  | failed (e : IoError) : Writing data p calls (.ended (.error e))

theorem Stored.cons {e : Exchange} {i : Nat} (stored : Stored data p calls i) :
    Stored data p (e :: calls) i := by
  obtain ⟨e', listed, k, count, bytes, call, answer, within⟩ := stored
  exact ⟨e', List.mem_cons_of_mem _ listed, k, count, bytes, call, answer, within⟩

/-- A piece that is stored is the one behind those stored before. -/
theorem writing_feed {e : Exchange} (stored : ∀ i < written, Stored data p calls i)
    (makes : e.call = .write (data.drop written) (p + written))
    (fed : (write data p written).feed e.answer = some u) : Writing data p (e :: calls) u := by
  rcases e with ⟨id, h, call, a⟩
  cases a with
  | panicked message => cases fed
  | failed error =>
    simp only [feed] at fed
    split at fed
    · obtain rfl := Option.some.inj fed
      exact .storing fun i less => (stored i less).cons
    · obtain rfl := Option.some.inj fed
      exact .failed error
  | moved count bytes =>
    simp only [feed, wrote] at fed
    split at fed
    · obtain rfl := Option.some.inj fed
      exact .failed _
    · split at fed
      · obtain rfl := Option.some.inj fed
        refine .storing fun i less => ?_
        rcases Nat.lt_or_ge i written with before | now
        · exact (stored i before).cons
        · exact ⟨_, List.mem_cons_self, written, count, bytes, makes, rfl, now, less⟩
      · cases fed

/-- A write has its data stored over any number of calls. -/
theorem Made.writing (made : (ofWrite data p).Made calls (some u)) : Writing data p calls u := by
  induction calls generalizing u with
  | nil =>
    cases made
    exact .storing fun i less => absurd less (Nat.not_lt_zero i)
  | cons e older ih =>
    obtain ⟨v, before, makes, fed⟩ := made.cons
    cases ih before with
    | @storing written stored =>
      simp only [call?] at makes
      split at makes
      · exact writing_feed stored (Option.some.inj makes).symm fed
      · cases makes
    | failed => cases makes

/-- Each call of a write is for what is left of its data, at the place where that goes. -/
theorem Made.call_of_write {e : Exchange} (made : (ofWrite data p).Made calls r)
    (listed : e ∈ calls) : ∃ k < data.length, e.call = .write (data.drop k) (p + k) := by
  induction calls generalizing r with
  | nil => cases listed
  | cons latest older ih =>
    obtain ⟨v, before, makes, -⟩ := made.cons
    rcases List.mem_cons.mp listed with rfl | old
    · cases before.writing with
      | @storing written stored =>
        simp only [call?] at makes
        split at makes
        next more => exact ⟨written, more, (Option.some.inj makes).symm⟩
        · cases makes
      | failed => cases makes
    · exact ih before old

/-- What is a write after an answer was one before. -/
theorem feed_eq_write (fed : t.feed a = some (.write data p n)) :
    ∃ written, t = .write data p written := by
  cases a with
  | panicked message => cases fed
  | failed error =>
    cases t with
    | write =>
      simp only [feed] at fed
      split at fed
      · cases fed
        exact ⟨_, rfl⟩
      · cases fed
    | read =>
      simp only [feed] at fed
      split at fed <;> cases fed
    | sync | close | ended => cases fed
  | moved count bytes =>
    cases t with
    | write =>
      simp only [feed, wrote] at fed
      split at fed
      · cases fed
      · split at fed
        · cases fed
          exact ⟨_, rfl⟩
        · cases fed
    | read =>
      simp only [feed, filledBy] at fed
      repeat' split at fed
      all_goals cases fed
    | sync | close | ended => cases fed

theorem Made.eq_write (made : t.Made calls (some (.write data p n))) :
    ∃ written, t = .write data p written := by
  induction calls generalizing n with
  | nil =>
    cases made
    exact ⟨n, rfl⟩
  | cons e older ih =>
    obtain ⟨v, before, -, fed⟩ := made.cons
    obtain ⟨written, rfl⟩ := feed_eq_write fed
    exact ih before

/-- Only a write makes native writes. -/
theorem Made.write_of_call {e : Exchange} {bytes : Bytes} {q : Nat} (made : t.Made calls r)
    (listed : e ∈ calls) (writes : e.call = .write bytes q) :
    ∃ data p written, t = .write data p written := by
  induction calls generalizing r with
  | nil => cases listed
  | cons latest older ih =>
    obtain ⟨v, before, makes, -⟩ := made.cons
    rcases List.mem_cons.mp listed with rfl | old
    · rw [writes] at makes
      cases v with
      | write data p written => exact ⟨data, p, before.eq_write⟩
      | read =>
        simp only [call?] at makes
        split at makes <;> cases makes
      | sync | close | ended => cases makes
    · exact ih before old

/-- Of a write that has succeeded every byte is stored. -/
theorem Made.stored {bytes : Bytes} (made : (ofWrite data p).Made calls (some u))
    (ended : u.outcome? = some (.ok bytes)) {i : Nat} (within : i < data.length) :
    Stored data p calls i := by
  cases made.writing with
  | @storing written stored =>
    simp only [outcome?] at ended
    split at ended
    · cases ended
    next full => exact stored i (Nat.lt_of_lt_of_le within (Nat.le_of_not_lt full))
  | failed => cases ended

end Transfer

end PinnedFile
