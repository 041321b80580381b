/-
  PinnedFile.Proofs.Pieces

  How a transfer adds up its pieces.

  A native call may move less than it is asked to, and it may be cut short by a signal.  A
  transfer counts what is reported and asks for what is left, at the place where it is left; it
  stops at the first call that moves nothing or fails.  So every call that is not cut short moves
  something or is the last one, and there are no more of them than there are bytes to move.
-/

import PinnedFile.Proofs.Transfers

namespace PinnedFile

/-! ## Storing -/

namespace Bytes

variable {b data more : Bytes} {p i : Nat}

/-- `b` with `data` stored at `offset`.  If there is nothing to store, nothing changes: a gap is
    filled only where something comes behind it. -/
def store (b : Bytes) (offset : Nat) (data : Bytes) : Bytes :=
  if data = [] then b else b.place offset data

@[simp] theorem store_nil : b.store p [] = b := if_pos rfl

theorem store_of_ne_nil (some : data ≠ []) : b.store p data = b.place p data := if_neg some

theorem store_store :
    (b.store p data).store (p + data.length) more = b.store p (data ++ more) := by
  by_cases second : more = []
  · rw [second, store_nil, List.append_nil]
  · by_cases first : data = []
    · rw [first, store_nil, List.length_nil, Nat.add_zero, List.nil_append]
    · rw [store_of_ne_nil second, store_of_ne_nil first,
        store_of_ne_nil (List.append_ne_nil_of_left_ne_nil first more), place_place]

/-- What is stored is found where it was stored. -/
theorem window_store : (b.store p data).window p data.length = data := by
  by_cases none : data = []
  · rw [none, store_nil]
    exact List.take_zero
  · apply List.ext_getElem?
    intro i
    rw [getElem?_window, store_of_ne_nil none, getElem?_place]
    split
    next within => rw [if_pos (by omega), Nat.add_sub_cancel_left]
    next beyond => exact (List.getElem?_eq_none (Nat.le_of_not_lt beyond)).symm

/-- All that lies before or behind what is stored stays as it is. -/
theorem getElem?_store_of_not (aside : (i < p ∧ i < b.length) ∨ p + data.length ≤ i) :
    (b.store p data)[i]? = b[i]? := by
  by_cases none : data = []
  · rw [none, store_nil]
  · rw [store_of_ne_nil none, getElem?_place, if_neg (by omega)]
    split
    · rfl
    next beyond => rw [if_neg (by omega), List.getElem?_eq_none (Nat.le_of_not_lt beyond)]

end Bytes

/-! ## Answers -/

namespace Answer

/-- The number of bytes that are reported moved. -/
def count : Answer → Nat
  | .moved count _ => count
  | .failed _ | .panicked _ => 0

/-- Whether a transfer goes on after an answer: something was moved, or the call was cut short
    and is made again. -/
def goesOn : Answer → Bool
  | .moved count _ => 0 < count
  | .failed error => error.isInterrupted
  | .panicked _ => false

/-- Whether the call has returned. -/
def returns : Answer → Bool
  | .moved .. | .failed _ => true
  | .panicked _ => false

/-- The failure that an answer is, if the call was not cut short. -/
def failure? : Answer → Option IoError
  | .failed error => if error.isInterrupted then none else some error
  | .moved .. | .panicked _ => none

/-- The failure with which a write stops at an answer: to move nothing is one. -/
def stopsWrite? : Answer → Option IoError
  | .moved 0 _ => some .wroteNothing
  | answer => answer.failure?

variable {a : Answer} {error : IoError}

theorem count_of_not_goesOn (stops : a.goesOn = false) : a.count = 0 := by
  cases a with
  | moved count bytes => exact Nat.eq_zero_of_not_pos (of_decide_eq_false stops)
  | failed | panicked => rfl

theorem not_goesOn_of_failure? (failed : a.failure? = some error) : a.goesOn = false := by
  cases a with
  | moved | panicked => cases failed
  | failed e =>
    simp only [failure?] at failed
    split at failed
    · cases failed
    next lasting => exact Bool.eq_false_iff.mpr lasting

theorem not_goesOn_of_stopsWrite? (stops : a.stopsWrite? = some error) : a.goesOn = false := by
  unfold stopsWrite? at stops
  split at stops
  · rfl
  · exact not_goesOn_of_failure? stops

end Answer

instance : DecidablePred Transfer.IsInterruption := fun e =>
  match same : e.answer with
  | .failed error =>
    if again : error.isInterrupted = true then isTrue ⟨error, same, again⟩
    else isFalse fun ⟨_, same', again'⟩ => by
      rw [same] at same'
      exact again (Answer.failed.inj same' ▸ again')
  | .moved .. | .panicked _ => isFalse fun ⟨_, same', _⟩ => by
      rw [same] at same'
      cases same'

/-- The number of bytes that some calls report moved. -/
def moved (calls : List Exchange) : Nat := (calls.map (·.answer.count)).sum

/-- The calls that were not cut short. -/
def uninterrupted (calls : List Exchange) : List Exchange :=
  calls.filter fun e => ¬ Transfer.IsInterruption e

section Calls

variable {calls newer older : List Exchange} {e : Exchange}

@[simp] theorem moved_nil : moved [] = 0 := rfl

@[simp] theorem moved_cons : moved (e :: older) = e.answer.count + moved older := rfl

@[simp] theorem moved_append : moved (newer ++ older) = moved newer + moved older := by
  simp [moved]

theorem count_of_isInterruption (interrupted : Transfer.IsInterruption e) :
    e.answer.count = 0 := by
  obtain ⟨error, same, -⟩ := interrupted
  rw [same]
  rfl

/-- As long as a transfer goes on, each call that is not cut short moves something. -/
theorem length_uninterrupted_le_moved (go : ∀ e ∈ calls, e.answer.goesOn = true) :
    (uninterrupted calls).length ≤ moved calls := by
  induction calls with
  | nil => exact Nat.le_refl 0
  | cons e older ih =>
    have before := ih fun e' listed => go e' (List.mem_cons_of_mem _ listed)
    by_cases interrupted : Transfer.IsInterruption e
    · have skipped : uninterrupted (e :: older) = uninterrupted older := by
        simp [uninterrupted, interrupted]
      rw [skipped, moved_cons]
      omega
    · have counted : uninterrupted (e :: older) = e :: uninterrupted older := by
        simp [uninterrupted, interrupted]
      have some : 0 < e.answer.count := by
        have goes_on := go e List.mem_cons_self
        rcases same : e.answer with ⟨count, bytes⟩ | error | message
        · rw [same] at goes_on
          exact of_decide_eq_true goes_on
        · rw [same] at goes_on
          exact absurd ⟨error, same, goes_on⟩ interrupted
        · rw [same] at goes_on
          cases goes_on
      rw [counted, moved_cons, List.length_cons]
      omega

theorem length_uninterrupted_cons_le :
    (uninterrupted (e :: older)).length ≤ (uninterrupted older).length + 1 := by
  by_cases interrupted : Transfer.IsInterruption e <;> simp [uninterrupted, interrupted]

end Calls

/-! ## Backends -/

/-- A backend stores a piece of what a native write brings it, maybe nothing, or it fails and
    stores nothing. -/
def Call.StoresUpTo : Call → Answer → Prop
  | .write data _, .moved count _ => count ≤ data.length
  | _, .panicked _ => False
  | _, _ => True

instance : (c : Call) → (a : Answer) → Decidable (c.StoresUpTo a)
  | .write _ _, .moved _ _ => inferInstanceAs (Decidable (_ ≤ _))
  | .write _ _, .failed _ => isTrue trivial
  | .read _ _, .moved _ _ | .read _ _, .failed _ => isTrue trivial
  | .sync, .moved _ _ | .sync, .failed _ => isTrue trivial
  | .close, .moved _ _ | .close, .failed _ => isTrue trivial
  | .write _ _, .panicked _ | .read _ _, .panicked _ | .sync, .panicked _
  | .close, .panicked _ => isFalse id

/-- What a backend holds after a native call, if it held `contents` before. -/
def Exchange.leaves (e : Exchange) (contents : Bytes) : Bytes :=
  match e.call with
  | .write data q => contents.store q (data.take e.answer.count)
  | _ => contents

/-- What a backend that began with `initial` holds after some native calls, the latest first. -/
def held (initial : Bytes) : List Exchange → Bytes
  | [] => initial
  | e :: older => e.leaves (held initial older)

namespace Transfer

variable {t u : Transfer} {calls newer older : List Exchange} {e : Exchange}
  {r : Option Transfer} {data contents initial : Bytes} {p n k : Nat} {a : Answer}

/-- One more call is made, and this is what becomes of the transfer. -/
theorem Made.step (made : t.Made older (some u)) (makes : u.call? = some e.call)
    (fed : u.feed e.answer = r) : t.Made (e :: older) r := fed ▸ .call made makes

/-- Each call of a transfer was the next one to make after those before it. -/
theorem Made.suffix (made : t.Made (newer ++ e :: older) r) :
    ∃ v, t.Made older (some v) ∧ v.call? = some e.call ∧
      t.Made (e :: older) (v.feed e.answer) := by
  induction newer generalizing r with
  | nil =>
    obtain ⟨v, before, makes, -⟩ := made.cons
    exact ⟨v, before, makes, .call before makes⟩
  | cons e' rest ih =>
    obtain ⟨v, before, -, -⟩ := made.cons
    exact ih before

/-! ## Writes -/

/-- What a write has become after some calls: it goes on with what is not acknowledged, or its
    latest call has stopped it. -/
inductive Pumped (data : Bytes) (p : Nat) : List Exchange → Transfer → Prop where
  | going {calls : List Exchange} (go : ∀ e ∈ calls, e.answer.goesOn = true)
      (within : moved calls ≤ data.length) : Pumped data p calls (.write data p (moved calls))
  | stopped {e : Exchange} {older : List Exchange} {error : IoError}
      (go : ∀ e' ∈ older, e'.answer.goesOn = true) (left : moved older < data.length)
      (stops : e.answer.stopsWrite? = some error) :
      Pumped data p (e :: older) (.ended (.error error))

/-- An answer of a backend takes a write on, or stops it; it never breaks it off. -/
theorem feed_write (room : p + data.length < wordLimit) (left : k < data.length)
    (honest : (Call.write (data.drop k) (p + k)).StoresUpTo a) :
    (a.goesOn = true ∧ k + a.count ≤ data.length ∧
      (write data p k).feed a = some (.write data p (k + a.count))) ∨
    ∃ error, a.stopsWrite? = some error ∧
      (write data p k).feed a = some (.ended (.error error)) := by
  cases a with
  | panicked message => exact absurd honest id
  | failed error =>
    rcases again : error.isInterrupted with _ | _
    · right
      refine ⟨error, ?_, ?_⟩
      · simp [Answer.stopsWrite?, Answer.failure?, again]
      · simp [feed, again]
    · left
      refine ⟨again, Nat.le_of_lt left, ?_⟩
      simp [feed, again, Answer.count]
  | moved count bytes =>
    rcases count with _ | count
    · exact .inr ⟨.wroteNothing, rfl, rfl⟩
    · have fits : count + 1 ≤ (data.drop k).length := honest
      rw [List.length_drop] at fits
      left
      refine ⟨rfl, by simp only [Answer.count]; omega, ?_⟩
      simp only [feed, wrote, Answer.count]
      rw [if_neg (Nat.succ_ne_zero count), if_pos (by omega)]

theorem Made.pumped (room : p + data.length < wordLimit) (made : (ofWrite data p).Made calls r)
    (honest : ∀ e ∈ calls, e.call.StoresUpTo e.answer) :
    ∃ u, r = some u ∧ Pumped data p calls u := by
  -- from the first call to the latest
  induction calls generalizing r with
  | nil =>
    cases made
    exact ⟨_, rfl, .going (fun _ listed => absurd listed List.not_mem_nil) (Nat.zero_le _)⟩
  | cons e older ih =>
    obtain ⟨v, before, makes, fed⟩ := made.cons
    obtain ⟨_, same, pumped⟩ := ih before fun e' listed => honest e' (List.mem_cons_of_mem _ listed)
    obtain rfl := Option.some.inj same
    cases pumped with
    | stopped => cases makes
    | going go within =>
      simp only [call?] at makes
      split at makes
      next left =>
        have answered := honest e List.mem_cons_self
        rw [← Option.some.inj makes] at answered
        rcases feed_write room left answered with ⟨goes_on, fits, next⟩ | ⟨error, stops, next⟩
        · refine ⟨_, fed.symm.trans next, ?_⟩
          rw [Nat.add_comm, ← moved_cons] at fits ⊢
          refine .going (fun e' listed => ?_) fits
          rcases List.mem_cons.mp listed with rfl | old
          · exact goes_on
          · exact go e' old
        · exact ⟨_, fed.symm.trans next, .stopped go left stops⟩
      · cases makes

namespace Pumped

variable {error : IoError}

theorem goesOn_of_older (pumped : Pumped data p (e :: older) u) :
    ∀ e' ∈ older, e'.answer.goesOn = true := by
  cases pumped with
  | going go within => exact fun e' listed => go e' (List.mem_cons_of_mem _ listed)
  | stopped go left stops => exact go

theorem moved_le (pumped : Pumped data p calls u) : moved calls ≤ data.length := by
  cases pumped with
  | going go within => exact within
  | stopped go left stops =>
    rw [moved_cons, Answer.count_of_not_goesOn (Answer.not_goesOn_of_stopsWrite? stops)]
    omega

/-- A write that has not come to its end calls for all that is not acknowledged. -/
theorem call?_eq (pumped : Pumped data p calls u) (unfinished : u.outcome? = none) :
    u.call? = some (.write (data.drop (moved calls)) (p + moved calls)) := by
  cases pumped with
  | stopped => cases unfinished
  | going go within =>
    simp only [outcome?] at unfinished
    split at unfinished
    next left => exact if_pos left
    · cases unfinished

/-- A write succeeds as soon as all is acknowledged, and not before. -/
theorem succeeds_iff (pumped : Pumped data p calls u) :
    (∃ bytes, u.outcome? = some (.ok bytes)) ↔ moved calls = data.length := by
  cases pumped with
  | going go within =>
    rcases Nat.lt_or_eq_of_le within with less | all
    · simp [outcome?, less, Nat.ne_of_lt less]
    · simp [outcome?, all]
  | stopped go left stops =>
    have none := Answer.count_of_not_goesOn (Answer.not_goesOn_of_stopsWrite? stops)
    simp only [outcome?, moved_cons, none, Nat.zero_add, Nat.ne_of_lt left, iff_false]
    rintro ⟨bytes, same⟩
    cases same

/-- A write fails with what has stopped it, and with nothing else. -/
theorem fails_iff (pumped : Pumped data p calls u) :
    u.outcome? = some (.error error) ↔
      ∃ e older, calls = e :: older ∧ e.answer.stopsWrite? = some error := by
  cases pumped with
  | going go within =>
    constructor
    · intro failed
      simp only [outcome?] at failed
      split at failed <;> cases failed
    · rintro ⟨e, older, rfl, stops⟩
      have goes_on := go e List.mem_cons_self
      rw [Answer.not_goesOn_of_stopsWrite? stops] at goes_on
      cases goes_on
  | @stopped e older reason go left stops =>
    constructor
    · intro failed
      obtain rfl : reason = error := by simpa [outcome?] using failed
      exact ⟨e, older, rfl, stops⟩
    · rintro ⟨_, _, same, stops'⟩
      obtain ⟨rfl, rfl⟩ := List.cons.inj same
      obtain rfl := Option.some.inj (stops.symm.trans stops')
      rfl

theorem length_uninterrupted_le (pumped : Pumped data p calls u) :
    (uninterrupted calls).length ≤ data.length := by
  cases pumped with
  | going go within => exact Nat.le_trans (length_uninterrupted_le_moved go) within
  | stopped go left stops =>
    have before := length_uninterrupted_le_moved go
    refine Nat.le_trans length_uninterrupted_cons_le ?_
    omega

end Pumped

/-- A call of a write brings all that was not acknowledged before it, at the place where that
    goes; and it is the last if it moves nothing or fails. -/
theorem Made.call_of_pumped (room : p + data.length < wordLimit)
    (made : (ofWrite data p).Made calls r) (honest : ∀ e ∈ calls, e.call.StoresUpTo e.answer)
    (split : calls = newer ++ e :: older) :
    e.call = .write (data.drop (moved older)) (p + moved older) ∧
      (e.answer.goesOn = false → newer = []) := by
  subst split
  obtain ⟨v, before, makes, -⟩ := made.suffix
  obtain ⟨_, same, pumped⟩ := before.pumped room fun e' listed =>
    honest e' (List.mem_append_right _ (List.mem_cons_of_mem _ listed))
  obtain rfl := Option.some.inj same
  constructor
  · cases pumped with
    | stopped => cases makes
    | going go within =>
      simp only [call?] at makes
      split at makes
      · exact (Option.some.inj makes).symm
      · cases makes
  · intro stops
    rcases newer with _ | ⟨latest, rest⟩
    · rfl
    · -- all calls but the latest let the write go on
      obtain ⟨u, -, pumped⟩ := made.pumped room honest
      have goes_on := pumped.goesOn_of_older e (List.mem_append_right rest List.mem_cons_self)
      rw [stops] at goes_on
      cases goes_on

/-- What is acknowledged is stored, in one piece, and nothing else is. -/
theorem Made.held_eq (room : p + data.length < wordLimit) (made : (ofWrite data p).Made calls r)
    (honest : ∀ e ∈ calls, e.call.StoresUpTo e.answer) :
    held initial calls = initial.store p (data.take (moved calls)) := by
  induction calls generalizing r with
  | nil => rw [moved_nil, List.take_zero, Bytes.store_nil, held]
  | cons e older ih =>
    obtain ⟨v, before, -, -⟩ := made.cons
    have earlier (e' : Exchange) (listed : e' ∈ older) : e'.call.StoresUpTo e'.answer :=
      honest e' (List.mem_cons_of_mem _ listed)
    obtain ⟨call, -⟩ := made.call_of_pumped room honest (List.nil_append (e :: older)).symm
    obtain ⟨_, -, pumped⟩ := before.pumped room earlier
    -- the piece is put right behind those before it
    have length : (data.take (moved older)).length = moved older := by
      rw [List.length_take, Nat.min_eq_left pumped.moved_le]
    have place : p + moved older = p + (data.take (moved older)).length := by rw [length]
    simp only [held, Exchange.leaves, call]
    rw [ih before earlier, place, Bytes.store_store, ← List.take_add, moved_cons,
      Nat.add_comm e.answer.count]

/-- A write that goes on for ever is cut short again and again. -/
theorem exists_isInterruption_of_endless (room : p + data.length < wordLimit)
    {call : Nat → Exchange}
    (endless : ∀ m, ∃ r, (ofWrite data p).Made ((List.range m).map call).reverse r)
    (honest : ∀ m, (call m).call.StoresUpTo (call m).answer) (m : Nat) :
    ∃ later ≥ m, IsInterruption (call later) := by
  by_contra none
  have lasting (i : Nat) (late : m ≤ i) : ¬ IsInterruption (call i) := fun interrupted =>
    none ⟨i, late, interrupted⟩
  -- the calls from the `m`th on are too many
  have enough (more : Nat) :
      more ≤ (uninterrupted ((List.range (m + more)).map call).reverse).length := by
    induction more with
    | zero => exact Nat.zero_le _
    | succ more ih =>
      rw [← Nat.add_assoc, List.range_succ, List.map_append, List.reverse_append]
      have counted : uninterrupted ([call (m + more)].reverse ++
          ((List.range (m + more)).map call).reverse) =
          call (m + more) :: uninterrupted ((List.range (m + more)).map call).reverse := by
        simp [uninterrupted, lasting (m + more) (Nat.le_add_right m more)]
      rw [List.map_singleton, counted, List.length_cons]
      omega
  obtain ⟨r, made⟩ := endless (m + (data.length + 1))
  obtain ⟨u, -, pumped⟩ := made.pumped room fun e listed => by
    obtain ⟨i, -, rfl⟩ := List.mem_map.mp (List.mem_reverse.mp listed)
    exact honest i
  have few := pumped.length_uninterrupted_le
  have many := enough (data.length + 1)
  omega

/-- A write of `data` at `p`, whatever pieces of it the backend stores at a time.  Each call
    brings exactly what is not acknowledged, at the place where that goes.  The write succeeds
    exactly when all is acknowledged; it stops at the first call that moves nothing or fails
    without having been cut short, and fails with that.  At all times the backend holds what is
    acknowledged, and is otherwise as it was.  Calls that are not cut short are no more than
    there are bytes, so the write comes to an end unless it is cut short again and again. -/
theorem write_is_carried_through (room : p + data.length < wordLimit) :
    (∀ calls r, (ofWrite data p).Made calls r → (∀ e ∈ calls, e.call.StoresUpTo e.answer) →
      ∃ u, r = some u ∧
        (∀ newer e older, calls = newer ++ e :: older →
          e.call = .write (data.drop (moved older)) (p + moved older) ∧
          (e.answer.goesOn = false → newer = []) ∧
          (IsInterruption e → moved (e :: older) = moved older)) ∧
        (u.outcome? = none →
          u.call? = some (.write (data.drop (moved calls)) (p + moved calls))) ∧
        ((∃ bytes, u.outcome? = some (.ok bytes)) ↔ moved calls = data.length) ∧
        (∀ error, u.outcome? = some (.error error) ↔
          ∃ e older, calls = e :: older ∧ e.answer.stopsWrite? = some error) ∧
        (∀ initial, (held initial calls).window p (moved calls) = data.take (moved calls) ∧
          (∀ i, (i < p ∧ i < initial.length) ∨ p + moved calls ≤ i →
            (held initial calls)[i]? = initial[i]?) ∧
          held initial calls = initial.store p (data.take (moved calls))) ∧
        (uninterrupted calls).length ≤ data.length) ∧
    ∀ call : Nat → Exchange,
      (∀ m, ∃ r, (ofWrite data p).Made ((List.range m).map call).reverse r) →
      (∀ m, (call m).call.StoresUpTo (call m).answer) →
      ∀ m, ∃ later ≥ m, IsInterruption (call later) := by
  refine ⟨fun calls r made honest => ?_, fun call endless honest =>
    exists_isInterruption_of_endless room endless honest⟩
  obtain ⟨u, same, pumped⟩ := made.pumped room honest
  refine ⟨u, same, fun newer e older split => ?_, pumped.call?_eq, pumped.succeeds_iff,
    fun error => pumped.fails_iff, fun initial => ?_, pumped.length_uninterrupted_le⟩
  · obtain ⟨call, last⟩ := made.call_of_pumped room honest split
    refine ⟨call, last, fun interrupted => ?_⟩
    rw [moved_cons, count_of_isInterruption interrupted, Nat.zero_add]
  · have length : (data.take (moved calls)).length = moved calls := by
      rw [List.length_take, Nat.min_eq_left pumped.moved_le]
    have stored : held initial calls = initial.store p (data.take (moved calls)) :=
      made.held_eq room honest
    have found : (initial.store p (data.take (moved calls))).window p
        (data.take (moved calls)).length = data.take (moved calls) := Bytes.window_store
    refine ⟨?_, fun i aside => ?_, stored⟩
    · rwa [length, ← stored] at found
    · rw [stored]
      exact Bytes.getElem?_store_of_not (by rwa [length])

/-- The calls for a write of three bytes: the first is cut short, the second stores one byte, and
    the third stores what is left. -/
def threeBytes : List Exchange :=
  [⟨0, 0, .write [8, 9] 3, .moved 2 []⟩, ⟨0, 0, .write [7, 8, 9] 2, .moved 1 []⟩,
    ⟨0, 0, .write [7, 8, 9] 2, .failed (.bare .interrupted)⟩]

theorem write_of_three_bytes_is_carried_through :
    2 + ([7, 8, 9] : Bytes).length < wordLimit ∧
    (ofWrite [7, 8, 9] 2).Made threeBytes (some (.write [7, 8, 9] 2 3)) ∧
    (∀ e ∈ threeBytes, e.call.StoresUpTo e.answer) ∧
    held [1, 1, 1, 1, 1, 1] threeBytes = [1, 1, 7, 8, 9, 1] ∧
    (uninterrupted threeBytes).length ≤ 3 := by
  have room : 2 + ([7, 8, 9] : Bytes).length < wordLimit := by decide
  have made : (ofWrite [7, 8, 9] 2).Made threeBytes (some (.write [7, 8, 9] 2 3)) :=
    .step (.step (.step .nil rfl rfl) rfl rfl) rfl rfl
  have honest : ∀ e ∈ threeBytes, e.call.StoresUpTo e.answer := by decide
  obtain ⟨all, -⟩ := write_is_carried_through room
  obtain ⟨u, -, -, -, -, -, contents, few⟩ := all threeBytes _ made honest
  refine ⟨room, made, honest, ?_, few⟩
  rw [(contents _).2.2]
  decide

/-! ## Reads -/

/-- What a read has become after some calls: it goes on behind what is reported, or its latest
    call has stopped it. -/
inductive Gathered (p n : Nat) : List Exchange → Transfer → Prop where
  | going {calls : List Exchange} {scratch : Bytes} (go : ∀ e ∈ calls, e.answer.goesOn = true) :
      Gathered p n calls (.read p n (moved calls) scratch)
  | stopped {e : Exchange} {older : List Exchange} {outcome : Outcome}
      (go : ∀ e' ∈ older, e'.answer.goesOn = true) (stops : e.answer.goesOn = false)
      (fails : ∀ error, outcome = .error error ↔ e.answer.failure? = some error) :
      Gathered p n (e :: older) (.ended outcome)

/-- An answer takes a read on behind what it reports, or stops it. -/
theorem feed_read {scratch : Bytes} (fed : (read p n k scratch).feed a = some u) :
    (a.goesOn = true ∧ ∃ scratch', u = .read p n (k + a.count) scratch') ∨
    (a.goesOn = false ∧ ∃ outcome, u = .ended outcome ∧
      ∀ error, outcome = .error error ↔ a.failure? = some error) := by
  cases a with
  | panicked message => cases fed
  | failed error =>
    simp only [feed] at fed
    obtain rfl := Option.some.inj fed
    rcases again : error.isInterrupted with _ | _
    · exact .inr ⟨again, .error error, by simp, by simp [Answer.failure?, again]⟩
    · exact .inl ⟨again, scratch, by simp [Answer.count]⟩
  | moved count bytes =>
    simp only [feed, filledBy] at fed
    split at fed
    next zero =>
      obtain rfl := Option.some.inj fed
      exact .inr ⟨decide_eq_false (by omega), _, rfl, by simp [Answer.failure?]⟩
    next some =>
      split at fed
      · cases fed
      · split at fed
        · cases fed
        · obtain rfl := Option.some.inj fed
          exact .inl ⟨decide_eq_true (Nat.pos_of_ne_zero some), _, rfl⟩

theorem Made.gathered (made : (ofRead p n).Made calls (some u)) : Gathered p n calls u := by
  induction calls generalizing u with
  | nil =>
    cases made
    exact .going fun _ listed => absurd listed List.not_mem_nil
  | cons e older ih =>
    obtain ⟨v, before, makes, fed⟩ := made.cons
    cases ih before with
    | stopped => cases makes
    | going go =>
      rcases feed_read fed with ⟨goes_on, scratch, rfl⟩ | ⟨stops, outcome, rfl, fails⟩
      · rw [Nat.add_comm, ← moved_cons]
        refine .going fun e' listed => ?_
        rcases List.mem_cons.mp listed with rfl | old
        · exact goes_on
        · exact go e' old
      · exact .stopped go stops fails

theorem Gathered.goesOn_of_older (gathered : Gathered p n (e :: older) u) :
    ∀ e' ∈ older, e'.answer.goesOn = true := by
  cases gathered with
  | going go => exact fun e' listed => go e' (List.mem_cons_of_mem _ listed)
  | stopped go => exact go

/-- A call of a read is for what is not reported yet, at the place where that is. -/
theorem Made.call_of_gathered (made : (ofRead p n).Made (newer ++ e :: older) r) :
    moved older < n ∧ e.call = .read (p + moved older) (n - moved older) := by
  obtain ⟨v, before, makes, -⟩ := made.suffix
  cases before.gathered with
  | stopped => cases makes
  | going go =>
    simp only [call?] at makes
    split at makes
    next left => exact ⟨left, (Option.some.inj makes).symm⟩
    · cases makes

section Honest

variable (honest : ∀ e ∈ calls, e.call.ReadsFrom contents e.answer)
include honest

/-- No more is reported than there is in the range. -/
theorem Made.moved_le (made : (ofRead p n).Made calls (some u)) :
    moved calls ≤ (contents.window p n).length := by
  -- as long as a read goes on, it has collected what is reported
  have going {calls : List Exchange} {scratch : Bytes}
      (made : (ofRead p n).Made calls (some (.read p n (moved calls) scratch)))
      (honest : ∀ e ∈ calls, e.call.ReadsFrom contents e.answer) :
      moved calls ≤ (contents.window p n).length := by
    cases made.readingFrom honest with
    | collecting within there =>
      rw [Bytes.length_window] at there ⊢
      omega
  cases made.gathered with
  | going => exact going made honest
  | @stopped e older outcome go stops =>
    obtain ⟨v, before, makes, -⟩ := made.cons
    rw [moved_cons, Answer.count_of_not_goesOn stops, Nat.zero_add]
    cases before.gathered with
    | stopped => cases makes
    | going => exact going before fun e listed => honest e (List.mem_cons_of_mem _ listed)

/-- A read from a file whose length fits a machine word does not break off. -/
theorem Made.exists_of_read (short : contents.length < wordLimit)
    (answered : ∀ e ∈ calls, e.answer.returns = true)
    (made : (ofRead p n).Made calls r) : ∃ u, r = some u := by
  rcases calls with _ | ⟨e, older⟩
  · cases made
    exact ⟨_, rfl⟩
  · obtain ⟨v, before, makes, rfl⟩ := made.cons
    cases before.readingFrom fun e' listed => honest e' (List.mem_cons_of_mem _ listed) with
    | failed | found => cases makes
    | @collecting filled within there =>
      simp only [reading, call?] at makes
      split at makes
      next left =>
        have answer := honest e List.mem_cons_self
        rw [← Option.some.inj makes] at answer
        rcases same : e.answer with ⟨count, bytes⟩ | error | message
        · -- what is reported lies in the file, so its end fits as well
          rw [same] at answer
          obtain ⟨rfl, length, fits, -⟩ := answer
          rw [Bytes.length_window] at length
          simp only [reading, feed, filledBy]
          by_cases zero : count = 0
          · rw [if_pos zero]
            exact ⟨_, rfl⟩
          · rw [if_neg zero, if_neg (by omega), if_neg (by omega)]
            exact ⟨_, rfl⟩
        · exact ⟨_, rfl⟩
        · have returned := answered e List.mem_cons_self
          rw [same] at returned
          cases returned
      · cases makes

/-- Once all of the range is reported, at most one more call is made that is not cut short; none
    at all if there is nothing left to ask for. -/
theorem Made.few_after_last (made : (ofRead p n).Made calls (some u))
    (split : calls = newer ++ older) (all : (contents.window p n).length ≤ moved older) :
    (uninterrupted newer).length ≤ 1 ∧ (n ≤ moved older → newer = []) := by
  have most := made.moved_le honest
  subst split
  constructor
  · rcases newer with _ | ⟨e, rest⟩
    · exact Nat.zero_le 1
    · -- all but the latest call let the read go on, and so have moved something
      have before : (uninterrupted rest).length ≤ moved rest :=
        length_uninterrupted_le_moved fun e' listed =>
          made.gathered.goesOn_of_older e' (List.mem_append_left older listed)
      rw [List.cons_append, moved_cons, moved_append] at most
      refine Nat.le_trans length_uninterrupted_cons_le ?_
      omega
  · intro full
    rcases List.eq_nil_or_concat newer with none | ⟨rest, e, rfl⟩
    · exact none
    · rw [List.concat_eq_append, List.append_assoc, List.singleton_append] at made
      obtain ⟨left, -⟩ := made.call_of_gathered
      omega

theorem Made.length_uninterrupted_le (made : (ofRead p n).Made calls (some u)) :
    (uninterrupted calls).length ≤ (contents.window p n).length + 1 := by
  have most := made.moved_le honest
  rcases calls with _ | ⟨e, older⟩
  · exact Nat.zero_le _
  · have before := length_uninterrupted_le_moved made.gathered.goesOn_of_older
    rw [moved_cons] at most
    refine Nat.le_trans length_uninterrupted_cons_le ?_
    omega

/-- What a read comes to is its range, or the one failure among its answers. -/
theorem Made.outcome_of_read {outcome : Outcome} (made : (ofRead p n).Made calls (some u))
    (ended : u.outcome? = some outcome) :
    ((∀ e ∈ calls, e.answer.failure? = none) → outcome = .ok (contents.window p n)) ∧
    ∀ e ∈ calls, ∀ error, e.answer.failure? = some error → outcome = .error error := by
  have gathered := made.gathered
  constructor
  · intro succeed
    rcases outcome with error | bytes
    · cases gathered with
      | going =>
        simp only [outcome?] at ended
        split at ended <;> cases ended
      | stopped go stops fails =>
        have failed := (fails error).mp (Option.some.inj ended)
        rw [succeed _ List.mem_cons_self] at failed
        cases failed
    · rw [made.eq_window honest ended]
  · intro e listed error failed
    have stops := Answer.not_goesOn_of_failure? failed
    cases gathered with
    | going go =>
      rw [go e listed] at stops
      cases stops
    | stopped go _ fails =>
      rcases List.mem_cons.mp listed with rfl | old
      · exact (Option.some.inj ended).symm.trans ((fails error).mpr failed)
      · rw [go e old] at stops
        cases stops

end Honest

end Transfer

end PinnedFile
