/-
  PinnedFile.Proofs.Contents

  What a write stream leaves in its file.

  A backend stores a piece of what a native write brings, some of it or all, or it fails and
  stores nothing.  Whatever is stored on behalf of a write stream is a piece of one text, all
  that was written to the stream, at its own place in that text.  So it makes no difference
  how the writes were cut up and in which order the pieces were stored: a byte of the file is
  that of the text if any piece has it, and what it was before if none has.
-/

import PinnedFile.Proofs.Streams.Sending
import PinnedFile.Proofs.Transfers

namespace PinnedFile

/-! ## What a backend holds -/

/-- What a backend holds after a native call, if it held `contents` before. -/
def Call.storing : Call → Answer → Bytes → Bytes
  | .write data p, .moved count _, contents => contents.place p (data.take count)
  | _, _, contents => contents

/-- A backend has stored something of what a write brought it, or has failed. -/
def Call.StoresSome : Call → Answer → Prop
  | .write data _, .moved count _ => 0 < count ∧ count ≤ data.length
  | _, _ => True

instance : (c : Call) → (a : Answer) → Decidable (c.StoresSome a)
  | .write _ _, .moved _ _ => inferInstanceAs (Decidable (_ ∧ _))
  | .write _ _, .failed _ | .write _ _, .panicked _ => isTrue trivial
  | .read _ _, _ | .sync, _ | .close, _ => isTrue trivial

/-- What a backend that began with `initial` holds after some native calls, the latest
    first. -/
def stored (initial : Bytes) : List Exchange → Bytes
  | [] => initial
  | x :: older => x.call.storing x.answer (stored initial older)

/-! ## Pieces of a text -/

/-- A byte of the file is among those that a call has stored. -/
def Exchange.Stores (x : Exchange) (i : Nat) : Prop :=
  ∃ data p count bytes, x.call = .write data p ∧ x.answer = .moved count bytes ∧
    p ≤ i ∧ i < p + count

/-- Whatever a call has stored is a piece of a text, at its place there. -/
def Exchange.IsPieceOf (text : Bytes) (x : Exchange) : Prop :=
  ∀ data p count bytes, x.call = .write data p → x.answer = .moved count bytes →
    count ≤ data.length ∧ p + count ≤ text.length ∧ ∀ i < count, data[i]? = text[p + i]?

section Pieces

variable {text initial contents : Bytes} {x : Exchange} {calls : List Exchange} {i : Nat}

theorem Exchange.IsPieceOf.lt_length (piece : x.IsPieceOf text) (stores : x.Stores i) :
    i < text.length := by
  obtain ⟨data, p, count, bytes, call, answer, behind, before⟩ := stores
  obtain ⟨-, within, -⟩ := piece data p count bytes call answer
  omega

/-- The byte at a place that a piece is stored over. -/
theorem getElem?_storing (piece : x.IsPieceOf text) (stores : x.Stores i) :
    (x.call.storing x.answer contents)[i]? = text[i]? := by
  obtain ⟨data, p, count, bytes, call, answer, behind, before⟩ := stores
  obtain ⟨enough, within, same⟩ := piece data p count bytes call answer
  have length : (data.take count).length = count := by rw [List.length_take, Nat.min_eq_left enough]
  rw [call, answer, Call.storing, Bytes.getElem?_place, length, if_pos ⟨behind, before⟩,
    List.getElem?_take_of_lt (by omega), same (i - p) (by omega), Nat.add_sub_cancel' behind]

/-- The byte at a place that a piece is not stored over, in the file or behind the text. -/
theorem getElem?_storing_of_not (piece : x.IsPieceOf text) (aside : ¬ x.Stores i)
    (there : i < contents.length ∨ text.length ≤ i) :
    (x.call.storing x.answer contents)[i]? = contents[i]? := by
  unfold Call.storing
  split
  next data p count bytes call answer =>
    obtain ⟨enough, within, -⟩ := piece data p count bytes call answer
    have length : (data.take count).length = count := by
      rw [List.length_take, Nat.min_eq_left enough]
    have apart : ¬ (p ≤ i ∧ i < p + count) := fun inside =>
      aside ⟨data, p, count, bytes, call, answer, inside⟩
    rw [Bytes.getElem?_place, length, if_neg apart]
    split
    · rfl
    next beyond =>
      rw [if_neg (by omega), List.getElem?_eq_none (Nat.le_of_not_lt beyond)]
  · rfl

/-- A byte that any piece has is that of the text. -/
theorem getElem?_stored (pieces : ∀ x ∈ calls, x.IsPieceOf text) (some : ∃ x ∈ calls, x.Stores i) :
    (stored initial calls)[i]? = text[i]? := by
  induction calls with
  | nil =>
    obtain ⟨x, listed, -⟩ := some
    cases listed
  | cons latest older ih =>
    have piece := pieces latest List.mem_cons_self
    by_cases now : latest.Stores i
    · exact getElem?_storing piece now
    · -- the latest piece lies elsewhere, and the byte is in the file already
      obtain ⟨x, listed, stores⟩ := some
      have old : x ∈ older := by
        rcases List.mem_cons.mp listed with rfl | old
        · exact absurd stores now
        · exact old
      have before := ih (fun y earlier => pieces y (List.mem_cons_of_mem _ earlier)) ⟨x, old, stores⟩
      have inside : i < (stored initial older).length := by
        have found := List.getElem?_eq_getElem ((pieces x listed).lt_length stores)
        exact (List.getElem?_eq_some_iff.mp (before.trans found)).1
      exact (getElem?_storing_of_not piece now (.inl inside)).trans before

/-- A byte that no piece has is what it was before. -/
theorem getElem?_stored_of_not (pieces : ∀ x ∈ calls, x.IsPieceOf text)
    (none : ∀ x ∈ calls, ¬ x.Stores i) (there : i < initial.length ∨ text.length ≤ i) :
    (stored initial calls)[i]? = initial[i]? := by
  induction calls with
  | nil => rfl
  | cons latest older ih =>
    have before := ih (fun y earlier => pieces y (List.mem_cons_of_mem _ earlier))
      fun y earlier => none y (List.mem_cons_of_mem _ earlier)
    refine (getElem?_storing_of_not (pieces latest List.mem_cons_self)
      (none latest List.mem_cons_self) ?_).trans before
    rcases there with inside | behind
    · rw [List.getElem?_eq_getElem inside] at before
      exact .inl (List.getElem?_eq_some_iff.mp before).1
    · exact .inr behind

/-- A range that the pieces have between them is a window of the text. -/
theorem window_stored {p n : Nat} (pieces : ∀ x ∈ calls, x.IsPieceOf text)
    (all : ∀ i < n, ∃ x ∈ calls, x.Stores (p + i)) :
    (stored initial calls).window p n = text.window p n := by
  apply List.ext_getElem?
  intro i
  rw [Bytes.getElem?_window, Bytes.getElem?_window]
  split
  next within => exact getElem?_stored pieces (all i within)
  · rfl

/-- If the pieces have all of the text between them, the file is as it was with the text laid
    over its beginning. -/
theorem stored_eq_place (pieces : ∀ x ∈ calls, x.IsPieceOf text)
    (all : ∀ i < text.length, ∃ x ∈ calls, x.Stores i) :
    stored initial calls = initial.place 0 text := by
  apply List.ext_getElem?
  intro i
  rw [Bytes.getElem?_place, Nat.zero_add, Nat.sub_zero]
  by_cases within : i < text.length
  · rw [if_pos ⟨Nat.zero_le i, within⟩]
    exact getElem?_stored pieces (all i within)
  · have none : ∀ x ∈ calls, ¬ x.Stores i := fun x listed stores =>
      within ((pieces x listed).lt_length stores)
    rw [if_neg fun inside => within inside.2,
      getElem?_stored_of_not pieces none (.inr (Nat.le_of_not_lt within))]
    split
    · rfl
    next beyond =>
      rw [if_neg (Nat.not_lt_zero i), List.getElem?_eq_none (Nat.le_of_not_lt beyond)]

end Pieces

/-! ## Memory files -/

namespace Memory

/-- A memory file that moves something of what it is to move, and reports what it moved. -/
structure Honest (m : Memory) : Prop where
  max : m.max ≠ some 0
  directives : ∀ limit claim, .move limit claim ∈ m.directives.write →
    limit ≠ some 0 ∧ claim = none

variable {m : Memory} {call : Call} {limit claim : Option Nat} {n : Nat}

theorem atMost_pos (some : limit ≠ some 0) (pos : 0 < n) : 0 < atMost limit n := by
  rcases limit with _ | _ | k
  · exact pos
  · exact absurd rfl some
  · exact Nat.lt_min.mpr ⟨Nat.succ_pos k, pos⟩

theorem atMost_le : atMost limit n ≤ n := by
  rcases limit with _ | k
  · exact Nat.le_refl n
  · exact Nat.min_le_right k n

/-- The next directive for a write is the usual one, or one of those that were given. -/
theorem Honest.next (honest : m.Honest)
    (next : (nextDirective m.directives.write).1 = .move limit claim) :
    limit ≠ some 0 ∧ claim = none := by
  rcases given : m.directives.write with _ | ⟨first, rest⟩
  · rw [given] at next
    obtain ⟨rfl, rfl⟩ := Directive.move.inj next
    exact ⟨nofun, rfl⟩
  · rw [given] at next
    refine honest.directives limit claim ?_
    rw [given, ← show first = .move limit claim from next]
    exact List.mem_cons_self

/-- An honest memory file holds afterwards what it answers to have stored. -/
theorem data_perform (honest : m.Honest) :
    (m.perform call).2.data = call.storing (m.perform call).1 m.data := by
  cases call with
  | write data p =>
    simp only [perform, takeDirective]
    rcases next : (nextDirective m.directives.write).1 with ⟨limit, claim⟩ | e | message
    · obtain ⟨-, rfl⟩ := honest.next next
      dsimp only [move]
      split <;> rfl
    · rfl
    · rfl
  | read | sync | close =>
    simp only [perform, takeDirective]
    split <;> rfl

theorem storesSome_perform (honest : m.Honest) (brings : ∀ p, call ≠ .write [] p) :
    call.StoresSome (m.perform call).1 := by
  cases call with
  | write data p =>
    have some : 0 < data.length := List.length_pos_of_ne_nil fun none => brings p (by rw [none])
    simp only [perform, takeDirective]
    rcases next : (nextDirective m.directives.write).1 with ⟨limit, claim⟩ | e | message
    · obtain ⟨limited, rfl⟩ := honest.next next
      dsimp only [move]
      split
      · exact trivial
      · exact ⟨atMost_pos limited (atMost_pos honest.max some), Nat.le_trans atMost_le atMost_le⟩
    · exact trivial
    · exact trivial
  | read | sync | close => exact trivial

/-- A call changes nothing of a memory file but its data and what directives are left. -/
theorem perform_cases (m : Memory) (call : Call) :
    (m.perform call).2.max = m.max ∧
      (m.perform call).2.directives = (takeDirective m.directives call).2 := by
  simp only [perform]
  split
  · cases call with
    | write =>
      dsimp only [move]
      split <;> exact ⟨rfl, rfl⟩
    | read | sync | close => exact ⟨rfl, rfl⟩
  · exact ⟨rfl, rfl⟩
  · exact ⟨rfl, rfl⟩

theorem Honest.perform (honest : m.Honest) : (m.perform call).2.Honest := by
  obtain ⟨max, directives⟩ := m.perform_cases call
  have fewer : (m.perform call).2.directives.write ⊆ m.directives.write := by
    rw [directives]
    cases call with
    | write =>
      show (nextDirective m.directives.write).2 ⊆ _
      rcases m.directives.write with _ | ⟨first, rest⟩
      · exact List.Subset.refl _
      · exact List.subset_cons_self first rest
    | read | sync | close => exact List.Subset.refl _
  exact ⟨max ▸ honest.max, fun limit claim listed => honest.directives limit claim (fewer listed)⟩

end Memory

/-! ## The writes of a stream -/

namespace World

/-- The native calls that were made on a backend and have returned, the latest first. -/
def exchangesOn (w : World) (b : BackendId) : List Exchange :=
  w.exchanges.filter fun x => w.handles[x.handle]?.map Handle.backend = some b

/-- The write stream of a handle is all that writes to a backend, and the backend stores what
    it answers to have stored. -/
structure OnlySends (w : World) (b : BackendId) (h : HandleId) : Prop where
  handle : w.handles[h]?.map Handle.backend = some b
  writes : ∀ a ∈ w.accepted, w.handles[a.handle]?.map Handle.backend = some b →
    a.completion.operation = .write → a.IsSendOf h
  stores : ∀ x ∈ w.exchangesOn b, x.call.StoresSome x.answer

/-- An operation has come to its end without a failure, and its outcome was delivered. -/
def Succeeded (w : World) (a : Job) : Prop :=
  ∃ c ∈ w.completed, c.1.id = a.id ∧ ∃ bytes, c.2 = .ok bytes

end World

variable {mode : Mode} {w : World} {b : BackendId} {h : HandleId} {a : Job} {x : Exchange}
  {earlier later jobs : List Job} {i : Nat}

theorem length_dataOf (split : jobs = earlier ++ a :: later) :
    (dataOf earlier).length + a.data.length ≤ (dataOf jobs).length := by
  rw [split, dataOf_append, List.length_append]
  exact Nat.add_le_add_left (by rw [dataOf, List.flatMap_cons, List.length_append]; omega) _

/-- The bytes of one write among those of all. -/
theorem getElem?_dataOf (split : jobs = earlier ++ a :: later) (within : i < a.data.length) :
    (dataOf jobs)[(dataOf earlier).length + i]? = a.data[i]? := by
  rw [split, dataOf_append, List.getElem?_append_right (Nat.le_add_right _ _),
    Nat.add_sub_cancel_left, dataOf, List.flatMap_cons, List.getElem?_append_left within]

theorem window_dataOf (split : jobs = earlier ++ a :: later) :
    (dataOf jobs).window (dataOf earlier).length a.data.length = a.data := by
  apply List.ext_getElem?
  intro i
  rw [Bytes.getElem?_window]
  split
  next within => exact getElem?_dataOf split within
  next beyond => exact (List.getElem?_eq_none (Nat.le_of_not_lt beyond)).symm

/-- Each byte of all is one of some write. -/
theorem exists_of_lt_dataOf (within : i < (dataOf jobs).length) :
    ∃ earlier a later, jobs = earlier ++ a :: later ∧ ∃ k < a.data.length,
      i = (dataOf earlier).length + k := by
  induction jobs generalizing i with
  | nil => cases within
  | cons first rest ih =>
    rw [dataOf, List.flatMap_cons, List.length_append] at within
    rcases Nat.lt_or_ge i first.data.length with own | behind
    · exact ⟨[], first, rest, rfl, i, own, (Nat.zero_add i).symm⟩
    · obtain ⟨earlier, a, later, rfl, k, inside, same⟩ :=
        ih (i := i - first.data.length) (by rw [dataOf]; omega)
      refine ⟨first :: earlier, a, later, rfl, k, inside, ?_⟩
      rw [dataOf, List.flatMap_cons, List.length_append, ← dataOf]
      omega

theorem mem_sends_iff : a ∈ w.sends h ↔ a ∈ w.accepted ∧ a.IsSendOf h := by
  rw [World.sends, List.mem_reverse, List.mem_filter, decide_eq_true_iff]

/-- Only writes and writes of streams begin with a native write. -/
theorem Completion.Fits.writes {c : Completion} {data : Bytes} {p written : Nat}
    (fits : c.Fits (.write data p written)) : c.operation = .write := by
  cases c with
  | write | send => rfl
  | read | chunk =>
    obtain ⟨position, length, same⟩ := fits
    cases same
  | flush | close => cases fits

/-- Each native call for a write of a stream is for what is left of it, at its place. -/
theorem Reachable.call_of_send (reached : Reachable mode w)
    (split : w.sends h = earlier ++ a :: later) (listed : x ∈ w.exchanges)
    (own : x.operation = a.id) :
    ∃ k < a.data.length, x.call = .write (a.data.drop k) ((dataOf earlier).length + k) := by
  obtain ⟨accepted, -⟩ := mem_sends_iff.mp (split ▸ List.mem_append_cons_self)
  obtain ⟨r, made⟩ := reached.sound.traced.made a accepted
  rw [(reached.sending h).placed earlier a later split] at made
  exact made.call_of_write (List.mem_filter.mpr ⟨listed, decide_eq_true own⟩)

/-- Whatever is stored on a backend that only a stream writes to is a piece of what was
    written to the stream. -/
theorem Reachable.isPieceOf (reached : Reachable mode w) (only : w.OnlySends b h)
    (listed : x ∈ w.exchangesOn b) : x.IsPieceOf (dataOf (w.sends h)) := by
  intro data p count bytes call answer
  obtain ⟨returned, onBackend⟩ := List.mem_filter.mp listed
  have traced := reached.sound.traced
  -- the operation that made the call is a write, and so it is one of the stream
  obtain ⟨a, accepted, own, handle⟩ := traced.exchanged x returned
  obtain ⟨r, made⟩ := traced.made a accepted
  obtain ⟨_, _, _, transfer⟩ := made.write_of_call
    (List.mem_filter.mpr ⟨returned, decide_eq_true own.symm⟩) call
  have fits := traced.fits a accepted
  rw [transfer] at fits
  have send := only.writes a accepted (by rw [handle]; exact of_decide_eq_true onBackend)
    fits.writes
  obtain ⟨earlier, later, split⟩ := List.append_of_mem (mem_sends_iff.mpr ⟨accepted, send⟩)
  obtain ⟨k, within, same⟩ := reached.call_of_send split returned own.symm
  obtain ⟨rfl, rfl⟩ := Call.write.inj (call.symm.trans same)
  have some : 0 < count ∧ count ≤ (a.data.drop k).length := by
    have answered := only.stores x listed
    rwa [call, answer] at answered
  have most := some.2
  rw [List.length_drop] at most
  refine ⟨some.2, ?_, fun i less => ?_⟩
  · have fits := length_dataOf split
    omega
  · rw [List.getElem?_drop, Nat.add_assoc, getElem?_dataOf split (by omega)]

/-- Of a write that has succeeded the backend has stored every byte. -/
theorem Reachable.stores_of_succeeded (reached : Reachable mode w) (only : w.OnlySends b h)
    (split : w.sends h = earlier ++ a :: later) (succeeded : w.Succeeded a)
    (within : i < a.data.length) :
    ∃ x ∈ w.exchangesOn b, x.Stores ((dataOf earlier).length + i) := by
  have sound := reached.sound
  obtain ⟨accepted, send⟩ := mem_sends_iff.mp (split ▸ List.mem_append_cons_self)
  obtain ⟨⟨job, outcome⟩, completed, own, bytes, rfl⟩ := succeeded
  obtain ⟨made, ended⟩ := sound.made_of_completed accepted completed own
  rw [(reached.sending h).placed earlier a later split] at made
  obtain ⟨x, listed, k, count, none, call, answer, behind, before⟩ := made.stored ended within
  obtain ⟨returned, handle⟩ := sound.handle_of_exchange accepted listed
  refine ⟨x, List.mem_filter.mpr ⟨returned, decide_eq_true ?_⟩, _, _, count, none, call, answer,
    by omega, by omega⟩
  rw [handle, send.1]
  exact only.handle

/-- A memory file holds what it has stored of all that was brought to it. -/
def World.HoldsStored (w : World) (b : BackendId) (initial : Bytes) : Prop :=
  ∃ label m, w.backends[b]? = some (.memory label m) ∧ m.Honest ∧
    m.data = stored initial (w.exchangesOn b) ∧
    ∀ x ∈ w.exchangesOn b, x.call.StoresSome x.answer

/-- A native write always brings something. -/
theorem Transfer.call?_ne_empty {t : Transfer} {call : Call} (makes : t.call? = some call)
    (p : Nat) : call ≠ .write [] p := by
  rintro rfl
  cases t with
  | write data position written =>
    simp only [call?] at makes
    split at makes
    · obtain ⟨none, -⟩ := Call.write.inj (Option.some.inj makes)
      have length := List.drop_eq_nil_iff.mp none
      omega
    · cases makes
  | read =>
    simp only [call?] at makes
    split at makes <;> cases makes
  | sync | close | ended => cases makes

theorem World.answer_frame (w : World) (job : Job) (call : Call) (answer : Answer) :
    (w.answer job call answer).handles = w.handles ∧
      (w.answer job call answer).backends = w.backends ∧
      (w.answer job call answer).exchanges =
        ⟨job.id, job.handle, call, answer⟩ :: w.exchanges := by
  unfold World.answer
  dsimp only
  split <;> exact ⟨rfl, rfl, rfl⟩

/-- A call on one backend leaves the others as they are. -/
theorem World.callBackend?_frame {after : World} {b' : BackendId} {call : Call} {answer : Answer}
    (answered : w.callBackend? b' call = some (answer, after)) (other : b' ≠ b) :
    after.backends[b]? = w.backends[b]? := by
  unfold World.callBackend? at answered
  split at answered
  · cases answered
  · obtain ⟨-, rfl⟩ := Prod.mk.inj (Option.some.inj answered)
    exact List.getElem?_set_ne other
  · obtain ⟨-, rfl⟩ := Prod.mk.inj (Option.some.inj answered)
    rfl

/-- A memory file whose calls are let through is a backend that stores what it answers to have
    stored. -/
theorem World.HoldsStored.release {after : World} {job : Job} {initial : Bytes}
    (holds : w.HoldsStored b initial) (released : w.release job = some after) :
    after.HoldsStored b initial := by
  obtain ⟨label, m, found, honest, data, some⟩ := holds
  simp only [World.release, Option.bind_eq_bind, Option.bind_eq_some_iff, Prod.exists] at released
  obtain ⟨s, known, call, makes, answer, changed, answered, made⟩ := released
  obtain rfl := Option.some.inj made
  obtain ⟨files, backends, rfl⟩ := World.callBackend?_eq answered
  obtain ⟨sameHandles, sameBackends, added⟩ :=
    World.answer_frame { w with files, backends } job call answer
  have listed : ({ w with files, backends }.answer job call answer).exchangesOn b =
      if s.backend = b then ⟨job.id, job.handle, call, answer⟩ :: w.exchangesOn b
      else w.exchangesOn b := by
    rw [World.exchangesOn, added, sameHandles, List.filter_cons]
    by_cases own : s.backend = b <;> simp [known, own, World.exchangesOn] <;> rfl
  rw [HoldsStored, sameBackends, listed]
  by_cases own : s.backend = b
  · subst own
    simp only [World.callBackend?, found, Option.some.injEq, Prod.mk.injEq] at answered
    obtain ⟨rfl, changed⟩ := answered
    obtain rfl : w.backends.set s.backend _ = backends := congrArg World.backends changed
    rw [if_pos rfl]
    refine ⟨label, (m.perform call).2, ?_, honest.perform, ?_, fun x there => ?_⟩
    · exact List.getElem?_set_self (List.getElem?_eq_some_iff.mp found).1
    · rw [m.data_perform honest, data]
      rfl
    · rcases List.mem_cons.mp there with rfl | before
      · exact m.storesSome_perform honest (Transfer.call?_ne_empty makes)
      · exact some x before
  · rw [if_neg own]
    exact ⟨label, m, (World.callBackend?_frame answered own).trans found, honest, data, some⟩

/-- The writes of a stream lie back to back.  Each is accepted where those accepted before it
    end, and all native calls for it are for what is left of it there; the stream stands at
    the end of all that was written to it, whatever becomes of that.  If nothing else writes
    to the backend, then in whatever order it has stored what it was brought, it holds each
    write that has succeeded at its place; and if all have, it is as it was before, with all
    that was written laid over its beginning. -/
theorem sends_lie_back_to_back (reached : Reachable mode w) (only : w.OnlySends b h) :
    (∀ v, w.writer? h = some v → v.position = (dataOf (w.sends h)).length) ∧
    (∀ earlier a later, w.sends h = earlier ++ a :: later →
      a.transfer = .ofWrite a.data (dataOf earlier).length ∧
      (∀ x ∈ w.exchanges, x.operation = a.id → ∃ k < a.data.length,
        x.call = .write (a.data.drop k) ((dataOf earlier).length + k)) ∧
      ∀ initial order, order.Perm (w.exchangesOn b) → w.Succeeded a →
        (stored initial order).window (dataOf earlier).length a.data.length = a.data) ∧
    ∀ initial order, order.Perm (w.exchangesOn b) → (∀ a ∈ w.sends h, w.Succeeded a) →
      stored initial order = initial.place 0 (dataOf (w.sends h)) := by
  have sending := reached.sending h
  have pieces (order : List Exchange) (same : order.Perm (w.exchangesOn b)) :
      ∀ x ∈ order, x.IsPieceOf (dataOf (w.sends h)) := fun x listed =>
    reached.isPieceOf only (same.mem_iff.mp listed)
  refine ⟨fun v made => ?_, fun earlier a later split => ⟨?_, ?_, ?_⟩, ?_⟩
  · rw [← sending.position]
    obtain ⟨s, known, made⟩ := Option.bind_eq_some_iff.mp made
    rw [sentPositionIn, known, Option.map_some, Option.getD_some, Handle.writeStream, made,
      Option.getD_some]
  · exact sending.placed earlier a later split
  · exact fun x listed own => reached.call_of_send split listed own
  · intro initial order same succeeded
    rw [window_stored (pieces order same) fun i within => ?_]
    · exact window_dataOf split
    · obtain ⟨x, listed, stores⟩ := reached.stores_of_succeeded only split succeeded within
      exact ⟨x, same.mem_iff.mpr listed, stores⟩
  · intro initial order same all
    refine stored_eq_place (pieces order same) fun i within => ?_
    obtain ⟨earlier, a, later, split, k, inside, rfl⟩ := exists_of_lt_dataOf within
    have succeeded : w.Succeeded a := all a (split ▸ List.mem_append_cons_self)
    obtain ⟨x, listed, stores⟩ := reached.stores_of_succeeded only split succeeded inside
    exact ⟨x, same.mem_iff.mpr listed, stores⟩

/-- The world after the calls of some running jobs were let through, told by the numbers of
    their operations, if they can be. -/
def World.releases (w : World) (jobs : List OperationId) : Option World :=
  jobs.foldlM (fun w id => (w.running.find? (·.id = id)).bind w.release) w

theorem World.steps_of_releases {after : World} {jobs : List OperationId}
    (released : w.releases jobs = some after) : Steps .any w after := by
  induction jobs generalizing w with
  | nil =>
    obtain rfl := Option.some.inj released
    exact .refl
  | cons id rest ih =>
    rw [releases, List.foldlM_cons] at released
    obtain ⟨next, freed, released⟩ := Option.bind_eq_some_iff.mp released
    obtain ⟨job, found, freed⟩ := Option.bind_eq_some_iff.mp freed
    exact .head (step_of_release (List.mem_of_find?_eq_some found) freed) (ih released)

/-- A run with two workers in which three bytes and two bytes are written to the stream of a
    memory file.  The second write is stored in part before the first is begun, one call
    stores less than it is brought, and one is interrupted. -/
def storingRun : Option World :=
  (((World.start 2 ⟨[], []⟩).follow
    [.body 0 [
      .openFile 0 { write := true } .log (.memory (.bytes [9, 9, 9, 9, 9, 9, 9]) none
        { write := [.move (some 1) none, .move (some 2) none, .fail (.bare .interrupted)] }),
      .writeStream 0,
      .send 0 (.bytes [1, 2, 3]),
      .send 0 (.bytes [4, 5])],
    .take, .take]).bind (·.releases [1, 0, 0, 1, 0])).bind
    (·.follow [.finish 1, .finish 0, .task, .task])

theorem five_bytes_lie_back_to_back : ∃ w v b label m, storingRun = some w ∧
    w.writer? 0 = some v ∧ w.memory? 0 = some (b, label, m) ∧
    w.OnlySends b 0 ∧ (∀ a ∈ w.sends 0, w.Succeeded a) ∧ dataOf (w.sends 0) = [1, 2, 3, 4, 5] ∧
    v.position = 5 ∧ m.data = stored [9, 9, 9, 9, 9, 9, 9] (w.exchangesOn b) ∧
    m.data = [1, 2, 3, 4, 5, 9, 9] := by
  have stands : (storingRun.bind fun w => (w.writer? 0).bind fun v => (w.memory? 0).map fun r =>
      (decide (w.handles[0]?.map Handle.backend = some r.1), dataOf (w.sends 0),
        w.accepted.all fun a => decide (a.IsSendOf 0),
        (w.exchangesOn r.1).all fun x => decide (x.call.StoresSome x.answer),
        (w.sends 0).all fun a => w.completed.any fun c => c.1.id = a.id && c.2.isOk,
        r.2.2.data == stored [9, 9, 9, 9, 9, 9, 9] (w.exchangesOn r.1))) =
      some (true, [1, 2, 3, 4, 5], true, true, true, true) := by decide +kernel
  obtain ⟨w, run, found⟩ := Option.bind_eq_some_iff.mp stands
  obtain ⟨v, made, found⟩ := Option.bind_eq_some_iff.mp found
  obtain ⟨⟨b, label, m⟩, held, found⟩ := Option.map_eq_some_iff.mp found
  obtain ⟨handle, sent, sends, some, ended, holds⟩ : decide (_ = some b) = true ∧
      dataOf (w.sends 0) = [1, 2, 3, 4, 5] ∧ _ ∧ _ ∧ _ ∧ _ := by
    simpa only [Option.some.injEq, Prod.mk.injEq] using found
  have only : w.OnlySends b 0 := ⟨of_decide_eq_true handle,
    fun a accepted _ _ => of_decide_eq_true (List.all_eq_true.mp sends a accepted),
    fun x listed => of_decide_eq_true (List.all_eq_true.mp some x listed)⟩
  have succeeded : ∀ a ∈ w.sends 0, w.Succeeded a := by
    intro a listed
    obtain ⟨c, completed, ok⟩ := List.any_eq_true.mp (List.all_eq_true.mp ended a listed)
    obtain ⟨own, ok⟩ := Bool.and_eq_true_iff.mp ok
    rcases outcome : c.2 with e | bytes
    · rw [outcome] at ok
      cases ok
    · exact ⟨c, completed, of_decide_eq_true own, bytes, outcome⟩
  obtain ⟨before, freed, finished⟩ := Option.bind_eq_some_iff.mp run
  obtain ⟨first, begun, freed⟩ := Option.bind_eq_some_iff.mp freed
  have reached : Reachable .any w := ((World.reachable_of_follow begun).steps
    (World.steps_of_releases freed)).steps (World.steps_of_follow finished)
  obtain ⟨position, -, contents⟩ := sends_lie_back_to_back reached only
  have data := eq_of_beq holds
  refine ⟨w, v, b, label, m, run, made, held, only, succeeded, sent, ?_, data, ?_⟩
  · rw [position v made, sent]
    rfl
  · rw [data, contents _ _ (List.Perm.refl _) succeeded, sent]
    rfl

end PinnedFile
