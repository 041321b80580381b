/-
  PinnedFile.Proofs.Placement

  What placements of data come to, one after the other.

  After a placement each byte is that of the data, or the one that was there, or a zero in the
  gap before the data.  That settles every law between placements: two lists of bytes are the
  same if they have the same byte at each index.  A buffer refuses what reaches beyond the
  largest one, and all laws hold of it as far as there is room.
-/

import Mathlib.Algebra.Group.Nat.Defs
import PinnedFile.Buffer

namespace PinnedFile

namespace Bytes

variable {b data more : Bytes} {n p q : Nat}

/-- What is put at the end is appended. -/
theorem place_of_length (ends : b.length = n) : b.place n data = b ++ data := by
  subst ends
  rw [place, List.take_length, Nat.sub_self, List.drop_eq_nil_of_le (Nat.le_add_right _ _)]
  simp [zeros]

theorem place_zero : b.place 0 data = data ++ b.drop data.length := by
  rw [place, List.take_zero, Nat.zero_sub, Nat.zero_add]
  rfl

/-- Two pieces back to back are one piece. -/
theorem place_place : (b.place p data).place (p + data.length) more = b.place p (data ++ more) := by
  apply List.ext_getElem?
  intro i
  simp only [getElem?_place, length_place, List.length_append]
  by_cases second : p + data.length ≤ i ∧ i < p + data.length + more.length
  · rw [if_pos second, if_pos (by omega), List.getElem?_append_right (by omega)]
    congr 1
    omega
  · rw [if_neg second]
    by_cases first : p ≤ i ∧ i < p + data.length
    · rw [if_pos (by omega), if_pos first, if_pos (by omega),
        List.getElem?_append_left (by omega)]
    · rw [if_neg first, if_neg (show ¬ (p ≤ i ∧ i < p + (data.length + more.length)) by omega)]
      by_cases there : i < b.length
      · rw [if_pos (by omega), if_pos there]
      · by_cases gap : i < p
        · rw [if_pos (by omega), if_neg there]
        · rw [if_neg (by omega), if_neg (by omega), if_neg there, if_neg gap]

/-- A piece put where it is already changes nothing. -/
theorem place_self : (b.place p data).place p data = b.place p data := by
  apply List.ext_getElem?
  intro i
  rw [getElem?_place (b.place p data)]
  by_cases within : p ≤ i ∧ i < p + data.length
  · rw [if_pos within, getElem?_place, if_pos within]
  · rw [if_neg within]
    split
    · rfl
    next beyond =>
      have behind := beyond
      rw [length_place] at behind
      rw [if_neg (by omega), List.getElem?_eq_none (Nat.le_of_not_lt beyond)]

/-- Pieces that have no index in common can be put in either order. -/
theorem place_comm (apart : ∀ i, p ≤ i ∧ i < p + data.length → ¬ (q ≤ i ∧ i < q + more.length)) :
    (b.place p data).place q more = (b.place q more).place p data := by
  apply List.ext_getElem?
  intro i
  simp only [getElem?_place, length_place]
  by_cases first : p ≤ i ∧ i < p + data.length
  · rw [if_pos first, if_pos first, if_neg (apart i first), if_pos (by omega)]
  · by_cases second : q ≤ i ∧ i < q + more.length
    · rw [if_pos second, if_pos second, if_neg first, if_pos (by omega)]
    · -- neither piece has the index: a byte that was there, or a zero in front of one of them
      rw [if_neg first, if_neg second, if_neg first, if_neg second]
      by_cases there : i < b.length
      · rw [if_pos (by omega), if_pos there, if_pos (by omega), if_pos there]
      · have front : i < max b.length (p + data.length) ↔ i < p := by omega
        have front' : i < max b.length (q + more.length) ↔ i < q := by omega
        rw [if_neg there, if_neg there]
        simp only [front, front']
        by_cases i < p <;> by_cases i < q <;> simp only [*, if_true, if_false]

end Bytes

namespace Buffer

variable {b : Buffer} {data more : Bytes} {offset other : Nat}

/-- The buffer that a caller is left with after it put `data` at `offset`: the one that it had,
    if this was refused. -/
def put (b : Buffer) (offset : Nat) (data : Bytes) : Buffer :=
  match b.setBytes offset data with
  | .ok after => after
  | .error _ => b

theorem fits_iff {count : Nat} : fits count offset = true ↔ offset + count ≤ maxLength :=
  decide_eq_true_iff

theorem setBytes_of_fits (room : fits data.length offset = true) :
    b.setBytes offset data = .ok ⟨b.bytes.place offset data⟩ := if_pos room

theorem setBytes_of_not_fits (noRoom : ¬ fits data.length offset = true) :
    b.setBytes offset data = .error (.invalidArgument (.placement data.length offset)) :=
  if_neg noRoom

theorem put_of_fits (room : fits data.length offset = true) :
    b.put offset data = ⟨b.bytes.place offset data⟩ := by
  rw [put, setBytes_of_fits room]

theorem put_of_not_fits (noRoom : ¬ fits data.length offset = true) : b.put offset data = b := by
  rw [put, setBytes_of_not_fits noRoom]

theorem setBytes_eq_put (room : fits data.length offset = true) :
    b.setBytes offset data = .ok (b.put offset data) := by
  rw [setBytes_of_fits room, put_of_fits room]

theorem length_put (room : fits data.length offset = true) :
    (b.put offset data).length = max b.length (offset + data.length) := by
  rw [put_of_fits room]
  exact Bytes.length_place b.bytes offset data

/-- The byte at each index that a buffer has after a placement. -/
theorem getElem?_put (room : fits data.length offset = true) {i : Nat}
    (there : i < (b.put offset data).length) :
    (b.put offset data).bytes[i]? =
      if offset ≤ i ∧ i < offset + data.length then data[i - offset]?
      else if i < b.length then b.bytes[i]? else some 0 := by
  rw [length_put room] at there
  rw [put_of_fits room, Bytes.getElem?_place]
  split
  · rfl
  next aside =>
    -- an index of the new buffer that neither the data nor the old one has lies in the gap
    have gap : ¬ i < b.length → i < offset := by omega
    rw [length] at gap ⊢
    split
    · rfl
    next beyond => rw [if_pos (gap beyond)]

theorem put_put (room : fits (data ++ more).length offset = true) :
    (b.put offset data).put (offset + data.length) more = b.put offset (data ++ more) := by
  have both := fits_iff.mp room
  rw [List.length_append] at both
  rw [put_of_fits room, put_of_fits (fits_iff.mpr (by omega)), put_of_fits (fits_iff.mpr (by omega)),
    Bytes.place_place]

theorem put_self : (b.put offset data).put offset data = b.put offset data := by
  by_cases room : fits data.length offset = true
  · rw [put_of_fits room, put_of_fits room, Bytes.place_self]
  · rw [put_of_not_fits room, put_of_not_fits room]

/-- What is refused changes nothing, so there need not be room for either piece. -/
theorem put_comm
    (apart : ∀ i, offset ≤ i ∧ i < offset + data.length → ¬ (other ≤ i ∧ i < other + more.length)) :
    (b.put offset data).put other more = (b.put other more).put offset data := by
  by_cases room : fits data.length offset = true
  · by_cases room' : fits more.length other = true
    · rw [put_of_fits room, put_of_fits room', put_of_fits room, put_of_fits room',
        Bytes.place_comm apart]
    · rw [put_of_not_fits room', put_of_not_fits room']
  · rw [put_of_not_fits room, put_of_not_fits room]

/-- The laws of placements.  Data that would reach beyond the largest buffer, or beyond the
    largest index, is refused and the buffer is as it was.  All other data is put in its place:
    the buffer is as long as it was, or as long as it takes, and has at each index the byte of
    the data, or else the one that it had, or else a zero.  So two placements back to back are
    one, those that have no index in common can be exchanged, one that is made twice is made
    once, and one at the end appends. -/
theorem placements_obey_laws (b : Buffer) (offset : Nat) (data : Bytes) :
    (2 ^ 64 ≤ offset + data.length ∨ 2 ^ 63 - 1 < offset + data.length →
      b.setBytes offset data = .error (.invalidArgument (.placement data.length offset)) ∧
      b.put offset data = b) ∧
    (offset + data.length ≤ 2 ^ 63 - 1 →
      b.setBytes offset data = .ok (b.put offset data) ∧
      (b.put offset data).length = max b.length (offset + data.length) ∧
      ∀ i < (b.put offset data).length, (b.put offset data).bytes[i]? =
        if offset ≤ i ∧ i < offset + data.length then data[i - offset]?
        else if i < b.length then b.bytes[i]? else some 0) ∧
    (∀ more : Bytes, offset + data.length + more.length ≤ 2 ^ 63 - 1 →
      (b.put offset data).put (offset + data.length) more = b.put offset (data ++ more)) ∧
    (∀ other (more : Bytes),
      (∀ i, offset ≤ i ∧ i < offset + data.length → ¬ (other ≤ i ∧ i < other + more.length)) →
      (b.put offset data).put other more = (b.put other more).put offset data) ∧
    (b.put offset data).put offset data = b.put offset data ∧
    (b.length + data.length ≤ 2 ^ 63 - 1 → b.setBytes b.length data = .ok (b.append data)) := by
  have bound : maxLength = 2 ^ 63 - 1 := rfl
  refine ⟨fun large => ?_, fun room => ?_, fun more room => put_put ?_, fun other more => put_comm,
    put_self, fun room => setBytes_length b data ?_⟩
  · have noRoom : ¬ fits data.length offset = true := fun fits => by
      have within := fits_iff.mp fits
      omega
    exact ⟨setBytes_of_not_fits noRoom, put_of_not_fits noRoom⟩
  · have fits := fits_iff.mpr (bound ▸ room)
    exact ⟨setBytes_eq_put fits, length_put fits, fun i there => getElem?_put fits there⟩
  · rw [fits_iff, List.length_append, ← Nat.add_assoc]
    exact room
  · exact fits_iff.mpr room

/-- Two bytes behind a gap of two, and one more behind them; the same the other way round; and
    what lies beyond the last index. -/
theorem bytes_are_put_behind_a_gap : 4 + 2 ≤ 2 ^ 63 - 1 ∧
    (⟨[97, 98]⟩ : Buffer).setBytes 4 [120, 121] = .ok ⟨[97, 98, 0, 0, 120, 121]⟩ ∧
    ((⟨[97, 98]⟩ : Buffer).put 4 [120, 121]).put 6 [122] =
      (⟨[97, 98]⟩ : Buffer).put 4 [120, 121, 122] ∧
    ((⟨[97, 98]⟩ : Buffer).put 4 [120, 121]).put 1 [122] =
      ((⟨[97, 98]⟩ : Buffer).put 1 [122]).put 4 [120, 121] ∧
    (⟨[97, 98]⟩ : Buffer).setBytes 2 [120, 121] = .ok ⟨[97, 98, 120, 121]⟩ ∧
    2 ^ 64 ≤ 2 ^ 64 - 1 + 1 ∧ (⟨[97, 98]⟩ : Buffer).put (2 ^ 64 - 1) [120] = ⟨[97, 98]⟩ := by
  obtain ⟨-, placed, joined, exchanged, -, appended⟩ :=
    placements_obey_laws ⟨[97, 98]⟩ 4 [120, 121]
  obtain ⟨refused, -⟩ := placements_obey_laws ⟨[97, 98]⟩ (2 ^ 64 - 1) [120]
  exact ⟨by decide, (placed (by decide)).1, joined [122] (by decide),
    exchanged 1 [122] (fun i within => by simp only [List.length_cons, List.length_nil]; omega),
    appended (by decide), by decide, (refused (.inl (by decide))).2⟩

end Buffer

end PinnedFile
