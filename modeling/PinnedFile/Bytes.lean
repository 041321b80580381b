/-
  PinnedFile.Bytes

  Byte strings as lists, and the one way the library writes into them: placing data at
  an offset, with zeros filling whatever lies between the end and the offset.  Buffers,
  memory files and regular files all grow by this rule.

  `length_place` and `getElem?_place` say what a placement does to every byte.
-/

namespace PinnedFile

/-- A byte string. -/
abbrev Bytes := List UInt8

namespace Bytes

/-- `n` zero bytes. -/
def zeros (n : Nat) : Bytes := List.replicate n 0

/-- `b` with `data` put at `offset`: bytes before and after the range stay, and a gap
    between the end of `b` and `offset` is filled with zeros. -/
def place (b : Bytes) (offset : Nat) (data : Bytes) : Bytes :=
  b.take offset ++ zeros (offset - b.length) ++ data ++ b.drop (offset + data.length)

/-- The first `n` bytes of `b`, zeros standing for those that `b` does not have. -/
def upTo (b : Bytes) (n : Nat) : Bytes := b.take n ++ zeros (n - b.length)

/-- At most `n` bytes of `b` from `position` on: what a read finds there. -/
def window (b : Bytes) (position n : Nat) : Bytes := (b.drop position).take n

/-! ## What each operation does to lengths and to bytes -/

@[simp] theorem length_zeros (n : Nat) : (zeros n).length = n := by
  simp [zeros]

theorem getElem?_zeros (n i : Nat) : (zeros n)[i]? = if i < n then some 0 else none := by
  simp [zeros, List.getElem?_replicate]

theorem length_place (b : Bytes) (offset : Nat) (data : Bytes) :
    (place b offset data).length = max b.length (offset + data.length) := by
  simp only [place, List.length_append, List.length_take, List.length_drop, length_zeros]
  omega

theorem getElem?_place (b : Bytes) (offset : Nat) (data : Bytes) (i : Nat) :
    (place b offset data)[i]? =
      if offset ≤ i ∧ i < offset + data.length then data[i - offset]?
      else if i < b.length then b[i]?
      else if i < offset then some 0
      else none := by
  have front : (b.take offset ++ zeros (offset - b.length)).length = offset := by
    simp only [List.length_append, List.length_take, length_zeros]
    omega
  simp only [place]
  by_cases before : i < offset
  · rw [List.append_assoc, List.getElem?_append_left (by omega)]
    by_cases inside : i < b.length
    · rw [List.getElem?_append_left (by simp only [List.length_take]; omega),
        List.getElem?_take_of_lt before]
      simp [Nat.not_le.mpr before, inside]
    · rw [List.getElem?_append_right (by simp only [List.length_take]; omega), getElem?_zeros]
      simp only [List.length_take]
      rw [if_pos (by omega), if_neg (by omega), if_neg inside, if_pos before]
  · by_cases within : i < offset + data.length
    · rw [List.getElem?_append_left (by simp only [List.length_append] at front ⊢; omega),
        List.getElem?_append_right (by omega), front]
      rw [if_pos ⟨by omega, within⟩]
    · rw [List.getElem?_append_right (by simp only [List.length_append] at front ⊢; omega),
        List.getElem?_drop]
      have shift : offset + data.length +
          (i - (b.take offset ++ zeros (offset - b.length) ++ data).length) = i := by
        rw [List.length_append, front]
        omega
      rw [shift, if_neg (by omega)]
      by_cases inside : i < b.length
      · rw [if_pos inside]
      · rw [if_neg inside, if_neg before, List.getElem?_eq_none (by omega)]

theorem length_upTo (b : Bytes) (n : Nat) : (upTo b n).length = n := by
  simp only [upTo, List.length_append, List.length_take, length_zeros]
  omega

theorem length_window (b : Bytes) (position n : Nat) :
    (window b position n).length = min n (b.length - position) := by
  simp [window]

theorem getElem?_window (b : Bytes) (position n i : Nat) :
    (window b position n)[i]? = if i < n then b[position + i]? else none := by
  simp only [window, List.getElem?_take, List.getElem?_drop]

end Bytes

end PinnedFile
