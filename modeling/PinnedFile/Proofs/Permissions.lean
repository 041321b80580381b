/-
  PinnedFile.Proofs.Permissions

  Permission strings and modes are two forms of one thing.

  A form is nine bytes long, with a dash or the letter whose turn it is at each index.  The
  parser keeps what it has read in the low bits of the mode, one bit a byte, and what it began
  with above them; so after the last byte the bit of each letter is where it belongs, and the
  mode says which form was read.  The parser stops at the first byte that may not stand where it
  stands.
-/

import Mathlib.Algebra.Group.Nat.Defs
import PinnedFile.Permissions

namespace PinnedFile

/-! ## Bytes of a text -/

namespace Text

theorem loop_toList (bytes : ByteArray) (i : Nat) (front : List UInt8) :
    ByteArray.toList.loop bytes i front = front.reverse ++ bytes.data.toList.drop i := by
  fun_induction ByteArray.toList.loop bytes i front with
  | case1 i front there ih =>
    have inside : i < bytes.data.toList.length := by simpa using there
    rw [ih, List.drop_eq_getElem_cons inside]
    simp [ByteArray.get!, there]
  | case2 i front beyond =>
    rw [List.drop_eq_nil_of_le (by simpa using Nat.le_of_not_lt beyond), List.append_nil]

theorem toList_eq_toList_data (bytes : ByteArray) : bytes.toList = bytes.data.toList :=
  loop_toList bytes 0 []

/-- A text is known by its bytes. -/
theorem eq_of_toUTF8 {s t : String} (same : s.toUTF8.toList = t.toUTF8.toList) : s = t := by
  rw [toList_eq_toList_data, toList_eq_toList_data, Array.toList_inj] at same
  exact String.toByteArray_inj.mp (ByteArray.ext same)

theorem toUTF8_ofList (chars : List Char) :
    (String.ofList chars).toUTF8.toList = chars.flatMap String.utf8EncodeChar := by
  rw [String.toUTF8_eq_toByteArray, String.toByteArray_ofList, toList_eq_toList_data]
  exact List.toList_data_toByteArray

end Text

namespace Permissions

/-! ## The form -/

/-- A byte may stand at an index of a form: a dash, or the letter of `rwx` whose turn it is. -/
def MayStand (index : Nat) (c : UInt8) : Prop :=
  c = dash ∨ "rwx".toUTF8.toList[index % 3]? = some c

/-- Nine bytes, each of which may stand where it stands. -/
structure IsForm (bytes : Bytes) : Prop where
  length : bytes.length = 9
  mayStand : ∀ i c, bytes[i]? = some c → MayStand i c

variable {index mode : Nat} {c : UInt8} {bytes : Bytes} {text other : String}

theorem toUTF8_rwx : "rwx".toUTF8.toList = [114, 119, 120] := by decide +kernel

theorem getElem?_rwx (index : Nat) : "rwx".toUTF8.toList[index % 3]? = some (letter index) := by
  rw [toUTF8_rwx, letter]
  obtain first | second | third : index % 3 = 0 ∨ index % 3 = 1 ∨ index % 3 = 2 := by omega
  · rw [first]
    rfl
  · rw [second]
    rfl
  · rw [third]
    rfl

theorem mayStand_iff : MayStand index c ↔ c = dash ∨ c = letter index := by
  rw [MayStand, getElem?_rwx, Option.some_inj, eq_comm (a := letter index)]

theorem letter_ne_dash (index : Nat) : letter index ≠ dash := by
  unfold letter
  split <;> decide

/-! ## Reading bytes -/

/-- What a mode has to do with the bytes that it was read from, with `before` read already: each
    byte may stand where it stands, its bit says whether it is a letter, and `before` is above the
    bits of all of them. -/
structure IsModeOf (index before : Nat) (bytes : Bytes) (mode : Nat) : Prop where
  mayStand : ∀ i c, bytes[i]? = some c → MayStand (index + i) c
  testBit : ∀ i c, bytes[i]? = some c → mode.testBit (bytes.length - 1 - i) = decide (c ≠ dash)
  above : mode / 2 ^ bytes.length = before

theorem IsModeOf.cons {before bit : Nat} {rest : Bytes}
    (read : IsModeOf (index + 1) (2 * before + bit) rest mode) (stands : MayStand index c)
    (small : bit < 2) (isLetter : (bit = 1) = (c ≠ dash)) :
    IsModeOf index before (c :: rest) mode where
  mayStand
    | 0, _, same => Option.some.inj same ▸ stands
    | i + 1, d, there => by
      rw [Nat.add_comm i, ← Nat.add_assoc]
      exact read.mayStand i d there
  testBit
    | 0, _, same => by
      -- the bit of the first byte is the lowest one above those of the rest
      rw [← Option.some.inj same, List.length_cons, Nat.add_sub_cancel, Nat.sub_zero,
        Nat.testBit_eq_decide_div_mod_eq, read.above]
      simp only [← isLetter, decide_eq_decide]
      omega
    | i + 1, d, there => by
      rw [List.length_cons, Nat.add_sub_cancel, Nat.add_comm i, ← Nat.sub_sub]
      exact read.testBit i d there
  above := by
    rw [List.length_cons, Nat.pow_succ, ← Nat.div_div_eq_div_mul, read.above]
    omega

/-- What is read of bytes is their mode. -/
theorem isModeOf_of_parseFrom {before : Nat} (ok : parseFrom index before bytes = .ok mode) :
    IsModeOf index before bytes mode := by
  induction bytes generalizing index before with
  | nil =>
    obtain rfl := Except.ok.inj ok
    exact ⟨nofun, nofun, Nat.div_one _⟩
  | cons c rest ih =>
    simp only [parseFrom] at ok
    split at ok
    next isLetter =>
      have notDash : c ≠ dash := isLetter ▸ letter_ne_dash index
      have set : ((1 : Nat) = 1) = (c ≠ dash) := by simp [notDash]
      exact (ih ok).cons (mayStand_iff.mpr (.inr isLetter)) (by decide) set
    next =>
      split at ok
      next isDash =>
        have unset : ((0 : Nat) = 1) = (c ≠ dash) := by simp [isDash]
        exact (ih ok).cons (mayStand_iff.mpr (.inl isDash)) (by decide) unset
      · cases ok

/-- Reading stops at the first byte that may not stand where it stands. -/
theorem misfit_of_parseFrom {before found : Nat}
    (stopped : parseFrom index before bytes = .error (c, found)) :
    ∃ k, found = index + k ∧ bytes[k]? = some c ∧ ¬ MayStand found c ∧
      ∀ i < k, ∀ d, bytes[i]? = some d → MayStand (index + i) d := by
  induction bytes generalizing index before with
  | nil => cases stopped
  | cons b rest ih =>
    have later {next : Nat} (stopped : parseFrom (index + 1) next rest = .error (c, found))
        (stands : MayStand index b) : ∃ k, found = index + k ∧ (b :: rest)[k]? = some c ∧
          ¬ MayStand found c ∧ ∀ i < k, ∀ d, (b :: rest)[i]? = some d → MayStand (index + i) d := by
      obtain ⟨k, rfl, there, misfit, earlier⟩ := ih stopped
      refine ⟨k + 1, by omega, there, misfit, fun i less d listed => ?_⟩
      rcases i with _ | i
      · exact Option.some.inj listed ▸ stands
      · rw [Nat.add_comm i, ← Nat.add_assoc]
        exact earlier i (Nat.lt_of_succ_lt_succ less) d listed
    simp only [parseFrom] at stopped
    split at stopped
    next isLetter => exact later stopped (mayStand_iff.mpr (.inr isLetter))
    next notLetter =>
      split at stopped
      next isDash => exact later stopped (mayStand_iff.mpr (.inl isDash))
      next notDash =>
        obtain ⟨rfl, rfl⟩ := Prod.mk.inj (Except.error.inj stopped)
        refine ⟨0, rfl, rfl, fun stands => ?_, fun i less => absurd less (Nat.not_lt_zero i)⟩
        exact (mayStand_iff.mp stands).elim notDash notLetter

/-! ## Writing bytes -/

theorem length_renderBytes (mode : Nat) : (renderBytes mode).length = 9 := by
  rw [renderBytes, List.length_map, List.length_range]

theorem getElem?_renderBytes {i : Nat} (inside : i < 9) :
    (renderBytes mode)[i]? = some (byteOf mode i) := by
  rw [renderBytes, List.getElem?_map, List.getElem?_range inside]
  rfl

theorem byteOf_ne_dash_iff (mode index : Nat) :
    byteOf mode index ≠ dash ↔ mode.testBit (8 - index) = true := by
  unfold byteOf
  split
  next set => exact iff_of_true (letter_ne_dash index) set
  next clear => exact iff_of_false (fun differs => differs rfl) clear

theorem mayStand_byteOf (mode index : Nat) : MayStand index (byteOf mode index) := by
  rw [mayStand_iff, byteOf]
  split
  · exact .inr rfl
  · exact .inl rfl

theorem isForm_renderBytes (mode : Nat) : IsForm (renderBytes mode) where
  length := length_renderBytes mode
  mayStand i c there := by
    have inside := (List.getElem?_eq_some_iff.mp there).1
    rw [length_renderBytes] at inside
    rw [getElem?_renderBytes inside] at there
    exact Option.some.inj there ▸ mayStand_byteOf mode i

theorem utf8EncodeChar_byteOf (mode index : Nat) :
    String.utf8EncodeChar (Char.ofNat (byteOf mode index).toNat) = [byteOf mode index] := by
  have each : ∀ b ∈ [45, 114, 119, 120], String.utf8EncodeChar (Char.ofNat b.toNat) = [b] := by
    decide +kernel
  apply each
  unfold byteOf
  split
  · unfold letter
    split <;> decide
  · decide

theorem toUTF8_render (mode : Nat) : (render mode).toUTF8.toList = renderBytes mode := by
  rw [render, Text.toUTF8_ofList, renderBytes, List.map_map, List.flatMap_map, List.map_eq_flatMap]
  simp only [Function.comp_apply, utf8EncodeChar_byteOf]

/-! ## There and back -/

/-- Bytes of which each is a letter exactly if its bit is set are the form of the mode. -/
theorem IsForm.eq_renderBytes (form : IsForm bytes)
    (bits : ∀ i c, bytes[i]? = some c → mode.testBit (8 - i) = decide (c ≠ dash)) :
    bytes = renderBytes mode := by
  apply List.ext_getElem?
  intro i
  by_cases inside : i < 9
  · obtain ⟨c, there⟩ : ∃ c, bytes[i]? = some c :=
      ⟨_, List.getElem?_eq_getElem (form.length.symm ▸ inside)⟩
    rw [getElem?_renderBytes inside, there, byteOf, bits i c there]
    rcases mayStand_iff.mp (form.mayStand i c there) with rfl | rfl
    · simp
    · simp [letter_ne_dash]
  · rw [List.getElem?_eq_none (by have := form.length; omega),
      List.getElem?_eq_none (by rw [length_renderBytes]; omega)]

/-- What is read is the mode of a form, and a mode of nine bits. -/
theorem form_of_parse (ok : parse text = .ok mode) : IsForm text.toUTF8.toList ∧ mode ≤ 0o777 ∧
    ∀ i c, text.toUTF8.toList[i]? = some c → mode.testBit (8 - i) = decide (c ≠ dash) := by
  simp only [parse] at ok
  split at ok
  next length =>
    split at ok
    next mode' read =>
      obtain rfl := Except.ok.inj ok
      obtain ⟨mayStand, testBit, above⟩ := isModeOf_of_parseFrom read
      rw [length] at testBit above
      refine ⟨⟨length, fun i c there => ?_⟩, ?_, testBit⟩
      · exact Nat.zero_add i ▸ mayStand i c there
      · omega
    · cases ok
  · cases ok

/-- What is refused is not nine bytes long, or has a first byte that may not stand where it
    stands. -/
theorem misfit_of_parse {misuse : Misuse} (refused : parse text = .error misuse) :
    (text.toUTF8.toList.length ≠ 9 ∧ misuse = .permissionLength text) ∨
    ∃ i c, text.toUTF8.toList.length = 9 ∧ text.toUTF8.toList[i]? = some c ∧ ¬ MayStand i c ∧
      (∀ j < i, ∀ d, text.toUTF8.toList[j]? = some d → MayStand j d) ∧
      misuse = .permissionLetter text c i := by
  simp only [parse] at refused
  split at refused
  next length =>
    split at refused
    · cases refused
    next c i stopped =>
      obtain ⟨k, found, there, misfit, earlier⟩ := misfit_of_parseFrom stopped
      rw [Nat.zero_add] at found
      subst found
      refine .inr ⟨i, c, length, there, misfit, fun j less d listed => ?_, ?_⟩
      · exact Nat.zero_add j ▸ earlier j less d listed
      · exact (Except.error.inj refused).symm
  next length => exact .inl ⟨length, (Except.error.inj refused).symm⟩

theorem exists_parse_iff : (∃ mode, parse text = .ok mode) ↔ IsForm text.toUTF8.toList := by
  constructor
  · rintro ⟨mode, ok⟩
    exact (form_of_parse ok).1
  · intro form
    rcases result : parse text with misuse | mode
    · rcases misfit_of_parse result with ⟨length, -⟩ | ⟨i, c, -, there, misfit, -⟩
      · exact absurd form.length length
      · exact absurd (form.mayStand i c there) misfit
    · exact ⟨mode, rfl⟩

theorem render_parse (ok : parse text = .ok mode) : render mode = text := by
  obtain ⟨form, -, bits⟩ := form_of_parse ok
  apply Text.eq_of_toUTF8
  rw [toUTF8_render]
  exact (form.eq_renderBytes bits).symm

theorem parse_render (small : mode ≤ 0o777) : parse (render mode) = .ok mode := by
  obtain ⟨read, ok⟩ := exists_parse_iff.mpr ((toUTF8_render mode).symm ▸ isForm_renderBytes mode)
  obtain ⟨-, small', bits⟩ := form_of_parse ok
  rw [ok]
  refine congrArg _ (Nat.eq_of_testBit_eq fun k => ?_)
  by_cases low : k < 9
  · have bit := bits (8 - k) (byteOf mode (8 - k)) (by
      rw [toUTF8_render]
      exact getElem?_renderBytes (by omega))
    rw [Nat.sub_sub_self (Nat.le_of_lt_succ low)] at bit
    rw [bit, Bool.eq_iff_iff, decide_eq_true_iff, byteOf_ne_dash_iff,
      Nat.sub_sub_self (Nat.le_of_lt_succ low)]
  · have high : 2 ^ 9 ≤ 2 ^ k := Nat.pow_le_pow_right (by decide) (Nat.le_of_not_lt low)
    rw [Nat.testBit_lt_two_pow (by omega), Nat.testBit_lt_two_pow (by omega)]

/-- Permission strings and modes correspond.  A string is read exactly if its bytes are a form;
    its mode has nine bits, one for each index and set unless a dash stands there, and is written
    as the string again.  A string of another length is refused for that, and one of nine bytes
    for the first that may not stand where it stands, which the message tells with its index.
    Each mode of nine bits is read from the string that it is written as, and no other string is
    read as this mode. -/
theorem forms_and_modes_correspond :
    (∀ text : String,
      ((∃ mode, parse text = .ok mode) ↔ IsForm text.toUTF8.toList) ∧
      (∀ mode, parse text = .ok mode →
        mode ≤ 0o777 ∧
        (∀ i < 9, mode.testBit (8 - i) = true ↔ text.toUTF8.toList[i]? ≠ some dash) ∧
        render mode = text) ∧
      (text.toUTF8.toList.length ≠ 9 → parse text = .error (.permissionLength text)) ∧
      (text.toUTF8.toList.length = 9 → ¬ IsForm text.toUTF8.toList →
        ∃ i c, text.toUTF8.toList[i]? = some c ∧ ¬ MayStand i c ∧
          (∀ j < i, ∀ d, text.toUTF8.toList[j]? = some d → MayStand j d) ∧
          parse text = .error (.permissionLetter text c i) ∧
          (Misuse.permissionLetter text c i).reason =
            "invalid permission string " ++ Text.quoteString text ++ ": unexpected "
              ++ Text.quoteChar (Char.ofNat c.toNat) ++ " at " ++ toString i)) ∧
    (∀ mode ≤ 0o777, parse (render mode) = .ok mode) ∧
    ∀ text other mode, parse text = .ok mode → parse other = .ok mode → text = other := by
  refine ⟨fun text => ⟨exists_parse_iff, fun mode ok => ?_, fun length => ?_, fun length noForm => ?_⟩,
    fun mode => parse_render, fun text other mode ok ok' => ?_⟩
  · obtain ⟨form, small, bits⟩ := form_of_parse ok
    refine ⟨small, fun i inside => ?_, render_parse ok⟩
    have there := List.getElem?_eq_getElem (form.length.symm ▸ inside)
    rw [bits i _ there, there, decide_eq_true_iff, ne_eq, ne_eq, Option.some_inj]
  · rcases result : parse text with misuse | mode
    · rcases misfit_of_parse result with ⟨-, rfl⟩ | ⟨i, c, length', -⟩
      · rfl
      · exact absurd length' length
    · exact absurd (form_of_parse result).1.length length
  · rcases result : parse text with misuse | mode
    · rcases misfit_of_parse result with ⟨length', -⟩ | ⟨i, c, -, there, misfit, earlier, rfl⟩
      · exact absurd length length'
      · exact ⟨i, c, there, misfit, earlier, rfl, rfl⟩
    · exact absurd (form_of_parse result).1 noForm
  · exact (render_parse ok).symm.trans (render_parse ok')

/-- A text of eight characters may be nine bytes long. -/
example : parse "rwxr-x-é" = .error (.permissionLetter "rwxr-x-é" 0xc3 7) := by
  rw [parse, Text.toList_eq_toList_data]
  rfl

/-- The owner may do everything, and the group may read and execute. -/
theorem group_reads_and_executes : 0o750 ≤ 0o777 ∧ parse "rwxr-x---" = .ok 0o750 ∧
    IsForm "rwxr-x---".toUTF8.toList ∧ render 0o750 = "rwxr-x---" ∧
    Nat.testBit 0o750 (8 - 5) = true ∧
    "rwxr-x--é".toUTF8.toList.length ≠ 9 ∧
    parse "rwxr-x--é" = .error (.permissionLength "rwxr-x--é") := by
  obtain ⟨texts, modes, -⟩ := forms_and_modes_correspond
  have written : render 0o750 = "rwxr-x---" := by decide +kernel
  have read : parse "rwxr-x---" = .ok 0o750 := written ▸ modes 0o750 (by decide)
  have long : "rwxr-x--é".toUTF8.toList.length ≠ 9 := by decide +kernel
  obtain ⟨form, modeOf, -⟩ := texts "rwxr-x---"
  obtain ⟨-, bits, -⟩ := modeOf 0o750 read
  obtain ⟨-, -, longer, -⟩ := texts "rwxr-x--é"
  exact ⟨by decide, read, form.mp ⟨_, read⟩, written, (bits 5 (by decide)).mpr (by decide +kernel),
    long, longer long⟩

end Permissions

end PinnedFile
