/-
Strings and their bytes.

The bytes of a string determine it, and an ASCII byte stands for its own character and for
nothing else: UTF-8 writes no other character with one.
-/
import LlmGateway.Rust

namespace LlmGateway

theorem asBytes_ofList (l : List Char) :
    asBytes (String.ofList l) = l.flatMap String.utf8EncodeChar := by
  unfold asBytes
  rw [String.toUTF8_eq_toByteArray, String.toByteArray_ofList, List.utf8Encode,
    List.toList_data_toByteArray]

theorem asBytes_injective : Function.Injective asBytes := by
  intro s t h
  refine String.toByteArray_inj.mp ?_
  unfold asBytes at h
  rw [String.toUTF8_eq_toByteArray, String.toUTF8_eq_toByteArray] at h
  exact ByteArray.ext (Array.toList_inj.mp h)

/-- An ASCII byte occurs in the encoding of its own character only. -/
theorem ascii_mem_utf8EncodeChar {c : Char} {b : UInt8} (hb : b.toNat < 128)
    (h : b ∈ String.utf8EncodeChar c) : c.toNat = b.toNat := by
  have hbyte : ∀ n : Nat, 128 ≤ n → n < 256 → b ≠ UInt8.ofNat n := by
    intro n hle hlt heq
    rw [heq, UInt8.toNat_ofNat', Nat.mod_eq_of_lt hlt] at hb
    omega
  by_cases hone : c.val.toNat ≤ 0x7f
  · simp only [String.utf8EncodeChar, if_pos hone, List.mem_singleton] at h
    rw [h, UInt8.toNat_ofNat', Nat.mod_eq_of_lt (by omega)]
    rfl
  · exfalso
    simp only [String.utf8EncodeChar, if_neg hone] at h
    split at h
    · simp only [List.mem_cons, List.not_mem_nil, or_false] at h
      rcases h with h | h <;> exact hbyte _ (by omega) (by omega) h
    · split at h
      · simp only [List.mem_cons, List.not_mem_nil, or_false] at h
        rcases h with h | h | h <;> exact hbyte _ (by omega) (by omega) h
      · simp only [List.mem_cons, List.not_mem_nil, or_false] at h
        rcases h with h | h | h | h <;> exact hbyte _ (by omega) (by omega) h

/-- So an ASCII byte of a text is one of its characters. -/
theorem ascii_mem_asBytes {l : List Char} {a : Char} (ha : a.toNat < 128)
    (h : UInt8.ofNat a.toNat ∈ asBytes (String.ofList l)) : a ∈ l := by
  have hbyte : (UInt8.ofNat a.toNat).toNat = a.toNat := by
    rw [UInt8.toNat_ofNat', Nat.mod_eq_of_lt (by omega)]
  rw [asBytes_ofList, List.mem_flatMap] at h
  obtain ⟨c, hc, hmem⟩ := h
  have heq := ascii_mem_utf8EncodeChar (by omega) hmem
  rw [hbyte] at heq
  rw [← Char.toNat_inj.mp heq]
  exact hc

@[simp] theorem fromUtf8_asBytes (s : String) : fromUtf8 (asBytes s) = some s := by
  have hvalid : s.toByteArray.IsValidUTF8 := s.isValidUTF8
  simpa [fromUtf8, asBytes, String.fromUTF8?, String.fromUTF8] using hvalid

/-! ### Lines -/

/-- The first line of a text, with its line feed, and the others. -/
theorem splitInclusive_line {l rest : List Char} (hl : '\n' ∉ l) :
    splitInclusive (l ++ '\n' :: rest) = (l ++ ['\n']) :: splitInclusive rest := by
  induction l with
  | nil => simp [splitInclusive]
  | cons c l ih =>
      rw [List.mem_cons, not_or] at hl
      rw [List.cons_append, splitInclusive, if_neg (Ne.symm hl.1), ih hl.2]
      rfl

theorem stripLineEnd_line {l : List Char} (hl : l.getLast? ≠ some '\r') :
    stripLineEnd (l ++ ['\n']) = l := by
  unfold stripLineEnd
  rw [if_pos (by simp), List.dropLast_concat, if_neg hl]

/-- Lines that end in nothing but their line feed are read back. -/
theorem lines_flatMap {ls : List (List Char)}
    (hls : ∀ l ∈ ls, '\n' ∉ l ∧ l.getLast? ≠ some '\r') :
    lines (String.ofList (ls.flatMap (· ++ ['\n']))) = ls.map String.ofList := by
  unfold lines
  rw [String.toList_ofList]
  induction ls with
  | nil => rfl
  | cons l ls ih =>
      obtain ⟨hlf, hcr⟩ := hls l List.mem_cons_self
      have hcons : (l :: ls).flatMap (· ++ ['\n']) = l ++ '\n' :: ls.flatMap (· ++ ['\n']) := by
        simp
      rw [hcons, splitInclusive_line hlf, List.map_cons, stripLineEnd_line hcr,
        ih fun l' hl' => hls l' (List.mem_cons_of_mem _ hl')]
      rfl

theorem stripPrefix_append (pre s : List Char) :
    stripPrefix (String.ofList pre) (String.ofList (pre ++ s)) = some (String.ofList s) := by
  unfold stripPrefix
  rw [if_pos (by simp)]
  simp

/-- What follows the last separator is determined, and so is what stands before it. -/
theorem append_cons_cancel {α : Type} {a : α} {xs xs' ys ys' : List α} (hys : a ∉ ys)
    (hys' : a ∉ ys') (h : xs ++ a :: ys = xs' ++ a :: ys') : xs = xs' ∧ ys = ys' := by
  rcases List.append_eq_append_iff.mp h with ⟨t, rfl, ht⟩ | ⟨t, rfl, ht⟩
  · cases t with
    | nil => exact ⟨by simp, (List.cons.inj ht).2⟩
    | cons c t =>
        exfalso
        rw [(List.cons.inj ht).2] at hys
        exact hys (by simp)
  · cases t with
    | nil => exact ⟨by simp, (List.cons.inj ht).2.symm⟩
    | cons c t =>
        exfalso
        rw [(List.cons.inj ht).2] at hys'
        exact hys' (by simp)

end LlmGateway
