import Mathlib.Data.List.Basic

/-!
# The bytes of a text

A text is the sequence of the bytes of its UTF-8 encoding (`bytes`), and read back from it
(`decode`). An ASCII byte occurs among the bytes of a text only where its character does: it is
never a part of a longer encoding.
-/

namespace Utf8

/-- The bytes of a text. -/
def bytes (s : String) : List UInt8 := s.toByteArray.data.toList

/-- The text of some bytes, if they are the bytes of one. -/
def decode (l : List UInt8) : Option String := String.fromUTF8? l.toByteArray

theorem toByteArray_bytes (s : String) : (bytes s).toByteArray = s.toByteArray := by
  refine ByteArray.ext (Array.toList_inj.1 ?_)
  exact List.toList_data_toByteArray

@[simp] theorem decode_bytes (s : String) : decode (bytes s) = some s := by
  rw [decode, toByteArray_bytes, String.fromUTF8?, dif_pos s.isValidUTF8]
  rfl

/-- What is read back are the bytes of the text. -/
theorem bytes_of_decode {l : List UInt8} {s : String} (h : decode l = some s) : bytes s = l := by
  rw [decode, String.fromUTF8?] at h
  split at h
  · cases h
    exact List.toList_data_toByteArray
  · cases h

/-- Texts that are decoded one by one have the bytes that they were decoded from. -/
theorem map_bytes_of_mapM {l : List (List UInt8)} {texts : List String}
    (h : l.mapM decode = some texts) :
    texts.map bytes = l := by
  induction l generalizing texts with
  | nil =>
    cases h
    rfl
  | cons a l ih =>
    rw [List.mapM_cons] at h
    obtain ⟨text, htext, h⟩ := Option.bind_eq_some_iff.1 h
    obtain ⟨rest, hrest, h⟩ := Option.bind_eq_some_iff.1 h
    cases h
    rw [List.map_cons, bytes_of_decode htext, ih hrest]

@[simp] theorem bytes_append (s t : String) : bytes (s ++ t) = bytes s ++ bytes t := by
  rw [bytes, String.toByteArray_append]
  exact ByteArray.toList_data_append

theorem bytes_ofList (l : List Char) : bytes (String.ofList l) = l.flatMap String.utf8EncodeChar := by
  rw [bytes, String.toByteArray_ofList, List.utf8Encode]
  exact List.toList_data_toByteArray

/-- A character is encoded as its ASCII byte, or in bytes that are not ASCII. -/
theorem mem_utf8EncodeChar {c : Char} {b : UInt8} (h : b ∈ String.utf8EncodeChar c) :
    b.toNat = c.toNat ∨ 128 ≤ b.toNat := by
  have hlarge (n : ℕ) (hle : 128 ≤ n) (hlt : n < 256) : 128 ≤ (UInt8.ofNat n).toNat := by
    rwa [UInt8.toNat_ofNat_of_lt' hlt]
  have hc : c.val.toNat = c.toNat := rfl
  rw [String.utf8EncodeChar, hc] at h
  split at h
  · rename_i hsmall
    rw [List.mem_singleton] at h
    exact .inl (h ▸ UInt8.toNat_ofNat_of_lt' (Nat.lt_of_le_of_lt hsmall (by decide)))
  · refine .inr ?_
    split at h
    · simp only [List.mem_cons, List.not_mem_nil, or_false] at h
      rcases h with rfl | rfl <;> exact hlarge _ (by omega) (by omega)
    · split at h
      · simp only [List.mem_cons, List.not_mem_nil, or_false] at h
        rcases h with rfl | rfl | rfl <;> exact hlarge _ (by omega) (by omega)
      · simp only [List.mem_cons, List.not_mem_nil, or_false] at h
        rcases h with rfl | rfl | rfl | rfl <;> exact hlarge _ (by omega) (by omega)

/-- An ASCII byte stands for its character. -/
theorem exists_of_mem_bytes {s : String} {b : UInt8} (hb : b.toNat < 128) (h : b ∈ bytes s) :
    ∃ c ∈ s.toList, c.toNat = b.toNat := by
  rw [← s.ofList_toList, bytes_ofList] at h
  obtain ⟨c, hc, hmem⟩ := List.mem_flatMap.1 h
  rcases mem_utf8EncodeChar hmem with heq | hlarge
  · exact ⟨c, hc, heq.symm⟩
  · omega

/-- A character of the end of a text is one of the text. -/
theorem mem_toList_append {s t : String} {c : Char} (h : c ∈ t.toList) : c ∈ (s ++ t).toList := by
  rw [String.toList_append]
  exact List.mem_append_right _ h

/-- The byte of an ASCII character is among the bytes of a text that has the character. -/
theorem mem_bytes_of_mem {s : String} {c : Char} (hc : c.toNat < 128) (h : c ∈ s.toList) :
    UInt8.ofNat c.toNat ∈ bytes s := by
  rw [← s.ofList_toList, bytes_ofList]
  refine List.mem_flatMap.2 ⟨c, h, ?_⟩
  rw [String.utf8EncodeChar]
  split
  · exact List.mem_singleton.2 rfl
  · rename_i hlarge
    exact absurd (Nat.le_of_lt_succ hc) hlarge

end Utf8
