import Mathlib.Data.List.Basic

/-!
# Bytes of texts

A character whose first byte is in ASCII has that byte as its code.  What the bytes of a text
say of its characters is cheap to compute; the characters themselves are not.
-/

namespace SetadJang.Framework

/-- The bytes of a text in UTF-8. -/
def utf8Bytes (s : String) : List UInt8 := s.toByteArray.data.toList

theorem utf8Bytes_eq (s : String) : utf8Bytes s = s.toList.flatMap String.utf8EncodeChar := by
  rw [utf8Bytes, ← String.utf8Encode_toList, List.utf8Encode, List.toList_data_toByteArray]

/-- The first byte of a character is its code, if that byte is in ASCII. -/
theorem utf8EncodeChar_cases (c : Char) :
    ∃ b rest, String.utf8EncodeChar c = b :: rest ∧ (b.toNat < 128 → c.toNat = b.toNat) := by
  have hcode : c.val.toNat = c.toNat := rfl
  unfold String.utf8EncodeChar
  dsimp only
  split_ifs with hone htwo hthree
  · refine ⟨_, _, rfl, fun _ => ?_⟩
    rw [UInt8.toNat_ofNat']
    omega
  · refine ⟨_, _, rfl, fun hlt => ?_⟩
    rw [UInt8.toNat_ofNat'] at hlt
    omega
  · refine ⟨_, _, rfl, fun hlt => ?_⟩
    rw [UInt8.toNat_ofNat'] at hlt
    omega
  · refine ⟨_, _, rfl, fun hlt => ?_⟩
    rw [UInt8.toNat_ofNat'] at hlt
    omega

/-- The characters of a text in ASCII are among its bytes. -/
theorem exists_utf8Byte {s : String} (h : ∀ b ∈ utf8Bytes s, b.toNat < 128) {c : Char}
    (hc : c ∈ s.toList) : ∃ b ∈ utf8Bytes s, b.toNat = c.toNat := by
  obtain ⟨b, rest, hbytes, hcode⟩ := utf8EncodeChar_cases c
  have hb : b ∈ utf8Bytes s := by
    rw [utf8Bytes_eq]
    exact List.mem_flatMap.mpr ⟨c, hc, by rw [hbytes]; exact List.mem_cons_self⟩
  exact ⟨b, hb, (hcode (h b hb)).symm⟩

/-- A text that begins with a byte of ASCII begins with that character. -/
theorem head_of_utf8Bytes {s : String} {b : UInt8} (h : (utf8Bytes s).head? = some b)
    (hascii : b.toNat < 128) : ∃ c rest, s.toList = c :: rest ∧ c.toNat = b.toNat := by
  rw [utf8Bytes_eq] at h
  cases hs : s.toList with
  | nil =>
      rw [hs] at h
      cases h
  | cons c rest =>
      obtain ⟨first, others, hbytes, hcode⟩ := utf8EncodeChar_cases c
      rw [hs, List.flatMap_cons, hbytes] at h
      obtain rfl := Option.some.inj h
      exact ⟨c, rest, rfl, hcode hascii⟩

end SetadJang.Framework
