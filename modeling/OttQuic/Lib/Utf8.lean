import OttQuic.Lib.CString

/-!
# UTF-8

The bytes of a text, and the text of bytes that come from one. The bytes of ASCII characters stand for
these only.
-/

namespace Utf8

/-- The bytes of a text. -/
def encode (s : List Char) : List UInt8 := s.flatMap String.utf8EncodeChar

/-- The text of bytes; empty when they are not UTF-8. -/
def decode (bytes : List UInt8) : List Char := ((bytes.toByteArray.utf8Decode?).getD #[]).toList

theorem encode_append (s t : List Char) : encode (s ++ t) = encode s ++ encode t := List.flatMap_append

theorem encode_cons (c : Char) (s : List Char) : encode (c :: s) = encode [c] ++ encode s :=
  encode_append [c] s

@[simp] theorem decode_encode (s : List Char) : decode (encode s) = s := by
  have hbytes : (encode s).toByteArray.utf8Decode? = some s.toArray := List.utf8Decode?_utf8Encode
  rw [decode, hbytes, Option.getD_some]

theorem encode_injective {s t : List Char} (h : encode s = encode t) : s = t := by
  rw [← decode_encode s, h, decode_encode]

theorem encode_ascii {c : Char} (h : c.toNat < 128) : encode [c] = [UInt8.ofNat c.toNat] := by
  rw [encode, List.flatMap_singleton, String.utf8EncodeChar]
  have hsmall : c.val.toNat ≤ 127 := Nat.le_of_lt_succ h
  exact if_pos hsmall

theorem utf8EncodeChar_high {c : Char} (h : 128 ≤ c.toNat) {b : UInt8} (hb : b ∈ String.utf8EncodeChar c) :
    128 ≤ b.toNat := by
  have hlarge : ¬ c.val.toNat ≤ 127 := fun hsmall => absurd (Nat.lt_succ_of_le hsmall) (Nat.not_lt.mpr h)
  rw [String.utf8EncodeChar, if_neg hlarge] at hb
  split_ifs at hb
  all_goals
    simp only [List.mem_cons, List.not_mem_nil, or_false] at hb
    obtain rfl | rfl | rfl | rfl := hb <;> rw [UInt8.toNat_ofNat'] <;> omega

theorem mem_encode {c : Char} (hc : c.toNat < 128) {s : List Char} :
    UInt8.ofNat c.toNat ∈ encode s ↔ c ∈ s := by
  have hbyte : (UInt8.ofNat c.toNat).toNat = c.toNat := by
    rw [UInt8.toNat_ofNat']
    omega
  rw [encode, List.mem_flatMap]
  constructor
  · rintro ⟨d, hd, hmem⟩
    by_cases hsmall : d.toNat < 128
    · have hsingle := encode_ascii hsmall
      rw [encode, List.flatMap_singleton] at hsingle
      rw [hsingle, List.mem_singleton] at hmem
      have hnat : c.toNat = d.toNat := by
        rw [← hbyte, hmem, UInt8.toNat_ofNat']
        omega
      rwa [Char.toNat_inj.mp hnat]
    · have hhigh := utf8EncodeChar_high (Nat.not_lt.mp hsmall) hmem
      omega
  · intro h
    refine ⟨c, h, ?_⟩
    have hsingle := encode_ascii hc
    rw [encode, List.flatMap_singleton] at hsingle
    rw [hsingle]
    exact List.mem_singleton.mpr rfl

theorem length_le_encode (s : List Char) : s.length ≤ (encode s).length := by
  induction s with
  | nil => exact le_rfl
  | cons c s ih =>
      have hone : 1 ≤ (encode [c]).length := by
        rw [encode, List.flatMap_singleton, String.length_utf8EncodeChar]
        exact c.utf8Size_pos
      rw [encode_cons, List.length_append, List.length_cons]
      omega

theorem ascii_eq {s : String} (h : ∀ c ∈ s.toList, c.toNat < 128) : CString.ascii s = encode s.toList := by
  rw [CString.ascii]
  generalize s.toList = l at h
  induction l with
  | nil => rfl
  | cons c l ih =>
      obtain ⟨hc, hl⟩ := List.forall_mem_cons.mp h
      rw [List.map_cons, encode_cons, encode_ascii hc, ih hl, List.singleton_append]

end Utf8
