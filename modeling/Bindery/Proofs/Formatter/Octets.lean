import Bindery.Formatter.Octets
import Bindery.Proofs.Text.Decoding

/-! Characters and their bytes.

A small character is its own byte, and no byte of another character is small. So a small word is
given to a program as it is (`octetWord_of_small`), and what is done to the small characters of a
text can be done to its bytes (`octets_map`). -/
namespace Bindery.Formatter

/-! ### Octets -/

theorem toNat_ofNat {n : Nat} (hn : n < 256) : (Char.ofNat n).toNat = n := by
  rw [Char.ofNat, dif_pos (Or.inl (by omega))]
  rfl

/-- Characters that bytes stand for. -/
def AreOctets (text : Octets) : Prop := ∀ c ∈ text, c.toNat < 256

theorem areOctets_ofBytes (bs : Text.Bytes) : AreOctets (ofBytes bs) := by
  intro c hc
  obtain ⟨b, _, rfl⟩ := List.mem_map.1 hc
  rw [toNat_ofNat b.toNat_lt]
  exact b.toNat_lt

theorem octets_eq_flatMap (text : String) :
    octets text = text.toList.flatMap fun c => ofBytes (String.utf8EncodeChar c) := by
  rw [octets, Text.bytes_eq_flatMap, ofBytes, List.map_flatMap]
  rfl

/-! ### Small characters -/

/-- A character that is its own byte. -/
def IsSmall (c : Char) : Prop := c.toNat < 128

instance : DecidablePred IsSmall := fun c => inferInstanceAs (Decidable (c.toNat < 128))

theorem ofBytes_of_small {c : Char} (hc : IsSmall c) : ofBytes (String.utf8EncodeChar c) = [c] := by
  have hval : c.val.toNat ≤ 127 := Nat.le_of_lt_succ hc
  have hbyte : (UInt8.ofNat c.val.toNat).toNat = c.toNat :=
    UInt8.toNat_ofNat_of_lt' (Nat.lt_of_le_of_lt hval (by decide))
  rw [String.utf8EncodeChar, if_pos hval, ofBytes, List.map_singleton, hbyte, Char.ofNat_toNat]

/-- The bytes of a character that is not small are all in the upper half. -/
theorem le_of_mem_utf8EncodeChar {c : Char} (hc : ¬IsSmall c) {b : UInt8}
    (hb : b ∈ String.utf8EncodeChar c) : 128 ≤ b.toNat := by
  have hval : ¬c.val.toNat ≤ 127 := fun h => hc (Nat.lt_succ_of_le h)
  have hupper : ∀ n, 128 ≤ n → n < 256 → 128 ≤ (UInt8.ofNat n).toNat := by
    intro n hlow hhigh
    rwa [UInt8.toNat_ofNat_of_lt' hhigh]
  rw [String.utf8EncodeChar, if_neg hval] at hb
  generalize c.val.toNat = v at hb
  split at hb
  · simp only [List.mem_cons, List.not_mem_nil, or_false] at hb
    obtain rfl | rfl := hb <;> exact hupper _ (by omega) (by omega)
  · split at hb
    · simp only [List.mem_cons, List.not_mem_nil, or_false] at hb
      obtain rfl | rfl | rfl := hb <;> exact hupper _ (by omega) (by omega)
    · simp only [List.mem_cons, List.not_mem_nil, or_false] at hb
      obtain rfl | rfl | rfl | rfl := hb <;> exact hupper _ (by omega) (by omega)

theorem not_small_of_mem_ofBytes {c d : Char} (hc : ¬IsSmall c)
    (hd : d ∈ ofBytes (String.utf8EncodeChar c)) : ¬IsSmall d := by
  obtain ⟨b, hb, rfl⟩ := List.mem_map.1 hd
  rw [IsSmall, toNat_ofNat b.toNat_lt]
  exact Nat.not_lt_of_le (le_of_mem_utf8EncodeChar hc hb)

theorem octetWord_of_small {text : String} (h : ∀ c ∈ text.toList, IsSmall c) :
    octetWord text = text := by
  have hbytes : octets text = text.toList.flatMap fun c => [c] := by
    rw [octets_eq_flatMap]
    exact List.flatMap_congr fun c hc => ofBytes_of_small (h c hc)
  rw [octetWord, hbytes, List.flatMap_singleton', String.ofList_toList]

/-- **What is done to the small characters of a text can be done to its bytes.** -/
theorem octets_map {f : Char → Char} (hsmall : ∀ c, IsSmall c → IsSmall (f c))
    (hother : ∀ c, ¬IsSmall c → f c = c) (text : String) :
    octets (text.map f) = (octets text).map f := by
  rw [octets_eq_flatMap, octets_eq_flatMap, String.toList_map, List.flatMap_map, List.map_flatMap]
  refine List.flatMap_congr fun c _ => ?_
  by_cases hc : IsSmall c
  · rw [ofBytes_of_small hc, ofBytes_of_small (hsmall c hc), List.map_singleton]
  · have hfixed : ∀ d ∈ ofBytes (String.utf8EncodeChar c), f d = d := fun d hd =>
      hother d (not_small_of_mem_ofBytes hc hd)
    rw [hother c hc, List.map_congr_left hfixed, List.map_id']

end Bindery.Formatter
