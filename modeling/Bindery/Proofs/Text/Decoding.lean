import Bindery.Text.Utf8
import Mathlib.Data.List.Basic

/-! Texts from their bytes.

The bytes of a character are read one after the other, and the first of them tells how many there
are and what the second can be. After the last one the character is there and nothing is open
(`foldl_step_utf8EncodeChar`). So the bytes of a text are read back as that text (`text?_bytes`),
without a gap. -/
namespace Bindery.Text

/-! ### The bytes of a text -/

/-- What a list of bytes still takes over is what stands behind the place that was reached. -/
theorem loop_toList (bs : ByteArray) {n i : Nat} (hleft : bs.size - i = n) (before : List UInt8) :
    ByteArray.toList.loop bs i before = before.reverse ++ bs.data.toList.drop i := by
  have hsize : bs.data.toList.length = bs.size := rfl
  induction n generalizing i before with
  | zero =>
    rw [ByteArray.toList.loop, if_neg (by omega), List.drop_eq_nil_of_le (by omega),
      List.append_nil]
  | succ n ih =>
    have hi : i < bs.data.toList.length := by omega
    rw [ByteArray.toList.loop, if_pos (by omega), ih (by omega), List.drop_eq_getElem_cons hi]
    have hbyte : bs.get! i = bs.data.toList[i] := getElem!_pos bs.data i (by simpa using hi)
    rw [hbyte, List.reverse_cons, List.append_assoc, List.singleton_append]

theorem bytes_eq_flatMap (text : String) :
    bytes text = text.toList.flatMap String.utf8EncodeChar := by
  have hdata : text.toUTF8.data.toList = text.toList.flatMap String.utf8EncodeChar := by
    show text.toByteArray.data.toList = _
    rw [← String.utf8Encode_toList, List.utf8Encode, List.toList_data_toByteArray]
  rw [bytes, ByteArray.toList, loop_toList _ rfl, hdata]
  rfl

namespace Utf8
variable {v b code low high : Nat}

/-! ### The bytes of a character -/

theorem step_ofNat (d : Decoding) (hb : b < 256) : d.step (UInt8.ofNat b) =
    { before := (feed d.open? b).1.reverse ++ d.before, open? := (feed d.open? b).2 } := by
  rw [Decoding.step, UInt8.toNat_ofNat_of_lt' hb]

theorem feed_more {n : Nat} (hlow : low ≤ b) (hhigh : b ≤ high) :
    feed (some ⟨n + 2, code, low, high⟩) b =
      ([], some ⟨n + 1, code * 64 + b % 64, 0x80, 0xBF⟩) := by
  simp [feed, hlow, hhigh]

theorem feed_last (hlow : low ≤ b) (hhigh : b ≤ high) :
    feed (some ⟨1, code, low, high⟩) b = ([some (Char.ofNat (code * 64 + b % 64))], none) := by
  simp [feed, hlow, hhigh]

theorem start_of_two (h : 127 < v) (h' : v ≤ 2047) :
    start (v / 64 % 32 + 192) = ([], some ⟨1, v / 64, 0x80, 0xBF⟩) := by
  have hcode : v / 64 % 32 + 192 - 0xC0 = v / 64 := by omega
  rw [start, if_neg (by omega), if_neg (by omega), if_pos (by omega), hcode]

/-- Of three bytes the second one is large enough for the number not to fit into two, and small
enough for it to be a character. -/
theorem start_of_three (h : 2047 < v) (h' : v ≤ 65535) (hvalid : v < 0xD800 ∨ 0xDFFF < v) :
    ∃ low high, start (v / 4096 % 16 + 224) = ([], some ⟨2, v / 4096, low, high⟩) ∧
      low ≤ v / 64 % 64 + 128 ∧ v / 64 % 64 + 128 ≤ high := by
  have hcode : v / 4096 % 16 = v / 4096 := by omega
  rw [hcode, start, if_neg (by omega), if_neg (by omega), if_neg (by omega)]
  by_cases hfirst : v / 4096 = 0
  · exact ⟨0xA0, 0xBF, by simp [hfirst], by omega, by omega⟩
  · by_cases hgap : v / 4096 = 13
    · exact ⟨0x80, 0x9F, by simp [hgap], by omega, by omega⟩
    · refine ⟨0x80, 0xBF, ?_, by omega, by omega⟩
      rw [if_neg (by omega), if_neg (by omega), if_pos (by omega), Nat.add_sub_cancel]

/-- Of four bytes the second one is large enough for the number not to fit into three, and small
enough for it to be a character. -/
theorem start_of_four (h : 65535 < v) (hvalid : v < 0x110000) :
    ∃ low high, start (v / 262144 % 8 + 240) = ([], some ⟨3, v / 262144, low, high⟩) ∧
      low ≤ v / 4096 % 64 + 128 ∧ v / 4096 % 64 + 128 ≤ high := by
  have hcode : v / 262144 % 8 = v / 262144 := by omega
  rw [hcode, start, if_neg (by omega), if_neg (by omega), if_neg (by omega), if_neg (by omega),
    if_neg (by omega), if_neg (by omega)]
  by_cases hfirst : v / 262144 = 0
  · exact ⟨0x90, 0xBF, by simp [hfirst], by omega, by omega⟩
  · by_cases hlast : v / 262144 = 4
    · exact ⟨0x80, 0x8F, by simp [hlast], by omega, by omega⟩
    · refine ⟨0x80, 0xBF, ?_, by omega, by omega⟩
      rw [if_neg (by omega), if_pos (by omega), Nat.add_sub_cancel]

theorem foldl_step_utf8EncodeChar (before : List (Option Char)) (c : Char) :
    (String.utf8EncodeChar c).foldl Decoding.step { before } = { before := some c :: before } := by
  have hvalid : c.val.toNat < 0xD800 ∨ 0xDFFF < c.val.toNat ∧ c.val.toNat < 0x110000 := c.valid
  have hchar : Char.ofNat c.val.toNat = c := Char.ofNat_toNat c
  rw [String.utf8EncodeChar]
  generalize c.val.toNat = v at hvalid hchar ⊢
  subst hchar
  split
  · next h1 =>
    rw [List.foldl_cons, step_ofNat _ (by omega), feed, start, if_pos (by omega)]
    rfl
  · split
    · next h1 h2 =>
      have hcode : v / 64 * 64 + (v % 64 + 128) % 64 = v := by omega
      rw [List.foldl_cons, step_ofNat _ (by omega), feed, start_of_two (by omega) h2,
        List.foldl_cons, step_ofNat _ (by omega), feed_last (by omega) (by omega), hcode]
      rfl
    · split
      · next h1 h2 h3 =>
        have hcode : (v / 4096 * 64 + (v / 64 % 64 + 128) % 64) * 64 + (v % 64 + 128) % 64 = v := by
          omega
        obtain ⟨low, high, hstart, hlow, hhigh⟩ :=
          start_of_three (by omega) h3 (hvalid.imp_right And.left)
        rw [List.foldl_cons, step_ofNat _ (by omega), feed, hstart,
          List.foldl_cons, step_ofNat _ (by omega), feed_more hlow hhigh,
          List.foldl_cons, step_ofNat _ (by omega), feed_last (by omega) (by omega),
          hcode]
        rfl
      · next h1 h2 h3 =>
        have hcode : ((v / 262144 * 64 + (v / 4096 % 64 + 128) % 64) * 64 +
            (v / 64 % 64 + 128) % 64) * 64 + (v % 64 + 128) % 64 = v := by
          omega
        obtain ⟨low, high, hstart, hlow, hhigh⟩ := start_of_four (v := v) (by omega) (by omega)
        rw [List.foldl_cons, step_ofNat _ (by omega), feed, hstart,
          List.foldl_cons, step_ofNat _ (by omega), feed_more hlow hhigh,
          List.foldl_cons, step_ofNat _ (by omega), feed_more (by omega) (by omega),
          List.foldl_cons, step_ofNat _ (by omega), feed_last (by omega) (by omega),
          hcode]
        rfl

end Utf8

/-! ### Texts -/

theorem foldl_step_flatMap (before : List (Option Char)) (cs : List Char) :
    (cs.flatMap String.utf8EncodeChar).foldl Utf8.Decoding.step { before } =
      { before := (cs.map some).reverse ++ before } := by
  induction cs generalizing before with
  | nil => rfl
  | cons c rest ih =>
    rw [List.flatMap_cons, List.foldl_append, Utf8.foldl_step_utf8EncodeChar, ih]
    simp

theorem decode_bytes (text : String) : decode (bytes text) = text.toList.map some := by
  rw [decode, bytes_eq_flatMap, foldl_step_flatMap, Utf8.Decoding.finish]
  simp

/-- **A text is read back from its bytes.** -/
theorem text?_bytes (text : String) : text? (bytes text) = some text := by
  have hall : ∀ cs : List Char, (cs.map some).mapM id = some cs := by
    intro cs
    induction cs with
    | nil => rfl
    | cons c rest ih => simp [ih]
  rw [text?, decode_bytes, hall, Option.map_some, String.ofList_toList]

end Bindery.Text
