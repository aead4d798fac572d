import Bindery.Text.Utf8

/-! Bytes as characters.

Programs pass bytes on without asking what they mean. Here a byte is the character with
its number, so bytes can be compared with letters and written down as texts; the two
bytes of an "é" are two characters. `bytesOf_octets` says that nothing is lost. -/
namespace Bindery.Formatter

/-- Bytes, each as the character with its number. -/
abbrev Octets : Type := List Char

def ofBytes (bs : Text.Bytes) : Octets := bs.map fun b => Char.ofNat b.toNat

def bytesOf (os : Octets) : Text.Bytes := os.map fun c => UInt8.ofNat c.toNat

/-- The bytes of a text as characters. -/
def octets (text : String) : Octets := ofBytes (Text.bytes text)

/-- The bytes of a text as a word. -/
def octetWord (text : String) : String := String.ofList (octets text)

/-- A byte comes back from its character. -/
theorem ofNat_toNat_ofNat (b : UInt8) : UInt8.ofNat (Char.ofNat b.toNat).toNat = b := by
  have small : b.toNat < 256 := b.toNat_lt
  have valid : b.toNat.isValidChar := Or.inl (by omega)
  have number : (Char.ofNatAux b.toNat valid).toNat = b.toNat := rfl
  rw [Char.ofNat, dif_pos valid, number, UInt8.ofNat_toNat]

theorem bytesOf_ofBytes (bs : Text.Bytes) : bytesOf (ofBytes bs) = bs := by
  induction bs with
  | nil => rfl
  | cons b rest ih =>
    change UInt8.ofNat (Char.ofNat b.toNat).toNat :: bytesOf (ofBytes rest) = b :: rest
    rw [ofNat_toNat_ofNat, ih]

theorem bytesOf_octets (text : String) : bytesOf (octets text) = Text.bytes text :=
  bytesOf_ofBytes _

end Bindery.Formatter
