/-! Bytes and the texts that they encode.

`decode` reads bytes as UTF-8 and never stops: each longest run of bytes that starts a
character but does not finish it, and each byte that can start none, is one gap. A text
is given if there is no gap (`text?`), or with a replacement character for each of them
(`lossyText`). -/
namespace Bindery.Text

/-- Bytes, as programs pass them on. -/
abbrev Bytes : Type := List UInt8

def bytes (text : String) : Bytes := text.toUTF8.toList

namespace Utf8

/-- A character of which some bytes are still to come. -/
structure Partial where
  need : Nat
  /-- The code point as far as it is known. -/
  code : Nat
  /-- The least next byte … -/
  low : Nat
  /-- … and the greatest. -/
  high : Nat

/-- What the first byte of a character gives: characters or gaps, and what is open. -/
def start (b : Nat) : List (Option Char) × Option Partial :=
  if b < 0x80 then ([some (Char.ofNat b)], none)
  else if b < 0xC2 then ([none], none)
  else if b < 0xE0 then ([], some ⟨1, b - 0xC0, 0x80, 0xBF⟩)
  else if b = 0xE0 then ([], some ⟨2, 0, 0xA0, 0xBF⟩)
  else if b = 0xED then ([], some ⟨2, 0xD, 0x80, 0x9F⟩)
  else if b < 0xF0 then ([], some ⟨2, b - 0xE0, 0x80, 0xBF⟩)
  else if b = 0xF0 then ([], some ⟨3, 0, 0x90, 0xBF⟩)
  else if b < 0xF4 then ([], some ⟨3, b - 0xF0, 0x80, 0xBF⟩)
  else if b = 0xF4 then ([], some ⟨3, 4, 0x80, 0x8F⟩)
  else ([none], none)

/-- Take in one byte. -/
def feed (open? : Option Partial) (b : Nat) : List (Option Char) × Option Partial :=
  match open? with
  | none => start b
  | some p =>
    if p.low ≤ b ∧ b ≤ p.high then
      let code := p.code * 64 + b % 64
      if p.need ≤ 1 then ([some (Char.ofNat code)], none)
      else ([], some ⟨p.need - 1, code, 0x80, 0xBF⟩)
    else
      let (out, open?) := start b
      (none :: out, open?)

/-- What has been decoded: characters and gaps, the last first, and what is open. -/
structure Decoding where
  before : List (Option Char) := []
  open? : Option Partial := none

/-- Take in one byte more. -/
def Decoding.step (d : Decoding) (b : UInt8) : Decoding :=
  let (out, open?) := feed d.open? b.toNat
  { before := out.reverse ++ d.before, open? }

/-- All characters and gaps; what is still open at the end is a gap. -/
def Decoding.finish (d : Decoding) : List (Option Char) :=
  (if d.open?.isSome then none :: d.before else d.before).reverse

end Utf8

/-- The characters that bytes encode, with a gap for each malformed run. -/
def decode (bs : Bytes) : List (Option Char) := (bs.foldl Utf8.Decoding.step {}).finish

def text? (bs : Bytes) : Option String := ((decode bs).mapM id).map String.ofList

/-- The text that bytes encode, replacement characters for what is malformed. -/
def lossyText (bs : Bytes) : String :=
  String.ofList ((decode bs).map fun c => c.getD (Char.ofNat 0xFFFD))

end Bindery.Text
