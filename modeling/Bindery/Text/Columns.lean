import Bindery.Text.ClusterTable
import Bindery.Text.EmojiTable
import Bindery.Text.WidthTable

/-! How many columns of a terminal a text takes.

A character alone takes two columns if it is wide, none if it is a mark on its neighbour,
and one otherwise. Some characters take fewer columns next to others: the parts of an
emoji take two together, and the letters of a ligature take one. A text is read from its
end, because it is the last part of such a sequence that says whether it is one. -/
namespace Bindery.Text

/-! ### Single characters -/

/-- Vowels and finals of Korean syllables, which are written into the initial. -/
def syllablePartRanges : Ranges := [(0x1160, 0x11FF), (0xD7B0, 0xD7C6), (0xD7CB, 0xD7FB)]

/-- Characters that could be marks, but stand in columns of their own. -/
def standingRanges : Ranges :=
  [(0x600, 0x604), (0x6DD, 0x6DD), (0x115F, 0x115F), (0x2D7F, 0x2D7F), (0xFF9E, 0xFF9F),
   (0x110BD, 0x110BD), (0x110CD, 0x110CD)]

def isMark (c : Char) : Bool :=
  !standingRanges.has c &&
    (extendRanges.has c || ignorableCodeRanges.has c || syllablePartRanges.has c ||
      leadingMarkRanges.has c || c.toNat == 0xA8FA)

def charColumns (c : Char) : Nat :=
  if c.toNat ≤ 0xA0 then 1
  else if c.toNat = 0x17D8 then 3
  else if c.toNat = 0x17A4 then 2
  else if isMark c then 0
  else if wideRanges.has c then 2
  else 1

/-! ### Sequences -/

/-- What the characters behind a position begin with, as far as one more in front of them
can join it. -/
inductive Beginning where
  | other
  | lineFeed
  | skinTone
  | flagLetter
  /-- Several letters of flags. -/
  | flagLetters
  | emoji
  /-- A joiner and an emoji. -/
  | joiner
  /-- A keycap, a joiner and an emoji. -/
  | keycap
  /-- Letters of flags, a joiner and an emoji: one letter, an even number, an odd one. -/
  | joinedLetter
  | joinedEven
  | joinedOdd
  /-- The end of a flag's tags, with so many letters or digits in front of it. -/
  | tagLetters (count : Nat)
  | tagDigits (count : Nat)
  | alef
  /-- Letters that a joiner in front of them makes parts of a ligature. -/
  | lamed (joined : Bool)
  | ya (joined : Bool)
  | tifinagh (joined : Bool)
  | orkhonI (joined : Bool)
  | vowelYa
  | tifinaghJoiner
  | lisuTone
  | coengLetter
  | kiratE
  | kiratAi
deriving DecidableEq, Repr, Inhabited

/-- Whether a beginning is part of a ligature of letters. -/
def Beginning.isLetter : Beginning → Bool
  | .alef | .lamed _ | .ya _ | .tifinagh _ | .orkhonI _ | .vowelYa | .tifinaghJoiner
  | .lisuTone | .coengLetter | .kiratE | .kiratAi => true
  | _ => false

/-- Whether a beginning is a part of an emoji that more parts are joined to. -/
def Beginning.isJoined : Beginning → Bool
  | .joiner | .keycap => true
  | _ => false

/-- A beginning with a joiner in front of it. -/
def Beginning.join : Beginning → Beginning
  | .lamed _ => .lamed true
  | .ya _ => .ya true
  | .tifinagh _ => .tifinagh true
  | .orkhonI _ => .orkhonI true
  | b => b

/-- A beginning, and whether a selector in front of it asks for an emoji or for text. -/
structure Behind where
  beginning : Beginning := .other
  asksEmoji : Bool := false
  asksText : Bool := false
deriving DecidableEq, Repr, Inhabited

namespace Behind

/-- What is left if a selector asked for nothing that could be given. -/
def drop (b : Behind) (emoji text : Bool) : Behind :=
  if b.beginning.isLetter then
    { b with asksEmoji := b.asksEmoji && !emoji, asksText := b.asksText && !text }
  else {}

/-- A selector that asks for an emoji. -/
def askEmoji (b : Behind) : Behind :=
  if b.beginning.isLetter || b.beginning.isJoined then { b with asksEmoji := true }
  else { asksEmoji := true }

/-- A selector that asks for text. -/
def askText (b : Behind) : Behind :=
  if b.beginning.isLetter then { b with asksText := true } else { asksText := true }

end Behind

def within (first last : Nat) (c : Char) : Bool :=
  decide (first ≤ c.toNat) && decide (c.toNat ≤ last)

/-- The Tifinagh consonants that make ligatures. -/
def isTifinaghConsonant (c : Char) : Bool := within 0x2D31 0x2D65 c || c.toNat == 0x2D6F

/-- The Arabic letters that make a ligature with an alef. -/
def lamRanges : Ranges :=
  [(0x644, 0x644), (0x6B5, 0x6B8), (0x76A, 0x76A), (0x8A6, 0x8A6), (0x8C7, 0x8C7)]

/-- The Arabic letters that make a ligature with a lam. -/
def alefRanges : Ranges :=
  [(0x622, 0x623), (0x625, 0x625), (0x627, 0x627), (0x671, 0x673), (0x675, 0x675),
   (0x773, 0x774), (0x870, 0x882)]

/-- The Khmer letters that are written below others. -/
def coengRanges : Ranges :=
  [(0x1780, 0x1782), (0x1784, 0x1787), (0x1789, 0x178C), (0x178E, 0x1793), (0x1795, 0x1798),
   (0x179B, 0x179D), (0x17A0, 0x17A0), (0x17A2, 0x17A2), (0x17A7, 0x17A7), (0x17AB, 0x17AC),
   (0x17AF, 0x17AF)]

/-- What a character begins alone. -/
def beginningOf (c : Char) : Beginning :=
  let n := c.toNat
  if emojiRanges.has c then .emoji
  else if within 0x1F3FB 0x1F3FF c then .skinTone
  else if within 0x1F1E6 0x1F1FF c then .flagLetter
  else if alefRanges.has c then .alef
  else if isTifinaghConsonant c then .tifinagh false
  else if coengRanges.has c then .coengLetter
  else if within 0xA4FC 0xA4FD c then .lisuTone
  else if n = 0x5DC then .lamed false
  else if n = 0x1A10 then .ya false
  else if n = 0x10C03 then .orkhonI false
  else if n = 0x16D67 then .kiratE
  else if n = 0x16D68 then .kiratAi
  else .other

/-- The columns that a character adds in front of a beginning, and what it begins then, if
it joins the beginning. A sequence that turns out to take fewer columns than its parts
takes some back. -/
def joinColumns? (b : Beginning) (c : Char) : Option (Int × Beginning) :=
  let n := c.toNat
  match b with
  | .alef =>
    if lamRanges.has c then some (0, .other)
    else if charColumns c = 0 && !interruptingRanges.has c then some (0, .alef)
    else none
  | .lamed true => if n = 0x5D0 then some (0, .other) else none
  | .coengLetter => if n = 0x17D2 then some (-1, .other) else none
  | .ya true => if n = 0x1A17 then some (0, .vowelYa) else none
  | .vowelYa => if n = 0x1A15 then some (0, .other) else none
  | .tifinagh joined =>
    if n = 0x2D7F then some (1, .tifinaghJoiner)
    else if joined && isTifinaghConsonant c then some (0, .other)
    else none
  | .tifinaghJoiner => if isTifinaghConsonant c then some (-1, .other) else none
  | .lisuTone => if within 0xA4F8 0xA4FB c then some (0, .other) else none
  | .orkhonI true => if n = 0x10C32 then some (0, .other) else none
  | .kiratE =>
    if n = 0x16D63 ∨ n = 0x16D69 then some (0, .other)
    else if n = 0x16D67 then some (0, .kiratAi)
    else if n = 0x16D68 then some (1, .kiratE)
    else none
  | .kiratAi => if n = 0x16D63 then some (0, .other) else none
  | .skinTone =>
    if toneableRanges.has c then some (0, .emoji)
    else if n = 0x200D then some (0, .joiner)
    else none
  | .flagLetter => if within 0x1F1E6 0x1F1FF c then some (1, .flagLetters) else none
  | .flagLetters =>
    if within 0x1F1E6 0x1F1FF c then some (1, .flagLetters)
    else if n = 0x200D then some (0, .joiner)
    else none
  | .emoji => if n = 0x200D then some (0, .joiner) else none
  | .joiner =>
    if n = 0x20E3 then some (0, .keycap)
    else if within 0x1F1E6 0x1F1FF c then some (1, .joinedLetter)
    else if within 0x1F3FB 0x1F3FF c then some (0, .skinTone)
    else if n = 0xE007F then some (0, .tagLetters 0)
    else if emojiRanges.has c then some (0, .emoji)
    else none
  | .joinedLetter => if within 0x1F1E6 0x1F1FF c then some (-1, .joinedEven) else none
  | .joinedEven =>
    if within 0x1F1E6 0x1F1FF c then some (3, .joinedOdd)
    else if n = 0x200D then some (0, .joiner)
    else none
  | .joinedOdd =>
    if within 0x1F1E6 0x1F1FF c then some (-1, .joinedEven)
    else if n = 0x200D then some (0, .joiner)
    else none
  | .tagLetters count =>
    if within 0xE0061 0xE007A c ∧ count < 6 then some (0, .tagLetters (count + 1))
    else if within 0xE0030 0xE0039 c ∧ count < 5 then some (0, .tagDigits 1)
    else if n = 0x1F3F4 ∧ 3 ≤ count then some (0, .emoji)
    else none
  | .tagDigits count =>
    if within 0xE0030 0xE0039 c ∧ count < 3 then some (0, .tagDigits (count + 1))
    else if n = 0x1F3F4 ∧ count = 3 then some (0, .emoji)
    else none
  | _ => none

/-- The columns that a character adds in front of what stands behind it, and what then
stands behind the character before it. -/
def columnsBefore (c : Char) (b : Behind) : Int × Behind :=
  if b.asksEmoji && emojiStyleRanges.has c then
    (if b.beginning.isJoined then 0 else 2, { beginning := .emoji })
  else
    let b := if b.asksEmoji then b.drop true false else b
    if c.toNat ≤ 0xA0 then
      if c = '\n' then (1, { beginning := .lineFeed })
      else if c = '\r' && b.beginning = .lineFeed then (0, {})
      else (1, {})
    else if c.toNat = 0xFE0F then (0, b.askEmoji)
    else if c.toNat = 0xFE0E then (0, b.askText)
    else if b.asksText && textStyleRanges.has c then (1, {})
    else
      let b := if b.asksText then b.drop false true else b
      let transparent := b.beginning.isLetter && b.beginning ≠ .alef && ligatureRanges.has c
      if transparent then
        (0, if c.toNat = 0x200D then { beginning := b.beginning.join } else b)
      else
        match joinColumns? b.beginning c with
        | some (added, beginning) => (added, { beginning })
        | none => (charColumns c, { beginning := beginningOf c })

def columns (text : String) : Nat :=
  (text.toList.foldr (fun c (r : Int × Behind) =>
    let (added, behind) := columnsBefore c r.2
    (r.1 + added, behind)) (0, {})).1.toNat

end Bindery.Text
