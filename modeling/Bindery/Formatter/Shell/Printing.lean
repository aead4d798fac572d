import Bindery.Decimal.Shortest
import Bindery.Formatter.CharSet
import Bindery.Formatter.Shell.Arithmetic

/-! Texts that are printed by a format.

A format has plain characters, backslash escapes, and conversions, each of which takes
an argument. It is used again until no argument is left; conversions without an argument
print zero or nothing. What is not a number is complained about and printed as far as
it is one. -/
namespace Bindery.Formatter.Shell

/-! ### Escapes -/

/-- The character that a letter stands for behind a backslash. -/
def escapedChar? (c : Char) : Option Char :=
  if c = 'e' then some '\x1b' else if c = '\\' then some c else escapedControl? c

/-- The character that an octal number stands for; only its low bits count. -/
def octalChar (digits : List Char) : Char :=
  Char.ofNat (digits.foldl (fun n c => n * 8 + (c.toNat - '0'.toNat)) 0 % 256)

/-- The octal digits that a text starts with, at most three. -/
def octalDigits (cs : List Char) : List Char :=
  (cs.takeWhile fun c => (octalDigit? c).isSome).take 3

/-- The character behind a backslash, and what follows it. A backslash that means nothing
stands for itself. -/
def escapeBehind (cs : List Char) : Char × List Char :=
  match octalDigits cs, cs with
  | [], c :: rest =>
    match escapedChar? c with
    | some d => (d, rest)
    | none => ('\\', cs)
  | [], [] => ('\\', [])
  | digits, _ => (octalChar digits, cs.drop digits.length)

/-- A text with its backslashes resolved, at most so many characters, and whether it asked
to stop. A zero in front of an octal number does not count. -/
def resolveEscapes : Nat → List Char → Octets × Bool
  | 0, _ | _, [] => ([], false)
  | _ + 1, '\\' :: 'c' :: _ => ([], true)
  | n + 1, '\\' :: rest =>
    let rest :=
      match rest with
      | '0' :: d :: _ => if (octalDigit? d).isSome then rest.tail else rest
      | _ => rest
    let (c, rest) := escapeBehind rest
    let (below, stops) := resolveEscapes n rest
    (c :: below, stops)
  | n + 1, c :: rest =>
    let (below, stops) := resolveEscapes n rest
    (c :: below, stops)

/-- A text with its backslashes resolved, and whether it asked to stop. -/
def resolved (text : String) : Octets × Bool := resolveEscapes text.length text.toList

/-- The texts of `echo`, and whether one asked to stop. -/
def echoTexts : List String → Octets × Bool
  | [] => ([], false)
  | text :: rest =>
    let (os, stops) := resolved text
    if stops then (os, true)
    else
      let (below, stops) := echoTexts rest
      (os ++ (if rest.isEmpty then [] else ' ' :: below), stops)

def echoed (arguments : List String) : Octets :=
  let isQuiet : Bool := arguments.head? = some "-n"
  let (os, stops) := echoTexts (if isQuiet then arguments.tail else arguments)
  if isQuiet || stops then os else os ++ ['\n']

/-! ### Formats -/

/-- A width or a precision. -/
inductive Amount where
  | none
  | given (n : Int)
  /-- It is taken from an argument. -/
  | taken
deriving DecidableEq, Inhabited

/-- A conversion. -/
structure Conversion where
  flags : List Char
  width : Amount
  precision : Amount
  letter : Char
  /-- How it is written. -/
  written : String
deriving DecidableEq, Inhabited

/-- A part of a format. -/
inductive FormatPart where
  | char (c : Char)
  | conversion (c : Conversion)
  /-- A conversion that breaks off. -/
  | broken
deriving DecidableEq, Inhabited

/-- A width or precision at the beginning of a text, and what follows it. -/
def readAmount (cs : List Char) : Amount × List Char :=
  match cs with
  | '*' :: rest => (.taken, rest)
  | _ =>
    let (n, count, rest) := digitsIn 10 cs
    (if count = 0 then .none else .given n, rest)

/-- The conversion behind a percent sign, and what follows it. -/
def readConversion (cs : List Char) : FormatPart × List Char :=
  let flags := cs.takeWhile (· ∈ ['#', '-', '+', ' ', '0'])
  let (width, rest) := readAmount (cs.drop flags.length)
  let (precision, rest) : Amount × List Char :=
    match rest with
    | '.' :: rest =>
      match readAmount rest with
      | (.none, rest) => (.given 0, rest)
      | found => found
    | _ => (.none, rest)
  match rest with
  | [] => (.broken, [])
  | letter :: after =>
    let written := String.ofList ('%' :: cs.take (cs.length - after.length))
    (.conversion { flags, width, precision, letter, written }, after)

def formatParts : Nat → List Char → List FormatPart
  | 0, _ | _, [] => []
  | n + 1, '\\' :: rest =>
    let (c, rest) := escapeBehind rest
    .char c :: formatParts n rest
  | n + 1, '%' :: '%' :: rest => .char '%' :: formatParts n rest
  | n + 1, '%' :: rest =>
    let (part, rest) := readConversion rest
    part :: formatParts n rest
  | n + 1, c :: rest => .char c :: formatParts n rest

/-! ### Layout -/

/-- How a value is laid out. -/
structure Layout where
  width : Nat := 0
  toLeft : Bool := false
  zeros : Bool := false
  plus : Bool := false
  blank : Bool := false
  alternate : Bool := false
  precision : Option Nat := none
deriving DecidableEq, Inhabited

/-- A text filled up to the width; zeros stand behind its sign or base. -/
def Layout.fill (l : Layout) (zeros : Bool) (start body : List Char) : Octets :=
  let missing := l.width - (start.length + body.length)
  if l.toLeft then start ++ body ++ List.replicate missing ' '
  else if zeros then start ++ List.replicate missing '0' ++ body
  else List.replicate missing ' ' ++ start ++ body

def Layout.text (l : Layout) (os : Octets) : Octets :=
  l.fill false [] ((l.precision.map os.take).getD os)

/-- The sign of a number. -/
def Layout.sign (l : Layout) (negative : Bool) : List Char :=
  if negative then ['-'] else if l.plus then ['+'] else if l.blank then [' '] else []

/-- Digits with at least as many as the precision asks for. -/
def Layout.digits (l : Layout) (n base : Nat) : List Char :=
  let digits := if n = 0 ∧ l.precision = some 0 then [] else Nat.toDigits base n
  List.replicate (l.precision.getD 0 - digits.length) '0' ++ digits

def Layout.signed (l : Layout) (n : Int) : Octets :=
  l.fill (l.zeros && l.precision.isNone) (l.sign (n < 0)) (l.digits n.natAbs 10)

def Layout.unsigned (l : Layout) (letter : Char) (n : Nat) : Octets :=
  let base := if letter = 'o' then 8 else if letter = 'u' then 10 else 16
  let digits := l.digits n base
  let digits := if letter = 'X' then digits.map Char.toUpper else digits
  let digits :=
    if letter = 'o' ∧ l.alternate ∧ digits.head? ≠ some '0' then '0' :: digits else digits
  let start : List Char :=
    if l.alternate ∧ n ≠ 0 then
      if letter = 'x' then ['0', 'x'] else if letter = 'X' then ['0', 'X'] else []
    else []
  l.fill (l.zeros && l.precision.isNone) start digits

/-! ### Fractions -/

/-- A number that may have a fraction. -/
inductive Quantity where
  | finite (x : Binary64)
  | infinite (negative : Bool)
  | undefined
deriving DecidableEq, Inhabited

/-- A number as a quotient. -/
def quotient (x : Binary64) : Nat × Nat :=
  if 0 ≤ x.exponent then (x.significand * Nat.pow 2 x.exponent.toNat, 1)
  else (x.significand, Nat.pow 2 (-x.exponent).toNat)

/-- A decimal number with so many places behind the point. -/
def positional (alternate : Bool) (places : Nat) (x : Binary64) : List Char :=
  let (num, den) := quotient x
  let n := Binary64.roundHalfEven (num * Nat.pow 10 places) den
  let digits := Nat.toDigits 10 n
  let digits := List.replicate (places + 1 - digits.length) '0' ++ digits
  let (whole, fraction) := digits.splitAt (digits.length - places)
  whole ++ (if fraction.isEmpty ∧ !alternate then [] else '.' :: fraction)

/-- The digits of a decimal number with so many behind the first one, and the exponent of
the first one. -/
def leadingDigits (places : Nat) (x : Binary64) : List Char × Int :=
  if x.isZero then (List.replicate (places + 1) '0', 0)
  else
    let (num, den) := quotient x
    let lead := Decimal.leadingExponent num den
    let unit := lead - places
    let n :=
      if 0 ≤ unit then Binary64.roundHalfEven num (den * Nat.pow 10 unit.toNat)
      else Binary64.roundHalfEven (num * Nat.pow 10 (-unit).toNat) den
    if n = Nat.pow 10 (places + 1) then (Nat.toDigits 10 (n / 10), lead + 1)
    else (Nat.toDigits 10 n, lead)

def exponentText (upper : Bool) (e : Int) : List Char :=
  let digits := Nat.toDigits 10 e.natAbs
  (if upper then 'E' else 'e') :: (if e < 0 then '-' else '+') ::
    (if digits.length < 2 then '0' :: digits else digits)

/-- A decimal number with one digit before the point, and an exponent. -/
def scientific (alternate upper : Bool) (digits : List Char) (e : Int) : List Char :=
  digits.take 1 ++ (if digits.length ≤ 1 ∧ !alternate then [] else '.' :: digits.drop 1) ++
    exponentText upper e

/-- Digits behind a point without the zeros at the end. -/
def dropZeros (cs : List Char) : List Char :=
  if cs.contains '.' then
    let kept := (cs.reverse.dropWhile (· = '0')).reverse
    if kept.getLast? = some '.' then kept.dropLast else kept
  else cs

/-- A number without its sign in the shorter of the two forms. -/
def general (alternate upper : Bool) (precision : Nat) (x : Binary64) : List Char :=
  let p := if precision = 0 then 1 else precision
  let (digits, e) := leadingDigits (p - 1) x
  let tidy (cs : List Char) : List Char := if alternate then cs else dropZeros cs
  if -4 ≤ e ∧ e < p then tidy (positional alternate ((p : Int) - 1 - e).toNat x)
  else
    let body := tidy (digits.take 1 ++ '.' :: digits.drop 1)
    body ++ exponentText upper e

/-- A number that may have a fraction. -/
def Layout.quantity (l : Layout) (letter : Char) (q : Quantity) : Octets :=
  let upper := letter.isUpper
  let word (text : String) : List Char := if upper then text.toUpper.toList else text.toList
  match q with
  | .infinite negative => l.fill false (l.sign negative) (word "inf")
  | .undefined => l.fill false (l.sign false) (word "nan")
  | .finite x =>
    let precision := l.precision.getD 6
    let body :=
      match letter.toLower with
      | 'f' => positional l.alternate precision x
      | 'e' =>
        let (digits, e) := leadingDigits precision x
        scientific l.alternate upper digits e
      | _ => general l.alternate upper precision x
    l.fill l.zeros (l.sign x.negative) body

/-! ### Arguments -/

/-- What is wrong with a number: nothing, or what is said about it. -/
abbrev Doubt : Type := Option String

/-- What is said about a number that was read only in part. -/
def doubtAbout (text : String) (rest : List Char) (isTooLarge : Bool) : Doubt :=
  if rest = text.toList ∧ !rest.isEmpty then some (text ++ ": expected numeric value")
  else if !rest.isEmpty then some (text ++ ": not completely converted")
  else if isTooLarge then some (text ++ ": Numerical result out of range")
  else none

/-- The number of a character behind a quote. -/
def quotedNumber? (text : String) : Option Nat :=
  match text.toList with
  | '"' :: rest | '\'' :: rest => some ((rest.head?.map Char.toNat).getD 0)
  | _ => none

/-- The number with a sign that a text is. -/
def signedArgument (text : String) : Int × Doubt :=
  match quotedNumber? text with
  | some n => (n, none)
  | none =>
    let r := readNumber true text
    (r.value, doubtAbout text r.rest r.isTooLarge)

/-- The number without a sign that a text is. -/
def unsignedArgument (text : String) : Nat × Doubt :=
  match quotedNumber? text with
  | some n => (n, none)
  | none =>
    let cs := text.toList.dropWhile isSpace
    let (negative, cs) : Bool × List Char :=
      match cs with
      | '-' :: rest => (true, rest)
      | '+' :: rest => (false, rest)
      | _ => (false, cs)
    let (n, count, rest) := constant cs
    let limit := Nat.pow 2 64
    if count = 0 then (0, doubtAbout text text.toList false)
    else if limit ≤ n then (limit - 1, doubtAbout text rest true)
    else (if negative then (limit - n) % limit else n, doubtAbout text rest false)

/-- The exponent at the beginning of a text, and what follows it. -/
def readExponent (cs : List Char) : Int × List Char :=
  match cs with
  | e :: sign :: d :: rest =>
    if e ≠ 'e' ∧ e ≠ 'E' then (0, cs)
    else if sign.isDigit then
      let (n, _, after) := digitsIn 10 (sign :: d :: rest)
      (n, after)
    else if (sign = '-' ∨ sign = '+') ∧ d.isDigit then
      let (n, _, after) := digitsIn 10 (d :: rest)
      (if sign = '-' then -n else n, after)
    else (0, cs)
  | [e, d] =>
    if (e = 'e' ∨ e = 'E') ∧ d.isDigit then ((digitsIn 10 [d]).1, []) else (0, cs)
  | _ => (0, cs)

/-- The number that may have a fraction that a text is. -/
def quantityArgument (text : String) : Quantity × Doubt :=
  match quotedNumber? text with
  | some n => (((Binary64.nearest? false n 1).map .finite).getD .undefined, none)
  | none =>
    let cs := text.toList.dropWhile isSpace
    let (negative, cs) : Bool × List Char :=
      match cs with
      | '-' :: rest => (true, rest)
      | '+' :: rest => (false, rest)
      | _ => (false, cs)
    let starts (word : String) : Bool :=
      word.toList.isPrefixOf (cs.map Char.toLower)
    let ofQuotient (q? : Option Binary64) (rest : List Char) : Quantity × Doubt :=
      match q? with
      | some x => (.finite x, doubtAbout text rest false)
      | none => (.infinite negative, doubtAbout text rest true)
    if starts "infinity" then (.infinite negative, doubtAbout text (cs.drop 8) false)
    else if starts "inf" then (.infinite negative, doubtAbout text (cs.drop 3) false)
    else if starts "nan" then (.undefined, doubtAbout text (cs.drop 3) false)
    else if starts "0x" && (cs[2]?.bind (digitIn? 16)).isSome then
      let (n, _, rest) := digitsIn 16 (cs.drop 2)
      ofQuotient (Binary64.nearest? negative n 1) rest
    else
      let whole := cs.takeWhile Char.isDigit
      let (fraction, rest) : List Char × List Char :=
        match cs.drop whole.length with
        | '.' :: rest => (rest.takeWhile Char.isDigit, rest.dropWhile Char.isDigit)
        | rest => ([], rest)
      if whole.isEmpty ∧ fraction.isEmpty then
        (.finite (Binary64.zero false), doubtAbout text text.toList false)
      else
        let (e, rest) := readExponent rest
        let n := (digitsIn 10 (whole ++ fraction)).1
        ofQuotient (Binary64.ofDecimal? negative n (e - fraction.length)) rest

/-! ### Printing -/

/-- What printing comes to. -/
structure Printing where
  /-- What is written, the last first. -/
  out : List Octets := []
  arguments : List String := []
  /-- What is complained about, the last first. -/
  doubts : List String := []
  /-- Nothing more is printed. -/
  isDone : Bool := false
  /-- Why printing failed as a whole. -/
  fault : Option String := none
deriving Inhabited

namespace Printing

def put (p : Printing) (os : Octets) : Printing := { p with out := os :: p.out }

def take (p : Printing) : Option String × Printing :=
  (p.arguments.head?, { p with arguments := p.arguments.tail })

/-- Remember a doubt. -/
def doubt (p : Printing) : Doubt → Printing
  | none => p
  | some text => { p with doubts := text :: p.doubts }

/-- A width or precision. -/
def amount (p : Printing) : Amount → Option Int × Printing
  | .none => (none, p)
  | .given n => (some n, p)
  | .taken =>
    let (text, p) := p.take
    let (n, doubt) := signedArgument (text.getD "0")
    (some n, p.doubt doubt)

/-- How a conversion lays out its value. -/
def layout (p : Printing) (c : Conversion) : Layout × Printing :=
  let (width, p) := p.amount c.width
  let (precision, p) := p.amount c.precision
  let width := width.getD 0
  ({ width := width.natAbs
     toLeft := c.flags.contains '-' || width < 0
     zeros := c.flags.contains '0'
     plus := c.flags.contains '+'
     blank := c.flags.contains ' '
     alternate := c.flags.contains '#'
     precision := precision.bind fun n => if n < 0 then none else some n.toNat }, p)

/-- Print a part of a format. -/
def step (p : Printing) (part : FormatPart) : Printing :=
  if p.isDone then p
  else
    match part with
    | .char c => p.put [c]
    | .broken => { p with isDone := true, fault := some "missing format character" }
    | .conversion c =>
      let (l, p) := p.layout c
      let (argument, after) := p.take
      match c.letter with
      | 'b' =>
        let (os, stops) := resolved (argument.getD "")
        { after.put (l.text os) with isDone := stops }
      | 'c' => after.put (l.fill false [] [(argument.getD "").toList.headD '\x00'])
      | 's' => after.put (l.text (argument.getD "").toList)
      | 'd' | 'i' =>
        let (n, doubt) := signedArgument (argument.getD "0")
        (after.put (l.signed n)).doubt doubt
      | 'o' | 'u' | 'x' | 'X' =>
        let (n, doubt) := unsignedArgument (argument.getD "0")
        (after.put (l.unsigned c.letter n)).doubt doubt
      | 'e' | 'E' | 'f' | 'F' | 'g' | 'G' =>
        let (q, doubt) := quantityArgument (argument.getD "0")
        (after.put (l.quantity c.letter q)).doubt doubt
      | _ => { p with isDone := true, fault := some (c.written ++ ": invalid directive") }

/-- Use a format until no argument is left, at most so many times. -/
def loop (parts : List FormatPart) : Nat → Printing → Printing
  | 0, p => p
  | n + 1, p =>
    let before := p.arguments.length
    let p := parts.foldl step p
    if p.isDone ∨ p.arguments.isEmpty ∨ p.arguments.length = before then p else loop parts n p

end Printing

/-- Print arguments by a format. -/
def printed (format : String) (arguments : List String) : Printing :=
  Printing.loop (formatParts format.length format.toList) (arguments.length + 1) { arguments }

end Bindery.Formatter.Shell
