import Bindery.Formatter.Shell.State

/-! Arithmetic.

Numbers have 64 bits and a sign, and wrap around. Both sides of an operator are worked
out, except where one side decides. What is wrong with the spelling of an expression shows
only when all that stands in front of it has been worked out, so it is a part of the
expression; it shows in a side that is passed over too. -/
namespace Bindery.Formatter.Shell

/-- An operator between two numbers. -/
inductive Binary where
  | mul | div | rem | add | sub | shiftLeft | shiftRight | less | lessEq | greater | greaterEq
  | equal | unequal | bitAnd | bitXor | bitOr
deriving DecidableEq, Inhabited

/-- How tightly an operator binds, from one to eight. -/
def Binary.strength : Binary → Nat
  | .mul | .div | .rem => 8
  | .add | .sub => 7
  | .shiftLeft | .shiftRight => 6
  | .less | .lessEq | .greater | .greaterEq => 5
  | .equal | .unequal => 4
  | .bitAnd => 3
  | .bitXor => 2
  | .bitOr => 1

/-- An operator in front of a number. -/
inductive Unary where
  | negate
  | not
  | complement
deriving DecidableEq, Inhabited

/-- What is wrong with an expression. -/
inductive ExpressionFault where
  | noPrimary
  | noClosing
  | noColon
  | noEnd
  | zeroDivision
deriving DecidableEq, Inhabited

def ExpressionFault.message : ExpressionFault → String
  | .noPrimary => "expecting primary"
  | .noClosing => "expecting ')'"
  | .noColon => "expecting ':'"
  | .noEnd => "expecting EOF"
  | .zeroDivision => "division by zero"

/-- An expression. -/
inductive Expression where
  | number (n : Int)
  | variable (name : String)
  | unary (op : Unary) (a : Expression)
  | binary (op : Binary) (a b : Expression)
  | and (a b : Expression)
  | or (a b : Expression)
  | choice (test a b : Expression)
  /-- Assign, after an operation with the value so far if there is one. -/
  | assign (name : String) (op : Option Binary) (a : Expression)
  /-- There should have been something here. -/
  | broken (fault : ExpressionFault)
  /-- Something else should follow here. -/
  | sequel (a : Expression) (fault : ExpressionFault)
deriving Inhabited

/-! ### Numbers -/

/-- A number within 64 bits. -/
def wrap (n : Int) : Int := Int.bmod n (Nat.pow 2 64)

def largest : Nat := Nat.pow 2 63 - 1

def digitIn? (base : Nat) (c : Char) : Option Nat :=
  let value : Option Nat :=
    if c.isDigit then some (c.toNat - '0'.toNat)
    else if c.isAlpha then some (c.toLower.toNat - 'a'.toNat + 10)
    else none
  value.filter (· < base)

/-- The digits in a base that a text starts with, as a number, how many they are, and what
follows. -/
def digitsIn (base : Nat) (cs : List Char) : Nat × Nat × List Char :=
  let digits := cs.takeWhile fun c => (digitIn? base c).isSome
  (digits.foldl (fun n c => n * base + (digitIn? base c).getD 0) 0, digits.length,
    cs.drop digits.length)

/-- A constant without a sign, and what follows it: octal behind a zero, hexadecimal behind
a zero and an x. -/
def constant (cs : List Char) : Nat × Nat × List Char :=
  match cs with
  | '0' :: x :: d :: rest =>
    if (x = 'x' ∨ x = 'X') ∧ (digitIn? 16 d).isSome then
      let (n, count, rest) := digitsIn 16 (d :: rest)
      (n, count + 2, rest)
    else digitsIn 8 cs
  | '0' :: _ => digitsIn 8 cs
  | _ => digitsIn 10 cs

def isSpace (c : Char) : Bool := c = ' ' || ('\t' ≤ c && c ≤ '\r')

/-- What a text starts with as a number, in any of three bases or in decimal. -/
structure NumberReading where
  value : Int
  /-- There was no number. -/
  isMissing : Bool
  isTooLarge : Bool
  rest : List Char
deriving Inhabited

def readNumber (anyBase : Bool) (text : String) : NumberReading :=
  let cs := text.toList.dropWhile isSpace
  let (negative, cs) : Bool × List Char :=
    match cs with
    | '-' :: rest => (true, rest)
    | '+' :: rest => (false, rest)
    | _ => (false, cs)
  let (n, count, rest) := if anyBase then constant cs else digitsIn 10 cs
  if count = 0 then ⟨0, true, false, text.toList⟩
  else if negative then
    if n ≤ largest + 1 then ⟨-n, false, false, rest⟩
    else ⟨-(largest + 1 : Int), false, true, rest⟩
  else if n ≤ largest then ⟨n, false, false, rest⟩
  else ⟨largest, false, true, rest⟩

/-- The number that a whole text is. Where any base is allowed, no number is zero. -/
def wholeNumber? (anyBase : Bool) (text : String) : Option Int :=
  let r := readNumber anyBase text
  if r.isTooLarge || (r.isMissing && !anyBase) then none
  else if r.rest.all isSpace then some r.value
  else none

/-- A natural number that fits 31 bits. -/
def count? (text : String) : Option Nat :=
  match wholeNumber? false text with
  | some n => if 0 ≤ n ∧ n < Nat.pow 2 31 then some n.toNat else none
  | none => none

/-! ### Reading -/

/-- A token of an expression. -/
inductive Sign where
  | number (n : Int)
  | variable (name : String)
  | binary (op : Binary)
  | assign (op : Option Binary)
  | and | or | not | complement | question | colon | opening | closing
  | unknown
deriving DecidableEq, Inhabited

/-- The signs, longer ones first. -/
def signs : List (String × Sign) :=
  [("<<=", .assign (some .shiftLeft)), (">>=", .assign (some .shiftRight)),
    ("<<", .binary .shiftLeft), (">>", .binary .shiftRight), ("<=", .binary .lessEq),
    (">=", .binary .greaterEq), ("==", .binary .equal), ("!=", .binary .unequal),
    ("&&", .and), ("||", .or), ("+=", .assign (some .add)), ("-=", .assign (some .sub)),
    ("*=", .assign (some .mul)), ("/=", .assign (some .div)), ("%=", .assign (some .rem)),
    ("&=", .assign (some .bitAnd)), ("^=", .assign (some .bitXor)),
    ("|=", .assign (some .bitOr)), ("=", .assign none), ("<", .binary .less),
    (">", .binary .greater), ("+", .binary .add), ("-", .binary .sub), ("*", .binary .mul),
    ("/", .binary .div), ("%", .binary .rem), ("&", .binary .bitAnd), ("^", .binary .bitXor),
    ("|", .binary .bitOr), ("!", .not), ("~", .complement), ("?", .question), (":", .colon),
    ("(", .opening), (")", .closing)]

def readSigns : Nat → List Char → List Sign
  | 0, _ | _, [] => []
  | n + 1, c :: rest =>
    if isSpace c then readSigns n rest
    else if c.isDigit then
      let (value, _, rest) := constant (c :: rest)
      .number (min value largest) :: readSigns n rest
    else if startsName c then
      let name := (c :: rest).takeWhile isNameChar
      .variable (String.ofList name) :: readSigns n ((c :: rest).drop name.length)
    else
      match signs.find? fun s => s.1.toList.isPrefixOf (c :: rest) with
      | some (text, sign) => sign :: readSigns n ((c :: rest).drop text.length)
      | none => [.unknown]

/-- What is wrong where something has been read, which shows when it has been worked out. -/
def Expression.thenBroken (e : Expression) (fault : ExpressionFault) : Expression × List Sign :=
  (.sequel e fault, [])

/-- What is wrong at the next sign. -/
def brokenHere : Expression × List Sign := (.broken .noPrimary, [])

mutual

/-- An expression that may assign, and the signs behind it. -/
def readAssignment : Nat → List Sign → Expression × List Sign
  | 0, _ => brokenHere
  | n + 1, .variable name :: .assign op :: rest =>
    let (a, rest) := readAssignment n rest
    (.assign name op a, rest)
  | n + 1, ss => readChoice n ss

/-- An expression that may choose, and the signs behind it. -/
def readChoice : Nat → List Sign → Expression × List Sign
  | 0, _ => brokenHere
  | n + 1, ss =>
    match readOr n ss with
    | (test, .question :: rest) =>
      match readAssignment n rest with
      | (a, .colon :: rest) =>
        let (b, rest) := readChoice n rest
        (.choice test a b, rest)
      | (a, _) => (.choice test a (.broken .noColon), [])
    | done => done

def readOr : Nat → List Sign → Expression × List Sign
  | 0, _ => brokenHere
  | n + 1, ss =>
    match readAnd n ss with
    | (a, .or :: rest) =>
      let (b, rest) := readOr n rest
      (.or a b, rest)
    | done => done

def readAnd : Nat → List Sign → Expression × List Sign
  | 0, _ => brokenHere
  | n + 1, ss =>
    match readBinary n 1 ss with
    | (a, .and :: rest) =>
      let (b, rest) := readAnd n rest
      (.and a b, rest)
    | done => done

/-- Operators that bind at least so tightly, and the signs behind them. -/
def readBinary : Nat → Nat → List Sign → Expression × List Sign
  | 0, _, _ => brokenHere
  | n + 1, strength, ss =>
    let (a, rest) := readPrimary n ss
    readOperators n strength a rest

/-- Operators that bind at least so tightly, behind their left side, and the signs behind
them. -/
def readOperators : Nat → Nat → Expression → List Sign → Expression × List Sign
  | 0, _, _, _ => brokenHere
  | n + 1, strength, a, .binary op :: rest =>
    if op.strength < strength then (a, .binary op :: rest)
    else
      let (b, rest) := readBinary n (op.strength + 1) rest
      readOperators n strength (.binary op a b) rest
  | _, _, a, rest => (a, rest)

/-- A number, a variable, or an expression in parentheses, and the signs behind it. -/
def readPrimary : Nat → List Sign → Expression × List Sign
  | 0, _ => brokenHere
  | n + 1, ss =>
    let unary (op : Unary) (rest : List Sign) : Expression × List Sign :=
      let (a, rest) := readPrimary n rest
      (.unary op a, rest)
    match ss with
    | .number value :: rest => (.number value, rest)
    | .variable name :: rest => (.variable name, rest)
    | .binary .add :: rest => readPrimary n rest
    | .binary .sub :: rest => unary .negate rest
    | .not :: rest => unary .not rest
    | .complement :: rest => unary .complement rest
    | .opening :: rest =>
      match readAssignment n rest with
      | (a, .closing :: rest) => (a, rest)
      | (a, _) => a.thenBroken .noClosing
    | _ => brokenHere

end

def Expression.parse (text : String) : Expression :=
  let ss := readSigns text.length text.toList
  match readAssignment (10 * ss.length + 10) ss with
  | (e, []) => e
  | (e, _) => .sequel e .noEnd

/-! ### Working out -/

/-- One for something that holds, zero for something that does not. -/
def truth (b : Bool) : Int := if b then 1 else 0

/-- The number with the same bits, without a sign. -/
def unsigned (n : Int) : Nat := (n % (Nat.pow 2 64 : Nat)).toNat

/-- What an operator makes of two numbers. -/
def Binary.apply (op : Binary) (a b : Int) : Except ExpressionFault Int :=
  let bits (f : Nat → Nat → Nat) : Int := wrap (f (unsigned a) (unsigned b))
  match op with
  | .mul => .ok (wrap (a * b))
  | .div => if b = 0 then .error .zeroDivision else .ok (wrap (a.tdiv b))
  | .rem => if b = 0 then .error .zeroDivision else .ok (wrap (a.tmod b))
  | .add => .ok (wrap (a + b))
  | .sub => .ok (wrap (a - b))
  | .shiftLeft => .ok (wrap (a * Nat.pow 2 (unsigned b % 64)))
  | .shiftRight => .ok (a.fdiv (Nat.pow 2 (unsigned b % 64)))
  | .less => .ok (truth (a < b))
  | .lessEq => .ok (truth (a ≤ b))
  | .greater => .ok (truth (b < a))
  | .greaterEq => .ok (truth (b ≤ a))
  | .equal => .ok (truth (a = b))
  | .unequal => .ok (truth (a ≠ b))
  | .bitAnd => .ok (bits Nat.land)
  | .bitXor => .ok (bits Nat.xor)
  | .bitOr => .ok (bits Nat.lor)

def numberIn (name : String) : ShellM Int := do
  let text := ((← get).valueOf? name).getD ""
  match wholeNumber? true text with
  | some n => return n
  | none => ShellM.fail ("Illegal number: " ++ text)

/-- Say what is wrong with an expression. -/
def failIn {α : Type} (text : String) (fault : ExpressionFault) : ShellM α :=
  ShellM.fail ("arithmetic expression: " ++ fault.message ++ ": \"" ++ text ++ "\"")

/-- Work out an expression that a text spells, or pass over it. -/
def Expression.value (text : String) (passed : Bool) : Expression → ShellM Int
  | .number n => return n
  | .variable name => if passed then return 0 else numberIn name
  | .unary op a => do
    let n ← a.value text passed
    match op with
    | .negate => return wrap (-n)
    | .not => return truth (n = 0)
    | .complement => return wrap (-n - 1)
  | .binary op a b => do
    let m ← a.value text passed
    let n ← b.value text passed
    if passed then return 0
    match op.apply m n with
    | .ok result => return result
    | .error fault => failIn text fault
  | .and a b => do
    let m ← a.value text passed
    let n ← b.value text (passed || m = 0)
    return truth (m ≠ 0 ∧ n ≠ 0)
  | .or a b => do
    let m ← a.value text passed
    let n ← b.value text (passed || m ≠ 0)
    return truth (m ≠ 0 ∨ n ≠ 0)
  | .choice test a b => do
    let t ← test.value text passed
    let m ← a.value text (passed || t = 0)
    let n ← b.value text (passed || t ≠ 0)
    return if t = 0 then n else m
  | .assign name op a => do
    let n ← a.value text passed
    if passed then return n
    let result ←
      match op with
      | none => pure n
      | some op =>
        match op.apply (← numberIn name) n with
        | .ok result => pure result
        | .error fault => failIn text fault
    ShellM.setVariable name (toString result)
    return result
  | .broken fault => failIn text fault
  | .sequel a fault => do
    let _ ← a.value text passed
    failIn text fault

/-- Work out a text. -/
def workOut (text : String) : ShellM Int := (Expression.parse text).value text false

end Bindery.Formatter.Shell
