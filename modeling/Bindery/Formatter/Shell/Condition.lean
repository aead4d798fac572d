import Bindery.Formatter.Shell.Arithmetic

/-! Conditions.

A condition is a row of words. Whether a word is an operator can hang on the words
behind it; with up to four words some readings have precedence. -/
namespace Bindery.Formatter.Shell

/-- How an operator is used. -/
inductive OperatorKind where
  | unary
  | binary
  | negation
  | connective
  | parenthesis
deriving DecidableEq, Inhabited

def operatorKind? (word : String) : Option OperatorKind :=
  if word ∈ ["-r", "-w", "-x", "-e", "-f", "-d", "-c", "-b", "-p", "-u", "-g", "-k", "-s", "-t",
      "-z", "-n", "-h", "-O", "-G", "-L", "-S"] then some .unary
  else if word ∈ ["=", "!=", "<", ">", "-eq", "-ne", "-ge", "-gt", "-le", "-lt", "-nt", "-ot",
      "-ef"] then some .binary
  else if word = "!" then some .negation
  else if word = "-a" ∨ word = "-o" then some .connective
  else if word = "(" ∨ word = ")" then some .parenthesis
  else none

/-- Why a condition cannot be decided. -/
inductive ConditionFault where
  | noArgument (operator : String)
  | unexpected (word : String)
  | noClosing
  | noNumber (text : String)
deriving DecidableEq, Inhabited

def ConditionFault.message : ConditionFault → String
  | .noArgument operator => operator ++ ": argument expected"
  | .unexpected word => if word = "" then "unexpected operator" else word ++ ": unexpected operator"
  | .noClosing => "closing paren expected"
  | .noNumber text => "Illegal number: " ++ text

/-- What a condition can ask about files. -/
structure FileQuestions where
  /-- Whether a unary question holds of a path. -/
  holds : Char → String → Bool
  /-- Whether two paths lead to the same thing. -/
  isSame : String → String → Bool

/-- The kind of the operator that the first of some words is: not if it has to be an
operand because of the words behind it. -/
def kindHere? : List String → Option OperatorKind
  | [] => none
  | word :: rest =>
    match operatorKind? word with
    | some .unary =>
      match rest with
      | [] => none
      | [_] => some .unary
      | next :: _ => if operatorKind? next = some .binary then none else some .unary
    | some .parenthesis => if word = "(" ∧ rest.isEmpty then none else some .parenthesis
    | kind? => kind?

/-- What comes of reading a condition: whether it holds, and the words from the last one
that was used. -/
abbrev ConditionReading : Type := Except ConditionFault (Bool × List String)

def conditionNumber (text : String) : Except ConditionFault Int :=
  match wholeNumber? false text with
  | some n => .ok n
  | none => .error (.noNumber text)

/-- Whether an operator holds between two words. -/
def compareWords (q : FileQuestions) (op a b : String) : Except ConditionFault Bool := do
  let numbers (f : Int → Int → Bool) : Except ConditionFault Bool := do
    return f (← conditionNumber a) (← conditionNumber b)
  match op with
  | "=" => return a = b
  | "!=" => return a ≠ b
  | "<" => return a < b
  | ">" => return b < a
  | "-eq" => numbers fun m n => m = n
  | "-ne" => numbers fun m n => m ≠ n
  | "-ge" => numbers fun m n => n ≤ m
  | "-gt" => numbers fun m n => n < m
  | "-le" => numbers fun m n => m ≤ n
  | "-lt" => numbers fun m n => m < n
  | "-ef" => return q.isSame a b
  -- No file is older than another one.
  | _ => return false

/-- Whether a unary operator holds of a word. -/
def holdsOf (q : FileQuestions) (op word : String) : Except ConditionFault Bool :=
  match op with
  | "-z" => .ok (word = "")
  | "-n" => .ok (word ≠ "")
  | "-t" => do
    let _ ← conditionNumber word
    return false
  | _ => .ok (q.holds (op.toList.getD 1 ' ') word)

mutual

/-- A condition with alternatives. -/
def readAny (q : FileQuestions) : Nat → List String → ConditionReading
  | 0, ws => .ok (false, ws)
  | n + 1, ws => do
    let (a, left) ← readAll q n ws
    if left[1]? = some "-o" ∧ kindHere? (left.drop 1) = some .connective then
      let (b, left) ← readAny q n (left.drop 2)
      return (a || b, left)
    return (a, left)

/-- A condition of several that all have to hold. -/
def readAll (q : FileQuestions) : Nat → List String → ConditionReading
  | 0, ws => .ok (false, ws)
  | n + 1, ws => do
    let (a, left) ← readNegated q n ws
    if left[1]? = some "-a" ∧ kindHere? (left.drop 1) = some .connective then
      let (b, left) ← readAll q n (left.drop 2)
      return (a && b, left)
    return (a, left)

def readNegated (q : FileQuestions) : Nat → List String → ConditionReading
  | 0, ws => .ok (false, ws)
  | n + 1, ws => do
    if kindHere? ws = some .negation then
      if ws.length < 2 then return (true, ws)
      let (a, left) ← readNegated q n (ws.drop 1)
      return (!a, left)
    readSingle q n ws

def readSingle (q : FileQuestions) : Nat → List String → ConditionReading
  | 0, ws => .ok (false, ws)
  | _, [] => .ok (false, [])
  | n + 1, word :: rest => do
    match kindHere? (word :: rest) with
    | some .parenthesis =>
      if word = "(" then
        if rest.head? = some ")" then return (false, rest)
        let (a, left) ← readAny q n rest
        match left.drop 1 with
        | ")" :: _ => return (a, left.drop 1)
        | _ => throw .noClosing
    | some .unary =>
      match rest with
      | [] => throw (.noArgument word)
      | operand :: _ => return (← holdsOf q word operand, rest)
    | _ => pure ()
    if kindHere? rest = some .binary then
      match rest with
      | op :: b :: _ => return (← compareWords q op word b, rest.drop 1)
      | op :: [] => throw (.noArgument op)
      | [] => pure ()
    return (word ≠ "", word :: rest)

end

/-- Whether words from a certain reading on hold, and nothing is left over. -/
def settle (reading : ConditionReading) : Except ConditionFault Bool := do
  match ← reading with
  | (_, word :: _ :: _) => throw (.unexpected word)
  | (a, _) => return a

/-- Whether a row of words holds. The words that say so are counted down: a negation in
front of two or three others is passed first. -/
def conditionHolds (q : FileQuestions) : Bool → List String → Except ConditionFault Bool
  | negated, ws =>
    let whole (ws : List String) : Except ConditionFault Bool :=
      (settle (readAny q (4 * ws.length + 8) ws)).map (· != negated)
    let inParentheses : Bool := ws.head? = some "(" && ws.getLast? = some ")"
    match ws with
    | [] => .ok negated
    | [a, op, b] =>
      if operatorKind? op = some .binary then (compareWords q op a b).map (· != negated)
      else if inParentheses then whole (ws.drop 1).dropLast
      else if a = "!" then conditionHolds q true [op, b]
      else whole ws
    | [a, b, c, d] =>
      if inParentheses then whole (ws.drop 1).dropLast
      else if a = "!" then conditionHolds q true [b, c, d]
      else whole ws
    | _ => whole ws
termination_by _ ws => ws.length

end Bindery.Formatter.Shell
