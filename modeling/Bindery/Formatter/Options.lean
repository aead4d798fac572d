import Bindery.Formatter.Run
import Bindery.Text.Pieces

/-! Options among arguments.

An argument that starts with a dash holds options: letters in a row, the last of which
can take a value, or one name behind two dashes, which can be cut short as long as it
stays clear. Two dashes alone end the options. Reading stops at the first fault; what
stands before it is still heard. -/
namespace Bindery.Formatter

/-- An option that has a name. -/
structure NamedOption where
  name : String
  /-- The letter that the option is known by. -/
  letter : Char
  takesValue : Bool := false
deriving DecidableEq, Inhabited

/-- The options of a program. -/
structure OptionTable where
  /-- The letters that can be written, and whether each takes a value. -/
  letters : List (Char × Bool)
  names : List NamedOption
  /-- Whether options can stand behind operands. -/
  mixed : Bool := true
deriving Inhabited

/-- What an argument means. -/
inductive Argument where
  | option (letter : Char) (value : String)
  | operand (text : String)
deriving DecidableEq, Inhabited

/-- What is wrong with an option. -/
inductive OptionFault where
  | unknownLetter (letter : Char)
  | noLetterValue (letter : Char)
  | unknownName (written : String)
  | unclear (written : String) (names : List String)
  | noValue (name : String)
  | unwantedValue (name : String)
deriving DecidableEq, Inhabited

def OptionFault.message : OptionFault → String
  | .unknownLetter letter => "invalid option -- '" ++ String.singleton letter ++ "'"
  | .noLetterValue letter => "option requires an argument -- '" ++ String.singleton letter ++ "'"
  | .unknownName written => "unrecognized option '--" ++ written ++ "'"
  | .unclear written names =>
    "option '--" ++ written ++ "' is ambiguous; possibilities:" ++
      Text.join "" (names.map fun name => " '--" ++ name ++ "'")
  | .noValue name => "option '--" ++ name ++ "' requires an argument"
  | .unwantedValue name => "option '--" ++ name ++ "' doesn't allow an argument"

namespace OptionTable

/-- The options in a row of letters, and the arguments that are left. -/
def readLetters (t : OptionTable) : List Char → List String →
    List Argument × Except OptionFault (List String)
  | [], rest => ([], .ok rest)
  | c :: more, rest =>
    match t.letters.lookup c with
    | none => ([], .error (.unknownLetter c))
    | some false =>
      let (below, end?) := readLetters t more rest
      (.option c "" :: below, end?)
    | some true =>
      if !more.isEmpty then ([.option c (String.ofList more)], .ok rest)
      else
        match rest with
        | [] => ([], .error (.noLetterValue c))
        | value :: rest => ([.option c value], .ok rest)

def candidates (t : OptionTable) (name : String) : List NamedOption :=
  match t.names.filter (·.name = name) with
  | [] => t.names.filter fun o => name.toList.isPrefixOf o.name.toList
  | exact => exact

/-- The option behind two dashes, and the arguments that are left. -/
def readName (t : OptionTable) (written : String) (rest : List String) :
    Except OptionFault (Argument × List String) :=
  let name := String.ofList (written.toList.takeWhile (· ≠ '='))
  let value? : Option String :=
    match written.toList.dropWhile (· ≠ '=') with
    | [] => none
    | _ :: value => some (String.ofList value)
  match t.candidates name with
  | [] => .error (.unknownName written)
  | o :: others =>
    if others.any (·.letter ≠ o.letter) then
      .error (.unclear written ((o :: others).map (·.name)))
    else
      match o.takesValue, value?, rest with
      | false, none, _ => .ok (.option o.letter "", rest)
      | false, some _, _ => .error (.unwantedValue o.name)
      | true, some value, _ => .ok (.option o.letter value, rest)
      | true, none, [] => .error (.noValue o.name)
      | true, none, value :: rest => .ok (.option o.letter value, rest)

/-- What at most `count` arguments mean, and the fault at which reading stopped. -/
def readWithin (t : OptionTable) : Nat → List String → List Argument × Option OptionFault
  | 0, _ | _, [] => ([], none)
  | count + 1, argument :: rest =>
    match argument.toList with
    | ['-', '-'] => (rest.map .operand, none)
    | '-' :: '-' :: written =>
      match t.readName (String.ofList written) rest with
      | .error fault => ([], some fault)
      | .ok (meaning, rest) =>
        let (below, fault?) := readWithin t count rest
        (meaning :: below, fault?)
    | '-' :: c :: letters =>
      match t.readLetters (c :: letters) rest with
      | (meanings, .error fault) => (meanings, some fault)
      | (meanings, .ok rest) =>
        let (below, fault?) := readWithin t count rest
        (meanings ++ below, fault?)
    | _ =>
      if t.mixed then
        let (below, fault?) := readWithin t count rest
        (.operand argument :: below, fault?)
      else ((argument :: rest).map .operand, none)

/-- What arguments mean, and the fault at which reading stopped. -/
def read (t : OptionTable) (arguments : List String) : List Argument × Option OptionFault :=
  t.readWithin arguments.length arguments

end OptionTable

def operandsOf (meanings : List Argument) : List String :=
  meanings.filterMap fun
    | .operand text => some text
    | .option _ _ => none

end Bindery.Formatter
