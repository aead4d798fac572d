import Bindery.Json.Basic
import Bindery.Text.Pieces

/-! Values as Python literals.

Texts stand in single quotes, with the backslash, the quote and the line feed escaped;
lists and dictionaries show their parts in order. -/
namespace Bindery.Source

/-- A character inside quotes. -/
def escapeChar (c : Char) : List Char :=
  if c = '\\' then ['\\', '\\']
  else if c = '\x27' then ['\\', '\x27']
  else if c = '\n' then ['\\', 'n']
  else [c]

/-- A text in single quotes. -/
def quoted (text : String) : String :=
  String.ofList ('\x27' :: (text.toList.flatMap escapeChar ++ ['\x27']))

mutual

def literal : Json → String
  | .null => "None"
  | .bool true => "True"
  | .bool false => "False"
  | .number n => n.text
  | .string s => quoted s
  | .array items => "[" ++ Text.join ", " (literals items) ++ "]"
  | .object members => "\x7b" ++ Text.join ", " (memberLiterals members) ++ "\x7d"

def literals : List Json → List String
  | [] => []
  | item :: rest => literal item :: literals rest

def memberLiterals : List (String × Json) → List String
  | [] => []
  | (key, value) :: rest => (quoted key ++ ": " ++ literal value) :: memberLiterals rest

end

end Bindery.Source
