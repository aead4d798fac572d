import Bindery.Data.Entries
import Bindery.Text.Lower

/-! From `camelCase` to `snake_case`.

An underscore goes in front of each capital that starts a word, and in front of each
capital that follows a small letter or a digit; then everything is put in lower case.
Acronyms stay in one piece (`HTTPResponse` becomes `http_response`) and a digit belongs
to the word before it (`userID2Name` becomes `user_id2_name`).

`SnakeCache` remembers what it converted, up to a capacity. -/
namespace Bindery.Text

/-- The capitals that start words; the other alphabets' do not count. -/
def isCapital (c : Char) : Bool := decide ('A' ≤ c) && decide (c ≤ 'Z')

/-- The small letters that make a capital in front of them the start of a word. -/
def isSmall (c : Char) : Bool := decide ('a' ≤ c) && decide (c ≤ 'z')

def isDigit (c : Char) : Bool := decide ('0' ≤ c) && decide (c ≤ '9')

/-- Put an underscore between a character that does not end a line and a capital with
small letters after it. The small letters belong to the word that was found, so none
of them is the character before the next one; the flag says that one is being read. -/
def partWords : Bool → List Char → List Char
  | _, [] => []
  | _, [x] => [x]
  | _, [x, y] => [x, y]
  | inWord, x :: y :: z :: rest =>
    if inWord && isSmall x then x :: partWords true (y :: z :: rest)
    else if x ≠ '\n' && isCapital y && isSmall z then
      x :: '_' :: y :: z :: partWords true rest
    else x :: partWords false (y :: z :: rest)

/-- Put an underscore between a small letter or digit and a capital. -/
def partCase : List Char → List Char
  | [] => []
  | [x] => [x]
  | x :: y :: rest =>
    if (isSmall x || isDigit x) && isCapital y then x :: '_' :: partCase (y :: rest)
    else x :: partCase (y :: rest)

def snakeCase (name : String) : String :=
  String.ofList (lowerChars (partCase (partWords false name.toList)))

/-- The conversions that are remembered, and how many may be. -/
structure SnakeCache where
  capacity : Nat
  known : Entries String String := []

namespace SnakeCache

/-- A cache for as many names as usually come up together. -/
def standard : SnakeCache where
  capacity := 128

/-- Convert a name. One that is not known is remembered; when there is no room, all
others are forgotten first. -/
def convert (cache : SnakeCache) (name : String) : SnakeCache × String :=
  match cache.known.lookup name with
  | some converted => (cache, converted)
  | none =>
    let converted := snakeCase name
    if cache.capacity = 0 then (cache, converted)
    else
      let kept := if cache.capacity ≤ cache.known.length then [] else cache.known
      ({ cache with known := Entries.put name converted kept }, converted)

/-- Forget everything. -/
def clear (cache : SnakeCache) : SnakeCache := { cache with known := [] }

def size (cache : SnakeCache) : Nat := cache.known.length

end SnakeCache

end Bindery.Text
