import Gatehouse.Json.Basic
import Gatehouse.Text.Hex

set_option autoImplicit false

/-!
# Writing JSON

Two layouts: `compact` without blanks, and `pretty` with one entry a line and two spaces a level.
Inside strings only the quote, the backslash and the control codes below U+0020 are escaped. The
parts of a value that only reading produces, a string that is no text and a number that is not
natural, are written as `null`.
-/

namespace Gatehouse.Json

def escapeChar (c : Char) : List Char :=
  if c = '"' then ['\\', '"']
  else if c = '\\' then ['\\', '\\']
  else if c = '\x08' then ['\\', 'b']
  else if c = '\x0c' then ['\\', 'f']
  else if c = '\n' then ['\\', 'n']
  else if c = '\r' then ['\\', 'r']
  else if c = '\t' then ['\\', 't']
  else if c.toNat < 0x20 then '\\' :: 'u' :: Text.hexDigits 4 c.toNat
  else [c]

def quote (text : String) : List Char :=
  '"' :: text.toList.flatMap escapeChar ++ ['"']

def nullText : List Char := "null".toList

def printText (text : Option String) : List Char :=
  match text with
  | some text => quote text
  | none => nullText

def printLeaf : Json → List Char
  | .bool true => "true".toList
  | .bool false => "false".toList
  | .natural n => Nat.toDigits 10 n
  | .string text => printText text
  | _ => nullText

mutual

def compact : Json → List Char
  | .array items => '[' :: compactItems items ++ [']']
  | .object members => '\x7b' :: compactMembers members ++ ['\x7d']
  | .null => printLeaf .null
  | .bool value => printLeaf (.bool value)
  | .natural value => printLeaf (.natural value)
  | .otherNumber => printLeaf .otherNumber
  | .string text => printLeaf (.string text)

def compactItems : List Json → List Char
  | [] => []
  | [item] => compact item
  | item :: items => compact item ++ ',' :: compactItems items

def compactMembers : List (Option String × Json) → List Char
  | [] => []
  | [(name, value)] => printText name ++ ':' :: compact value
  | (name, value) :: members =>
    printText name ++ ':' :: compact value ++ ',' :: compactMembers members

end

def newline (level : Nat) : List Char :=
  '\n' :: List.replicate (2 * level) ' '

mutual

/-- A value at a level of indentation. Empty arrays and objects stay on one line. -/
def prettyAt (level : Nat) : Json → List Char
  | .array [] => ['[', ']']
  | .array (item :: items) =>
    '[' :: newline (level + 1) ++ prettyItems (level + 1) (item :: items) ++ newline level ++ [']']
  | .object [] => ['\x7b', '\x7d']
  | .object (member :: members) =>
    '\x7b' :: newline (level + 1) ++ prettyMembers (level + 1) (member :: members) ++
      newline level ++ ['\x7d']
  | .null => printLeaf .null
  | .bool value => printLeaf (.bool value)
  | .natural value => printLeaf (.natural value)
  | .otherNumber => printLeaf .otherNumber
  | .string text => printLeaf (.string text)

def prettyItems (level : Nat) : List Json → List Char
  | [] => []
  | [item] => prettyAt level item
  | item :: items => prettyAt level item ++ ',' :: newline level ++ prettyItems level items

def prettyMembers (level : Nat) : List (Option String × Json) → List Char
  | [] => []
  | [(name, value)] => printText name ++ ':' :: ' ' :: prettyAt level value
  | (name, value) :: members =>
    printText name ++ ':' :: ' ' :: prettyAt level value ++ ',' :: newline level ++
      prettyMembers level members

end

def toCompactText (value : Json) : String :=
  String.ofList (compact value)

def toPrettyText (value : Json) : String :=
  String.ofList (prettyAt 0 value)

end Gatehouse.Json
