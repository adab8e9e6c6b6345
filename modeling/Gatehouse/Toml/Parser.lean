import Gatehouse.Toml.Document
import Gatehouse.Toml.Scalar

set_option autoImplicit false

/-!
# Reading configuration files

`Toml.parse?` reads a file in the TOML format, version 1.1. The readers of nested values are bounded
by a number of steps that the length of the file always covers, and by a depth.
-/

namespace Gatehouse.Toml

def isBlank (c : Char) : Bool := c == ' ' || c == '\t'

def skipBlanks (cs : List Char) : List Char := cs.dropWhile isBlank

/-- A character that may stand in comments and quotes: no control character but the tab. -/
def isPlain (c : Char) : Bool :=
  c == '\t' || (0x20 ≤ c.toNat && c.toNat ≠ 0x7F)

def newline? : List Char → Option (List Char)
  | '\n' :: rest => some rest
  | '\r' :: '\n' :: rest => some rest
  | _ => none

def skipComment (cs : List Char) : List Char :=
  match skipBlanks cs with
  | '#' :: rest => rest.dropWhile isPlain
  | rest => rest

def endLine? (cs : List Char) : Option (List Char) :=
  match skipComment cs with
  | [] => some []
  | rest => newline? rest

def skipVoid : Nat → List Char → List Char
  | 0, cs => cs
  | steps + 1, cs =>
    match newline? (skipComment cs) with
    | some rest => skipVoid steps rest
    | none => skipComment cs

def escape? : List Char → Option (Char × List Char)
  | 'b' :: rest => some ('\x08', rest)
  | 't' :: rest => some ('\t', rest)
  | 'n' :: rest => some ('\n', rest)
  | 'f' :: rest => some ('\x0c', rest)
  | 'r' :: rest => some ('\r', rest)
  | 'e' :: rest => some ('\x1b', rest)
  | '"' :: rest => some ('"', rest)
  | '\\' :: rest => some ('\\', rest)
  | 'x' :: rest => code? 2 rest
  | 'u' :: rest => code? 4 rest
  | 'U' :: rest => code? 8 rest
  | _ => none
where
  code? (count : Nat) (cs : List Char) : Option (Char × List Char) := do
    let digits := cs.take count
    if digits.length ≠ count then none
    let code ← Text.readHex? digits
    if h : code.isValidChar then some (Char.ofNatAux code h, cs.drop count) else none

def skipSpace : List Char → List Char
  | '\r' :: '\n' :: rest => skipSpace rest
  | c :: rest => if isBlank c || c == '\n' then skipSpace rest else c :: rest
  | [] => []

def isLineJoint (cs : List Char) : Bool := (newline? (skipBlanks cs)).isSome

def basicText? : Nat → List Char → List Char → Option (String × List Char)
  | 0, _, _ => none
  | _ + 1, seen, '"' :: rest => some (String.ofList seen.reverse, rest)
  | steps + 1, seen, '\\' :: rest => do
    let (c, rest) ← escape? rest
    basicText? steps (c :: seen) rest
  | steps + 1, seen, c :: rest => if isPlain c then basicText? steps (c :: seen) rest else none
  | _ + 1, _, [] => none

/-- The quotes at the front of a text, of which three end it and up to two belong to it. -/
def closing? (quote : Char) (cs : List Char) : Option (List Char × List Char) :=
  let quotes := cs.takeWhile (· = quote)
  if quotes.length < 3 then none
  else if 5 < quotes.length then some (quotes.take 2, cs.drop 5)
  else some (quotes.drop 3, cs.drop quotes.length)

def longBasicText? : Nat → List Char → List Char → Option (String × List Char)
  | 0, _, _ => none
  | steps + 1, seen, cs =>
    match closing? '"' cs with
    | some (quotes, rest) => some (String.ofList (seen.reverse ++ quotes), rest)
    | none =>
      match cs with
      | [] => none
      | '\\' :: rest =>
        if isLineJoint rest then longBasicText? steps seen (skipSpace rest)
        else do
          let (c, rest) ← escape? rest
          longBasicText? steps (c :: seen) rest
      | '\r' :: '\n' :: rest => longBasicText? steps ('\n' :: '\r' :: seen) rest
      | c :: rest =>
        if isPlain c || c == '\n' then longBasicText? steps (c :: seen) rest else none

def literalText? (cs : List Char) : Option (String × List Char) :=
  let content := cs.takeWhile (· ≠ '\'')
  match cs.drop content.length with
  | _ :: rest => if content.all isPlain then some (String.ofList content, rest) else none
  | [] => none

def longLiteralText? : Nat → List Char → List Char → Option (String × List Char)
  | 0, _, _ => none
  | steps + 1, seen, cs =>
    match closing? '\'' cs with
    | some (quotes, rest) => some (String.ofList (seen.reverse ++ quotes), rest)
    | none =>
      match cs with
      | [] => none
      | '\r' :: '\n' :: rest => longLiteralText? steps ('\n' :: '\r' :: seen) rest
      | c :: rest =>
        if isPlain c || c == '\n' then longLiteralText? steps (c :: seen) rest else none

def dropNewline (cs : List Char) : List Char := (newline? cs).getD cs

def text? (cs : List Char) : Option (String × List Char) :=
  match cs with
  | '"' :: '"' :: '"' :: rest => longBasicText? (rest.length + 1) [] (dropNewline rest)
  | '\'' :: '\'' :: '\'' :: rest => longLiteralText? (rest.length + 1) [] (dropNewline rest)
  | '"' :: rest => basicText? (rest.length + 1) [] rest
  | '\'' :: rest => literalText? rest
  | _ => none

def isNameChar (c : Char) : Bool :=
  c.isAlphanum || c == '_' || c == '-'

def name? (cs : List Char) : Option (String × List Char) :=
  match cs with
  | '"' :: rest => basicText? (rest.length + 1) [] rest
  | '\'' :: rest => literalText? rest
  | _ =>
    let name := cs.takeWhile isNameChar
    if name.isEmpty then none else some (String.ofList name, cs.drop name.length)

def maxDepth : Nat := 80

/-- Reads a dotted name: the names before the last dot, the last name, and what follows it. -/
def dottedName? : Nat → List String → List Char → Option (List String × String × List Char)
  | 0, _, _ => none
  | steps + 1, way, cs => do
    if maxDepth ≤ way.length then none
    let (name, rest) ← name? (skipBlanks cs)
    match skipBlanks rest with
    | '.' :: rest => dottedName? steps (way ++ [name]) rest
    | rest => some (way, name, rest)

mutual

def value? : Nat → Nat → List Char → Option (ConfigValue × List Char)
  | 0, _, _ => none
  | steps + 1, depth, cs =>
    match cs with
    | '[' :: rest => if depth < maxDepth then items? steps (depth + 1) [] rest else none
    | '\x7b' :: rest => if depth < maxDepth then members? steps (depth + 1) [] rest else none
    | '"' :: _ => (text? cs).map fun (text, rest) => (.text text, rest)
    | '\'' :: _ => (text? cs).map fun (text, rest) => (.text text, rest)
    | _ =>
      let (run, rest) := spanScalar cs
      (scalar? run).map fun value => (value, rest)

def items? : Nat → Nat → List ConfigValue → List Char → Option (ConfigValue × List Char)
  | 0, _, _, _ => none
  | steps + 1, depth, seen, cs =>
    match skipVoid (steps + 1) cs with
    | ']' :: rest => some (.list seen.reverse, rest)
    | rest => do
      let (value, rest) ← value? steps depth rest
      match skipVoid (steps + 1) rest with
      | ',' :: rest => items? steps depth (value :: seen) rest
      | ']' :: rest => some (.list (value :: seen).reverse, rest)
      | _ => none

def members? : Nat → Nat → Entries → List Char → Option (ConfigValue × List Char)
  | 0, _, _, _ => none
  | steps + 1, depth, seen, cs =>
    match skipVoid (steps + 1) cs with
    | '\x7d' :: rest => some (.table (Entries.toValues seen), rest)
    | rest => do
      let (way, name, rest) ← dottedName? (steps + 1) [] rest
      match rest with
      | '=' :: rest => do
        let (value, rest) ← value? steps depth (skipBlanks rest)
        let seen ← seen.addValue way name value
        match skipVoid (steps + 1) rest with
        | ',' :: rest => members? steps depth seen rest
        | '\x7d' :: rest => some (.table (Entries.toValues seen), rest)
        | _ => none
      | _ => none

end

def statement? (cs : List Char) : Option (Statement × List Char) :=
  let steps := 2 * cs.length + 2
  match cs with
  | '[' :: '[' :: rest => do
    let (way, name, rest) ← dottedName? steps [] rest
    match rest with
    | ']' :: ']' :: rest => some (.rowHeader way name, rest)
    | _ => none
  | '[' :: rest => do
    let (way, name, rest) ← dottedName? steps [] rest
    match rest with
    | ']' :: rest => some (.header way name, rest)
    | _ => none
  | cs => do
    let (way, name, rest) ← dottedName? steps [] cs
    match rest with
    | '=' :: rest => do
      let (value, rest) ← value? steps 0 (skipBlanks rest)
      some (.value way name value, rest)
    | _ => none

/-- Reads the statements of a file, one a line, in at most the given number of steps. -/
def statements? : Nat → List Statement → List Char → Option (List Statement)
  | 0, _, _ => none
  | steps + 1, seen, cs =>
    match skipVoid (steps + 1) cs with
    | [] => some seen.reverse
    | rest => do
      let (statement, rest) ← statement? rest
      statements? steps (statement :: seen) (← endLine? rest)

/-- The values that a file names, in order. A byte order mark in front is not part of it. -/
def parse? (text : String) : Option (List (String × ConfigValue)) :=
  let cs := match text.toList with
    | '\uFEFF' :: rest => rest
    | cs => cs
  (statements? (cs.length + 1) [] cs).bind Document.tableOf?

end Gatehouse.Toml
