import Gatehouse.Text.Category
import Gatehouse.Text.Numeral
import Gatehouse.Text.Split

set_option autoImplicit false

/-!
# Ranges of bytes

A client can ask for parts of a file, as in `bytes=0-99, 500-, -20`: from one position to another,
from a position on, or so many bytes at the end. Ranges that are not written in this way, that hold
no byte of the file, or that overlap, cannot be served.
-/

namespace Gatehouse

inductive ByteRange where
  /-- Both positions are included. -/
  | between (first last : Nat)
  | onwards (first : Nat)
  | final (count : Nat)
  deriving DecidableEq, Repr

namespace ByteRange

def position? (cs : List Char) : Option Nat :=
  if 1 < cs.length && cs.head? = some '0' then none
  else (Text.natural? cs).filter (· < UInt64.size)

def ofPiece? (piece : List Char) : Option ByteRange :=
  let cs := if piece.head?.any Text.isBlank then piece.tail else piece
  match Text.splitOn '-' cs with
  | [[], count] => (position? count).map final
  | [first, []] => (position? first).map onwards
  | [first, last] => do some (between (← position? first) (← position? last))
  | _ => none

/-- The ranges that the value of a header asks for. The first one follows the unit directly. -/
def parse? (value : String) : Option (List ByteRange) :=
  match Text.splitFirst? '=' value.toList with
  | some (unit, ranges) =>
    if unit ≠ "bytes".toList || ranges.head?.any Text.isBlank then none
    else (Text.splitOn ',' ranges).mapM ofPiece?
  | none => none

def ordered? (first last : Nat) : Option (Nat × Nat) :=
  if first ≤ last then some (first, last) else none

def part? (size : Nat) : ByteRange → Option (Nat × Nat)
  | between first last => ordered? first (min last (size - 1))
  | onwards first => ordered? first (size - 1)
  | final count => if count ≤ size then ordered? (size - count) (size - 1) else none

def areDisjoint : List (Nat × Nat) → Bool
  | [] => true
  | (first, last) :: rest =>
    rest.all (fun other => last < other.1 || other.2 < first) && areDisjoint rest

def parts? (size : Nat) (ranges : List ByteRange) : Option (List (Nat × Nat)) :=
  (ranges.mapM (part? size)).filter areDisjoint

end ByteRange

end Gatehouse
