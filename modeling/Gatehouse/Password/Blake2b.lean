import Gatehouse.Password.Words

set_option autoImplicit false

/-!
# Blake2b

The hash function under Argon2, without a key: messages of any length, outputs of 1 to 64 bytes.
-/

namespace Gatehouse.Blake2b

def initial : List UInt64 :=
  [0x6A09E667F3BCC908, 0xBB67AE8584CAA73B, 0x3C6EF372FE94F82B, 0xA54FF53A5F1D36F1,
    0x510E527FADE682D1, 0x9B05688C2B3E6C1F, 0x1F83D9ABFB41BD6B, 0x5BE0CD19137E2179]

def schedule : List (List Nat) :=
  [[0, 1, 2, 3, 4, 5, 6, 7, 8, 9, 10, 11, 12, 13, 14, 15],
    [14, 10, 4, 8, 9, 15, 13, 6, 1, 12, 0, 2, 11, 7, 5, 3],
    [11, 8, 12, 0, 5, 2, 15, 13, 10, 14, 3, 6, 7, 1, 9, 4],
    [7, 9, 3, 1, 13, 12, 11, 14, 2, 6, 5, 10, 4, 0, 15, 8],
    [9, 0, 5, 7, 2, 4, 10, 15, 14, 1, 11, 12, 6, 8, 3, 13],
    [2, 12, 6, 10, 0, 11, 8, 3, 4, 13, 7, 5, 15, 14, 1, 9],
    [12, 5, 1, 15, 14, 13, 4, 10, 0, 7, 6, 3, 9, 2, 8, 11],
    [13, 11, 7, 14, 12, 1, 3, 9, 5, 0, 15, 4, 8, 6, 2, 10],
    [6, 15, 14, 9, 11, 3, 0, 8, 12, 2, 13, 7, 1, 4, 10, 5],
    [10, 2, 8, 4, 7, 6, 1, 5, 15, 11, 9, 14, 3, 12, 13, 0],
    [0, 1, 2, 3, 4, 5, 6, 7, 8, 9, 10, 11, 12, 13, 14, 15],
    [14, 10, 4, 8, 9, 15, 13, 6, 1, 12, 0, 2, 11, 7, 5, 3]]

def mix (x y : UInt64) (q : Quad) : Quad :=
  let a := q.a + q.b + x
  let d := rotateRight (q.d ^^^ a) 32
  let c := q.c + d
  let b := rotateRight (q.b ^^^ c) 24
  let a := a + b + y
  let d := rotateRight (d ^^^ a) 16
  let c := c + d
  let b := rotateRight (b ^^^ c) 63
  ⟨a, b, c, d⟩

def roundWith (block : Words) (order : List Nat) (state : Words) : Words :=
  let word (i : Nat) : UInt64 := block.get (order.getD i 0)
  state.round fun i => mix (word (2 * i)) (word (2 * i + 1))

def compress (chain : List UInt64) (block : Words) (count : Nat) (last : Bool) : List UInt64 :=
  let value (i : Nat) : UInt64 := chain.getD i 0
  let start (i : Nat) : UInt64 :=
    if i < 8 then value i
    else
      let constant := initial.getD (i - 8) 0
      if i = 12 then constant ^^^ count.toUInt64
      else if i = 13 then constant ^^^ (count >>> 64).toUInt64
      else if i = 14 ∧ last = true then ~~~constant
      else constant
  let final := schedule.foldl (fun state order => roundWith block order state) (.ofFunction start)
  (List.range 8).map fun i => value i ^^^ final.get i ^^^ final.get (i + 8)

def blockWords (bytes : List UInt8) : Words :=
  .ofFunction fun i => wordOfBytes ((bytes.drop (8 * i)).take 8)

def absorb (chain : List UInt64) (count : Nat) (message : List UInt8) : List UInt64 :=
  if message.length ≤ 128 then
    compress chain (blockWords message) (count + message.length) true
  else
    absorb (compress chain (blockWords (message.take 128)) (count + 128) false) (count + 128)
      (message.drop 128)
termination_by message.length
decreasing_by simp; omega

/-- The hash of a message, in the given number of bytes. -/
def hash (size : Nat) (message : List UInt8) : List UInt8 :=
  let start :=
    match initial with
    | first :: rest => (first ^^^ 0x01010000 ^^^ size.toUInt64) :: rest
    | [] => []
  ((absorb start 0 message).flatMap wordBytes).take size

end Gatehouse.Blake2b
