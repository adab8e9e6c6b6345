import Gatehouse.Password.Blake2b

set_option autoImplicit false

/-!
# Argon2

The password hash in its three variants and two versions. It fills a memory of blocks, each from the
block before it and from another block that the password and salt choose, and hashes the last
blocks of all lanes.
-/

namespace Gatehouse.Argon2

/-- Where the choice of blocks comes from: from the memory, from the position, or from the position
in the first half of the first pass and from the memory after it. -/
inductive Variant where
  | d
  | i
  | id
  deriving DecidableEq, Repr

inductive Version where
  | v16
  | v19
  deriving DecidableEq, Repr

def Variant.number : Variant → Nat
  | .d => 0
  | .i => 1
  | .id => 2

def Version.number : Version → Nat
  | .v16 => 16
  | .v19 => 19

structure Params where
  variant : Variant := .id
  version : Version := .v19
  /-- The size of the memory in blocks of 1024 bytes. -/
  memory : Nat := 19456
  passes : Nat := 2
  lanes : Nat := 1
  size : Nat := 32
  associated : List UInt8 := []
  deriving DecidableEq, Repr

/-- 1024 bytes, as eight rows of sixteen words. -/
structure Block where
  r0 : Words
  r1 : Words
  r2 : Words
  r3 : Words
  r4 : Words
  r5 : Words
  r6 : Words
  r7 : Words

namespace Block

def zero : Block :=
  let z := Words.zero
  ⟨z, z, z, z, z, z, z, z⟩

def xor (x y : Block) : Block :=
  ⟨x.r0.xor y.r0, x.r1.xor y.r1, x.r2.xor y.r2, x.r3.xor y.r3, x.r4.xor y.r4, x.r5.xor y.r5,
   x.r6.xor y.r6, x.r7.xor y.r7⟩

def row (x : Block) : Nat → Words
  | 0 => x.r0
  | 1 => x.r1
  | 2 => x.r2
  | 3 => x.r3
  | 4 => x.r4
  | 5 => x.r5
  | 6 => x.r6
  | _ => x.r7

/-- The word at an index below 128. -/
def get (x : Block) (i : Nat) : UInt64 :=
  (x.row (i / 16)).get (i % 16)

def ofFunction (f : Nat → UInt64) : Block :=
  let row (k : Nat) : Words := .ofFunction fun i => f (16 * k + i)
  ⟨row 0, row 1, row 2, row 3, row 4, row 5, row 6, row 7⟩

def ofBytes (bytes : List UInt8) : Block :=
  let row (k : Nat) : Words := Blake2b.blockWords ((bytes.drop (128 * k)).take 128)
  ⟨row 0, row 1, row 2, row 3, row 4, row 5, row 6, row 7⟩

def toBytes (x : Block) : List UInt8 :=
  (List.range 8).flatMap fun k => (x.row k).toList.flatMap wordBytes

def transpose (x : Block) : Block :=
  ⟨⟨x.r0.w0, x.r0.w1, x.r1.w0, x.r1.w1, x.r2.w0, x.r2.w1, x.r3.w0, x.r3.w1, x.r4.w0, x.r4.w1,
    x.r5.w0, x.r5.w1, x.r6.w0, x.r6.w1, x.r7.w0, x.r7.w1⟩,
   ⟨x.r0.w2, x.r0.w3, x.r1.w2, x.r1.w3, x.r2.w2, x.r2.w3, x.r3.w2, x.r3.w3, x.r4.w2, x.r4.w3,
    x.r5.w2, x.r5.w3, x.r6.w2, x.r6.w3, x.r7.w2, x.r7.w3⟩,
   ⟨x.r0.w4, x.r0.w5, x.r1.w4, x.r1.w5, x.r2.w4, x.r2.w5, x.r3.w4, x.r3.w5, x.r4.w4, x.r4.w5,
    x.r5.w4, x.r5.w5, x.r6.w4, x.r6.w5, x.r7.w4, x.r7.w5⟩,
   ⟨x.r0.w6, x.r0.w7, x.r1.w6, x.r1.w7, x.r2.w6, x.r2.w7, x.r3.w6, x.r3.w7, x.r4.w6, x.r4.w7,
    x.r5.w6, x.r5.w7, x.r6.w6, x.r6.w7, x.r7.w6, x.r7.w7⟩,
   ⟨x.r0.w8, x.r0.w9, x.r1.w8, x.r1.w9, x.r2.w8, x.r2.w9, x.r3.w8, x.r3.w9, x.r4.w8, x.r4.w9,
    x.r5.w8, x.r5.w9, x.r6.w8, x.r6.w9, x.r7.w8, x.r7.w9⟩,
   ⟨x.r0.w10, x.r0.w11, x.r1.w10, x.r1.w11, x.r2.w10, x.r2.w11, x.r3.w10, x.r3.w11,
    x.r4.w10, x.r4.w11, x.r5.w10, x.r5.w11, x.r6.w10, x.r6.w11, x.r7.w10, x.r7.w11⟩,
   ⟨x.r0.w12, x.r0.w13, x.r1.w12, x.r1.w13, x.r2.w12, x.r2.w13, x.r3.w12, x.r3.w13,
    x.r4.w12, x.r4.w13, x.r5.w12, x.r5.w13, x.r6.w12, x.r6.w13, x.r7.w12, x.r7.w13⟩,
   ⟨x.r0.w14, x.r0.w15, x.r1.w14, x.r1.w15, x.r2.w14, x.r2.w15, x.r3.w14, x.r3.w15,
    x.r4.w14, x.r4.w15, x.r5.w14, x.r5.w15, x.r6.w14, x.r6.w15, x.r7.w14, x.r7.w15⟩⟩

end Block

/-- Addition with a product of the low halves, which makes the mixing nonlinear. -/
@[inline] def blend (x y : UInt64) : UInt64 :=
  x + y + 2 * (x &&& 0xFFFFFFFF) * (y &&& 0xFFFFFFFF)

@[inline] def mix (q : Quad) : Quad :=
  let a := blend q.a q.b
  let d := rotateRight (q.d ^^^ a) 32
  let c := blend q.c d
  let b := rotateRight (q.b ^^^ c) 24
  let a := blend a b
  let d := rotateRight (d ^^^ a) 16
  let c := blend c d
  let b := rotateRight (b ^^^ c) 63
  ⟨a, b, c, d⟩

def permute (x : Words) : Words :=
  x.round fun _ => mix

def permuteRows (x : Block) : Block :=
  ⟨permute x.r0, permute x.r1, permute x.r2, permute x.r3, permute x.r4, permute x.r5,
   permute x.r6, permute x.r7⟩

def compress (x y : Block) : Block :=
  let sum := x.xor y
  sum.xor (permuteRows (permuteRows sum).transpose).transpose

/-- Outputs of any length: the first halves of a chain of hashes, and the whole of its last. -/
def hashLong (size : Nat) (message : List UInt8) : List UInt8 :=
  let input := bytes32 size ++ message
  if size ≤ 64 then Blake2b.hash size input
  else
    let links := (size + 31) / 32 - 2
    let chain := (List.range (links - 1)).foldl
      (fun (halves, link) _ => (halves ++ link.take 32, Blake2b.hash 64 link))
      (([] : List UInt8), Blake2b.hash 64 input)
    chain.1 ++ chain.2.take 32 ++ Blake2b.hash (size - 32 * links) chain.2

namespace Params

def segment (params : Params) : Nat := params.memory / (4 * params.lanes)

def laneLength (params : Params) : Nat := 4 * params.segment

def blockCount (params : Params) : Nat := params.lanes * params.laneLength

def chosenByPosition (params : Params) (pass slice : Nat) : Bool :=
  match params.variant with
  | .d => false
  | .i => true
  | .id => pass == 0 && slice < 2

def seed (params : Params) (password salt : List UInt8) : List UInt8 :=
  Blake2b.hash 64
    (bytes32 params.lanes ++ bytes32 params.size ++ bytes32 params.memory ++
      bytes32 params.passes ++ bytes32 params.version.number ++ bytes32 params.variant.number ++
      bytes32 password.length ++ password ++ bytes32 salt.length ++ salt ++ bytes32 0 ++
      bytes32 params.associated.length ++ params.associated)

def firstBlocks (params : Params) (seed : List UInt8) : Array Block :=
  (List.range params.lanes).foldl
    (fun memory lane =>
      let block (column : Nat) : Block :=
        .ofBytes (hashLong 1024 (seed ++ bytes32 column ++ bytes32 lane))
      (memory.setIfInBounds (lane * params.laneLength) (block 0)).setIfInBounds
        (lane * params.laneLength + 1) (block 1))
    (Array.replicate params.blockCount Block.zero)

def choices (params : Params) (pass lane slice batch : Nat) : Block :=
  let input := Block.ofFunction fun i =>
    match i with
    | 0 => pass.toUInt64
    | 1 => lane.toUInt64
    | 2 => slice.toUInt64
    | 3 => params.blockCount.toUInt64
    | 4 => params.passes.toUInt64
    | 5 => params.variant.number.toUInt64
    | 6 => (batch + 1).toUInt64
    | _ => 0
  compress .zero (compress .zero input)

/-- The index of the block that a number chooses for a position. Blocks of the same segment are
open only in the same lane, and never the block just before. -/
def chosen (params : Params) (pass slice lane index : Nat) (choice : UInt64) : Nat :=
  let high := (choice >>> 32).toNat
  let chosenLane := if pass == 0 && slice == 0 then lane else high % params.lanes
  let before := if pass == 0 then slice * params.segment else params.laneLength - params.segment
  let area :=
    if chosenLane == lane then before + index - 1 else if index == 0 then before - 1 else before
  let start := if pass == 0 || slice == 3 then 0 else (slice + 1) * params.segment
  let low := choice &&& 0xFFFFFFFF
  let distance := (area.toUInt64 * ((low * low) >>> 32)) >>> 32
  chosenLane * params.laneLength + (start + (area - 1 - distance.toNat)) % params.laneLength

def fillSegment (params : Params) (pass slice lane : Nat) (memory : Array Block) : Array Block :=
  let byPosition := params.chosenByPosition pass slice
  let first := if pass == 0 && slice == 0 then 2 else 0
  let base := lane * params.laneLength
  let step (state : Array Block × Block) (index : Nat) : Array Block × Block :=
    let (memory, numbers) := state
    let column := slice * params.segment + index
    let current := base + column
    let previous :=
      memory.getD (base + (column + params.laneLength - 1) % params.laneLength) Block.zero
    let numbers :=
      if byPosition && (index == first || index % 128 == 0) then
        params.choices pass lane slice (index / 128)
      else numbers
    let choice := if byPosition then numbers.get (index % 128) else previous.r0.w0
    let other := memory.getD (params.chosen pass slice lane index choice) Block.zero
    let mixed := compress previous other
    let block :=
      if pass == 0 || params.version == .v16 then mixed
      else mixed.xor (memory.getD current Block.zero)
    (memory.setIfInBounds current block, numbers)
  ((List.range' first (params.segment - first)).foldl step (memory, .zero)).1

def fillPass (params : Params) (pass : Nat) (memory : Array Block) : Array Block :=
  (List.range 4).foldl
    (fun memory slice =>
      (List.range params.lanes).foldl
        (fun memory lane => params.fillSegment pass slice lane memory) memory)
    memory

end Params

def hash (params : Params) (password salt : List UInt8) : List UInt8 :=
  let start := params.firstBlocks (params.seed password salt)
  let memory :=
    (List.range params.passes).foldl (fun memory pass => params.fillPass pass memory) start
  let last := (List.range params.lanes).foldl
    (fun sum lane =>
      sum.xor (memory.getD (lane * params.laneLength + params.laneLength - 1) Block.zero))
    Block.zero
  hashLong params.size last.toBytes

end Gatehouse.Argon2
