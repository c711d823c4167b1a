import HostedEvm.Bytes

set_option autoImplicit false

/-!
The Keccak-256 digest.

The sponge keeps twenty-five lanes of 64 bits. Lane `x + 5 * y` stands in column `x` and row `y`.
A message is padded to whole blocks of 136 bytes, each block is mixed into the first lanes, and the
digest is the first 32 bytes of the last state.
-/

namespace HostedEvm.Keccak

/-- The lanes of the sponge. -/
abbrev Lanes := Vector UInt64 25

/-- Bytes of a message absorbed between two permutations. -/
def rate : Nat := 136

/-- The constant added to the first lane in each round. -/
def roundConstants : List UInt64 :=
  [0x0000000000000001, 0x0000000000008082, 0x800000000000808a, 0x8000000080008000,
   0x000000000000808b, 0x0000000080000001, 0x8000000080008081, 0x8000000000008009,
   0x000000000000008a, 0x0000000000000088, 0x0000000080008009, 0x000000008000000a,
   0x000000008000808b, 0x800000000000008b, 0x8000000000008089, 0x8000000000008003,
   0x8000000000008002, 0x8000000000000080, 0x000000000000800a, 0x800000008000000a,
   0x8000000080008081, 0x8000000000008080, 0x0000000080000001, 0x8000000080008008]

/-- How far each lane turns before it moves. -/
def turns : Vector UInt64 25 :=
  #v[0, 1, 62, 28, 27, 36, 44, 6, 55, 20, 3, 10, 43, 25, 39, 41, 45, 15, 21, 8, 18, 2, 61, 56, 14]

/-- A lane turned left by fewer than 64 places. -/
def turnLeft (lane places : UInt64) : UInt64 :=
  (lane <<< places) ||| (lane >>> ((64 - places) % 64))

/-- Every lane is mixed with the parities of the two neighbouring columns. -/
def mixColumns (lanes : Lanes) : Lanes :=
  let parity : Vector UInt64 5 := Vector.ofFn fun x =>
    lanes[x.val] ^^^ lanes[x.val + 5] ^^^ lanes[x.val + 10] ^^^ lanes[x.val + 15] ^^^
      lanes[x.val + 20]
  let effect : Vector UInt64 5 := Vector.ofFn fun x =>
    parity[(x.val + 4) % 5] ^^^ turnLeft parity[(x.val + 1) % 5] 1
  Vector.ofFn fun i => lanes[i.val] ^^^ effect[i.val % 5]

/-- Every lane turns and moves to its new place. -/
def moveLanes (lanes : Lanes) : Lanes :=
  Vector.ofFn fun i =>
    let x := i.val % 5
    let y := i.val / 5
    let source := (x + 3 * y) % 5 + 5 * x
    if h : source < 25 then turnLeft lanes[source] turns[source] else 0

/-- Every lane is mixed with the two lanes to its right in the row. -/
def mixRows (lanes : Lanes) : Lanes :=
  Vector.ofFn fun i =>
    let x := i.val % 5
    let row := i.val - x
    if h : row < 21 then
      lanes[i.val] ^^^ ((~~~ lanes[row + (x + 1) % 5]) &&& lanes[row + (x + 2) % 5])
    else 0

def permuteOnce (lanes : Lanes) (constant : UInt64) : Lanes :=
  let mixed := mixRows (moveLanes (mixColumns lanes))
  mixed.set 0 (mixed[0] ^^^ constant)

def permute (lanes : Lanes) : Lanes := roundConstants.foldl permuteOnce lanes

/-- Lane `i` of a block, low byte first. -/
def laneOf (block : Bytes) (i : Nat) : UInt64 :=
  ((block.drop (8 * i)).take 8).foldr (fun byte lane => (lane <<< 8) ||| byte.toUInt64) 0

def lanesOf (block : Bytes) : Lanes :=
  Vector.ofFn fun i => if i.val < rate / 8 then laneOf block i.val else 0

/-- The state after one more block. -/
def absorb (lanes : Lanes) (block : Bytes) : Lanes :=
  permute (Vector.zipWith (· ^^^ ·) lanes (lanesOf block))

/-- The state after a message, which ends with a marked and padded block. -/
def absorbAll (lanes : Lanes) (message : Bytes) : Lanes :=
  if short : message.length < rate then
    let gap := rate - 1 - message.length
    let ending : Bytes := if gap = 0 then [0x81] else 1 :: (List.replicate (gap - 1) 0 ++ [0x80])
    absorb lanes (message ++ ending)
  else
    absorbAll (absorb lanes (message.take rate)) (message.drop rate)
termination_by message.length
decreasing_by
  rw [List.length_drop]
  have positive : 0 < rate := by decide
  omega

/-- The bytes of a lane, low byte first. -/
def laneBytes (lane : UInt64) : Bytes := (Bytes.bigEndian 8 lane.toNat).reverse

def digestBytes (message : Bytes) : Bytes :=
  let lanes := absorbAll (Vector.replicate 25 0) message
  laneBytes lanes[0] ++ laneBytes lanes[1] ++ laneBytes lanes[2] ++ laneBytes lanes[3]

def digest (message : Bytes) : Word := (digestBytes message).toWord

end HostedEvm.Keccak
