import ChainLedger.Text.Utf8

/-!
# Keccak-256

The sponge with 24 rounds over 25 lanes of 64 bits, a rate of 136 bytes, and
a single set bit after the message and before the end of the last block.
Lane `(x, y)` is the `x + 5 y`-th, and bytes enter a lane lowest first.
-/

namespace ChainLedger.Keccak

/-- The 25 lanes. -/
abbrev Lanes := Array UInt64

/-- A lane; lanes that do not exist are zero. -/
def lane (a : Lanes) (i : Nat) : UInt64 := a.getD i 0

/-- The lanes given by a rule. -/
def build (f : Nat → UInt64) : Lanes :=
  Array.ofFn fun i : Fin 25 => f i.val

/-- Rotation towards the high bits. -/
def rotl (x : UInt64) (n : Nat) : UInt64 :=
  if n = 0 then x else (x <<< UInt64.ofNat n) ||| (x >>> UInt64.ofNat (64 - n))

/-- How far each lane is rotated. -/
def rotations : List Nat :=
  [0, 1, 62, 28, 27, 36, 44, 6, 55, 20, 3, 10, 43, 25, 39, 41, 45, 15, 21, 8, 18, 2, 61, 56, 14]

/-- What is added to the first lane in each round. -/
def roundConstants : List UInt64 :=
  [0x0000000000000001, 0x0000000000008082, 0x800000000000808A, 0x8000000080008000,
   0x000000000000808B, 0x0000000080000001, 0x8000000080008081, 0x8000000000008009,
   0x000000000000008A, 0x0000000000000088, 0x0000000080008009, 0x000000008000000A,
   0x000000008000808B, 0x800000000000008B, 0x8000000000008089, 0x8000000000008003,
   0x8000000000008002, 0x8000000000000080, 0x000000000000800A, 0x800000008000000A,
   0x8000000080008081, 0x8000000000008080, 0x0000000080000001, 0x8000000080008008]

/-- Each lane takes up the parities of two neighbouring columns. -/
def theta (a : Lanes) : Lanes :=
  let column (x : Nat) : UInt64 :=
    lane a x ^^^ lane a (x + 5) ^^^ lane a (x + 10) ^^^ lane a (x + 15) ^^^ lane a (x + 20)
  let columns : Array UInt64 := Array.ofFn fun x : Fin 5 => column x.val
  let parity (x : Nat) : UInt64 := columns.getD (x % 5) 0
  build fun i => lane a i ^^^ parity (i % 5 + 4) ^^^ rotl (parity (i % 5 + 1)) 1

/-- Lanes are rotated and moved: `(x, y)` goes to `(y, 2 x + 3 y)`. -/
def rhoPi (a : Lanes) : Lanes :=
  build fun i =>
    let x := i % 5
    let y := i / 5
    let source := (x + 3 * y) % 5 + 5 * x
    rotl (lane a source) (rotations.getD source 0)

/-- Each lane takes up the next two of its row. -/
def chi (a : Lanes) : Lanes :=
  build fun i =>
    let row := i / 5 * 5
    lane a i ^^^ (~~~(lane a (row + (i + 1) % 5)) &&& lane a (row + (i + 2) % 5))

/-- One round. -/
def step (a : Lanes) (constant : UInt64) : Lanes :=
  let b := chi (rhoPi (theta a))
  b.modify 0 (· ^^^ constant)

/-- All rounds. -/
def permute (a : Lanes) : Lanes :=
  roundConstants.foldl step a

/-- The number of bytes taken up at a time. -/
def rate : Nat := 136

/-- Eight bytes as a lane, lowest first. -/
def toLane (bs : Bytes) : UInt64 :=
  bs.foldr (fun b acc => (acc <<< 8) ||| b.toUInt64) 0

/-- The bytes of a lane, lowest first. -/
def ofLane (w : UInt64) : Bytes :=
  (List.range 8).map fun i => (w >>> UInt64.ofNat (8 * i)).toUInt8

/-- Takes up one block. -/
def absorb (a : Lanes) (block : Bytes) : Lanes :=
  let words := block.toArray
  permute <| build fun i =>
    if i < rate / 8 then lane a i ^^^ toLane (words.extract (8 * i) (8 * i + 8)).toList
    else lane a i

/-- Takes up all full blocks and then the padded rest. The first argument is
at least the number of blocks. -/
def absorbAll : Nat → Lanes → Bytes → Lanes
  | 0, a, _ => a
  | n + 1, a, bs =>
    if rate ≤ bs.length then absorbAll n (absorb a (bs.take rate)) (bs.drop rate)
    else
      let gap := rate - bs.length
      let pad := if gap = 1 then [0x81] else 0x01 :: (List.replicate (gap - 2) 0x00 ++ [0x80])
      absorb a (bs ++ pad)

/-- **The digest**: 32 bytes. -/
def digest (message : Bytes) : Bytes :=
  let a := absorbAll (message.length / rate + 1) (build fun _ => 0) message
  ((List.range 4).flatMap fun i => ofLane (lane a i)).take 32

end ChainLedger.Keccak
