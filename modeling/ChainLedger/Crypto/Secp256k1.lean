import ChainLedger.Crypto.Sha256
import ChainLedger.Text.Hex

/-!
# Signatures on the curve secp256k1

The curve `y² = x³ + 7` over the field of `2 ^ 256 - 2 ^ 32 - 977` elements.
A signature of a digest is made with a nonce that is derived from the key
and the digest alone, so one key signs one digest in one way; of the two
signatures that a nonce allows, the one with the smaller second half is
given. Points are computed in projective coordinates, where `(x, y, z)`
stands for `(x / z², y / z³)`.
-/

namespace ChainLedger.Secp256k1

-- A power is the one of the core library, whatever other structure is in scope.
attribute [local instance (2000)] instPowNat

/-- The number of elements of the field. -/
def fieldSize : Nat := 2 ^ (256 : Nat) - 2 ^ (32 : Nat) - 977

/-- The number of points of the curve. -/
def order : Nat := 0xFFFFFFFFFFFFFFFFFFFFFFFFFFFFFFFEBAAEDCE6AF48A03BBFD25E8CD0364141

/-- The power `b ^ e` modulo `m`, squaring once for each bit of `e`. -/
def powMod (m : Nat) : Nat → Nat → Nat → Nat
  | 0, _, _ => 1 % m
  | n + 1, b, e =>
    if e = 0 then 1 % m
    else
      let half := powMod m n (b * b % m) (e / 2)
      if e % 2 = 1 then half * b % m else half

/-- The inverse modulo a prime. -/
def inverse (m a : Nat) : Nat :=
  powMod m 256 (a % m) (m - 2)

/-- A point in projective coordinates; `z = 0` is the point at infinity. -/
structure Point where
  x : Nat
  y : Nat
  z : Nat

/-- The point at infinity. -/
def infinity : Point := ⟨1, 1, 0⟩

/-- The generator. -/
def generator : Point :=
  ⟨0x79BE667EF9DCBBAC55A06295CE870B07029BFCDB2DCE28D959F2815B16F81798,
   0x483ADA7726A3C4655DA4FBFC0E1108A8FD17B448A68554199C47D08FFB10D4B8, 1⟩

/-- The difference in the field. -/
def minus (a b : Nat) : Nat :=
  (a + (fieldSize - b % fieldSize)) % fieldSize

/-- The sum of a point with itself. -/
def double (p : Point) : Point :=
  if p.z = 0 ∨ p.y = 0 then infinity
  else
    let yy := p.y * p.y % fieldSize
    let s := 4 * p.x * yy % fieldSize
    let m := 3 * p.x * p.x % fieldSize
    let x := minus (m * m) (2 * s)
    let y := minus (m * minus s x) (8 * yy * yy)
    ⟨x, y, 2 * p.y * p.z % fieldSize⟩

/-- The sum of two points. -/
def add (p q : Point) : Point :=
  if p.z = 0 then q
  else if q.z = 0 then p
  else
    let pzz := p.z * p.z % fieldSize
    let qzz := q.z * q.z % fieldSize
    let u1 := p.x * qzz % fieldSize
    let u2 := q.x * pzz % fieldSize
    let s1 := p.y * qzz * q.z % fieldSize
    let s2 := q.y * pzz * p.z % fieldSize
    if u1 = u2 then (if s1 = s2 then double p else infinity)
    else
      let h := minus u2 u1
      let r := minus s2 s1
      let hh := h * h % fieldSize
      let hhh := hh * h % fieldSize
      let v := u1 * hh % fieldSize
      let x := minus (r * r) (hhh + 2 * v)
      let y := minus (r * minus v x) (s1 * hhh)
      ⟨x, y, h * p.z * q.z % fieldSize⟩

/-- A multiple of a point, for factors below `2 ^ n`. -/
def multiply (p : Point) : Nat → Nat → Point
  | 0, _ => infinity
  | n + 1, k =>
    let half := double (multiply p n (k / 2))
    if k % 2 = 1 then add half p else half

/-- The coordinates of a point other than infinity. -/
def Point.affine (p : Point) : Nat × Nat :=
  let i := inverse fieldSize p.z
  let ii := i * i % fieldSize
  (p.x * ii % fieldSize, p.y * ii * i % fieldSize)

/-! ## Keys -/

/-- **A secret key** is 24 to 32 bytes, filled with zeros on the left, for a
number above zero and below the order of the curve. -/
def secretKey? (key : Bytes) : Option Nat :=
  if key.length < 24 ∨ 32 < key.length then none
  else
    let k := Hex.toNat key
    if k = 0 ∨ order ≤ k then none else some k

/-- The coordinates of a public key, 64 bytes. -/
def publicKey (secret : Nat) : Bytes :=
  let (x, y) := (multiply generator 256 secret).affine
  Hex.ofNat 32 x ++ Hex.ofNat 32 y

/-! ## Signing -/

/-- The two values that nonces are drawn from. -/
structure Drawing where
  key : Bytes
  value : Bytes

/-- Mixes some bytes into a drawing. -/
def Drawing.mix (d : Drawing) (bs : Bytes) : Drawing :=
  let key := Sha256.code d.key (d.value ++ bs)
  ⟨key, Sha256.code key d.value⟩

/-- The drawing for a secret key and a digest. -/
def Drawing.start (secret : Nat) (digest : Bytes) : Drawing :=
  let seed := Hex.ofNat 32 secret ++ digest
  let d : Drawing := ⟨List.replicate 32 0x00, List.replicate 32 0x01⟩
  (d.mix (0x00 :: seed)).mix (0x01 :: seed)

/-- The first number drawn that is above zero and below the order. -/
def Drawing.nonce? : Nat → Drawing → Option Nat
  | 0, _ => none
  | n + 1, d =>
    let value := Sha256.code d.key d.value
    let k := Hex.toNat value
    if k ≠ 0 ∧ k < order then some k
    else Drawing.nonce? n (Drawing.mix ⟨d.key, value⟩ [0x00])

/-- A signature, and which of the points with its first half made it. -/
structure Signature where
  r : Nat
  s : Nat
  recovery : Nat

/-- **The signature of a digest** of 32 bytes. -/
def sign? (secret : Nat) (digest : Bytes) : Option Signature := do
  let k ← Drawing.nonce? 64 (Drawing.start secret digest)
  let (x, y) := (multiply generator 256 k).affine
  let r := x % order
  let s := inverse order k * (Hex.toNat digest + r * secret) % order
  if r = 0 ∨ s = 0 then none
  else
    let side := (if order ≤ x then 2 else 0) + y % 2
    if order / 2 < s then some ⟨r, order - s, if side % 2 = 0 then side + 1 else side - 1⟩
    else some ⟨r, s, side⟩

end ChainLedger.Secp256k1
