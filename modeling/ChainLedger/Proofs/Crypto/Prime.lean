import ChainLedger.Crypto.Secp256k1
import Mathlib.Data.List.Prime
import Mathlib.NumberTheory.LucasPrimality
import Mathlib.Tactic.NormNum.Prime

/-!
# The primes of the curve

A number is prime if some root has the order of all remainders but zero, which
the prime factors of the number less one decide. A certificate lists such
numbers with their roots and factors, each factor certified before it is used
(`Certified`), and the powers are those that the curve computes with
(`powMod_eq`). So the number of elements of the field and the number of points
of the curve are prime: `prime_fieldSize` and `prime_order`.
-/

namespace ChainLedger.Secp256k1

/-- A power that is squared bit by bit is the power. -/
theorem powMod_eq {m n : ℕ} (b : ℕ) {e : ℕ} (he : e < 2 ^ n) : powMod m n b e = b ^ e % m := by
  induction n generalizing b e with
  | zero =>
    obtain rfl : e = 0 := Nat.lt_one_iff.mp he
    rw [powMod, pow_zero]
  | succ n ih =>
    have hhalf : e / 2 < 2 ^ n := Nat.div_lt_of_lt_mul (pow_succ' 2 n ▸ he)
    have hsplit : b ^ e = (b * b) ^ (e / 2) * b ^ (e % 2) := by
      rw [← sq, ← pow_mul, ← pow_add, Nat.div_add_mod]
    by_cases hzero : e = 0
    · rw [powMod, if_pos hzero, hzero, pow_zero]
    · simp only [powMod, if_neg hzero, ih _ hhalf, ← Nat.pow_mod, hsplit]
      rcases Nat.mod_two_eq_zero_or_one e with hbit | hbit
      · simp [hbit]
      · simp [hbit, Nat.mod_mul_mod]

/-! ## Certificates -/

/-- A line of a certificate: a number, a root, and the primes whose product is
one less than the number. -/
structure Line where
  number : ℕ
  root : ℕ
  factors : List ℕ

/-- **A line passes** after some primes: the root has the order that it should,
and the factors are among the primes. -/
def Line.Passes (l : Line) (primes : List ℕ) : Prop :=
  1 < l.number ∧ l.number < 2 ^ 256 ∧ l.factors.prod + 1 = l.number ∧
    powMod l.number 256 l.root (l.number - 1) = 1 ∧
    ∀ q ∈ l.factors, q ∈ primes ∧ powMod l.number 256 l.root ((l.number - 1) / q) ≠ 1

instance (l : Line) (primes : List ℕ) : Decidable (l.Passes primes) :=
  inferInstanceAs (Decidable (_ ∧ _))

/-- **Lines certify their numbers**: each passes after those before it. -/
def Certified : List ℕ → List Line → Prop
  | _, [] => True
  | primes, l :: rest => l.Passes primes ∧ Certified (l.number :: primes) rest

instance decidableCertified : ∀ primes lines, Decidable (Certified primes lines)
  | _, [] => .isTrue trivial
  | primes, l :: rest =>
    have := decidableCertified (l.number :: primes) rest
    inferInstanceAs (Decidable (_ ∧ _))

theorem natCast_pow_eq_one_iff {p : ℕ} (hp : 1 < p) (a e : ℕ) :
    (a : ZMod p) ^ e = 1 ↔ a ^ e % p = 1 := by
  rw [← Nat.cast_pow, ← Nat.cast_one, ZMod.natCast_eq_natCast_iff', Nat.mod_eq_of_lt hp]

/-- The number of a line that passes is prime. -/
theorem Line.Passes.prime {l : Line} {primes : List ℕ} (hprimes : ∀ q ∈ primes, q.Prime)
    (h : l.Passes primes) : l.number.Prime := by
  obtain ⟨hone, hsize, hprod, hfull, hfactors⟩ := h
  have hpred : l.number - 1 = l.factors.prod := by omega
  refine lucas_primality l.number (l.root : ZMod l.number) ?_ fun q hq hdvd => ?_
  · rw [natCast_pow_eq_one_iff hone, ← powMod_eq _ (by omega : l.number - 1 < 2 ^ 256)]
    exact hfull
  · have hmem : q ∈ l.factors :=
      mem_list_primes_of_dvd_prod hq.prime
        (fun q' hq' => (hprimes q' (hfactors q' hq').1).prime) (hpred ▸ hdvd)
    have hle : (l.number - 1) / q < 2 ^ 256 :=
      ((Nat.div_le_self _ _).trans (Nat.sub_le _ _)).trans_lt hsize
    rw [ne_eq, natCast_pow_eq_one_iff hone, ← powMod_eq _ hle]
    exact (hfactors q hmem).2

/-- **What is certified is prime.** -/
theorem prime_of_certified {primes : List ℕ} {lines : List Line}
    (hprimes : ∀ q ∈ primes, q.Prime) (h : Certified primes lines) :
    ∀ l ∈ lines, l.number.Prime := by
  induction lines generalizing primes with
  | nil => exact nofun
  | cons l rest ih =>
    have hprime := h.1.prime hprimes
    have hmore : ∀ q ∈ l.number :: primes, q.Prime := by
      rintro q (_ | ⟨_, hq⟩)
      exacts [hprime, hprimes q hq]
    rintro _ (_ | ⟨_, hl⟩)
    exacts [hprime, ih hmore h.2 _ hl]

/-! ## The primes -/

/-- Primes that are found by trial. -/
def smallPrimes : List ℕ :=
  [2, 3, 5, 7, 11, 13, 17, 29, 31, 41, 53, 59, 109, 149, 293, 461, 631, 797, 971, 1373, 1627, 2621,
   2657, 4051, 4423, 5323, 7723, 9349, 13441, 16699, 24809, 28181, 41201, 85831, 96557, 120233,
   305873, 1627771, 4681609, 7240687]

theorem prime_of_mem_smallPrimes : ∀ q ∈ smallPrimes, q.Prime := by
  norm_num [smallPrimes]

/-- The certificate of the two primes of the curve. -/
def certificate : List Line :=
  [⟨13331831, 13, [2, 5, 971, 1373]⟩,
   ⟨44706919, 6, [2, 3, 797, 9349]⟩,
   ⟨107590001, 3, [2, 2, 2, 2, 5, 5, 5, 5, 7, 29, 53]⟩,
   ⟨545358713, 5, [2, 2, 2, 41, 59, 28181]⟩,
   ⟨297159362677, 2, [2, 2, 3, 3, 11, 461, 1627771]⟩,
   ⟨107361793816595537, 3, [2, 2, 2, 2, 16699, 85831, 4681609]⟩,
   ⟨173378833005251801, 6, [2, 2, 2, 5, 5, 2621, 24809, 13331831]⟩,
   ⟨174723607534414371449, 3, [2, 2, 2, 17, 59, 4051, 120233, 44706919]⟩,
   ⟨22149492674086928081353, 5, [2, 2, 2, 3, 5323, 173378833005251801]⟩,
   ⟨132896956044521568488119, 6, [2, 3, 22149492674086928081353]⟩,
   ⟨29047611873442575647497758179, 2, [2, 293, 305873, 545358713, 297159362677]⟩,
   ⟨341948486974166000522343609283189, 2, [2, 2, 3, 3, 3, 109, 29047611873442575647497758179]⟩,
   ⟨255515944373312847190720520512484175977, 3,
    [2, 2, 2, 7, 7, 11, 1627, 2657, 4423, 41201, 96557, 7240687, 107590001]⟩,
   ⟨205115282021455665897114700593932402728804164701536103180137503955397371, 10,
    [2, 3, 5, 29, 29, 31, 7723, 132896956044521568488119,
     255515944373312847190720520512484175977]⟩,
   ⟨fieldSize, 3,
    [2, 3, 7, 13441, 205115282021455665897114700593932402728804164701536103180137503955397371]⟩,
   ⟨order, 7,
    [2, 2, 2, 2, 2, 2, 3, 149, 631, 107361793816595537, 174723607534414371449,
     341948486974166000522343609283189]⟩]

theorem certified : Certified smallPrimes certificate := by
  decide +kernel

/-- **The field has a prime number of elements.** -/
theorem prime_fieldSize : fieldSize.Prime :=
  prime_of_certified prime_of_mem_smallPrimes certified certificate[14] (List.getElem_mem _)

/-- **The curve has a prime number of points.** -/
theorem prime_order : order.Prime :=
  prime_of_certified prime_of_mem_smallPrimes certified certificate[15] (List.getElem_mem _)

end ChainLedger.Secp256k1
