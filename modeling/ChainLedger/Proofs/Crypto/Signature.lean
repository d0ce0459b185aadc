import ChainLedger.Proofs.Crypto.Curve

/-!
# What a signature vouches for

A signature names one point of the curve (`Signature.Names.unique`). It
vouches for a digest under a key if the point, the digest and the key satisfy
the equation from which the key is recovered (`Signature.Vouches`). What is
signed under a key is vouched for under its public point
(`vouches_of_sign?`), and under one key a signature vouches for one digest, as
the curve reads it: `Signature.Vouches.scalar_eq`. Without the key it says
nothing: `exists_vouches`.
-/

namespace ChainLedger.Secp256k1

/-- **The number that a digest is for the curve**, which counts up to its
order. -/
def scalar (digest : Bytes) : ℕ :=
  Hex.toNat digest % order

/-- **The point that a signature names**: its first coordinate is the first
half, past the order or not, and its second is even or odd, as the recovery
number says. -/
inductive Signature.Names (g : Signature) : CurvePoint → Prop
  | finite {x y : Element} (h : curve.Nonsingular x y)
      (hx : x.val = g.r + g.recovery / 2 * order) (hy : y.val % 2 = g.recovery % 2) :
      Names g (.some x y h)

/-- **A signature vouches for a digest under a key**: the halves are in range,
and they, the digest and the named point determine the key. -/
structure Signature.Vouches (g : Signature) (key : CurvePoint) (digest : Bytes) : Prop where
  first : 0 < g.r ∧ g.r < order
  second : 0 < g.s ∧ g.s < order
  recovery : g.recovery < 4
  named : ∃ R, g.Names R ∧ g.s • R = Hex.toNat digest • base + g.r • key

variable {g : Signature} {key R R' : CurvePoint} {d d' : Bytes}

/-! ## One point, one digest -/

/-- Of a height and its negative, one is even and one is odd. -/
theorem val_neg_mod_two {y : Element} (hy : y ≠ 0) : (-y).val % 2 = (y.val + 1) % 2 := by
  have hlt : y.val < fieldSize := ZMod.val_lt y
  have hodd : fieldSize % 2 = 1 := by decide
  rw [ZMod.neg_val, if_neg hy]
  omega

/-- **A signature names one point.** -/
theorem Signature.Names.unique (h : g.Names R) (h' : g.Names R') : R = R' := by
  obtain ⟨hxy, hx, hy⟩ := h
  rename_i x y
  obtain ⟨hxy', hx', hy'⟩ := h'
  rename_i x' y'
  obtain rfl : x = x' := ZMod.val_injective fieldSize (hx.trans hx'.symm)
  suffices hyy : y = y' by subst hyy; rfl
  rcases eq_or_eq_neg hxy hxy' with hyy | hyy
  · exact hyy
  · by_cases hzero : y' = 0
    · rw [hyy, hzero, neg_zero]
    · have hside := val_neg_mod_two hzero
      rw [← hyy] at hside
      omega

/-- **Under one key, a signature vouches for one digest**, as the curve reads
it. -/
theorem Signature.Vouches.scalar_eq (h : g.Vouches key d) (h' : g.Vouches key d') :
    scalar d = scalar d' := by
  obtain ⟨R, hnames, heq⟩ := h.named
  obtain ⟨R', hnames', heq'⟩ := h'.named
  obtain rfl := hnames.unique hnames'
  exact nsmul_base_eq_iff.mp (add_right_cancel (heq.symm.trans heq'))

/-- **The 65 bytes of a signature.** -/
def Signature.bytes (g : Signature) : Bytes :=
  Hex.ofNat 32 g.r ++ Hex.ofNat 32 g.s ++ [UInt8.ofNat (27 + g.recovery)]

/-- **The bytes tell the signature**, among those that vouch for something. -/
theorem Signature.Vouches.eq_of_bytes {g' : Signature} {key' : CurvePoint} (h : g.Vouches key d)
    (h' : g'.Vouches key' d') (hbytes : g.bytes = g'.bytes) : g = g' := by
  obtain ⟨hhalves, hside⟩ := List.append_inj hbytes (by simp)
  obtain ⟨hr, hs⟩ := List.append_inj hhalves (by simp)
  have hrecovery : (27 + g.recovery) % 256 = (27 + g'.recovery) % 256 := by
    simpa [UInt8.toNat_ofNat'] using congrArg UInt8.toNat (List.singleton_inj.mp hside)
  have hword : order < 256 ^ 32 := by decide
  have hlt := h.recovery
  have hlt' := h'.recovery
  obtain ⟨r, s, recovery⟩ := g
  obtain ⟨r', s', recovery'⟩ := g'
  obtain rfl := Hex.ofNat_inj (h.first.2.trans hword) (h'.first.2.trans hword) hr
  obtain rfl := Hex.ofNat_inj (h.second.2.trans hword) (h'.second.2.trans hword) hs
  obtain rfl : recovery = recovery' := by
    dsimp only at hrecovery hlt hlt'
    omega
  rfl

/-! ## What is signed is vouched for -/

/-- A nonce is above zero and below the order. -/
theorem Drawing.nonce?_mem {n k : ℕ} {drawing : Drawing} (h : Drawing.nonce? n drawing = some k) :
    0 < k ∧ k < order := by
  induction n generalizing drawing with
  | zero => simp [nonce?] at h
  | succ n ih =>
    simp only [nonce?] at h
    split at h
    · next hk =>
      obtain rfl := Option.some.inj h
      exact ⟨Nat.pos_of_ne_zero hk.1, hk.2⟩
    · exact ih h

/-- The half and the recovery number that are made of a point name it. -/
theorem names_point {x y : Element} (h : curve.Nonsingular x y) (s : ℕ) :
    (⟨x.val % order, s, (if order ≤ x.val then 2 else 0) + y.val % 2⟩ : Signature).Names
      (.some x y h) := by
  have hlt : x.val < 2 * order := (ZMod.val_lt x).trans (by decide)
  refine .finite h ?_ ?_
  · dsimp only
    split
    · have hpast : (2 + y.val % 2) / 2 = 1 := by omega
      rw [Nat.mod_eq_sub_mod ‹_›, Nat.mod_eq_of_lt (by omega), hpast]
      omega
    · have hbelow : (0 + y.val % 2) / 2 = 0 := by omega
      rw [Nat.mod_eq_of_lt (by omega), hbelow]
      omega
  · dsimp only
    split <;> omega

/-- A multiple of the generator that is not infinity is not its own negative. -/
theorem nsmul_base_ne_neg {k : ℕ} (hpos : 0 < k) (hlt : k < order) :
    k • base ≠ -(k • base) := by
  intro h
  have htwice : (k + k) • base = 0 • base := by
    rw [add_nsmul, zero_nsmul]
    exact add_eq_zero_iff_eq_neg.mpr h
  have hdvd : order ∣ 2 * k :=
    Nat.dvd_of_mod_eq_zero ((two_mul k).symm ▸ nsmul_base_eq_iff.mp htwice)
  rcases prime_order.dvd_mul.mp hdvd with h2 | hk
  · exact absurd h2 (by decide)
  · exact absurd (Nat.le_of_dvd hpos hk) (by omega)

/-- The signature with the other second half, for the negative of the point. -/
def Signature.turned (g : Signature) : Signature :=
  ⟨g.r, order - g.s, if g.recovery % 2 = 0 then g.recovery + 1 else g.recovery - 1⟩

@[simp] theorem Signature.turned_r : g.turned.r = g.r := rfl

@[simp] theorem Signature.turned_s : g.turned.s = order - g.s := rfl

/-- A signature is turned to the other side, as far past the order as before. -/
theorem Signature.turned_recovery (g : Signature) : g.turned.recovery / 2 = g.recovery / 2 ∧
    g.turned.recovery % 2 = (g.recovery + 1) % 2 := by
  unfold turned
  dsimp only
  split <;> omega

theorem Signature.Names.turned (h : g.Names R) (hne : R ≠ -R) : g.turned.Names (-R) := by
  obtain ⟨hxy, hx, hy⟩ := h
  rename_i x y
  have hzero : y ≠ 0 := by
    rintro rfl
    exact hne (by simp only [WeierstrassCurve.Affine.Point.neg_some, negY_eq, neg_zero])
  refine .finite _ ?_ ?_
  · rw [turned_r, g.turned_recovery.1, hx]
  · rw [negY_eq, val_neg_mod_two hzero, g.turned_recovery.2]
    omega

/-- **A signature can be turned**: what it vouches for, the other one does as
well. -/
theorem Signature.Vouches.turned (h : g.Vouches key d) {k : ℕ} (hpos : 0 < k) (hlt : k < order)
    (hnames : g.Names (k • base)) : g.turned.Vouches key d := by
  obtain ⟨R, hR, heq⟩ := h.named
  obtain rfl := hR.unique hnames
  refine ⟨h.first, ⟨Nat.sub_pos_of_lt h.second.2, Nat.sub_lt (by decide) h.second.1⟩, ?_, _,
    hnames.turned (nsmul_base_ne_neg hpos hlt), ?_⟩
  · have hrecovery := h.recovery
    have hturned := g.turned_recovery
    omega
  · have hsum : (order - g.s) • k • base + g.s • k • base = 0 := by
      rw [← add_nsmul, Nat.sub_add_cancel h.second.2.le, ← mul_nsmul', ← zero_nsmul base,
        nsmul_base_eq_iff, Nat.mul_mod_right, Nat.zero_mod]
    rw [turned_r, turned_s, neg_nsmul, neg_eq_of_add_eq_zero_right hsum, heq]

/-- The second half undoes the nonce. -/
theorem inverse_mul_mul {k : ℕ} (hpos : 0 < k) (hlt : k < order) (n : ℕ) :
    inverse order k * n % order * k % order = n % order := by
  have : Fact order.Prime := ⟨prime_order⟩
  have hk : (k : ZMod order) ≠ 0 :=
    (ZMod.natCast_eq_zero_iff k order).not.mpr (Nat.not_dvd_of_pos_of_lt hpos hlt)
  rw [← ZMod.natCast_eq_natCast_iff', Nat.cast_mul, ZMod.natCast_mod, Nat.cast_mul,
    cast_inverse (by decide) (by decide)]
  field_simp

/-- **What is signed under a key is vouched for** under its public point. -/
theorem vouches_of_sign? {secret : ℕ} (h : sign? secret d = some g) :
    g.Vouches (secret • base) d := by
  simp only [sign?, Option.bind_eq_bind, Option.bind_eq_some_iff] at h
  obtain ⟨k, hnonce, h⟩ := h
  obtain ⟨hpos, hlt⟩ := Drawing.nonce?_mem hnonce
  have hdenotes := denotes_multiply (hlt.trans (by decide) : k < 2 ^ 256) denotes_base
  cases hR : k • base with
  | zero => exact absurd hR (nsmul_base_ne_zero hpos hlt)
  | some x y hxy =>
    rw [affine_eq (hR ▸ hdenotes)] at h
    dsimp only at h
    generalize hs : inverse order k * (Hex.toNat d + x.val % order * secret) % order = s at h
    split at h
    · cases h
    next hne =>
    obtain ⟨hr0, hs0⟩ := not_or.mp hne
    have hnames := names_point hxy s
    have hsolves : s • k • base = Hex.toNat d • base + (x.val % order) • secret • base := by
      have hmod := inverse_mul_mul hpos hlt (Hex.toNat d + x.val % order * secret)
      rw [hs] at hmod
      rw [← mul_nsmul', nsmul_base_eq_iff.mpr hmod, add_nsmul, mul_nsmul']
    have hvouches : Signature.Vouches
        ⟨x.val % order, s, (if order ≤ x.val then 2 else 0) + y.val % 2⟩ (secret • base) d :=
      { first := ⟨Nat.pos_of_ne_zero hr0, Nat.mod_lt _ (by decide)⟩
        second := ⟨Nat.pos_of_ne_zero hs0, hs ▸ Nat.mod_lt _ (by decide)⟩
        recovery := by dsimp only; split <;> omega
        named := ⟨_, hnames, hR ▸ hsolves⟩ }
    -- Of the two second halves, the smaller one is given.
    split at h
    · obtain rfl := Option.some.inj h
      exact hvouches.turned hpos hlt (hR ▸ hnames)
    · obtain rfl := Option.some.inj h
      exact hvouches

/-- The public key is the public point, coordinate by coordinate. -/
theorem publicKey_eq {secret : ℕ} {x y : Element} {h : curve.Nonsingular x y}
    (hlt : secret < 2 ^ 256) (hpoint : secret • base = .some x y h) :
    publicKey secret = Hex.ofNat 32 x.val ++ Hex.ofNat 32 y.val := by
  rw [publicKey, affine_eq (hpoint ▸ denotes_multiply hlt denotes_base)]

/-- **A signature alone vouches for anything**: for every digest there is a key
under which it does, the one that is recovered. -/
theorem exists_vouches {k : ℕ} (hnames : g.Names (k • base)) (hfirst : 0 < g.r ∧ g.r < order)
    (hsecond : 0 < g.s ∧ g.s < order) (hrecovery : g.recovery < 4) (d : Bytes) :
    ∃ key, g.Vouches key d := by
  -- The key is the point, less the digest, divided by the first half.
  refine ⟨(inverse order g.r * (g.s * k + (order - scalar d)) % order) • base,
    hfirst, hsecond, hrecovery, _, hnames, ?_⟩
  have hle : scalar d ≤ order := (Nat.mod_lt _ (by decide)).le
  have hsplit : order * (Hex.toNat d / order) + scalar d = Hex.toNat d := Nat.div_add_mod _ _
  have hmultiple : Hex.toNat d + (g.s * k + (order - scalar d)) =
      g.s * k + order * (Hex.toNat d / order + 1) := by
    rw [mul_add_one]
    omega
  rw [← mul_nsmul', ← mul_nsmul', ← add_nsmul, nsmul_base_eq_iff, Nat.add_mod, mul_comm g.r,
    inverse_mul_mul hfirst.1 hfirst.2, ← Nat.add_mod, hmultiple, Nat.add_mul_mod_self_left]

end ChainLedger.Secp256k1
