import ChainLedger.Chain.PackedMessage
import ChainLedger.Proofs.Crypto.Signature

/-!
# Messages of one shape

Nothing stands between the values of a packing, so that a text can run into
its neighbours. Values of the other kinds have one length for each kind: what
stands in front of the only text is found from the front, and what follows it
from the back. So among messages of one shape with at most one text, the
packing tells the values (`eq_of_pack`). Two hashes are taken on the way to the
digest that is signed (`hashed`); if they do not collide, the digest does not
stand for two messages, and neither does a signature of it as long as the curve,
which reads digests modulo its order, tells the two digests apart:
`shape_unambiguous`.
-/

namespace ChainLedger

/-- A text is told by its bytes. -/
theorem Text.utf8_injective : Function.Injective Text.utf8 := by
  intro s t h
  rw [← String.toByteArray_inj, ← String.utf8Encode_toList, ← String.utf8Encode_toList,
    List.utf8Encode, List.utf8Encode]
  exact congrArg List.toByteArray h

/-- The kind of a value. -/
inductive PackedField.Kind
  | address
  | uint256
  | bytes32
  | text
  | flag
deriving DecidableEq

namespace PackedField

variable {f f' : PackedField}

def kind : PackedField → Kind
  | .address _ => .address
  | .uint256 _ => .uint256
  | .bytes32 _ => .bytes32
  | .text _ => .text
  | .flag _ => .flag

/-- **Values of one kind are as long as each other**, texts apart. -/
theorem length_bytes_eq (hkind : f.kind = f'.kind) (htext : f.kind ≠ .text) :
    f.bytes.length = f'.bytes.length := by
  cases f <;> cases f' <;> simp_all [kind, bytes, Address.length_bytes, Hash.length_bytes]

/-- **The bytes tell the value**, once its kind is known. -/
theorem eq_of_bytes (hkind : f.kind = f'.kind) (hbytes : f.bytes = f'.bytes) : f = f' := by
  cases f <;> cases f' <;> cases hkind
  case address.address.refl a a' => exact congrArg address (by cases a; cases a'; cases hbytes; rfl)
  case uint256.uint256.refl n n' =>
    have hlt (n : BitVec 256) : n.toNat < 256 ^ 32 := n.isLt.trans_eq (by norm_num)
    exact congrArg uint256 (BitVec.eq_of_toNat_eq (Hex.ofNat_inj (hlt n) (hlt n') hbytes))
  case bytes32.bytes32.refl h h' => exact congrArg bytes32 (by cases h; cases h'; cases hbytes; rfl)
  case text.text.refl s s' => exact congrArg text (Text.utf8_injective hbytes)
  case flag.flag.refl b b' => cases b <;> cases b' <;> simp_all [bytes]

end PackedField

namespace PackedMessage

variable {xs ys : List PackedField}

theorem pack_cons (f : PackedField) : pack (f :: xs) = f.bytes ++ pack xs :=
  List.flatMap_cons

/-- Without a text, the shape tells the length. -/
theorem length_pack_eq (hshape : xs.map PackedField.kind = ys.map PackedField.kind)
    (htext : .text ∉ xs.map PackedField.kind) : (pack xs).length = (pack ys).length := by
  induction xs generalizing ys with
  | nil =>
    obtain rfl := List.map_eq_nil_iff.mp hshape.symm
    rfl
  | cons f xs ih =>
    obtain ⟨f', ys, rfl, hkind, hrest⟩ := List.map_eq_cons_iff.mp hshape.symm
    obtain ⟨hne, hno⟩ := not_or.mp (List.mem_cons.not.mp htext)
    rw [pack_cons, pack_cons, List.length_append, List.length_append,
      PackedField.length_bytes_eq hkind.symm (Ne.symm hne), ih hrest.symm hno]

/-- **The packing tells the values**, among messages of one shape with at most
one text. -/
theorem eq_of_pack (hshape : xs.map PackedField.kind = ys.map PackedField.kind)
    (htext : (xs.map PackedField.kind).count .text ≤ 1) (hpack : pack xs = pack ys) : xs = ys := by
  induction xs generalizing ys with
  | nil => exact (List.map_eq_nil_iff.mp hshape.symm).symm
  | cons f xs ih =>
    obtain ⟨f', ys, rfl, hkind, hrest⟩ := List.map_eq_cons_iff.mp hshape.symm
    rw [List.map_cons, List.count_cons] at htext
    rw [pack_cons, pack_cons] at hpack
    have hparts : f.bytes = f'.bytes ∧ pack xs = pack ys := by
      by_cases hf : f.kind = .text
      · -- The only text: what follows it is as long on both sides.
        rw [hf, beq_self_eq_true, if_pos rfl] at htext
        have hno : .text ∉ xs.map PackedField.kind := List.count_eq_zero.mp (by omega)
        exact List.append_inj' hpack (length_pack_eq hrest.symm hno)
      · exact List.append_inj hpack (PackedField.length_bytes_eq hkind.symm hf)
    rw [PackedField.eq_of_bytes hkind.symm hparts.1,
      ih hrest.symm ((Nat.le_add_right _ _).trans htext) hparts.2]

/-! ## Hashes -/

/-- **What is hashed** on the way to the digest of a message. -/
def hashed (fields : List PackedField) : List Bytes :=
  [pack fields, personalMark ++ Keccak.digest (pack fields)]

/-- **No collision** of a hash among what is hashed for two messages. -/
def NoCollision {α : Type} (hash : Bytes → α) (xs ys : List PackedField) : Prop :=
  ∀ a ∈ hashed xs ++ hashed ys, ∀ b ∈ hashed xs ++ hashed ys, hash a = hash b → a = b

/-- What does not collide goes back from the digest to the packing. -/
theorem NoCollision.pack_eq (h : NoCollision Keccak.digest xs ys)
    (hdigest : digest xs = digest ys) : pack xs = pack ys := by
  have houter := h _ (by simp [hashed]) _ (by simp [hashed]) hdigest
  have hinner : Keccak.digest (pack xs) = Keccak.digest (pack ys) :=
    List.append_cancel_left houter
  exact h _ (by simp [hashed]) _ (by simp [hashed]) hinner

/-! ## Signatures -/

/-- **A signature vouches for a message under a key**: its bytes are those of
a signature that vouches for the digest. -/
def Vouches (sig : Bytes) (key : Secp256k1.CurvePoint) (fields : List PackedField) : Prop :=
  ∃ g : Secp256k1.Signature, sig = g.bytes ∧ g.Vouches key (digest fields)

/-- **A signed message is vouched for** under the public point of its key. -/
theorem vouches_of_sign {fields : List PackedField} {key sig : Bytes}
    (h : sign fields key = .ok sig) :
    ∃ k, secret key = .ok k ∧ Vouches sig (k • Secp256k1.base) fields := by
  -- The making of a signature is only a name from here on, for no step may evaluate it.
  obtain ⟨make, hmake⟩ : ∃ make, make = Secp256k1.sign? := ⟨_, rfl⟩
  unfold sign at h
  rw [← hmake] at h
  cases hk : secret key with
  | error e => simp only [hk, bind, Except.bind, reduceCtorEq] at h
  | ok k =>
    cases hg : make k (digest fields) with
    | none =>
      simp only [hk, hg, bind, Except.bind, throw, throwThe, MonadExceptOf.throw,
        reduceCtorEq] at h
    | some g =>
      simp only [hk, hg, bind, Except.bind, pure, Except.pure, Except.ok.injEq] at h
      exact ⟨k, rfl, g, h.symm, Secp256k1.vouches_of_sign? (hmake ▸ hg)⟩

/-- A signature vouches for one digest, as the curve reads it. -/
theorem scalar_eq_of_vouches {sig : Bytes} {key : Secp256k1.CurvePoint}
    (hx : Vouches sig key xs) (hy : Vouches sig key ys) :
    Secp256k1.scalar (digest xs) = Secp256k1.scalar (digest ys) := by
  obtain ⟨g, hsig, hg⟩ := hx
  obtain ⟨g', hsig', hg'⟩ := hy
  have hsame : g = g' := hg.eq_of_bytes hg' (hsig.symm.trans hsig')
  subst hsame
  exact hg.scalar_eq hg'

/-- **Messages of one shape with at most one text are not taken for each
other.** The packing tells the values. If the hash does not collide on what is
hashed for two messages, the digest tells the values; and if the two digests,
unless they are equal, are not congruent modulo the order of the curve either,
a signature that vouches for one message under a key never vouches for the
other. -/
theorem shape_unambiguous (hshape : xs.map PackedField.kind = ys.map PackedField.kind)
    (htext : (xs.map PackedField.kind).count .text ≤ 1) :
    (pack xs = pack ys ↔ xs = ys) ∧
      (NoCollision Keccak.digest xs ys → digest xs = digest ys → xs = ys) ∧
      (NoCollision Keccak.digest xs ys →
        (Secp256k1.scalar (digest xs) = Secp256k1.scalar (digest ys) → digest xs = digest ys) →
        ∀ sig key, Vouches sig key xs → xs ≠ ys → ¬ Vouches sig key ys) := by
  have heq (hclean : NoCollision Keccak.digest xs ys) (hdigest : digest xs = digest ys) :
      xs = ys :=
    eq_of_pack hshape htext (hclean.pack_eq hdigest)
  exact ⟨⟨eq_of_pack hshape htext, congrArg pack⟩, heq, fun hclean hread sig key hx hne hy =>
    hne (heq hclean (hread (scalar_eq_of_vouches hx hy)))⟩

/-- Two messages with texts of different lengths: no hash collides on them, and
a signature of the one is none of the other. -/
theorem shape_unambiguous_texts :
    let xs : List PackedField := [.flag true, .text "ab", .flag false]
    let ys : List PackedField := [.flag true, .text "a", .flag false]
    pack xs ≠ pack ys ∧ digest xs ≠ digest ys ∧
      ∃ sig key, Vouches sig key xs ∧ ¬ Vouches sig key ys := by
  intro xs ys
  have hne : xs ≠ ys := by decide
  obtain ⟨hpack, hdigest, hsig⟩ :=
    @shape_unambiguous xs ys (by decide) (by decide)
  -- The leading digits of the four hashes are different already.
  have hleading : (hashed xs ++ hashed ys).map
      (fun bs => Secp256k1.scalar (Keccak.digest bs) / 10 ^ 70) =
        [7189754, 11238241, 3406081, 7590000] := by
    decide +kernel
  have hnodup := hleading.symm ▸ (by decide : [7189754, 11238241, 3406081, 7590000].Nodup)
  have hscalar : NoCollision (fun bs => Secp256k1.scalar (Keccak.digest bs)) xs ys :=
    fun a ha b hb hab => List.inj_on_of_nodup_map hnodup ha hb (congrArg (· / 10 ^ 70) hab)
  have hclean : NoCollision Keccak.digest xs ys :=
    fun a ha b hb hab => hscalar a ha b hb (congrArg Secp256k1.scalar hab)
  have hread : Secp256k1.scalar (digest xs) = Secp256k1.scalar (digest ys) →
      digest xs = digest ys :=
    fun h => congrArg Keccak.digest (hscalar _ (by simp [hashed]) _ (by simp [hashed]) h)
  refine ⟨fun h => hne (hpack.mp h), fun h => hne (hdigest hclean h), ?_⟩
  -- A signature that names the generator, under the key that is recovered from it.
  have hnames : (⟨Secp256k1.generator.x, 1, 0⟩ : Secp256k1.Signature).Names
      (1 • Secp256k1.base) := by
    rw [one_nsmul]
    exact .finite _ (by rw [ZMod.val_natCast]; decide) (by rw [ZMod.val_natCast]; decide)
  obtain ⟨key, hvouches⟩ := Secp256k1.exists_vouches hnames (by decide) (by decide) (by decide)
    (digest xs)
  exact ⟨_, key, ⟨_, rfl, hvouches⟩, hsig hclean hread _ key ⟨_, rfl, hvouches⟩ hne⟩

end PackedMessage

end ChainLedger
