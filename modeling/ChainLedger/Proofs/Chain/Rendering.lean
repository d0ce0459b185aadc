import ChainLedger.Chain.Transaction
import ChainLedger.Proofs.Ledger.Lookup
import Mathlib.Data.List.Forall2

/-!
# How nodes write what they know

Nodes write bytes as the mark `0x` and two digits for each, and numbers as the
mark and their digits without leading zeros; letters may be of either case
(`Hex.Spells`, `Quantity.Spells`). Whatever the case, such texts are read back as
what they spell, and so is a log whose members are written in this way
(`Log.Rendered`, `Decode.log_of_rendered`), wherever its members stand and
whatever others there are.
-/

namespace ChainLedger

-- A power is the one of the core library, whatever other structure is in scope.
attribute [local instance (2000)] instPowNat

/-! ## Bytes in digits of either case -/

namespace Hex

/-- A character is in lower case, or its lower case is so much further on. -/
theorem toLower_eq_or (c : Char) :
    c.toLower = c ∨ c.toLower.toNat = c.toNat + 32 ∧ 65 ≤ c.toNat ∧ c.toNat ≤ 90 := by
  unfold Char.toLower
  split
  · next h =>
    have hle : 65 ≤ c.toNat ∧ c.toNat ≤ 90 := h
    have hshift : 'a'.val - 'A'.val = 32 := rfl
    refine .inr ⟨?_, hle⟩
    simp only [hshift, Char.toNat, UInt32.toNat_add, UInt32.reduceToNat] at hle ⊢
    omega
  · exact .inl rfl

theorem toNat_upperChar : ∀ n : Fin 16,
    97 ≤ (digitChar n).toNat → (upperChar n).toNat + 32 = (digitChar n).toNat := by
  decide

/-- A character that has a digit for its lower case is that digit in one of
the two cases. -/
theorem eq_or_eq_of_toLower {c : Char} (n : Fin 16) (h : c.toLower = digitChar n) :
    c = digitChar n ∨ c = upperChar n := by
  rcases toLower_eq_or c with hsame | ⟨hshift, hle⟩
  · exact .inl (hsame ▸ h)
  · rw [h] at hshift
    have hupper := toNat_upperChar n (by omega)
    exact .inr (Char.toNat_inj.mp (by omega))

theorem map_digit?_upperChar :
    ∀ n : Fin 16, (String.utf8EncodeChar (upperChar n)).map digit? = [some n.val] := by
  decide

/-- A digit of either case is one byte, and reads as its value. -/
theorem digit?_of_toLower {c : Char} {n : ℕ} (hn : n < 16) (h : c.toLower = digitChar n) :
    ∃ d, String.utf8EncodeChar c = [d] ∧ digit? d = some n := by
  rcases eq_or_eq_of_toLower ⟨n, hn⟩ h with rfl | rfl
  · exact digit?_digitChar ⟨n, hn⟩
  · exact List.map_eq_singleton_iff.mp (map_digit?_upperChar ⟨n, hn⟩)

/-- **A text spells bytes**: the mark, and two digits of either case for each. -/
def Spells (s : String) (bs : Bytes) : Prop :=
  ∃ ds, s = "0x" ++ String.ofList ds ∧ Text.lower ds = digits bs

/-- What follows the mark of a text. -/
theorem dropMark_mark (ds : List Char) :
    dropMark (Text.utf8 ("0x" ++ String.ofList ds)) = Text.utf8Chars ds := by
  simp only [Text.utf8, String.toList_append, String.toList_ofList, Text.utf8Chars_append]
  rfl

/-- Two digits of either case for each byte. -/
theorem decodePairs_of_lower {ds : List Char} {bs : Bytes} (h : Text.lower ds = digits bs)
    (n : ℕ) : decodePairs n (Text.utf8Chars ds) = .ok bs ∧
      (Text.utf8Chars ds).length = 2 * bs.length := by
  induction bs generalizing ds n with
  | nil =>
    obtain rfl : ds = [] := List.map_eq_nil_iff.mp h
    exact ⟨rfl, rfl⟩
  | cons b bs ih =>
    have hb : b.toNat < 256 := b.toNat_lt
    have hpair : Text.lower ds =
        digitChar (b.toNat / 16) :: digitChar (b.toNat % 16) :: digits bs := h
    obtain ⟨hi, ds, rfl, hhi, hrest⟩ := List.map_eq_cons_iff.mp hpair
    obtain ⟨lo, ds, rfl, hlo, hds⟩ := List.map_eq_cons_iff.mp hrest
    obtain ⟨x, hx, vx⟩ := digit?_of_toLower (by omega) hhi
    obtain ⟨y, hy, vy⟩ := digit?_of_toLower (by omega) hlo
    obtain ⟨hread, hlen⟩ := ih hds (n + 2)
    have hcons : Text.utf8Chars (hi :: lo :: ds) = x :: y :: Text.utf8Chars ds := by
      simp [Text.utf8Chars, hx, hy]
    have hval : UInt8.ofNat (16 * (b.toNat / 16) + b.toNat % 16) = b := by
      rw [Nat.div_add_mod]; simp
    rw [hcons, decodePairs, vx, vy]
    simp only [hread, Except.map, hval, List.length_cons, hlen]
    exact ⟨trivial, by omega⟩

/-- **Bytes are read back**, whatever the case of their letters. -/
theorem decode_of_spells {s : String} {bs : Bytes} (h : Spells s bs) :
    decode (dropMark (Text.utf8 s)) = .ok bs := by
  obtain ⟨ds, rfl, hds⟩ := h
  obtain ⟨hread, hlen⟩ := decodePairs_of_lower hds 0
  rw [dropMark_mark, decode, if_neg (by omega), hread]

theorem toLower_digitChar : ∀ n : Fin 16, (digitChar n).toLower = digitChar n := by decide

/-- What this library writes is one of the texts that spell bytes. -/
theorem spells_encode0x (bs : Bytes) : Spells (encode0x bs) bs := by
  refine ⟨digits bs, rfl, ?_⟩
  induction bs with
  | nil => rfl
  | cons b bs ih =>
    have hb : b.toNat < 256 := b.toNat_lt
    have hhi := toLower_digitChar ⟨b.toNat / 16, by omega⟩
    have hlo := toLower_digitChar ⟨b.toNat % 16, by omega⟩
    exact congrArg₂ _ hhi (congrArg₂ _ hlo ih)

end Hex

/-! ## Numbers in digits of either case -/

namespace Quantity

/-- **A text spells a number**: the mark, and its digits in either case, none
of them a leading zero. -/
def Spells (s : String) (n : ℕ) : Prop :=
  ∃ ds, s = "0x" ++ String.ofList ds ∧ Text.lower ds = Text.hexDigits n

theorem readWord_append {n m : ℕ} {xs : Bytes} (h : readWord n xs = .ok m) (ys : Bytes) :
    readWord n (xs ++ ys) = readWord m ys := by
  induction xs generalizing n with
  | nil =>
    cases h
    rfl
  | cons b xs ih =>
    rw [List.cons_append, readWord]
    rw [readWord] at h
    split at h
    · cases h
    · split at h
      · next hfits =>
        rw [if_pos hfits]
        exact ih h
      · cases h

/-- One more digit at the end. -/
theorem readWord_digit {n m d : ℕ} {b : UInt8} (hb : Hex.digit? b = some d)
    (hm : 16 * n + d = m) (hfits : m < 2 ^ (64 : ℕ)) : readWord n [b] = .ok m := by
  simp only [readWord, hb, hm, if_pos hfits]

/-- The digits of a word, in either case, are read as it. -/
theorem readWord_of_lower {ds : List Char} {n : ℕ} (hn : n < 2 ^ (64 : ℕ))
    (h : Text.lower ds = Text.hexDigits n) : readWord 0 (Text.utf8Chars ds) = .ok n := by
  induction n using Nat.strongRecOn generalizing ds with
  | ind n ih =>
    rw [Text.hexDigits, Nat.toDigits_eq_if (by decide)] at h
    split at h
    · next hlt =>
      obtain ⟨c, rfl, hc⟩ := List.map_eq_singleton_iff.mp h
      obtain ⟨d, hd, vd⟩ := Hex.digit?_of_toLower hlt hc
      have hone : Text.utf8Chars [c] = [d] := by simp [Text.utf8Chars, hd]
      rw [hone]
      exact readWord_digit vd (by omega) hn
    · next hge =>
      -- All digits but the last make a smaller number.
      obtain ⟨xs, ys, rfl, hxs, hys⟩ := List.map_eq_append_iff.mp h
      obtain ⟨c, rfl, hc⟩ := List.map_eq_singleton_iff.mp hys
      obtain ⟨d, hd, vd⟩ := Hex.digit?_of_toLower (Nat.mod_lt n (by decide)) hc
      have hone : Text.utf8Chars [c] = [d] := by simp [Text.utf8Chars, hd]
      rw [Text.utf8Chars_append, readWord_append (ih (n / 16) (by omega) (by omega) hxs), hone]
      exact readWord_digit vd (Nat.div_add_mod n 16) hn

/-- What is read from its first byte on has no sign in front. -/
theorem dropPlus_of_readWord {n m : ℕ} {bs : Bytes} (h : readWord n bs = .ok m) :
    dropPlus bs = bs := by
  unfold dropPlus
  split
  · exact absurd h nofun
  · rfl

/-- **A word is read back**, whatever the case of its letters. -/
theorem word_of_spells {s : String} {w : BitVec 64} (h : Spells s w.toNat) : word s = .ok w := by
  obtain ⟨ds, rfl, hds⟩ := h
  have hread := readWord_of_lower w.isLt hds
  have hnil : Text.utf8Chars ds ≠ [] := by
    cases ds with
    | nil => exact absurd hds.symm Nat.toDigits_ne_nil
    | cons c ds => simp [Text.utf8Chars, String.utf8EncodeChar_ne_nil]
  unfold word
  rw [Hex.dropMark_mark]
  split
  · next hempty => exact absurd hempty hnil
  · rw [dropPlus_of_readWord hread, hread]
    simp [Except.map]

/-- What this library writes is one of the texts that spell a number. -/
theorem spells_quantity (n : ℕ) : Spells (Hex.quantity n) n := by
  refine ⟨Text.hexDigits n, rfl, ?_⟩
  induction n using Nat.strongRecOn with
  | ind n ih =>
    rw [Text.hexDigits, Nat.toDigits_eq_if (by decide)]
    split
    · next hlt => exact congrArg (fun c => [c]) (Hex.toLower_digitChar ⟨n, hlt⟩)
    · next hge =>
      have hlast := Hex.toLower_digitChar ⟨n % 16, Nat.mod_lt n (by decide)⟩
      have hrest : Text.lower (Nat.toDigits 16 (n / 16)) = Nat.toDigits 16 (n / 16) :=
        ih (n / 16) (by omega)
      rw [Text.lower, List.map_append]
      exact congrArg₂ _ hrest (congrArg (fun c => [c]) hlast)

end Quantity

/-! ## Logs -/

namespace Log

/-- **A log as a node writes it**: an object that has its members, among
others, in whatever order. -/
structure Rendered (l : Log) (v : Json) : Prop where
  address : ∃ s, v.getText? "address" = some s ∧ Hex.Spells s l.address.bytes
  topics : ∃ items, v.get? "topics" = some (.arr items) ∧
    List.Forall₂ (fun (t : Hash) item => ∃ s, item = .str s ∧ Hex.Spells s t.bytes) l.topics items
  data : ∃ s, v.getText? "data" = some s ∧ Hex.Spells s l.data
  blockNumber : ∃ s, v.getText? "blockNumber" = some s ∧ Quantity.Spells s l.blockNumber.toNat
  txHash : ∃ s, v.getText? "transactionHash" = some s ∧ Hex.Spells s l.txHash.bytes
  logIndex : ∃ s, v.getText? "logIndex" = some s ∧ Quantity.Spells s l.logIndex.toNat

/-- A log as one object, all letters in lower case. -/
def toJson (l : Log) : Json :=
  .obj [("address", .str l.address.lower), ("topics", .arr (l.topics.map fun t => .str t.toText)),
    ("data", .str (Hex.encode0x l.data)), ("blockNumber", .str (Hex.quantity l.blockNumber.toNat)),
    ("transactionHash", .str l.txHash.toText), ("logIndex", .str (Hex.quantity l.logIndex.toNat))]

theorem rendered_toJson (l : Log) : l.Rendered l.toJson where
  address := ⟨_, rfl, Hex.spells_encode0x _⟩
  topics := by
    refine ⟨_, rfl, List.forall₂_map_right_iff.mpr (List.forall₂_same.mpr fun t _ => ?_)⟩
    exact ⟨_, rfl, Hex.spells_encode0x _⟩
  data := ⟨_, rfl, Hex.spells_encode0x _⟩
  blockNumber := ⟨_, rfl, Quantity.spells_quantity _⟩
  txHash := ⟨_, rfl, Hex.spells_encode0x _⟩
  logIndex := ⟨_, rfl, Quantity.spells_quantity _⟩

end Log

namespace Decode

variable {s key : String} {v : Json}

theorem bytes_of_spells {bs : Bytes} (h : Hex.Spells s bs) : bytes s = .ok bs := by
  rw [bytes, Hex.decode_of_spells h]
  rfl

theorem word_of_spells {w : BitVec 64} (h : Quantity.Spells s w.toNat) : word s = .ok w := by
  rw [word, Quantity.word_of_spells h]
  rfl

theorem hash_of_spells {t : Hash} (h : Hex.Spells s t.bytes) : hash s = .ok t := by
  rw [hash, bytes_of_spells h, ok_bind, dif_pos t.length_bytes]
  rfl

theorem address_of_spells {a : Address} (h : Hex.Spells s a.bytes) : address s = .ok a := by
  rw [address, bytes_of_spells h, ok_bind, dif_pos a.length_bytes]
  rfl

theorem text_of_getText? (h : v.getText? key = some s) : text v key = .ok s := by
  rw [text, h]

theorem mapM_eq_ok {α β : Type} {ε : Type} {f : β → Except ε α} {xs : List α} {ys : List β}
    (h : List.Forall₂ (fun x y => f y = .ok x) xs ys) : ys.mapM f = .ok xs := by
  induction h with
  | nil => rfl
  | cons hxy _ ih =>
    rw [List.mapM_cons, hxy, ok_bind, ih, ok_bind]
    rfl

/-- **A log is read back** from what a node writes. -/
theorem log_of_rendered {l : Log} (h : l.Rendered v) : log v = .ok l := by
  obtain ⟨⟨addr, haddr, haddr'⟩, ⟨items, hitems, htopics⟩, ⟨data, hdata, hdata'⟩,
    ⟨block, hblock, hblock'⟩, ⟨tx, htx, htx'⟩, ⟨index, hindex, hindex'⟩⟩ := h
  have htopics' : items.mapM topic = .ok l.topics := by
    refine mapM_eq_ok (htopics.imp ?_)
    rintro t _ ⟨s, rfl, hs⟩
    exact hash_of_spells hs
  rw [log, hitems]
  simp only [Option.bind_some, Json.asItems?]
  rw [htopics', ok_bind, text_of_getText? haddr, ok_bind, address_of_spells haddr', ok_bind,
    text_of_getText? hdata, ok_bind, bytes_of_spells hdata', ok_bind, text_of_getText? hblock,
    ok_bind, word_of_spells hblock', ok_bind, text_of_getText? htx, ok_bind, hash_of_spells htx',
    ok_bind, text_of_getText? hindex, ok_bind, word_of_spells hindex', ok_bind]
  rfl

end Decode

end ChainLedger
