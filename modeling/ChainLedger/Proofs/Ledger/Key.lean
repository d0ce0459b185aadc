import ChainLedger.Ledger.Document
import Mathlib.Data.List.Basic

/-!
# Keys made of an id and an address

Such a key ends in the checksummed form of the address, which is always 42
characters long and reads as one address only, so no two pairs share a key
(`keyOf_inj`), whatever the ids are made of.
-/

namespace ChainLedger

/-! ## Digests and digits -/

theorem Keccak.length_ofLane (w : UInt64) : (ofLane w).length = 8 := by
  simp [ofLane]

/-- **A digest has 32 bytes.** -/
theorem Keccak.length_digest (message : Bytes) : (digest message).length = 32 := by
  simp [digest, List.length_flatMap, length_ofLane]

theorem Address.length_nibbles (bs : Bytes) : (nibbles bs).length = 2 * bs.length := by
  simp [nibbles, List.length_flatMap, Nat.mul_comm]

theorem Hex.length_digits (bs : Bytes) : (digits bs).length = 2 * bs.length := by
  simp [digits, List.length_flatMap, byteDigits, Nat.mul_comm]

/-- The case of a digit may be forgotten. -/
theorem Hex.toLower_of_mem_digits {bs : Bytes} {c : Char} (h : c ∈ digits bs) :
    c.toLower = c ∧ c.toUpper.toLower = c := by
  have hdigit : ∀ n : Fin 16, (digitChar n).toLower = digitChar n ∧
      (digitChar n).toUpper.toLower = digitChar n := by decide
  obtain ⟨b, -, hc⟩ := List.mem_flatMap.mp h
  have hb : b.toNat < 256 := b.toNat_lt
  simp only [byteDigits, List.mem_cons, List.not_mem_nil, or_false] at hc
  rcases hc with rfl | rfl
  · exact hdigit ⟨b.toNat / 16, by omega⟩
  · exact hdigit ⟨b.toNat % 16, by omega⟩

theorem Hex.encode_inj {bs bs' : Bytes} (h : encode bs = encode bs') : bs = bs' := by
  have hdecode := decode_encode bs
  rw [h, decode_encode bs'] at hdecode
  exact (Except.ok.inj hdecode).symm

/-! ## Checksummed addresses -/

namespace Address

/-- The characters of the checksummed form after its mark. -/
def cased (a : Address) : List Char :=
  List.zipWith (fun c m => if 8 ≤ m then c.toUpper else c) (Hex.digits a.bytes)
    (nibbles (Keccak.digest (Text.utf8 (Hex.encode a.bytes))))

theorem checksummed_eq (a : Address) : a.checksummed = "0x" ++ String.ofList a.cased := by
  simp only [checksummed, cased, Hex.encode, String.toList_ofList]

theorem length_cased (a : Address) : a.cased.length = 40 := by
  simp [cased, Hex.length_digits, length_nibbles, Keccak.length_digest, a.length_bytes]

/-- Letters of either case, in lower case, are the letters in lower case. -/
theorem map_toLower_zipWith {cs : List Char} {marks : List Nat} (hlen : cs.length ≤ marks.length)
    (hcs : ∀ c ∈ cs, c.toLower = c ∧ c.toUpper.toLower = c) :
    (List.zipWith (fun c m => if 8 ≤ m then c.toUpper else c) cs marks).map Char.toLower = cs := by
  induction cs generalizing marks with
  | nil => simp
  | cons c cs ih =>
    cases marks with
    | nil => simp at hlen
    | cons m marks =>
      obtain ⟨hlower, hupper⟩ := hcs c (.head _)
      have hrest := ih (by simpa using hlen) fun c' hc' => hcs c' (.tail _ hc')
      rw [List.zipWith_cons_cons, List.map_cons, hrest]
      split
      · rw [hupper]
      · rw [hlower]

theorem map_toLower_cased (a : Address) : a.cased.map Char.toLower = Hex.digits a.bytes :=
  map_toLower_zipWith
    (by simp [Hex.length_digits, length_nibbles, Keccak.length_digest, a.length_bytes])
    fun _ hc => Hex.toLower_of_mem_digits hc

/-- **The checksummed form is that of one address.** -/
theorem checksummed_inj {a b : Address} (h : a.checksummed = b.checksummed) : a = b := by
  rw [checksummed_eq, checksummed_eq, String.append_right_inj, String.ofList_inj] at h
  have hdigits : Hex.encode a.bytes = Hex.encode b.bytes := by
    rw [Hex.encode, Hex.encode, ← map_toLower_cased, h, map_toLower_cased]
  obtain ⟨bs, hbs⟩ := a
  obtain ⟨bs', hbs'⟩ := b
  obtain rfl := Hex.encode_inj hdigits
  rfl

theorem length_toList_checksummed (a : Address) : a.checksummed.toList.length = 42 := by
  simp only [checksummed_eq, String.toList_append, String.toList_ofList, List.length_append,
    length_cased]
  rfl

end Address

/-! ## Keys -/

/-- **A key made of an id and an address** is that of one id and one address. -/
theorem keyOf_inj {i j : String} {a b : Address} (h : keyOf i a = keyOf j b) : i = j ∧ a = b := by
  have hlist := congrArg String.toList h
  simp only [keyOf, String.toList_append] at hlist
  have hlen : a.checksummed.toList.length = b.checksummed.toList.length := by
    rw [Address.length_toList_checksummed, Address.length_toList_checksummed]
  obtain ⟨hfront, hback⟩ := List.append_inj' hlist hlen
  refine ⟨String.toList_inj.mp (List.append_cancel_right hfront), ?_⟩
  exact Address.checksummed_inj (String.toList_inj.mp hback)

end ChainLedger
