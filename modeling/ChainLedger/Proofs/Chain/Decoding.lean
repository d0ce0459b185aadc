import ChainLedger.Proofs.Chain.Rendering
import Mathlib.Tactic.Ring

/-!
# What nodes tell of transactions is read back

Transactions and receipts as nodes write them (`Transaction.Rendered`,
`Receipt.Rendered`): objects that have their members, among others and in
whatever order, bytes and numbers in digits of either case, and `null` where
there is no recipient or no block yet. Whatever is written in this way is read
back as it was: `Decode.rendered_read_back`.
-/

namespace ChainLedger

-- A power is the one of the core library, whatever other structure is in scope.
attribute [local instance (2000)] instPowNat

/-! ## Numbers of 256 bits -/

namespace Quantity

/-- A digit is no mark between digits. -/
theorem ne_underscore_of_digit? {b : UInt8} {d : ℕ} (h : Hex.digit? b = some d) :
    b ≠ underscore := by
  rintro rfl
  cases h

/-- One more digit from the right. -/
theorem readLong_cons {place n d : ℕ} {b : UInt8} {bs : Bytes} (hb : Hex.digit? b = some d)
    (hfits : n + d * place < 2 ^ (256 : ℕ)) :
    readLong place n (b :: bs) = readLong (16 * place) (n + d * place) bs := by
  rw [readLong, if_neg (ne_underscore_of_digit? hb), hb]
  simp only [if_pos hfits]

/-- The digits of a number, in either case, are read as it, so many places up. -/
theorem readLong_of_lower {ds : List Char} {m place n : ℕ}
    (hfits : n + m * place < 2 ^ (256 : ℕ)) (h : Text.lower ds = Text.hexDigits m) :
    readLong place n (Text.utf8Chars ds).reverse = .ok (n + m * place) := by
  induction m using Nat.strongRecOn generalizing ds place n with
  | ind m ih =>
    rw [Text.hexDigits, Nat.toDigits_eq_if (by decide)] at h
    split at h
    · next hlt =>
      obtain ⟨c, rfl, hc⟩ := List.map_eq_singleton_iff.mp h
      obtain ⟨d, hd, vd⟩ := Hex.digit?_of_toLower hlt hc
      have hone : Text.utf8Chars [c] = [d] := by simp [Text.utf8Chars, hd]
      rw [hone, List.reverse_singleton, readLong_cons vd hfits, readLong]
    · next hge =>
      -- The last digit is read first, the others make a smaller number.
      obtain ⟨xs, ys, rfl, hxs, hys⟩ := List.map_eq_append_iff.mp h
      obtain ⟨c, rfl, hc⟩ := List.map_eq_singleton_iff.mp hys
      obtain ⟨d, hd, vd⟩ := Hex.digit?_of_toLower (Nat.mod_lt m (by decide)) hc
      have hone : Text.utf8Chars [c] = [d] := by simp [Text.utf8Chars, hd]
      have hsplit : n + m % 16 * place + m / 16 * (16 * place) = n + m * place := by
        calc n + m % 16 * place + m / 16 * (16 * place)
            = n + (16 * (m / 16) + m % 16) * place := by ring
          _ = n + m * place := by rw [Nat.div_add_mod]
      rw [Text.utf8Chars_append, hone, List.reverse_append, List.reverse_singleton,
        List.singleton_append, readLong_cons vd (by omega),
        ih (m / 16) (by omega) (by omega) hxs, hsplit]

/-- **A number of 256 bits is read back**, whatever the case of its letters. -/
theorem long_of_spells {s : String} {w : BitVec 256} (h : Spells s w.toNat) : long s = .ok w := by
  obtain ⟨ds, rfl, hds⟩ := h
  have hfits : 0 + w.toNat * 1 < 2 ^ (256 : ℕ) := by
    have := w.isLt
    omega
  rw [long, Hex.dropMark_mark, readLong_of_lower hfits hds]
  simp [Except.map]

end Quantity

namespace Decode

variable {s key : String} {v : Json} {α : Type} {read : String → Except DecodeFault α}

theorem long_of_spells {w : BitVec 256} (h : Quantity.Spells s w.toNat) : long s = .ok w := by
  rw [long, Quantity.long_of_spells h]
  rfl

/-- A text that is there is read. -/
theorem optional_of_getText? {a : α} (h : v.getText? key = some s) (hread : read s = .ok a) :
    optional v key read = .ok (some a) := by
  rw [optional, h]
  simp only [hread]
  rfl

/-- What is `null` is not read. -/
theorem optional_of_null (h : v.get? key = some .null) : optional v key read = .ok none := by
  have htext : v.getText? key = none := by
    rw [Json.getText?, h]
    rfl
  rw [optional, htext]

end Decode

/-! ## Transactions -/

namespace Transaction

/-- **A transaction as a node writes it**: an object that has its members, among
others, in whatever order. A missing recipient and a missing block are `null`. -/
structure Rendered (t : Transaction) (v : Json) : Prop where
  hash : ∃ s, v.getText? "hash" = some s ∧ Hex.Spells s t.hash.bytes
  sender : ∃ s, v.getText? "from" = some s ∧ Hex.Spells s t.sender.bytes
  recipient : ∀ a, t.recipient = some a → ∃ s, v.getText? "to" = some s ∧ Hex.Spells s a.bytes
  creates : t.recipient = none → v.get? "to" = some .null
  blockNumber : ∀ n, t.blockNumber = some n →
    ∃ s, v.getText? "blockNumber" = some s ∧ Quantity.Spells s n.toNat
  pending : t.blockNumber = none → v.get? "blockNumber" = some .null
  value : ∃ s, v.getText? "value" = some s ∧ Quantity.Spells s t.value.toNat
  input : ∃ s, v.getText? "input" = some s ∧ Hex.Spells s t.input

/-- A transaction as one object, all letters in lower case. -/
def toJson (t : Transaction) : Json :=
  .obj [("hash", .str t.hash.toText), ("from", .str t.sender.lower),
    ("to", .optional (.str ·.lower) t.recipient),
    ("blockNumber", .optional (.str <| Hex.quantity ·.toNat) t.blockNumber),
    ("value", .str (Hex.quantity t.value.toNat)), ("input", .str (Hex.encode0x t.input))]

theorem rendered_toJson (t : Transaction) : t.Rendered t.toJson where
  hash := ⟨_, rfl, Hex.spells_encode0x _⟩
  sender := ⟨_, rfl, Hex.spells_encode0x _⟩
  recipient a ha := ⟨_, by rw [toJson, ha]; rfl, Hex.spells_encode0x _⟩
  creates ha := by rw [toJson, ha]; rfl
  blockNumber n hn := ⟨_, by rw [toJson, hn]; rfl, Quantity.spells_quantity _⟩
  pending hn := by rw [toJson, hn]; rfl
  value := ⟨_, rfl, Quantity.spells_quantity _⟩
  input := ⟨_, rfl, Hex.spells_encode0x _⟩

end Transaction

/-! ## Receipts -/

namespace Receipt

/-- **A receipt as a node writes it**: an object that has its members, among
others, in whatever order. The status is the number one or the number zero. -/
structure Rendered (r : Receipt) (v : Json) : Prop where
  txHash : ∃ s, v.getText? "transactionHash" = some s ∧ Hex.Spells s r.txHash.bytes
  status : v.getText? "status" = some (if r.success then "0x1" else "0x0")
  blockNumber : ∃ s, v.getText? "blockNumber" = some s ∧ Quantity.Spells s r.blockNumber.toNat
  logs : ∃ items, v.get? "logs" = some (.arr items) ∧ List.Forall₂ Log.Rendered r.logs items

/-- A receipt as one object, all letters in lower case. -/
def toJson (r : Receipt) : Json :=
  .obj [("transactionHash", .str r.txHash.toText),
    ("status", .str (if r.success then "0x1" else "0x0")),
    ("blockNumber", .str (Hex.quantity r.blockNumber.toNat)),
    ("logs", .arr (r.logs.map Log.toJson))]

theorem rendered_toJson (r : Receipt) : r.Rendered r.toJson where
  txHash := ⟨_, rfl, Hex.spells_encode0x _⟩
  status := rfl
  blockNumber := ⟨_, rfl, Quantity.spells_quantity _⟩
  logs := ⟨_, rfl, List.forall₂_map_right_iff.mpr
    (List.forall₂_same.mpr fun l _ => l.rendered_toJson)⟩

end Receipt

namespace Decode

variable {v : Json}

/-- An optional member is read back, or is `null`. -/
theorem optional_of_rendered {α : Type} {key : String} {read : String → Except DecodeFault α}
    {o : Option α} (hsome : ∀ a, o = some a → ∃ s, v.getText? key = some s ∧ read s = .ok a)
    (hnone : o = none → v.get? key = some .null) : optional v key read = .ok o := by
  cases o with
  | some a =>
    obtain ⟨s, hs, hread⟩ := hsome a rfl
    exact optional_of_getText? hs hread
  | none => exact optional_of_null (hnone rfl)

/-- **A transaction is read back** from what a node writes. -/
theorem transaction_of_rendered {t : Transaction} (h : t.Rendered v) :
    transaction v = .ok t := by
  have hto : optional v "to" address = .ok t.recipient :=
    optional_of_rendered (fun a ha => (h.recipient a ha).imp fun _ => And.imp_right address_of_spells)
      h.creates
  have hblock : optional v "blockNumber" word = .ok t.blockNumber :=
    optional_of_rendered (fun n hn => (h.blockNumber n hn).imp fun _ => And.imp_right word_of_spells)
      h.pending
  obtain ⟨hash, hhash, hhash'⟩ := h.hash
  obtain ⟨sender, hsender, hsender'⟩ := h.sender
  obtain ⟨value, hvalue, hvalue'⟩ := h.value
  obtain ⟨input, hinput, hinput'⟩ := h.input
  rw [transaction, hto, ok_bind, hblock, ok_bind,
    optional_of_getText? hvalue (long_of_spells hvalue'), ok_bind,
    optional_of_getText? hinput (bytes_of_spells hinput'), ok_bind, text_of_getText? hhash, ok_bind,
    hash_of_spells hhash', ok_bind, text_of_getText? hsender, ok_bind,
    address_of_spells hsender', ok_bind]
  rfl

/-- A status is read back. -/
theorem status_of_rendered {r : Receipt} (h : r.Rendered v) :
    ∃ w : BitVec 64, optional v "status" word = .ok (some w) ∧ decide (w = 1) = r.success := by
  have hstatus := h.status
  cases hsuccess : r.success with
  | true =>
    rw [hsuccess] at hstatus
    exact ⟨1, optional_of_getText? hstatus rfl, rfl⟩
  | false =>
    rw [hsuccess] at hstatus
    exact ⟨0, optional_of_getText? hstatus rfl, rfl⟩

/-- **A receipt is read back** from what a node writes. -/
theorem receipt_of_rendered {r : Receipt} (h : r.Rendered v) : receipt v = .ok r := by
  obtain ⟨status, hstatus, hsuccess⟩ := status_of_rendered h
  obtain ⟨tx, htx, htx'⟩ := h.txHash
  obtain ⟨block, hblock, hblock'⟩ := h.blockNumber
  obtain ⟨items, hitems, hlogs⟩ := h.logs
  have hlogs' : items.mapM log = .ok r.logs := mapM_eq_ok (hlogs.imp fun _ _ => log_of_rendered)
  rw [receipt, hstatus, ok_bind, hitems]
  simp only [Option.bind_some, Json.asItems?]
  rw [hlogs', ok_bind, text_of_getText? htx, ok_bind, hash_of_spells htx', ok_bind,
    text_of_getText? hblock, ok_bind, word_of_spells hblock', ok_bind]
  simp only [Option.all_some, hsuccess]
  rfl

/-- **Decoding undoes what nodes write**: every log, transaction and receipt can
be written, and however it is, it is read back as it was. -/
theorem rendered_read_back :
    (∀ l : Log, (∃ v, l.Rendered v) ∧ ∀ v, l.Rendered v → log v = .ok l) ∧
      (∀ t : Transaction, (∃ v, t.Rendered v) ∧ ∀ v, t.Rendered v → transaction v = .ok t) ∧
      ∀ r : Receipt, (∃ v, r.Rendered v) ∧ ∀ v, r.Rendered v → receipt v = .ok r :=
  ⟨fun l => ⟨⟨_, l.rendered_toJson⟩, fun _ => log_of_rendered⟩,
    fun t => ⟨⟨_, t.rendered_toJson⟩, fun _ => transaction_of_rendered⟩,
    fun r => ⟨⟨_, r.rendered_toJson⟩, fun _ => receipt_of_rendered⟩⟩

/-- A transaction that is pending and creates a contract, with the greatest
value that there is. -/
def creation : Transaction where
  hash := ⟨List.replicate 32 0xab, rfl⟩
  sender := ⟨List.replicate 20 0xcd, rfl⟩
  recipient := none
  blockNumber := none
  value := .allOnes 256
  input := [0xde, 0xad, 0xbe, 0xef]

/-- Digits after their mark. -/
def marked (ds : List Char) : Json := .str ("0x" ++ String.ofList ds)

/-- The transaction in letters of both cases, with a member that is not asked for. -/
def creationJson : Json :=
  .obj [("to", .null), ("type", .str "0x0"), ("blockNumber", .null),
    ("input", marked "DEADbeef".toList), ("value", marked (List.replicate 64 'F')),
    ("hash", marked (List.replicate 32 ['A', 'b']).flatten),
    ("from", marked (List.replicate 20 ['c', 'D']).flatten)]

/-- A log in the last block of all. -/
def lastLog : Log :=
  ⟨⟨List.replicate 20 0xcd, rfl⟩, [creation.hash, creation.hash], [], .allOnes 64, creation.hash, 0⟩

/-- The receipt of a transaction in the last block of all, with one log. -/
def lastReceipt : Receipt := ⟨creation.hash, true, .allOnes 64, [lastLog]⟩

/-- The receipt in letters of both cases. -/
def lastReceiptJson : Json :=
  .obj [("logs", .arr [lastLog.toJson]), ("status", .str "0x1"),
    ("blockNumber", marked "FFFFffffFFFFffff".toList),
    ("transactionHash", marked (List.replicate 32 ['A', 'b']).flatten)]

/-- Letters of both cases are read back, and so is what is `null`. -/
theorem creation_read_back : creation.Rendered creationJson ∧ lastReceipt.Rendered lastReceiptJson ∧
    transaction creationJson = .ok creation ∧ receipt lastReceiptJson = .ok lastReceipt := by
  have hcreation : creation.Rendered creationJson :=
    { hash := ⟨_, rfl, _, rfl, (by decide : Text.lower (List.replicate 32 ['A', 'b']).flatten = _)⟩
      sender := ⟨_, rfl, _, rfl, (by decide : Text.lower (List.replicate 20 ['c', 'D']).flatten = _)⟩
      recipient := nofun
      creates := fun _ => rfl
      blockNumber := nofun
      pending := fun _ => rfl
      value := ⟨_, rfl, List.replicate 64 'F', rfl, by decide⟩
      input := ⟨_, rfl, "DEADbeef".toList, rfl, by decide⟩ }
  have hlast : lastReceipt.Rendered lastReceiptJson :=
    { txHash := hcreation.hash
      status := rfl
      blockNumber := ⟨_, rfl, "FFFFffffFFFFffff".toList, rfl, by decide⟩
      logs := ⟨_, rfl, .cons lastLog.rendered_toJson .nil⟩ }
  exact ⟨hcreation, hlast, (rendered_read_back.2.1 creation).2 _ hcreation,
    (rendered_read_back.2.2 lastReceipt).2 _ hlast⟩

end Decode

end ChainLedger
