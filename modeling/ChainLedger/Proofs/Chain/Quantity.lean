import ChainLedger.Proofs.Chain.Rendering
import Mathlib.Data.Nat.Digits.Lemmas

/-!
# Which texts are quantities

A text of hexadecimal digits of either case denotes a number
(`Hex.Denotes`). The two readers of quantities cut off the same mark, and what
is left they read as the number that it denotes, if that fits
(`Decode.quantities_read`). They part in what they let pass besides: a number
of 64 bits may have one `+` in front, and one of 256 bits underscores anywhere,
or no digit at all. What both read is a text of one digit or more, and they
agree on it.
-/

namespace ChainLedger

-- A power is the one of the core library, whatever other structure is in scope.
attribute [local instance (2000)] instPowNat

/-! ## Characters behind bytes -/

namespace Text

variable {c : Char} {cs : List Char} {b : UInt8} {bs : Bytes}

/-- **A byte of the ASCII range** among the bytes of a character is all of it. -/
theorem utf8EncodeChar_of_mem (hb : b.toNat < 128) (h : b ∈ String.utf8EncodeChar c) :
    c = Char.ofNat b.toNat ∧ String.utf8EncodeChar c = [b] := by
  have hc : c.toNat = c.val.toNat := rfl
  rw [String.utf8EncodeChar.eq_1] at h ⊢
  split at h
  · next hle =>
    rw [if_pos hle]
    obtain rfl := List.mem_singleton.mp h
    have hval : (UInt8.ofNat c.val.toNat).toNat = c.toNat := by
      rw [UInt8.toNat_ofNat', hc]
      omega
    exact ⟨by rw [hval, Char.ofNat_toNat], rfl⟩
  · -- All bytes of a longer character lie beyond the range.
    exfalso
    split at h
    · simp only [List.mem_cons, List.not_mem_nil, or_false] at h
      rcases h with rfl | rfl <;> simp only [UInt8.toNat_ofNat'] at hb <;> omega
    · split at h
      · simp only [List.mem_cons, List.not_mem_nil, or_false] at h
        rcases h with rfl | rfl | rfl <;> simp only [UInt8.toNat_ofNat'] at hb <;> omega
      · simp only [List.mem_cons, List.not_mem_nil, or_false] at h
        rcases h with rfl | rfl | rfl | rfl <;> simp only [UInt8.toNat_ofNat'] at hb <;> omega

theorem utf8Chars_ne_nil (h : cs ≠ []) : utf8Chars cs ≠ [] := by
  obtain ⟨c, ds, rfl⟩ := List.exists_cons_of_ne_nil h
  simp [utf8Chars, String.utf8EncodeChar_ne_nil]

/-- A text whose first byte is of the ASCII range starts with that character. -/
theorem of_utf8Chars_eq_cons (hb : b.toNat < 128) (h : utf8Chars cs = b :: bs) :
    ∃ ds, cs = Char.ofNat b.toNat :: ds ∧ utf8Chars ds = bs := by
  cases cs with
  | nil => cases h
  | cons c ds =>
    have hcons : String.utf8EncodeChar c ++ utf8Chars ds = b :: bs := h
    obtain ⟨x, xs, hx⟩ := List.exists_cons_of_ne_nil (String.utf8EncodeChar_ne_nil (c := c))
    obtain ⟨rfl, -⟩ := List.cons.inj (hx ▸ hcons)
    obtain ⟨rfl, hone⟩ := utf8EncodeChar_of_mem hb (c := c) (by simp [hx])
    rw [hone] at hcons
    exact ⟨ds, rfl, (List.cons.inj hcons).2⟩

/-- What is left of the bytes without one of the ASCII range is what is left of
the text without its character. -/
theorem filter_utf8Chars (hb : b.toNat < 128) (hc : String.utf8EncodeChar c = [b]) :
    (utf8Chars cs).filter (· ≠ b) = utf8Chars (cs.filter (· ≠ c)) := by
  have hfrom : c = Char.ofNat b.toNat := (utf8EncodeChar_of_mem hb (by simp [hc])).1
  induction cs with
  | nil => rfl
  | cons d cs ih =>
    have hcons (ds : List Char) : utf8Chars (d :: ds) = String.utf8EncodeChar d ++ utf8Chars ds :=
      rfl
    rw [hcons, List.filter_append, ih]
    by_cases hd : d = c
    · rw [hd, hc, List.filter_cons_of_neg (by simp), List.filter_cons_of_neg (by simp)]
      rfl
    · have hnone : ∀ x ∈ String.utf8EncodeChar d, decide (x ≠ b) = true := by
        intro x hx
        refine decide_eq_true fun hxb => hd ?_
        exact (utf8EncodeChar_of_mem hb (hxb ▸ hx)).1.trans hfrom.symm
      rw [List.filter_eq_self.mpr hnone, List.filter_cons_of_pos (by simpa using hd), hcons]

end Text

/-! ## Digits and what they denote -/

namespace Hex

variable {c : Char} {ds : List Char} {b : UInt8} {bs : Bytes} {v n : ℕ} {vs : List ℕ}

/-- A character is the digit of a value, in either case. -/
def IsDigit (c : Char) (v : ℕ) : Prop := v < 16 ∧ c.toLower = digitChar v

instance (c : Char) (v : ℕ) : Decidable (IsDigit c v) :=
  inferInstanceAs (Decidable (v < 16 ∧ c.toLower = digitChar v))

/-- **A text of digits denotes a number**, the first digit being the most
significant one. Without any digit it denotes zero. -/
def Denotes (ds : List Char) (n : ℕ) : Prop :=
  ∃ vs, List.Forall₂ IsDigit ds vs ∧ Nat.ofDigits 16 vs.reverse = n

theorem all_digit? : ∀ n : Fin 256,
    (digit? (UInt8.ofNat n)).all fun v => n.val < 128 ∧ IsDigit (Char.ofNat n) v := by
  decide +kernel

/-- The character of a byte that reads as a digit is that digit. -/
theorem isDigit_of_digit? (h : digit? b = some v) :
    b.toNat < 128 ∧ IsDigit (Char.ofNat b.toNat) v := by
  have hall := all_digit? ⟨b.toNat, b.toNat_lt⟩
  rw [UInt8.ofNat_toNat, h] at hall
  exact of_decide_eq_true hall

/-- **The bytes of a text read as digits** exactly if its characters are these
digits. -/
theorem map_digit?_iff :
    (Text.utf8Chars ds).map digit? = vs.map some ↔ List.Forall₂ IsDigit ds vs := by
  constructor
  · intro h
    induction ds generalizing vs with
    | nil =>
      obtain rfl : vs = [] := List.map_eq_nil_iff.mp h.symm
      exact .nil
    | cons c ds ih =>
      obtain ⟨x, xs, hx⟩ := List.exists_cons_of_ne_nil (String.utf8EncodeChar_ne_nil (c := c))
      have hbytes : Text.utf8Chars (c :: ds) = x :: (xs ++ Text.utf8Chars ds) := by
        simp [Text.utf8Chars, hx]
      rw [hbytes, List.map_cons] at h
      obtain ⟨v, vs, rfl, hv, hvs⟩ := List.map_eq_cons_iff.mp h.symm
      obtain ⟨hascii, hdigit⟩ := isDigit_of_digit? hv.symm
      obtain ⟨rfl, hone⟩ := Text.utf8EncodeChar_of_mem (c := c) hascii (by simp [hx])
      obtain rfl : xs = [] := (List.cons.inj (hx.symm.trans hone)).2
      exact .cons hdigit (ih hvs.symm)
  · intro h
    induction h with
    | nil => rfl
    | @cons c v ds vs hcv _ ih =>
      obtain ⟨d, hd, hv⟩ := digit?_of_toLower hcv.1 hcv.2
      have hbytes : Text.utf8Chars (c :: ds) = d :: Text.utf8Chars ds := by
        simp [Text.utf8Chars, hd]
      rw [hbytes, List.map_cons, List.map_cons, hv, ih]

/-- All characters of a text that denotes a number are digits. -/
theorem Denotes.exists_isDigit (h : Denotes ds n) (hc : c ∈ ds) : ∃ v, IsDigit c v := by
  obtain ⟨vs, hvs, -⟩ := h
  have hdigits : ∀ c ∈ ds, ∃ v, IsDigit c v :=
    ((List.forall₂_and_left ds vs).mp (hvs.imp fun _ v hv => ⟨⟨v, hv⟩, hv⟩)).1
  exact hdigits c hc

/-- **A text denotes one number** at most. -/
theorem Denotes.unique {m : ℕ} (h : Denotes ds n) (h' : Denotes ds m) : n = m := by
  obtain ⟨vs, hvs, rfl⟩ := h
  obtain ⟨us, hus, rfl⟩ := h'
  have hsame : vs.map some = us.map some :=
    (map_digit?_iff.mpr hvs).symm.trans (map_digit?_iff.mpr hus)
  rw [List.map_injective_iff.mpr (Option.some_injective ℕ) hsame]

theorem not_isDigit : ∀ v : Fin 16, ¬ IsDigit '+' v ∧ ¬ IsDigit '_' v := by decide

/-- What may stand beside digits is no digit. -/
theorem Denotes.not_mem (h : Denotes ds n) : '+' ∉ ds ∧ '_' ∉ ds := by
  constructor
  · intro hmem
    obtain ⟨v, hv⟩ := h.exists_isDigit hmem
    exact (not_isDigit ⟨v, hv.1⟩).1 hv
  · intro hmem
    obtain ⟨v, hv⟩ := h.exists_isDigit hmem
    exact (not_isDigit ⟨v, hv.1⟩).2 hv

/-- The digits in order, each making the number sixteen times as large. -/
theorem ofDigits_reverse (vs : List ℕ) :
    Nat.ofDigits 16 vs.reverse = vs.foldl (fun n v => 16 * n + v) 0 := by
  rw [Nat.ofDigits_eq_foldr, List.foldr_reverse]
  simp [Nat.add_comm]

end Hex

/-! ## The two readers -/

namespace Quantity

variable {ds : List Char} {b : UInt8} {bs : Bytes} {n m place : ℕ} {s : String}

/-- The first byte of those that read as digits, and the others. -/
theorem exists_values_cons {P : List ℕ → Prop} :
    (∃ vs, (b :: bs).map Hex.digit? = vs.map some ∧ P vs) ↔
      ∃ d, Hex.digit? b = some d ∧ ∃ vs, bs.map Hex.digit? = vs.map some ∧ P (d :: vs) := by
  constructor
  · rintro ⟨vs, hvs, hP⟩
    obtain ⟨d, vs, rfl, hd, hrest⟩ := List.map_eq_cons_iff.mp hvs.symm
    exact ⟨d, hd.symm, vs, hrest.symm, hP⟩
  · rintro ⟨d, hd, vs, hvs, hP⟩
    exact ⟨d :: vs, by rw [List.map_cons, hd, hvs, List.map_cons], hP⟩

/-- More digits never make a number smaller. -/
theorem le_foldl (vs : List ℕ) (n : ℕ) : n ≤ vs.foldl (fun n v => 16 * n + v) n := by
  induction vs generalizing n with
  | nil => exact le_rfl
  | cons v vs ih => exact le_trans (by omega) (ih (16 * n + v))

/-- **Digits from the left** are read as the number that they make, if it fits. -/
theorem readWord_eq_ok_iff (hn : n < 2 ^ (64 : ℕ)) :
    readWord n bs = .ok m ↔ ∃ vs : List ℕ, bs.map Hex.digit? = vs.map some ∧
      vs.foldl (fun n v => 16 * n + v) n = m ∧ m < 2 ^ (64 : ℕ) := by
  induction bs generalizing n with
  | nil =>
    constructor
    · intro h
      cases h
      exact ⟨[], rfl, rfl, hn⟩
    · rintro ⟨vs, hvs, rfl, -⟩
      obtain rfl := List.map_eq_nil_iff.mp hvs.symm
      rfl
  | cons b bs ih =>
    rw [exists_values_cons, readWord]
    cases hb : Hex.digit? b with
    | none => simp
    | some d =>
      simp only [Option.some.injEq, exists_eq_left', List.foldl_cons]
      split
      · next hfits => exact ih hfits
      · next hlarge =>
        -- What is too large already stays so, whatever digits follow.
        constructor
        · intro h
          cases h
        · rintro ⟨vs, -, rfl, hlt⟩
          exact absurd (lt_of_le_of_lt (le_foldl vs _) hlt) hlarge

/-- **Digits from the right**, with underscores between them, are read as the
number that they make, if it fits. -/
theorem readLong_eq_ok_iff (hn : n < 2 ^ (256 : ℕ)) :
    readLong place n bs = .ok m ↔
      ∃ vs : List ℕ, (bs.filter (· ≠ underscore)).map Hex.digit? = vs.map some ∧
        n + place * Nat.ofDigits 16 vs = m ∧ m < 2 ^ (256 : ℕ) := by
  induction bs generalizing n place with
  | nil =>
    constructor
    · intro h
      cases h
      exact ⟨[], rfl, by simp, hn⟩
    · rintro ⟨vs, hvs, rfl, -⟩
      obtain rfl := List.map_eq_nil_iff.mp hvs.symm
      simp [readLong]
  | cons b bs ih =>
    rw [readLong]
    by_cases hb : b = underscore
    · rw [if_pos hb, ih hn, List.filter_cons_of_neg (by simpa using hb)]
    · rw [if_neg hb, List.filter_cons_of_pos (by simpa using hb), exists_values_cons]
      cases hd : Hex.digit? b with
      | none => simp
      | some d =>
        have hvalue (vs : List ℕ) : n + place * Nat.ofDigits 16 (d :: vs) =
            n + d * place + 16 * place * Nat.ofDigits 16 vs := by
          rw [Nat.ofDigits_cons]
          ring
        simp only [Option.some.injEq, exists_eq_left', hvalue]
        split
        · next hfits => exact ih hfits
        · next hlarge =>
          constructor
          · intro h
            cases h
          · rintro ⟨vs, -, rfl, hlt⟩
            omega

/-! ## Texts -/

/-- The characters of a text after the mark `0x`, or all of them without it. -/
def body (s : String) : List Char :=
  match s.toList with
  | '0' :: 'x' :: ds => ds
  | ds => ds

/-- **A text is digits alone**, one or more after an optional mark, and denotes
a number. -/
def Plain (s : String) (n : ℕ) : Prop := body s ≠ [] ∧ Hex.Denotes (body s) n

/-- What follows one `+`, or all without it. -/
def unsigned : List Char → List Char
  | '+' :: ds => ds
  | ds => ds

theorem eq_of_unsigned_eq_nil (h : unsigned ds = []) : ds = [] ∨ ds = ['+'] := by
  unfold unsigned at h
  split at h
  · exact .inr (by rw [h])
  · exact .inl h

theorem unsigned_of_not_mem (h : '+' ∉ ds) : unsigned ds = ds := by
  unfold unsigned
  split
  · exact absurd (List.mem_cons_self ..) h
  · rfl

theorem filter_of_not_mem (h : '_' ∉ ds) : ds.filter (· ≠ '_') = ds :=
  List.filter_eq_self.mpr fun _ hc => decide_eq_true fun heq => h (heq ▸ hc)

/-- The mark is cut off bytes as it is off characters. -/
theorem dropMark_utf8 (s : String) : Hex.dropMark (Text.utf8 s) = Text.utf8Chars (body s) := by
  unfold body Text.utf8
  split
  · next ds hds =>
    rw [hds]
    rfl
  · next ds hds =>
    unfold Hex.dropMark
    split
    · next rest hbytes =>
      obtain ⟨ds', hzero, hrest⟩ := Text.of_utf8Chars_eq_cons (by decide) hbytes
      obtain ⟨ds'', rfl, -⟩ := Text.of_utf8Chars_eq_cons (by decide) hrest
      exact absurd hzero (hds ds'')
    · rfl

/-- Where a sign is cut off bytes, it is cut off characters, unless it stands
alone. -/
theorem dropPlus_utf8Chars (h : unsigned ds ≠ []) :
    dropPlus (Text.utf8Chars ds) = Text.utf8Chars (unsigned ds) := by
  unfold unsigned at h ⊢
  split at h
  · next ds =>
    obtain ⟨x, xs, hx⟩ := List.exists_cons_of_ne_nil (Text.utf8Chars_ne_nil h)
    have hbytes : Text.utf8Chars ('+' :: ds) = 0x2B :: Text.utf8Chars ds := rfl
    rw [hbytes, hx]
    rfl
  · next ds hds =>
    unfold dropPlus
    split
    · next x rest hbytes =>
      obtain ⟨ds', hplus, -⟩ := Text.of_utf8Chars_eq_cons (by decide) hbytes
      exact absurd hplus (hds ds')
    · rfl

/-- A number that fits is the one that was read. -/
theorem map_toNat_eq_ok {k : ℕ} {x : Except Fault ℕ} (h : ∀ n, x = .ok n → n < 2 ^ k) :
    (x.map (BitVec.ofNat k)).map BitVec.toNat = .ok n ↔ x = .ok n := by
  cases x with
  | error e => simp [Except.map]
  | ok m => simp [Except.map, Nat.mod_eq_of_lt (h m rfl)]

/-- Characters are read from the left as the number that they denote, if it
fits. -/
theorem readWord_utf8Chars_iff :
    readWord 0 (Text.utf8Chars ds) = .ok n ↔ Hex.Denotes ds n ∧ n < 2 ^ (64 : ℕ) := by
  rw [readWord_eq_ok_iff (by decide)]
  simp only [Hex.map_digit?_iff, ← Hex.ofDigits_reverse, Hex.Denotes, ← and_assoc, exists_and_right]

/-- Characters are read from the right, but for underscores, as the number that
they denote, if it fits. -/
theorem readLong_utf8Chars_iff :
    readLong 1 0 (Text.utf8Chars ds).reverse = .ok n ↔
      Hex.Denotes (ds.filter (· ≠ '_')) n ∧ n < 2 ^ (256 : ℕ) := by
  have hfilter : (Text.utf8Chars ds).reverse.filter (· ≠ underscore) =
      (Text.utf8Chars (ds.filter (· ≠ '_'))).reverse := by
    have hbyte : String.utf8EncodeChar '_' = [underscore] := by decide
    rw [List.filter_reverse, Text.filter_utf8Chars (by decide) hbyte]
  rw [readLong_eq_ok_iff (by decide), hfilter]
  constructor
  · rintro ⟨vs, hvs, hvalue, hlt⟩
    refine ⟨⟨vs.reverse, Hex.map_digit?_iff.mp ?_, by simpa using hvalue⟩, hlt⟩
    rw [List.map_reverse, ← hvs, List.map_reverse, List.reverse_reverse]
  · rintro ⟨⟨vs, hvs, rfl⟩, hlt⟩
    refine ⟨vs.reverse, ?_, by simp, hlt⟩
    rw [List.map_reverse, Hex.map_digit?_iff.mpr hvs, List.map_reverse]

/-- **A text is a number of 64 bits** exactly if one `+` is all that stands
before its digits, and there are any. -/
theorem word_eq_ok_iff : (word s).map BitVec.toNat = .ok n ↔
    unsigned (body s) ≠ [] ∧ Hex.Denotes (unsigned (body s)) n ∧ n < 2 ^ (64 : ℕ) := by
  rw [word, dropMark_utf8]
  by_cases h : unsigned (body s) = []
  · simp only [h, ne_eq, not_true_eq_false, false_and, iff_false]
    rcases eq_of_unsigned_eq_nil h with hbody | hbody <;> rw [hbody] <;> exact nofun
  · have hbytes : Text.utf8Chars (body s) ≠ [] :=
      Text.utf8Chars_ne_nil fun hbody => h (by rw [hbody]; rfl)
    split
    · next hnil => exact absurd hnil hbytes
    · rw [dropPlus_utf8Chars h, map_toNat_eq_ok fun m hm => (readWord_utf8Chars_iff.mp hm).2,
        readWord_utf8Chars_iff, and_iff_right h]

/-- **A text is a number of 256 bits** exactly if all of it but underscores is
digits, or nothing. -/
theorem long_eq_ok_iff : (long s).map BitVec.toNat = .ok n ↔
    Hex.Denotes ((body s).filter (· ≠ '_')) n ∧ n < 2 ^ (256 : ℕ) := by
  rw [long, dropMark_utf8, map_toNat_eq_ok fun m hm => (readLong_utf8Chars_iff.mp hm).2,
    readLong_utf8Chars_iff]

/-- **What both readers read** is digits alone, and they agree on it. -/
theorem word_and_long_eq_ok_iff :
    ((word s).map BitVec.toNat = .ok n ∧ (long s).map BitVec.toNat = .ok m) ↔
      m = n ∧ Plain s n ∧ n < 2 ^ (64 : ℕ) := by
  rw [word_eq_ok_iff, long_eq_ok_iff, Plain]
  generalize body s = ds
  constructor
  · rintro ⟨⟨hne, hword, hlt⟩, hlong, -⟩
    have hplus : '+' ∉ ds := fun hmem =>
      hlong.not_mem.1 (List.mem_filter.mpr ⟨hmem, by decide⟩)
    rw [unsigned_of_not_mem hplus] at hne hword
    rw [filter_of_not_mem hword.not_mem.2] at hlong
    exact ⟨hlong.unique hword, ⟨hne, hword⟩, hlt⟩
  · rintro ⟨rfl, ⟨hne, hdenotes⟩, hlt⟩
    obtain ⟨hplus, hunderscore⟩ := hdenotes.not_mem
    rw [unsigned_of_not_mem hplus, filter_of_not_mem hunderscore]
    exact ⟨⟨hne, hdenotes, hlt⟩, hdenotes, lt_trans hlt (by decide)⟩

end Quantity

namespace Decode

theorem word_map_eq_ok {s : String} {n : ℕ} :
    (word s).map BitVec.toNat = .ok n ↔ (Quantity.word s).map BitVec.toNat = .ok n := by
  rw [word, map_eq_ok, map_eq_ok]
  simp only [mapError_eq_ok]

theorem long_map_eq_ok {s : String} {n : ℕ} :
    (long s).map BitVec.toNat = .ok n ↔ (Quantity.long s).map BitVec.toNat = .ok n := by
  rw [long, map_eq_ok, map_eq_ok]
  simp only [mapError_eq_ok]

/-- **Which texts are quantities.** After an optional mark, a number of 64 bits
is one digit or more with at most one `+` in front, and a number of 256 bits is
any digits and underscores; both are what their digits denote. So what both
readers read is digits alone, and they agree on it. -/
theorem quantities_read (s : String) :
    (∀ n, (word s).map BitVec.toNat = .ok n ↔
      Quantity.unsigned (Quantity.body s) ≠ [] ∧
        Hex.Denotes (Quantity.unsigned (Quantity.body s)) n ∧ n < 2 ^ (64 : ℕ)) ∧
    (∀ n, (long s).map BitVec.toNat = .ok n ↔
      Hex.Denotes ((Quantity.body s).filter (· ≠ '_')) n ∧ n < 2 ^ (256 : ℕ)) ∧
    ∀ n m, ((word s).map BitVec.toNat = .ok n ∧ (long s).map BitVec.toNat = .ok m) ↔
      m = n ∧ Quantity.Plain s n ∧ n < 2 ^ (64 : ℕ) := by
  refine ⟨fun n => ?_, fun n => ?_, fun n m => ?_⟩
  · rw [word_map_eq_ok, Quantity.word_eq_ok_iff]
  · rw [long_map_eq_ok, Quantity.long_eq_ok_iff]
  · rw [word_map_eq_ok, long_map_eq_ok, Quantity.word_and_long_eq_ok_iff]

/-- **More than digits is read**: one `+` in front of a number of 64 bits, and
in a number of 256 bits no digit at all, or an underscore. -/
theorem reads_more_than_digits :
    (word "0x+1").map BitVec.toNat = .ok 1 ∧ ¬ Quantity.Plain "0x+1" 1 ∧
      (long "0x").map BitVec.toNat = .ok 0 ∧ ¬ Quantity.Plain "0x" 0 ∧
      (long "0x1_0").map BitVec.toNat = .ok 16 ∧ ¬ Quantity.Plain "0x1_0" 16 := by
  refine ⟨by rfl, fun h => h.2.not_mem.1 (by decide), by rfl, fun h => h.1 (by decide), by rfl,
    fun h => h.2.not_mem.2 (by decide)⟩

end Decode

end ChainLedger
