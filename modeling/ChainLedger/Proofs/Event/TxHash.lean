import ChainLedger.Proofs.Event.Normal
import ChainLedger.Proofs.Chain.Rendering
import Mathlib.Data.List.DropRight

/-!
# One key for each transaction

The hash of a transaction may be spelled with digits of either case, after a
mark or without one, and with blanks around (`Hash.Spelled`). All spellings of
one hash are brought into one key, and no two hashes share it
(`InboundEvent.one_key`). What was brought into that form once, whatever text
it was, stays as it is (`normalHash_bind`).
-/

namespace ChainLedger

/-! ## Blanks at the ends -/

namespace Text

variable {c : Char} {cs before after : List Char}

theorem isBlank_eq_false (h : 33 ≤ c.toNat ∧ c.toNat ≤ 126) : isBlank c = false := by
  simp [isBlank, blankRanges]
  omega

/-- A character is blank in one case if it is in the other. -/
theorem isBlank_toLower (c : Char) : isBlank c.toLower = isBlank c := by
  rcases Hex.toLower_eq_or c with hsame | ⟨hshift, hle⟩
  · rw [hsame]
  · rw [isBlank_eq_false (by omega), isBlank_eq_false (by omega)]

theorem lower_lower (cs : List Char) : lower (lower cs) = lower cs := by
  have htwice : Char.toLower ∘ Char.toLower = Char.toLower := by
    funext c
    rcases Hex.toLower_eq_or c.toLower with hsame | ⟨-, hle⟩
    · exact hsame
    · -- A letter in upper case is not the lower case of anything.
      rcases Hex.toLower_eq_or c with hsame | ⟨hshift, hle'⟩
      · rw [Function.comp_apply, hsame, hsame]
      · omega
  rw [lower, lower, List.map_map, htwice]

/-- **No blanks at the ends.** -/
structure Trimmed (cs : List Char) : Prop where
  head : ∀ c ∈ cs.head?, isBlank c = false
  last : ∀ c ∈ cs.getLast?, isBlank c = false

/-- Blanks in front are cut off, up to what starts with none. -/
theorem dropWhile_isBlank_append (hb : ∀ c ∈ before, isBlank c = true)
    (hcs : ∀ c ∈ cs.head?, isBlank c = false) : (before ++ cs).dropWhile isBlank = cs := by
  rw [List.dropWhile_append_of_pos hb]
  cases cs with
  | nil => rfl
  | cons c cs => rw [List.dropWhile_cons_of_neg (by simp [hcs c rfl])]

/-- **Blanks around are cut off**, and nothing else is. -/
theorem trimChars_append (hb : ∀ c ∈ before, isBlank c = true)
    (ha : ∀ c ∈ after, isBlank c = true) (hne : cs ≠ []) (hcs : Trimmed cs) :
    trimChars (before ++ cs ++ after) = cs := by
  have hhead : (cs ++ after).head? = cs.head? := by
    obtain ⟨c, ds, rfl⟩ := List.exists_cons_of_ne_nil hne
    rfl
  have hstart : trimStart (before ++ cs ++ after) = cs ++ after := by
    rw [List.append_assoc]
    exact dropWhile_isBlank_append hb (hhead ▸ hcs.head)
  have hend : (cs ++ after).reverse.dropWhile isBlank = cs.reverse := by
    rw [List.reverse_append]
    refine dropWhile_isBlank_append (fun c hc => ha c (List.mem_reverse.mp hc)) ?_
    rw [List.head?_reverse]
    exact hcs.last
  rw [trimChars, hstart, trimEnd, hend, List.reverse_reverse]

theorem trimChars_of_trimmed (hne : cs ≠ []) (hcs : Trimmed cs) : trimChars cs = cs := by
  have hnone : ∀ c ∈ ([] : List Char), isBlank c = true := nofun
  simpa using trimChars_append hnone hnone hne hcs

/-- A text without the blanks at its ends has none there. -/
theorem trimmed_trimChars (cs : List Char) : Trimmed (trimChars cs) := by
  have hfirst (ds : List Char) : ∀ c ∈ (ds.dropWhile isBlank).head?, isBlank c = false := by
    intro c hc
    have hnot := List.head?_dropWhile_not isBlank ds
    rwa [hc] at hnot
  constructor
  · intro c hc
    -- What is left after the end is cut off starts as before.
    obtain ⟨rest, hrest⟩ : trimChars cs <+: trimStart cs := List.rdropWhile_prefix isBlank _
    refine hfirst cs c ?_
    show c ∈ (trimStart cs).head?
    rw [← hrest, List.head?_append, Option.mem_def.mp hc]
    rfl
  · intro c hc
    rw [trimChars, trimEnd, List.getLast?_reverse] at hc
    exact hfirst _ c hc

theorem Trimmed.of_forall (h : ∀ c ∈ cs, isBlank c = false) : Trimmed cs where
  head c hc := h c (List.mem_of_mem_head? hc)
  last c hc := h c (List.mem_of_mem_getLast? hc)

end Text

/-! ## Spellings -/

namespace Hash

variable {s : String} {h h' : Hash} {ds mark : List Char} {bs : Bytes}

/-- **A text spells a hash**: 64 digits of either case, after the mark `0x` or
`0X` or none, and any blanks around. -/
def Spelled (s : String) (h : Hash) : Prop :=
  ∃ before mark ds after, s = String.ofList (before ++ (mark ++ ds) ++ after) ∧
    (∀ c ∈ before, Text.isBlank c = true) ∧ (∀ c ∈ after, Text.isBlank c = true) ∧
    mark ∈ [[], ['0', 'x'], ['0', 'X']] ∧ Text.lower ds = Hex.digits h.bytes

theorem digitChar_plain : ∀ n : Fin 16,
    Text.isBlank (Hex.digitChar n) = false ∧ Hex.digitChar n ≠ 'x' := by
  decide

theorem isBlank_of_mem_mark (hmark : mark ∈ [[], ['0', 'x'], ['0', 'X']]) :
    ∀ c ∈ mark, Text.isBlank c = false := by
  simp only [List.mem_cons, List.not_mem_nil, or_false] at hmark
  rcases hmark with rfl | rfl | rfl
  · exact nofun
  · simp [Text.isBlank_eq_false]
  · simp [Text.isBlank_eq_false]

/-- No digit of either case is blank, or the end of a mark. -/
theorem digit_plain {c : Char} (hds : Text.lower ds = Hex.digits bs) (hc : c ∈ ds) :
    Text.isBlank c = false ∧ c.toLower ≠ 'x' := by
  have hmem : c.toLower ∈ Text.lower ds := List.mem_map_of_mem hc
  rw [hds] at hmem
  obtain ⟨b, -, hb⟩ := List.mem_flatMap.mp hmem
  have hlt : b.toNat < 256 := b.toNat_lt
  rw [← Text.isBlank_toLower]
  simp only [Hex.byteDigits, List.mem_cons, List.not_mem_nil, or_false] at hb
  rcases hb with hb | hb <;> rw [hb]
  · exact digitChar_plain ⟨b.toNat / 16, by omega⟩
  · exact digitChar_plain ⟨b.toNat % 16, by omega⟩

/-- A mark is told from the digits after it, and from digits without one. -/
theorem hashDigits_append (hmark : mark ∈ [[], ['0', 'x'], ['0', 'X']])
    (hds : Text.lower ds = Hex.digits bs) : hashDigits (mark ++ ds) = ds := by
  simp only [List.mem_cons, List.not_mem_nil, or_false] at hmark
  rcases hmark with rfl | rfl | rfl
  · rw [List.nil_append]
    unfold hashDigits
    split
    · exact absurd (by decide) (digit_plain (c := 'x') hds (by simp)).2
    · exact absurd (by decide) (digit_plain (c := 'X') hds (by simp)).2
    · rfl
  · rfl
  · rfl

theorem toText_eq (h : Hash) : h.toText = String.ofList ('0' :: 'x' :: Hex.digits h.bytes) := by
  rw [← String.toList_inj, toText, Hex.encode0x, Hex.encode]
  simp only [String.toList_append, String.toList_ofList]
  rfl

/-- **Every spelling of a hash has its written form for its key.** -/
theorem normalHash_of_spelled (hs : Spelled s h) : normalHash s = some h.toText := by
  obtain ⟨before, mark, ds, after, rfl, hbefore, hafter, hmark, hds⟩ := hs
  have hne : mark ++ ds ≠ [] := fun hnil => by
    have hlen := Hex.length_utf8Chars_digits h.bytes
    rw [← hds, (List.append_eq_nil_iff.mp hnil).2, h.length_bytes] at hlen
    cases hlen
  have hplain : ∀ c ∈ mark ++ ds, Text.isBlank c = false := by
    intro c hc
    rcases List.mem_append.mp hc with hc | hc
    · exact isBlank_of_mem_mark hmark c hc
    · exact (digit_plain hds hc).1
  have htrim : Text.trimChars (before ++ (mark ++ ds) ++ after) = mark ++ ds :=
    Text.trimChars_append hbefore hafter hne (.of_forall hplain)
  unfold normalHash
  rw [String.toList_ofList, htrim]
  split
  · next hnil => exact absurd hnil hne
  · rw [hashDigits_append hmark hds, hds, toText_eq]

/-- **The written form is read back.** -/
theorem ofText?_toText (h : Hash) : ofText? h.toText = .ok h := by
  have hlen := Hex.length_utf8Chars_digits h.bytes
  have hbytes : Hex.dropAnyMark (Text.utf8 h.toText) = Text.utf8Chars (Hex.digits h.bytes) := by
    rw [toText_eq, Text.utf8, String.toList_ofList]
    rfl
  rw [h.length_bytes] at hlen
  have hread : Hex.decodeExactly 32 (Text.utf8Chars (Hex.digits h.bytes)) = .ok h.bytes := by
    rw [Hex.decodeExactly, if_neg (by omega), if_neg (by omega), Hex.decodePairs_digits]
  rw [ofText?, hbytes, hread]
  exact dif_pos h.length_bytes

theorem toText_injective (heq : h.toText = h'.toText) : h = h' := by
  have hread := ofText?_toText h
  rw [heq, ofText?_toText] at hread
  exact (Except.ok.inj hread).symm

end Hash

/-! ## Keys -/

/-- **A text is a key**: the mark `0x`, no letter in upper case after it, and
no blank at the end. -/
structure IsKey (s : String) (ds : List Char) : Prop where
  eq : s = String.ofList ('0' :: 'x' :: ds)
  lower : Text.lower ds = ds
  trimmed : Text.Trimmed ('0' :: 'x' :: ds)

/-- A key stays as it is. -/
theorem normalHash_of_isKey {s : String} {ds : List Char} (h : IsKey s ds) :
    normalHash s = some s := by
  obtain ⟨rfl, hlower, htrimmed⟩ := h
  unfold normalHash
  rw [String.toList_ofList, Text.trimChars_of_trimmed (List.cons_ne_nil _ _) htrimmed]
  show some (String.ofList ('0' :: 'x' :: Text.lower ds)) = _
  rw [hlower]

/-- What follows the mark ends as all of it does. -/
theorem getLast?_hashDigits {cs : List Char} {c : Char} (hc : c ∈ (hashDigits cs).getLast?) :
    c ∈ cs.getLast? := by
  have hmarked (mark : List Char) {rest : List Char} (hc : c ∈ rest.getLast?) :
      c ∈ (mark ++ rest).getLast? := by
    rw [List.getLast?_append, Option.mem_def.mp hc]
    rfl
  unfold hashDigits at hc
  split at hc
  · exact hmarked ['0', 'x'] hc
  · exact hmarked ['0', 'X'] hc
  · exact hc

/-- What a text is brought into is a key. -/
theorem isKey_of_normalHash {s k : String} (h : normalHash s = some k) : ∃ ds, IsKey k ds := by
  unfold normalHash at h
  have htrimmed := Text.trimmed_trimChars s.toList
  generalize Text.trimChars s.toList = cs at h htrimmed
  split at h
  · cases h
  · refine ⟨_, (Option.some.inj h).symm, Text.lower_lower _, ?_, ?_⟩
    · rintro c ⟨⟩
      decide
    · intro c hc
      rw [List.getLast?_cons_cons, List.getLast?_cons, Text.lower, List.getLast?_map] at hc
      -- The key ends as the text does, or with the mark if nothing follows it.
      cases hd : (hashDigits cs).getLast? with
      | none =>
        obtain rfl : 'x' = c := by simpa [hd] using hc
        decide
      | some d =>
        obtain rfl : d.toLower = c := by simpa [hd] using hc
        rw [Text.isBlank_toLower]
        exact htrimmed.last d (getLast?_hashDigits hd)

/-- **To bring a hash into one spelling twice** is to do it once, whatever text
it was. -/
theorem normalHash_bind (s : String) : (normalHash s).bind normalHash = normalHash s := by
  cases hk : normalHash s with
  | none => rfl
  | some k =>
    obtain ⟨ds, hkey⟩ := isKey_of_normalHash hk
    exact normalHash_of_isKey hkey

/-! ## Events -/

/-- The bytes of a hash are read back from its key. -/
theorem Origin.hash_of_toText {o : Origin} {h : Hash} (ho : o.txHash = some h.toText) :
    o.hash = .ok h := by
  unfold hash requireTxHash
  rw [ho]
  show (Hash.ofText? h.toText).mapError _ = _
  rw [Hash.ofText?_toText]
  rfl

namespace InboundEvent

variable {raw : InboundEvent} {s : String} {h : Hash}

/-- An event is delivered with another hash, or none. -/
def withTxHash (raw : InboundEvent) (t : Option String) : InboundEvent := { raw with txHash := t }

/-- **An event is understood**: its name is known and its metadata fit it. -/
def Understood (raw : InboundEvent) : Prop := ∃ e, raw.normalize = .ok (some e)

/-- What is made of an event depends on its hash only in the key. -/
theorem normalize_withTxHash_of_key {t : Option String}
    (ht : t.bind normalHash = raw.txHash.bind normalHash) :
    (raw.withTxHash t).normalize = raw.normalize := by
  have horigin : (raw.withTxHash t).origin = raw.origin := congrArg (Origin.mk _ _ _) ht
  unfold normalize
  rw [horigin]
  rfl

/-- An event that is understood is so with any hash, and a hash that is spelled
in any way is its key. -/
theorem Understood.exists_normalize (hraw : raw.Understood) (hs : Hash.Spelled s h) :
    ∃ e, (raw.withTxHash s).normalize = .ok (some e) ∧ e.origin.txHash = some h.toText := by
  obtain ⟨e, he⟩ := hraw
  exact ⟨_, normalize_again he rfl rfl, Hash.normalHash_of_spelled hs⟩

/-- **One key for each transaction.** Any two events that are understood, with
the hashes of their transactions spelled in any way, are brought to the same
key exactly if the hashes are the same, and each hash is read back from its
key. Whatever text is given for a hash, the key of its key is the key itself,
and so what is made of the event is the same. -/
theorem one_key :
    (∀ (raw₁ raw₂ : InboundEvent) (s₁ s₂ : String) (h₁ h₂ : Hash), raw₁.Understood →
      raw₂.Understood → Hash.Spelled s₁ h₁ → Hash.Spelled s₂ h₂ →
      ∃ e₁ e₂, (raw₁.withTxHash s₁).normalize = .ok (some e₁) ∧
        (raw₂.withTxHash s₂).normalize = .ok (some e₂) ∧
        (e₁.origin.txHash = e₂.origin.txHash ↔ h₁ = h₂) ∧
        e₁.origin.hash = .ok h₁ ∧ e₂.origin.hash = .ok h₂) ∧
    (∀ s : String, (normalHash s).bind normalHash = normalHash s) ∧
    ∀ raw : InboundEvent, (raw.withTxHash raw.origin.txHash).normalize = raw.normalize := by
  refine ⟨?keys, normalHash_bind, ?again⟩
  case keys =>
    intro raw₁ raw₂ s₁ s₂ h₁ h₂ hraw₁ hraw₂ hs₁ hs₂
    obtain ⟨e₁, he₁, hkey₁⟩ := hraw₁.exists_normalize hs₁
    obtain ⟨e₂, he₂, hkey₂⟩ := hraw₂.exists_normalize hs₂
    refine ⟨e₁, e₂, he₁, he₂, ?_, Origin.hash_of_toText hkey₁, Origin.hash_of_toText hkey₂⟩
    rw [hkey₁, hkey₂, Option.some_inj]
    exact ⟨Hash.toText_injective, congrArg Hash.toText⟩
  case again =>
    intro raw
    refine normalize_withTxHash_of_key ?_
    rw [origin]
    cases raw.txHash with
    | none => rfl
    | some s => exact normalHash_bind s

/-- The hash whose digits are `ab`, throughout. -/
def sampleHash : Hash := ⟨List.replicate 32 0xab, by decide⟩

/-- Its digits in upper case, with a mark and blanks around. -/
def loudSpelling : String :=
  String.ofList ([' ', '\t'] ++ (['0', 'X'] ++ (List.replicate 32 ['A', 'B']).flatten) ++ ['\n'])

/-- Its digits alone, of both cases. -/
def bareSpelling : String :=
  String.ofList ([] ++ ([] ++ (List.replicate 32 ['a', 'B']).flatten) ++ [])

/-- A pool is created. -/
def pooled : InboundEvent :=
  ⟨"pool", "CreateTieringPool", 1, default, none, .obj [("poolId", .str "p1")]⟩

/-- A token is minted. -/
def minted : InboundEvent :=
  ⟨"minting", "MintNFT", 1, default, none, .obj [("tokenId", .str "7")]⟩

theorem understood_pooled : pooled.Understood := ⟨⟨pooled.origin, .createPool ⟨"p1", none⟩⟩, by rfl⟩

theorem understood_minted : minted.Understood := ⟨⟨minted.origin, .mintNft ⟨"7"⟩⟩, by rfl⟩

/-- Two events of one transaction, whose hash is spelled in two ways. -/
theorem one_key_loud_and_bare :
    pooled.Understood ∧ minted.Understood ∧ Hash.Spelled loudSpelling sampleHash ∧
      Hash.Spelled bareSpelling sampleHash ∧ loudSpelling ≠ bareSpelling ∧
      ∃ e₁ e₂, (pooled.withTxHash loudSpelling).normalize = .ok (some e₁) ∧
        (minted.withTxHash bareSpelling).normalize = .ok (some e₂) ∧
        e₁.origin.txHash = e₂.origin.txHash ∧ e₁.origin.hash = .ok sampleHash := by
  have hloud : Hash.Spelled loudSpelling sampleHash :=
    ⟨[' ', '\t'], ['0', 'X'], _, ['\n'], rfl, List.all_eq_true.mp rfl, List.all_eq_true.mp rfl,
      by decide, by decide⟩
  have hbare : Hash.Spelled bareSpelling sampleHash :=
    ⟨[], [], _, [], rfl, nofun, nofun, by decide, by decide⟩
  have hother : loudSpelling ≠ bareSpelling :=
    fun heq => absurd (String.ofList_injective heq) (by decide)
  obtain ⟨e₁, e₂, he₁, he₂, hkeys, hhash, -⟩ :=
    one_key.1 _ _ _ _ _ _ understood_pooled understood_minted hloud hbare
  exact ⟨understood_pooled, understood_minted, hloud, hbare, hother, e₁, e₂, he₁, he₂,
    hkeys.mpr rfl, hhash⟩

end InboundEvent

end ChainLedger
