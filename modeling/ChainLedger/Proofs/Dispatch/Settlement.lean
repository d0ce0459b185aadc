import ChainLedger.Proofs.Dispatch.Sequence
import ChainLedger.Proofs.Event.Normal
import ChainLedger.Proofs.Ledger.Key
import ChainLedger.Proofs.Transition.Frame
import ChainLedger.Proofs.Transition.Sales

/-!
# Settlement bookkeeping

The deposits that were applied, in the order of their commits, account for
all of the sales: each is one purchase under a hash of its own, and what is
left of offerings and fractional tokens and what offerings sold and wallets
bought are the amounts and values of these deposits, taken one after the
other from what the ledgers started with (`Settled`).
-/

namespace ChainLedger

/-! ## Settlements -/

/-- A deposit, and the hash that it is settled under. -/
structure Settlement where
  txHash : String
  deposit : FundDeposit

/-- The settlement of an event, if it is a deposit of a transaction. -/
def InboundEvent.settlement? (raw : InboundEvent) : Option Settlement :=
  match raw.normalize with
  | .ok (some ⟨o, .deposit p⟩) => o.txHash.map fun txHash => ⟨txHash, p⟩
  | _ => none

namespace Settlement

/-- The purchase of a settlement. -/
def purchase (d : Settlement) (t : Instant) : Purchase :=
  ⟨d.txHash, d.deposit.offeringId, d.deposit.buyer, d.deposit.amount, d.deposit.value, t⟩

/-- The settlement is of an offering. -/
def isOf (offering : String) (d : Settlement) : Bool := d.deposit.offeringId = offering

/-- The settlement is of an offering that names a fractional token. -/
def isOfFnft (l : Ledgers) (fnft : String) (d : Settlement) : Bool :=
  (l.offerings.get? d.deposit.offeringId).map (·.fnftId) = some fnft

/-- The settlement is of an offering and a buyer. -/
def isBy (offering : String) (buyer : Address) (d : Settlement) : Bool :=
  d.deposit.offeringId = offering ∧ d.deposit.buyer = buyer

/-- A record is that of a settlement if it is under the key of its deposit. -/
theorem isBy_iff {offering : String} {buyer : Address} {d : Settlement} :
    isBy offering buyer d = true ↔ keyOf offering buyer = d.deposit.whitelistKey := by
  simp only [isBy, decide_eq_true_eq]
  constructor
  · rintro ⟨rfl, rfl⟩
    rfl
  · intro h
    obtain ⟨ho, hb⟩ := keyOf_inj h
    exact ⟨ho.symm, hb.symm⟩

/-- The amounts of some settlements, in order. -/
def amounts (p : Settlement → Bool) (ds : List Settlement) : List Decimal :=
  (ds.filter p).map (·.deposit.amount)

/-- The values of some settlements, in order. -/
def values (p : Settlement → Bool) (ds : List Settlement) : List Decimal :=
  (ds.filter p).map (·.deposit.value)

end Settlement

open Settlement FundDeposit

/-- **Ledgers after some settlements**, all decimal operations done in order. -/
structure Settled (l₀ : Ledgers) (ds : List Settlement) (l : Ledgers) : Prop where
  /-- No two settlements share a hash. -/
  hashes : (ds.map (·.txHash)).Nodup
  /-- No hash was taken before. -/
  fresh : ∀ d ∈ ds, l₀.purchases.get? d.txHash = none
  /-- Each settlement is a purchase. -/
  purchases : ∀ d ∈ ds, ∃ t, l.purchases.get? d.txHash = some (d.purchase t)
  /-- All other purchases are from before. -/
  others : ∀ k, k ∉ ds.map (·.txHash) → l.purchases.get? k = l₀.purchases.get? k
  /-- Offerings: what is left, and what was sold. -/
  offerings : ∀ k, Option.Rel (fun o₀ o =>
    (amounts (isOf k) ds).foldlM Decimal.sub? o₀.availableSupply = some o.availableSupply ∧
      (values (isOf k) ds).foldlM Decimal.add? o₀.soldValue = some o.soldValue)
    (l₀.offerings.get? k) (l.offerings.get? k)
  /-- Fractional tokens that were no drafts: what is left. -/
  fnfts : ∀ k f₀, l₀.fnfts.get? k = some f₀ → f₀.status ≠ .draft →
    ∃ f, l.fnfts.get? k = some f ∧
      (amounts (isOfFnft l₀ k) ds).foldlM Decimal.sub? f₀.availableSupply = some f.availableSupply
  /-- Wallets with a record: those from before, and the buyers. -/
  recorded : ∀ offering wallet, l.whitelist.contains (keyOf offering wallet) = true ↔
    l₀.whitelist.contains (keyOf offering wallet) = true ∨ ∃ d ∈ ds, isBy offering wallet d
  /-- A record is that of the wallet and the offering whose key it is under. -/
  carries : ∀ offering wallet w, l.whitelist.get? (keyOf offering wallet) = some w →
    w.offeringId = offering ∧ w.wallet = wallet
  /-- What a wallet bought, as far as there is a record. -/
  bought : ∀ offering wallet,
    (amounts (isBy offering wallet) ds).foldlM Decimal.add?
      (bought l₀.whitelist (keyOf offering wallet) (·.purchasedAmount)) =
        some (bought l.whitelist (keyOf offering wallet) (·.purchasedAmount)) ∧
    (values (isBy offering wallet) ds).foldlM Decimal.add?
      (bought l₀.whitelist (keyOf offering wallet) (·.depositedValue)) =
        some (bought l.whitelist (keyOf offering wallet) (·.depositedValue))

/-! ## Entries under hashes of their own -/

section Entries

variable {α β : Type} {c₀ c c' : Collection α} {hash : β → String} {doc : β → Instant → α}
  {xs : List β} {x : β} {t : Instant}

/-- **Some entries came into a collection**, each under a hash of its own that
was free, and nothing else changed. -/
structure Entered (c₀ : Collection α) (hash : β → String) (doc : β → Instant → α) (xs : List β)
    (c : Collection α) : Prop where
  hashes : (xs.map hash).Nodup
  fresh : ∀ x ∈ xs, c₀.get? (hash x) = none
  entries : ∀ x ∈ xs, ∃ t, c.get? (hash x) = some (doc x t)
  others : ∀ k, k ∉ xs.map hash → c.get? k = c₀.get? k

/-- One more comes in under a hash that is free. -/
theorem Entered.snoc (h : Entered c₀ hash doc xs c) (hfree : c.get? (hash x) = none)
    (hget : ∀ k, c'.get? k = if k = hash x then some (doc x t) else c.get? k) :
    Entered c₀ hash doc (xs ++ [x]) c' := by
  -- Every entry so far is there, and this hash is free.
  have hnew : hash x ∉ xs.map hash := by
    intro hmem
    obtain ⟨y, hy, heq⟩ := List.mem_map.mp hmem
    obtain ⟨t', ht'⟩ := h.entries y hy
    rw [heq, hfree] at ht'
    cases ht'
  constructor
  case hashes =>
    rw [List.map_append, List.map_singleton, ← List.concat_eq_append]
    exact h.hashes.concat hnew
  case fresh =>
    intro y hy
    rcases List.mem_append.mp hy with hy | hy
    · exact h.fresh y hy
    · rw [List.mem_singleton.mp hy, ← h.others _ hnew]
      exact hfree
  case entries =>
    intro y hy
    rcases List.mem_append.mp hy with hy | hy
    · obtain ⟨t', ht'⟩ := h.entries y hy
      have hne : hash y ≠ hash x := fun heq => hnew (heq ▸ List.mem_map_of_mem hy)
      exact ⟨t', by rw [hget, if_neg hne, ht']⟩
    · rw [List.mem_singleton.mp hy]
      exact ⟨t, (hget _).trans (if_pos rfl)⟩
  case others =>
    intro k hk
    rw [List.map_append, List.map_singleton, List.mem_append, List.mem_singleton, not_or] at hk
    rw [hget, if_neg hk.2, h.others k hk.1]

end Entries

/-! ## Sums in order -/

section Sums

variable {α β γ : Type} {f : β → α → Option β} {op : β → γ → Option β} {g : α → γ} {xs : List α}
  {x : α} {p : α → Bool} {a₀ a b : β}

/-- One more counts if it is one of those that are looked at. -/
theorem foldlM_filter_snoc (h : (xs.filter p).foldlM f a₀ = some a)
    (hx : if p x then f a x = some b else b = a) :
    ((xs ++ [x]).filter p).foldlM f a₀ = some b := by
  by_cases hp : p x
  · rw [if_pos hp] at hx
    simp [List.filter_append, List.foldlM_append, hp, h, hx]
  · rw [if_neg hp] at hx
    simp [List.filter_append, hp, h, hx]

/-- The same of what is read off each of them. -/
theorem foldlM_map_filter_snoc (h : ((xs.filter p).map g).foldlM op a₀ = some a)
    (hx : if p x then op a (g x) = some b else b = a) :
    (((xs ++ [x]).filter p).map g).foldlM op a₀ = some b := by
  rw [List.foldlM_map] at h ⊢
  exact foldlM_filter_snoc h hx

end Sums

/-! ## The invariant -/

namespace Settled

variable {l₀ l l' : Ledgers} {ds : List Settlement}

/-- **Nothing is settled at the start.** -/
theorem start (hl : l₀.Keyed) : Settled l₀ [] l₀ where
  hashes := List.nodup_nil
  fresh := nofun
  purchases := nofun
  others _ _ := rfl
  offerings k := by
    cases l₀.offerings.get? k with
    | none => exact .none
    | some o => exact .some ⟨rfl, rfl⟩
  fnfts _ f₀ h _ := ⟨f₀, h, rfl⟩
  recorded offering wallet := by simp
  carries _ _ w hw := keyOf_inj (hl.whitelist _ w hw)
  bought _ _ := ⟨rfl, rfl⟩

/-- **An event that leaves the sales alone** settles nothing. -/
theorem same (h : Settled l₀ ds l) (hf : l₀.Follows l) (hs : l.SameSales l') :
    Settled l₀ ds l' where
  hashes := h.hashes
  fresh := h.fresh
  purchases := hs.purchases ▸ h.purchases
  others := hs.purchases ▸ h.others
  offerings k := by
    refine (h.offerings k).comp (hs.offerings.rel k) fun _ _ _ ho ho' => ?_
    exact ⟨ho'.availableSupply ▸ ho.1, ho'.soldValue ▸ ho.2⟩
  fnfts k f₀ hget hne := by
    obtain ⟨f, hf', hsum⟩ := h.fnfts k f₀ hget hne
    obtain ⟨g, hg, hlater⟩ := hf.fnfts.still k f₀ hget
    obtain rfl := Option.some.inj (hf'.symm.trans hg)
    obtain ⟨f', hget', hsame⟩ := hs.fnfts.still k f hf'
    -- Only the first supply of a draft is not a sale, and this one was no draft to begin with.
    refine ⟨f', hget', hsum.trans (congrArg some (hsame ?_).symm)⟩
    rcases hlater with rfl | ⟨-, hlater⟩
    · exact hne
    · exact hlater.minted hne
  recorded := hs.whitelist ▸ h.recorded
  carries := hs.whitelist ▸ h.carries
  bought := hs.whitelist ▸ h.bought

/-- **A deposit settles one more.** -/
theorem settle {p : FundDeposit} {txHash : String} {clock : Clock} {fx : List Effect}
    (h : Settled l₀ ds l) (hf : l₀.Follows l) (hl' : l'.Keyed)
    (hsettle : p.settle txHash clock l = .ok (l', fx)) :
    Settled l₀ (ds ++ [⟨txHash, p⟩]) l' := by
  obtain ⟨hfree, t, hpurchases⟩ := purchases_settle hsettle
  obtain ⟨⟨w, hw, hpurchased, hdeposited⟩, hothers⟩ := whitelist_settle hsettle
  have hentered : Entered l₀.purchases (·.txHash) purchase (ds ++ [⟨txHash, p⟩]) l'.purchases :=
    Entered.snoc ⟨h.hashes, h.fresh, h.purchases, h.others⟩ hfree hpurchases
  constructor
  case hashes => exact hentered.hashes
  case fresh => exact hentered.fresh
  case purchases => exact hentered.entries
  case others => exact hentered.others
  case offerings =>
    intro k
    refine (h.offerings k).comp (offerings_settle hsettle k) fun _ _ _ ho ho' => ?_
    refine ⟨foldlM_map_filter_snoc ho.1 ?_, foldlM_map_filter_snoc ho.2 ?_⟩
    all_goals
      simp only [isOf, decide_eq_true_eq]
      split at ho'
      · next hk => simp only [if_pos hk, ho']
      · next hk => simp only [if_neg hk, ho']
  case fnfts =>
    intro k f₀ hget hne
    obtain ⟨f, hf', hsum⟩ := h.fnfts k f₀ hget hne
    obtain ⟨offering, hoffering, hdrawn⟩ := fnfts_settle hsettle
    obtain ⟨o₀, ho₀, hlater⟩ := hf.offerings.before hoffering
    -- An offering names the same fractional token all along.
    have hnames : (l₀.offerings.get? p.offeringId).map (·.fnftId) = some offering.fnftId := by
      rw [ho₀]
      rcases hlater with rfl | ⟨-, hlater⟩
      · rfl
      · exact congrArg some hlater.fnftId_eq.symm
    obtain ⟨f', hget', hdraw⟩ := (hf' ▸ hdrawn k).of_some
    refine ⟨f', hget', foldlM_map_filter_snoc hsum ?_⟩
    simpa only [isOfFnft, hnames, Option.some.injEq, decide_eq_true_eq] using hdraw
  case recorded =>
    intro offering wallet
    have hiff := h.recorded offering wallet
    by_cases hk : keyOf offering wallet = p.whitelistKey
    · have hby : isBy offering wallet ⟨txHash, p⟩ = true := isBy_iff.mpr hk
      have hthere : l'.whitelist.contains (keyOf offering wallet) = true :=
        Collection.contains_iff.mpr ⟨w, hk ▸ hw⟩
      exact ⟨fun _ => .inr ⟨_, List.mem_append_right _ (.head _), hby⟩, fun _ => hthere⟩
    · have hby : ¬ isBy offering wallet ⟨txHash, p⟩ = true := isBy_iff.not.mpr hk
      rw [Collection.contains, hothers _ hk, ← Collection.contains, hiff]
      simp [List.mem_append, or_and_right, exists_or, hby]
  case carries =>
    intro offering wallet a ha
    exact keyOf_inj (hl'.whitelist _ a ha)
  case bought =>
    intro offering wallet
    obtain ⟨hamounts, hvalues⟩ := h.bought offering wallet
    by_cases hk : keyOf offering wallet = p.whitelistKey
    · have hby : isBy offering wallet ⟨txHash, p⟩ = true := isBy_iff.mpr hk
      rw [← hk] at hw hpurchased hdeposited
      refine ⟨foldlM_map_filter_snoc hamounts ?_, foldlM_map_filter_snoc hvalues ?_⟩
      · rw [if_pos hby, bought_of_get? hw]
        exact hpurchased
      · rw [if_pos hby, bought_of_get? hw]
        exact hdeposited
    · have hby : ¬ isBy offering wallet ⟨txHash, p⟩ = true := isBy_iff.not.mpr hk
      refine ⟨foldlM_map_filter_snoc hamounts ?_, foldlM_map_filter_snoc hvalues ?_⟩ <;>
        rw [if_neg hby, bought_congr (hothers _ hk)]

end Settled

/-! ## Runs -/

namespace InboundEvent

variable {raw : InboundEvent} {e : Event}

theorem settlement?_of_normalize {o : Origin} {p : FundDeposit} {txHash : String}
    (h : raw.normalize = .ok (some ⟨o, .deposit p⟩)) (hhash : o.txHash = some txHash) :
    raw.settlement? = some ⟨txHash, p⟩ := by
  simp only [settlement?, h, hhash, Option.map_some]

end InboundEvent

/-- The deposits among some events. -/
def deposits {ι : Type} (raws : ι → InboundEvent) (is : List ι) : List InboundEvent :=
  (is.map raws).filter (·.eventName = "Deposit")

/-- **A log settles its deposits**, every one of them. -/
theorem Yields.settled {ι : Type} {verify : Bool} {raws : ι → InboundEvent} {l₀ l : Ledgers}
    {log : List (Commitment ι)} (hl : l₀.Keyed) (h : Yields verify raws l₀ log l) :
    ∃ ds, (deposits raws (log.map (·.of))).map (·.settlement?) = ds.map some ∧
      Settled l₀ ds l := by
  induction h with
  | nil => exact ⟨[], rfl, .start hl⟩
  | @snoc log l x e c l' fx hlog hraw hlead hc ih =>
    obtain ⟨ds, hds, hsettled⟩ := ih
    have hfollows := hlog.follows hl
    have hcommits := Event.commits_of_leads hlead
    have hchange : e.Changes x.clock l l' fx := ⟨c, hcommits, hc⟩
    have hl' := (hchange.follows (hfollows.keyed hl)).keyed (hfollows.keyed hl)
    have hname := InboundEvent.event_of_normalize hraw
    cases hkind : e.payload.sells with
    | true =>
      obtain ⟨o, p⟩ := e
      cases hcommits with
      | @deposit p txHash hp =>
        obtain ⟨hhash, -⟩ := FundDeposit.of_settleable hp
        refine ⟨ds ++ [⟨txHash, p⟩], ?_, hsettled.settle hfollows hl' hc⟩
        simpa [deposits, ← hname, Payload.event,
          InboundEvent.settlement?_of_normalize hraw hhash] using hds
      | _ => cases hkind
    | false =>
      refine ⟨ds, ?_, hsettled.same hfollows (hchange.sameSales hkind)⟩
      have hother : (raws x.of).eventName ≠ "Deposit" := by
        rw [← hname]
        generalize e.payload = p at hkind
        cases p <;> simp [Payload.event, Payload.sells] at hkind ⊢
      simpa [deposits, hother] using hds

namespace Traffic

variable {ι : Type} [DecidableEq ι] {settings : DispatchSettings} {raws : ι → InboundEvent}
  {l₀ : Ledgers} {t : Traffic ι}

/-- **Every run settles exactly its deposits.** The deposits that were applied
all have a settlement, and these account for the sales of the ledgers. -/
theorem settled_of_run (hl : l₀.Keyed) (h : Run settings raws l₀ t) :
    ∃ ds, (deposits raws t.applied).map (·.settlement?) = ds.map some ∧
      Settled l₀ ds t.ledgers :=
  (h.sound hl).yields.settled hl

/-- A deposit, delivered twice in different spellings. -/
def depositTwice (again : Bool) : InboundEvent where
  recordId := "record"
  eventName := "Deposit"
  chain := 1
  contract := default
  txHash := some (if again then " 0Xab" else "0xAB")
  metadata := .obj
    [("iaoEventId", .str "offering"),
      ("buyer", .str "0x0000000000000000000000000000000000000001"),
      ("amount", .str "10"), ("value", .str "2.5")]

theorem settled_depositTwice :
    ∃ t, Run ⟨false, 1⟩ depositTwice sampleLedgers t ∧ t.applied = [false] ∧
      ∃ ds, (deposits depositTwice t.applied).map (·.settlement?) = ds.map some ∧
        Settled sampleLedgers ds t.ledgers := by
  obtain ⟨t, hrun, happlied⟩ :=
    @Host.Quiet.run_of_reports _ _ _ _ depositTwice ⟨false, 1⟩ ⟨sampleLedgers, [], []⟩
      (Rerun.quiet_host fun _ => true) [false, true] (by decide) (fun again => !again)
      (by decide +kernel)
  exact ⟨t, hrun, happlied, settled_of_run keyed_sampleLedgers hrun⟩

end Traffic

end ChainLedger
