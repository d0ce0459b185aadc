import ChainLedger.Proofs.Ledger.Revision
import ChainLedger.Ledger.Revenue

/-!
# What no event undoes

`Evolving.becomes` says of each kind of document how events may change it
over any number of writes: keys and terms stay, custody moves forward, a
purchase never changes, a revenue entry that is withdrawn never changes
again. A document that is not as it was has a later watermark (`Later`), so
one with the watermark that was read is the document that was read
(`Later.eq_of_updatedAt`).

`Ledgers.Follows` says this of all collections at once. It is reflexive and
transitive, and it keeps every document under its own key.
-/

namespace ChainLedger

/-! ## Documents -/

/-- Documents, and what may become of them. -/
class Evolving (α : Type) [Document α] where
  /-- A document may become another one by events. -/
  becomes : α → α → Prop
  trans : ∀ {a b c}, becomes a b → becomes b c → becomes a c
  key_eq : ∀ {a b}, becomes a b → Document.key b = Document.key a

/-- What may become of an asset: its custody moves forward. -/
structure Asset.Becomes (a b : Asset) : Prop where
  id : b.id = a.id
  ownerId : b.ownerId = a.ownerId
  custody : Pipeline.place a.custody ≤ Pipeline.place b.custody

instance : Evolving Asset where
  becomes := Asset.Becomes
  trans h h' := ⟨h'.id.trans h.id, h'.ownerId.trans h.ownerId, Nat.le_trans h.custody h'.custody⟩
  key_eq h := h.id

/-- What may become of a token: it is a draft no more. -/
structure Nft.Becomes (a b : Nft) : Prop where
  tokenId : b.tokenId = a.tokenId
  assetId : b.assetId = a.assetId
  status : b.status ≠ .draft

instance : Evolving Nft where
  becomes := Nft.Becomes
  trans h h' := ⟨h'.tokenId.trans h.tokenId, h'.assetId.trans h.assetId, h'.status⟩
  key_eq h := h.tokenId

/-- A fractional token is closed: inactive or merged. -/
def FnftStatus.isClosed : FnftStatus → Bool
  | .inactive => true
  | .merged => true
  | _ => false

/-- What may become of a fractional token: one that was minted stays so, and
one that is closed stays as it is. -/
structure Fnft.Becomes (a b : Fnft) : Prop where
  id : b.id = a.id
  nftIds : b.nftIds = a.nftIds
  minted : a.status ≠ .draft → b.status ≠ .draft
  closed : a.status.isClosed → b.status = a.status

/-- One that is not closed may get any status but that of a draft. -/
theorem Fnft.Becomes.of_not_closed {a b : Fnft} (hid : b.id = a.id) (hnftIds : b.nftIds = a.nftIds)
    (ha : a.status.isClosed = false) (hb : b.status ≠ .draft) : a.Becomes b := by
  refine ⟨hid, hnftIds, fun _ => hb, fun hclosed => ?_⟩
  rw [ha] at hclosed
  cases hclosed

instance : Evolving Fnft where
  becomes := Fnft.Becomes
  trans h h' :=
    ⟨h'.id.trans h.id, h'.nftIds.trans h.nftIds, fun ha => h'.minted (h.minted ha),
      fun ha => (h'.closed (h.closed ha ▸ ha)).trans (h.closed ha)⟩
  key_eq h := h.id

/-- The terms of an offering: all of it that no event changes. -/
def Offering.terms (o : Offering) : Offering :=
  { o with
    status := .active, onChainStatus := .draft, availableSupply := .zero, soldValue := .zero,
    revenue :=
      { o.revenue with
        status := .pending, finalizedBy := none, finalizedOn := none,
        approvedTransactions := [], platformCommission := .zero },
    updatedAt := .epoch }

/-- What may become of an offering: the terms stay, what is inactive, on its
chain or finalized stays so, and no approval is forgotten. -/
structure Offering.Becomes (a b : Offering) : Prop where
  terms : b.terms = a.terms
  inactive : a.status = .inactive → b.status = .inactive
  onChain : a.onChainStatus = .onChain → b.onChainStatus = .onChain
  finalized : a.revenue.status ≠ .pending → b.revenue.status = a.revenue.status
  approved : a.revenue.approvedTransactions <+: b.revenue.approvedTransactions

namespace Offering.Becomes

variable {a b : Offering}

theorem id_eq (h : a.Becomes b) : b.id = a.id := by
  show b.terms.id = a.terms.id
  rw [h.terms]

theorem fnftId_eq (h : a.Becomes b) : b.fnftId = a.fnftId := by
  show b.terms.fnftId = a.terms.fnftId
  rw [h.terms]

end Offering.Becomes

instance : Evolving Offering where
  becomes := Offering.Becomes
  trans h h' :=
    ⟨h'.terms.trans h.terms, fun ha => h'.inactive (h.inactive ha),
      fun ha => h'.onChain (h.onChain ha),
      fun ha => (h'.finalized (h.finalized ha ▸ ha)).trans (h.finalized ha),
      h.approved.trans h'.approved⟩
  key_eq h := h.id_eq

instance : Evolving Purchase where
  becomes _ _ := False
  trans h _ := h.elim
  key_eq h := h.elim

/-- What may become of what a wallet bought: it stays that of the wallet. -/
structure WhitelistEntry.Becomes (a b : WhitelistEntry) : Prop where
  offeringId : b.offeringId = a.offeringId
  wallet : b.wallet = a.wallet

instance : Evolving WhitelistEntry where
  becomes := WhitelistEntry.Becomes
  trans h h' := ⟨h'.offeringId.trans h.offeringId, h'.wallet.trans h.wallet⟩
  key_eq h := by
    show keyOf _ _ = keyOf _ _
    rw [h.offeringId, h.wallet]

/-- What may become of a revenue entry: account and rate stay, and only one
that is open changes. -/
structure RevenueEntry.Becomes (a b : RevenueEntry) : Prop where
  id : b.id = a.id
  account : b.account = a.account
  rate : b.rateAtApproval = a.rateAtApproval
  wasOpen : a.isWithdrawn = false

instance : Evolving RevenueEntry where
  becomes := RevenueEntry.Becomes
  trans h h' :=
    ⟨h'.id.trans h.id, h'.account.trans h.account, h'.rate.trans h.rate, h.wasOpen⟩
  key_eq h := h.id

/-- What may become of an item of a request: it may be paid out. -/
structure WithdrawalItem.Becomes (a b : WithdrawalItem) : Prop where
  currency : b.currency = a.currency
  offeringIds : b.offeringIds = a.offeringIds
  amount : b.amount = a.amount
  paid : a.txHash.isSome → b.txHash.isSome

theorem WithdrawalItem.Becomes.trans {a b c : WithdrawalItem} (h : a.Becomes b)
    (h' : b.Becomes c) : a.Becomes c :=
  ⟨h'.currency.trans h.currency, h'.offeringIds.trans h.offeringIds,
    h'.amount.trans h.amount, fun ha => h'.paid (h.paid ha)⟩

/-- What may become of a request: its items are paid out. -/
structure WithdrawalRequest.Becomes (a b : WithdrawalRequest) : Prop where
  id : b.id = a.id
  beneficiaryId : b.beneficiaryId = a.beneficiaryId
  recipient : b.recipient = a.recipient
  items : List.Forall₂ WithdrawalItem.Becomes a.items b.items

/-- Over any number of writes, item by item. -/
theorem WithdrawalItem.forall₂_becomes_trans {as bs cs : List WithdrawalItem}
    (h : List.Forall₂ Becomes as bs) (h' : List.Forall₂ Becomes bs cs) :
    List.Forall₂ Becomes as cs := by
  induction h generalizing cs with
  | nil => exact h'
  | cons hab _ ih => cases h' with | cons hbc h' => exact .cons (hab.trans hbc) (ih h')

instance : Evolving WithdrawalRequest where
  becomes := WithdrawalRequest.Becomes
  trans h h' :=
    ⟨h'.id.trans h.id, h'.beneficiaryId.trans h.beneficiaryId, h'.recipient.trans h.recipient,
      WithdrawalItem.forall₂_becomes_trans h.items h'.items⟩
  key_eq h := h.id

instance : Evolving Admin where
  becomes a b := b.wallet = a.wallet
  trans h h' := h'.trans h
  key_eq h := congrArg Address.checksummed h

/-- What may become of a pool: it comes into being on its chain, once. -/
structure TieringPool.Becomes (a b : TieringPool) : Prop where
  poolId : b.poolId = a.poolId
  wasDraft : a.status = .draft
  onChain : b.status = .onChain

instance : Evolving TieringPool where
  becomes := TieringPool.Becomes
  trans h h' := ⟨h'.poolId.trans h.poolId, h.wasDraft, h'.onChain⟩
  key_eq h := h.poolId

/-- What may become of a stake: it stays that of the account. -/
structure StakePosition.Becomes (a b : StakePosition) : Prop where
  poolId : b.poolId = a.poolId
  account : b.account = a.account

instance : Evolving StakePosition where
  becomes := StakePosition.Becomes
  trans h h' := ⟨h'.poolId.trans h.poolId, h'.account.trans h.account⟩
  key_eq h := by
    show keyOf _ _ = keyOf _ _
    rw [h.poolId, h.account]

instance : Evolving StakeReceipt where
  becomes _ _ := False
  trans h _ := h.elim
  key_eq h := h.elim

/-! ## Later documents -/

theorem Instant.lt_trans {t u v : Instant} (h : t < u) (h' : u < v) : t < v := by
  rw [Instant.lt_iff] at *
  omega

theorem Instant.lt_irrefl (t : Instant) : ¬ t < t := by
  rw [Instant.lt_iff]
  omega

section Later

variable {α : Type} [Document α] [Evolving α] {a b c : α}

/-- **A document at a later time**: it is as it was, or it was written. -/
def Later (a b : α) : Prop :=
  b = a ∨ (Document.updatedAt a < Document.updatedAt b ∧ Evolving.becomes a b)

theorem Later.refl (a : α) : Later a a := .inl rfl

theorem Later.trans (h : Later a b) (h' : Later b c) : Later a c := by
  rcases h with rfl | ⟨ht, hb⟩
  · exact h'
  · rcases h' with rfl | ⟨ht', hb'⟩
    · exact .inr ⟨ht, hb⟩
    · exact .inr ⟨Instant.lt_trans ht ht', Evolving.trans hb hb'⟩

theorem Later.key_eq (h : Later a b) : Document.key b = Document.key a := by
  rcases h with rfl | ⟨-, h⟩
  · rfl
  · exact Evolving.key_eq h

/-- **A watermark never repeats**: a document with the one that was read is
the one that was read. -/
theorem Later.eq_of_updatedAt (h : Later a b)
    (ht : Document.updatedAt b = Document.updatedAt a) : b = a := by
  rcases h with rfl | ⟨hlt, -⟩
  · rfl
  · exact absurd (ht ▸ hlt) (Instant.lt_irrefl _)

/-- A document that is written is a later one. -/
theorem Later.of_stamp {t : Instant} (ht : Document.updatedAt a < t)
    (h : Evolving.becomes a (Document.stamp t b)) : Later a (Document.stamp t b) :=
  .inr ⟨by rwa [Document.updatedAt_stamp], h⟩

end Later

/-! ## Later collections -/

namespace Collection

variable {α : Type} [Document α] [Evolving α] {c c' c'' : Collection α} {now : Readings} {b : α}

/-- A collection at a later time, when documents may have come in. -/
structure Grows (c c' : Collection α) : Prop where
  still : Extends Later c c'
  keyed : c.Keyed → c'.Keyed

theorem Grows.refl : Grows c c := ⟨.refl Later.refl, id⟩

theorem Grows.trans (h : Grows c c') (h' : Grows c' c'') : Grows c c'' :=
  ⟨h.still.trans Later.trans h'.still, fun hc => h'.keyed (h.keyed hc)⟩

/-- What holds of a document holds for ever if no event undoes it. -/
theorem Grows.holds {k : String} {P : α → Prop} (h : Grows c c')
    (hP : ∀ {a b}, Evolving.becomes a b → P a → P b) (hc : c.Holds k P) : c'.Holds k P := by
  refine h.still.holds (fun hab ha => ?_) hc
  rcases hab with rfl | ⟨-, hab⟩
  · exact ha
  · exact hP hab ha

/-- A collection whose documents were revised is a later one. -/
theorem Revises.grows (h : Revises Later c c') : Grows c c' := by
  refine ⟨h.still, fun hc k b hb => ?_⟩
  obtain ⟨a, ha, hab⟩ := h.before hb
  rw [hab.key_eq, hc k a ha]

/-- A collection after an insertion is a later one. -/
theorem grows_insert (h : c.insert now b = .ok c') : Grows c c' := by
  refine ⟨extends_insert h Later.refl, fun hc k a ha => ?_⟩
  obtain ⟨-, t, -, hget⟩ := get?_insert h
  rw [hget] at ha
  split at ha
  · next hk => rw [← Option.some.inj ha, Document.key_stamp, hk]
  · exact hc k a ha

end Collection

/-! ## Later ledgers -/

/-- **Every document is under its own key.** -/
structure Ledgers.Keyed (l : Ledgers) : Prop where
  assets : l.assets.Keyed
  nfts : l.nfts.Keyed
  fnfts : l.fnfts.Keyed
  offerings : l.offerings.Keyed
  purchases : l.purchases.Keyed
  whitelist : l.whitelist.Keyed
  revenue : l.revenue.Keyed
  withdrawals : l.withdrawals.Keyed
  admins : l.admins.Keyed
  pools : l.pools.Keyed
  stakes : l.stakes.Keyed
  stakeReceipts : l.stakeReceipts.Keyed

open Collection in
/-- **The ledgers that a seed makes** have every document under its own key. -/
theorem Seed.keyed_ledgers (s : Seed) : s.ledgers.Keyed where
  assets := keyed_ofList _
  nfts := keyed_ofList _
  fnfts := keyed_ofList _
  offerings := keyed_ofList _
  purchases := keyed_empty
  whitelist := keyed_ofList _
  revenue := keyed_ofList _
  withdrawals := keyed_ofList _
  admins := keyed_ofList _
  pools := keyed_ofList _
  stakes := keyed_empty
  stakeReceipts := keyed_empty

open Collection in
/-- **Ledgers at a later time.** Documents come into five of the collections
alone. -/
structure Ledgers.Follows (l l' : Ledgers) : Prop where
  assets : Revises Later l.assets l'.assets
  nfts : Revises Later l.nfts l'.nfts
  fnfts : Revises Later l.fnfts l'.fnfts
  offerings : Revises Later l.offerings l'.offerings
  purchases : Grows l.purchases l'.purchases
  whitelist : Grows l.whitelist l'.whitelist
  revenue : Grows l.revenue l'.revenue
  withdrawals : Revises Later l.withdrawals l'.withdrawals
  admins : Revises Later l.admins l'.admins
  pools : Revises Later l.pools l'.pools
  stakes : Grows l.stakes l'.stakes
  stakeReceipts : Grows l.stakeReceipts l'.stakeReceipts

namespace Ledgers.Follows

open Collection

variable {l l' l'' : Ledgers}

theorem refl (l : Ledgers) : l.Follows l where
  assets := .refl Later.refl
  nfts := .refl Later.refl
  fnfts := .refl Later.refl
  offerings := .refl Later.refl
  purchases := .refl
  whitelist := .refl
  revenue := .refl
  withdrawals := .refl Later.refl
  admins := .refl Later.refl
  pools := .refl Later.refl
  stakes := .refl
  stakeReceipts := .refl

theorem trans (h : l.Follows l') (h' : l'.Follows l'') : l.Follows l'' where
  assets := h.assets.trans Later.trans h'.assets
  nfts := h.nfts.trans Later.trans h'.nfts
  fnfts := h.fnfts.trans Later.trans h'.fnfts
  offerings := h.offerings.trans Later.trans h'.offerings
  purchases := h.purchases.trans h'.purchases
  whitelist := h.whitelist.trans h'.whitelist
  revenue := h.revenue.trans h'.revenue
  withdrawals := h.withdrawals.trans Later.trans h'.withdrawals
  admins := h.admins.trans Later.trans h'.admins
  pools := h.pools.trans Later.trans h'.pools
  stakes := h.stakes.trans h'.stakes
  stakeReceipts := h.stakeReceipts.trans h'.stakeReceipts

/-- Documents stay under their own keys. -/
theorem keyed (h : l.Follows l') (hl : l.Keyed) : l'.Keyed where
  assets := h.assets.grows.keyed hl.assets
  nfts := h.nfts.grows.keyed hl.nfts
  fnfts := h.fnfts.grows.keyed hl.fnfts
  offerings := h.offerings.grows.keyed hl.offerings
  purchases := h.purchases.keyed hl.purchases
  whitelist := h.whitelist.keyed hl.whitelist
  revenue := h.revenue.keyed hl.revenue
  withdrawals := h.withdrawals.grows.keyed hl.withdrawals
  admins := h.admins.grows.keyed hl.admins
  pools := h.pools.grows.keyed hl.pools
  stakes := h.stakes.keyed hl.stakes
  stakeReceipts := h.stakeReceipts.keyed hl.stakeReceipts

end Ledgers.Follows

end ChainLedger
