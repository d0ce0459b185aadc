import ChainLedger.Proofs.Transition.Lifecycle

/-!
# What an event tells the world

Some things come about once and are not taken back: a fractional token is
minted, an offering is created, deactivated or rejected, a request becomes
successful (`Milestone`). The effects that tell of one are fired by the event
that brings it about, once each, and by no other (`Event.Changes.once`). Beside
these there are the notices of deposits and what is told of approvals;
`Payload.Tells` lists the effects of every kind of event.
-/

namespace ChainLedger

open Collection

/-! ## Kinds of effects -/

namespace Effect

/-- A fractional token is listed. -/
def lists (fnft : String) : Effect → Bool
  | .listCoin id .. => id = fnft
  | _ => false

/-- An event of a topic is told of the record with an id. -/
def tells (topic event id : String) : Effect → Bool
  | .emit t e payload => t = topic ∧ e = event ∧ payload.getText? "id" = some id
  | _ => false

/-- A mail is sent from a template, about the record that a field names. -/
def mails (template field id : String) : Effect → Bool
  | .email t _ params => t = template ∧ params.getText? field = some id
  | _ => false

/-- A fee of an offering is told. -/
def notifiesFee (offering : String) : Effect → Bool
  | .notifyFee id .. => id = offering
  | _ => false

/-- A deposit is told, of whatever offering. -/
def tellsDeposit : Effect → Bool
  | .emit topic event _ => topic = "iao-event" ∧ event = "deposit"
  | _ => false

/-- **Of some effects one is of a kind** if something came about that did not
hold before, and otherwise none is. -/
structure Once (p : Effect → Bool) (fx : List Effect) (before after : Prop) : Prop where
  once : after → ¬ before → fx.countP p = 1
  never : (after → before) → fx.countP p = 0

/-- What comes about and stays comes about once. -/
theorem Once.append {p : Effect → Bool} {fx fx' : List Effect} {P Q R : Prop}
    (h : Once p fx P Q) (h' : Once p fx' Q R) (hPQ : P → Q) (hQR : Q → R) :
    Once p (fx ++ fx') P R where
  once hr hp := by
    rw [List.countP_append]
    by_cases hq : Q
    · rw [h.once hq hp, h'.never fun _ => hq]
    · rw [h.never fun hq' => absurd hq' hq, h'.once hr hq]
  never hrp := by
    rw [List.countP_append, h.never fun hq => hrp (hQR hq), h'.never fun hr => hPQ (hrp hr)]

end Effect

open Effect

/-! ## Milestones -/

/-- **Something that comes about once.** -/
inductive Milestone
  /-- A fractional token is minted. -/
  | minted (fnft : String)
  /-- An offering is on its chain. -/
  | created (offering : String)
  /-- An offering is inactive. -/
  | deactivated (offering : String)
  /-- The revenue of an offering is rejected. -/
  | rejected (offering : String)
  /-- All of a request is paid out. -/
  | successful (request : String)
deriving DecidableEq

namespace Milestone

/-- It has come about. -/
def Reached : Milestone → Ledgers → Prop
  | minted k, l => l.fnfts.Holds k (·.status ≠ .draft)
  | created k, l => l.offerings.Holds k (·.onChainStatus = .onChain)
  | deactivated k, l => l.offerings.Holds k (·.status = .inactive)
  | rejected k, l => l.offerings.Holds k (·.revenue.status = .rejected)
  | successful k, l => l.withdrawals.Holds k (·.status = .successful)

/-- The kinds of effects that tell of it. -/
def news : Milestone → List (Effect → Bool)
  | minted k => [lists k, tells "fnft" "minted" k]
  | created k => [tells "iao-event" "created" k]
  | deactivated k => [tells "iao-event" "deactivated" k]
  | rejected k => [mails "revenue-rejected" "offeringId" k]
  | successful k => [mails "withdrawal-successful" "requestId" k, tells "withdrawal" "successful" k]

variable {m : Milestone} {l l' : Ledgers} {e : Event} {p : Payload} {w : Writing}

/-- **What has come about is not taken back.** -/
theorem Reached.edges (h : m.Reached l) (he : e.Edges l l') : m.Reached l' := by
  cases m with
  | minted k =>
    refine he.fnfts.still.holds (fun {a b} hab ha => ?_) h
    generalize a.status = s, b.status = s' at hab ha
    cases hab with
    | refl => exact ha
    | single hab => cases hab <;> exact nofun
  | created k =>
    refine he.offerings.still.holds (fun {a b} hab ha => ?_) h
    have hab := hab.onChainStatus
    rw [ha] at hab
    generalize b.onChainStatus = s' at hab
    cases hab with
    | refl => rfl
    | single hab => cases hab
  | deactivated k =>
    refine he.offerings.still.holds (fun {a b} hab ha => ?_) h
    have hab := hab.status
    rw [ha] at hab
    generalize b.status = s' at hab
    cases hab with
    | refl => rfl
    | single hab => cases hab
  | rejected k =>
    refine he.offerings.still.holds (fun {a b} hab ha => ?_) h
    have hab := hab.revenue
    rw [ha] at hab
    generalize b.revenue.status = s' at hab
    cases hab with
    | refl => rfl
    | single hab => cases hab
  | successful k =>
    refine he.withdrawals.still.holds (fun {a b} hab ha => ?_) h
    rcases hab with rfl | ⟨-, hclaimed⟩
    · exact ha
    · rcases hclaimed.wasOpen with hopen | hopen <;> rw [ha] at hopen <;> cases hopen

end Milestone

/-- The milestone that an event of a kind may bring about. -/
def Payload.milestone? : Payload → Option Milestone
  | .mintFnft p => some (.minted p.fnftId)
  | .createOffering p => some (.created p.offeringId)
  | .deactivateOffering p => some (.deactivated p.offeringId)
  | .rejectRevenue p => some (.rejected p.offeringId)
  | .claimRevenue p => some (.successful p.requestId)
  | _ => none

/-- What holds of a document held before, or the document was written. -/
theorem Collection.Rewrites.of_holds {α : Type} [Document α] {w : Rewrite α} {c c' : Collection α}
    {k : String} {P : α → Prop} (h : Rewrites w c c') (hP : c'.Holds k P) :
    c.Holds k P ∨ k ∈ w.keys ∧ ∃ a t, c.get? k = some a ∧ P (Document.stamp t (w.write a)) := by
  obtain ⟨b, hb, hPb⟩ := hP
  obtain ⟨a, ha, hab⟩ := (hb ▸ h k).to_some
  split at hab
  · next hk =>
    obtain ⟨t, rfl⟩ := hab
    exact .inr ⟨hk, a, t, ha, hPb⟩
  · exact .inl ⟨a, ha, hab ▸ hPb⟩

/-- **A milestone comes about by the kind of event that it is of.** -/
theorem Payload.Writes.milestone {m : Milestone} {l l' : Ledgers} {p : Payload} {w : Writing}
    (hw : p.Writes l w) (h : w.Between l l') (hm : m.Reached l') :
    m.Reached l ∨ p.milestone? = some m := by
  cases m with
  | minted k =>
    refine (h.fnfts.of_holds hm).elim .inl fun ⟨hk, a, t, ha, hstatus⟩ => ?_
    cases hw with
    | mintFnft => exact .inr (congrArg (some ∘ Milestone.minted) (List.mem_singleton.mp hk).symm)
    | deactivateFnft hfnft hactive | mergeFnft hfnft hactive =>
      obtain rfl := eq_of_mem_singleton hfnft hk ha
      exact .inl ⟨a, ha, by simp [hactive]⟩
    | deposit => exact .inl ⟨a, ha, hstatus⟩
    | _ => exact absurd hk List.not_mem_nil
  | created k =>
    refine (h.offerings.of_holds hm).elim .inl fun ⟨hk, a, t, ha, hstatus⟩ => ?_
    cases hw with
    | createOffering =>
      exact .inr (congrArg (some ∘ Milestone.created) (List.mem_singleton.mp hk).symm)
    | _ => exact .inl ⟨a, ha, hstatus⟩
  | deactivated k =>
    refine (h.offerings.of_holds hm).elim .inl fun ⟨hk, a, t, ha, hstatus⟩ => ?_
    cases hw with
    | deactivateOffering =>
      exact .inr (congrArg (some ∘ Milestone.deactivated) (List.mem_singleton.mp hk).symm)
    | _ => exact .inl ⟨a, ha, hstatus⟩
  | rejected k =>
    refine (h.offerings.of_holds hm).elim .inl fun ⟨hk, a, t, ha, hstatus⟩ => ?_
    cases hw with
    | rejectRevenue =>
      exact .inr (congrArg (some ∘ Milestone.rejected) (List.mem_singleton.mp hk).symm)
    | approveRevenue => cases hstatus
    | _ => exact .inl ⟨a, ha, hstatus⟩
  | successful k =>
    refine (h.withdrawals.of_holds hm).elim .inl fun ⟨hk, a, t, ha, hstatus⟩ => ?_
    cases hw with
    | claimRevenue =>
      exact .inr (congrArg (some ∘ Milestone.successful) (List.mem_singleton.mp hk).symm)
    | _ => exact absurd hk List.not_mem_nil

/-! ## What is told of each kind -/

/-- The kinds of events that nothing is told of. -/
def Payload.isSilent : Payload → Bool
  | .mintFnft _ => false
  | .createOffering _ => false
  | .deactivateOffering _ => false
  | .rejectRevenue _ => false
  | .claimRevenue _ => false
  | .deposit _ => false
  | .approveRevenue _ => false
  | _ => true

theorem Payload.milestone?_of_isSilent {p : Payload} (h : p.isSilent = true) :
    p.milestone? = none := by
  cases p <;> first | rfl | cases h

/-- A milestone is reached in between. -/
structure Milestone.Passed (m : Milestone) (l l' : Ledgers) : Prop where
  before : ¬ m.Reached l
  after : m.Reached l'

open Milestone in
/-- **What is told of an event of a kind**, and what happened then. -/
inductive Payload.Tells (o : Origin) (l l' : Ledgers) : Payload → List Effect → Prop
  | mintFnft {p supply} (h : (minted p.fnftId).Passed l l') :
      Tells o l l' (.mintFnft p) (p.effects o supply)
  | createOffering {p} (h : (created p.offeringId).Passed l l') :
      Tells o l l' (.createOffering p) [p.notice "created"]
  | deactivateOffering {p} (h : (deactivated p.offeringId).Passed l l') :
      Tells o l l' (.deactivateOffering p) [p.notice "deactivated"]
  | rejectRevenue {p beneficiaryId} (h : (rejected p.offeringId).Passed l l') :
      Tells o l l' (.rejectRevenue p)
        [.email "revenue-rejected" beneficiaryId (.obj [("offeringId", .str p.offeringId)])]
  | claimRevenue {p request} (hbefore : ¬ (successful p.requestId).Reached l)
      (hafter : (successful p.requestId).Reached l' ↔ request.status = .successful) :
      Tells o l l' (.claimRevenue p) (p.effects request)
  | deposit {p rest} : Tells o l l' (.deposit p) [p.notice rest]
  | approveRevenue {p plan} (h : p.plan o l = .ok plan) :
      Tells o l l' (.approveRevenue p) (RevenueApproval.effects plan)
  | silent {p} (h : p.isSilent = true) : Tells o l l' p []

/-- What does not hold of the document under a key. -/
theorem Collection.not_holds {α : Type} {c : Collection α} {k : String} {a : α} {P : α → Prop}
    (ha : c.get? k = some a) (hP : ¬ P a) : ¬ c.Holds k P := by
  rintro ⟨b, hb, hPb⟩
  obtain rfl := Option.some.inj (ha.symm.trans hb)
  exact hP hPb

/-- **Every event that is applied** tells what its kind tells. -/
theorem Event.Changes.tells {e : Event} {l l' : Ledgers} {clock : Clock} {fx : List Effect}
    (h : e.Changes clock l l' fx) : e.payload.Tells e.origin l l' fx := by
  obtain ⟨c, hc, h⟩ := h
  generalize e.payload = p at hc
  cases hc with
  | setAdmin =>
    obtain ⟨-, -, -, -, -, -, rfl⟩ := AdminChange.of_apply h
    exact .silent rfl
  | mintNft =>
    obtain ⟨-, -, -, -, -, -, -, -, rfl⟩ := TokenRef.of_mint h
    exact .silent rfl
  | mintFnft =>
    obtain ⟨fnft, _, _, _, hfnft, hdraft, hfnfts, -, -, rfl, rfl⟩ := FnftMinted.of_mint h
    exact .mintFnft ⟨not_holds hfnft (not_not.mpr hdraft), holds_update hfnfts fun _ _ _ => nofun⟩
  | createOffering =>
    obtain ⟨_, _, _, hoffering, -, hdraft, hofferings, -, rfl, rfl⟩ := OfferingRef.of_create h
    exact .createOffering
      ⟨not_holds hoffering (by rw [hdraft]; nofun), holds_update hofferings fun _ _ _ => rfl⟩
  | deactivateFnft =>
    obtain ⟨-, -, -, -, -, -, -, -, -, -, rfl⟩ := FnftRef.of_deactivate h
    exact .silent rfl
  | deactivateOffering =>
    obtain ⟨_, _, hoffering, hactive, hofferings, rfl, rfl⟩ := OfferingRef.of_deactivate h
    exact .deactivateOffering
      ⟨not_holds hoffering (by rw [hactive]; nofun), holds_update hofferings fun _ _ _ => rfl⟩
  | depositNft =>
    obtain ⟨-, -, -, -, -, -, rfl⟩ := AssetRef.of_takeIn h
    exact .silent rfl
  | deposit =>
    obtain ⟨-, -, rfl⟩ := FundDeposit.of_settle h
    exact .deposit
  | mergeFnft =>
    obtain ⟨-, -, -, -, -, -, -, -, rfl⟩ := FnftRef.of_merge h
    exact .silent rfl
  | approveRevenue hplan =>
    obtain ⟨-, -, -, -, -, -, -, -, rfl⟩ := RevenueApproval.of_apply h
    exact .approveRevenue hplan
  | rejectRevenue =>
    obtain ⟨_, _, hoffering, hpending, hofferings, rfl, rfl⟩ := OfferingRef.of_reject h
    exact .rejectRevenue
      ⟨not_holds hoffering (by rw [hpending]; nofun), holds_update hofferings fun _ _ _ => rfl⟩
  | claimRevenue =>
    obtain ⟨request, _, _, closed, withdrawals, hclaimable, hclosed, -, hwithdrawals, rfl, rfl⟩ :=
      RevenueClaim.of_apply h
    obtain ⟨hrequest, hopen, -, -⟩ := RevenueClaim.of_claimable hclaimable
    have hbefore : ¬ request.status = .successful := by
      rcases hopen with hopen | hopen <;> rw [hopen] <;> nofun
    rw [(RevenueClaim.follows_closeAll hclosed).2] at hwithdrawals
    obtain ⟨t, hget⟩ := get?_update_self hwithdrawals hrequest
    refine .claimRevenue (not_holds hrequest hbefore) ⟨?_, fun hsuccess => ⟨_, hget, hsuccess⟩⟩
    rintro ⟨r, hr, hsuccess⟩
    obtain rfl := Option.some.inj (hget.symm.trans hr)
    exact hsuccess
  | redeemNft =>
    obtain ⟨-, -, -, -, -, -, -, -, rfl⟩ := TokenRef.of_redeem h
    exact .silent rfl
  | stake | unstake =>
    obtain ⟨-, -, -, -, -, -, -, -, -, -, -, -, rfl⟩ := StakeChange.of_apply h
    exact .silent rfl
  | createPool =>
    obtain ⟨-, -, -, -, -, -, rfl⟩ := PoolCreated.of_apply h
    exact .silent rfl

/-! ## News are told once -/

namespace Payload.Tells

variable {o : Origin} {l l' : Ledgers} {p : Payload} {fx : List Effect} {m : Milestone}

attribute [local simp] Milestone.news lists tells mails Json.getText? Json.get? Json.asText?
  FnftMinted.effects OfferingRef.notice FundDeposit.notice RevenueApproval.effects
  RevenueClaim.effects

/-- What an event of a kind brings about has not come about before. -/
theorem not_reached (h : p.Tells o l l' fx) (hm : p.milestone? = some m) : ¬ m.Reached l := by
  cases h with
  | mintFnft h | createOffering h | deactivateOffering h | rejectRevenue h =>
    exact Option.some.inj hm ▸ h.before
  | claimRevenue hbefore => exact Option.some.inj hm ▸ hbefore
  | silent h =>
    rw [milestone?_of_isSilent h] at hm
    cases hm
  | _ => cases hm

/-- A milestone that an event brings about is told once in each way. -/
theorem countP_news (h : p.Tells o l l' fx) (hm : p.milestone? = some m) (hr : m.Reached l') :
    ∀ q ∈ m.news, fx.countP q = 1 := by
  cases h with
  | mintFnft | createOffering | deactivateOffering | rejectRevenue =>
    obtain rfl := Option.some.inj hm
    simp
  | claimRevenue _ hafter =>
    obtain rfl := Option.some.inj hm
    simp [hafter.mp hr]
  | silent h =>
    rw [milestone?_of_isSilent h] at hm
    cases hm
  | _ => cases hm

/-- No other is told of. -/
theorem countP_others (h : p.Tells o l l' fx) (hm : p.milestone? = some m → ¬ m.Reached l') :
    ∀ q ∈ m.news, fx.countP q = 0 := by
  cases h with
  | mintFnft h | createOffering h | deactivateOffering h | rejectRevenue h =>
    have hne : ¬ some _ = some m := fun heq => hm heq (Option.some.inj heq ▸ h.after)
    cases m <;> simp_all
  | @claimRevenue p request _ hafter =>
    by_cases hk : m = .successful p.requestId
    · have hstatus : ¬ request.status = .successful := by
        rw [← hafter, ← hk]
        exact hm (congrArg some hk.symm)
      simp [hstatus]
    · have hne : ¬ some (Milestone.successful p.requestId) = some m :=
        fun heq => hk (Option.some.inj heq).symm
      rw [RevenueClaim.effects]
      cases m <;> split <;> simp_all
  | deposit | approveRevenue => cases m <;> simp
  | silent => simp

/-- Only deposits are told as such. -/
theorem filter_tellsDeposit (h : p.Tells o l l' fx) (hp : ∀ d, p ≠ .deposit d) :
    fx.filter tellsDeposit = [] := by
  cases h with
  | deposit => exact absurd rfl (hp _)
  | claimRevenue => rw [RevenueClaim.effects]; split <;> simp [tellsDeposit]
  | _ => simp [tellsDeposit]

/-- Only of approvals mails are sent and fees told. -/
theorem filter_approved (h : p.Tells o l l' fx) (hp : ∀ a, p ≠ .approveRevenue a) (k : String) :
    fx.filter (mails "revenue-approved" "offeringId" k) = [] ∧ fx.filter (notifiesFee k) = [] := by
  cases h with
  | approveRevenue => exact absurd rfl (hp _)
  | claimRevenue => rw [RevenueClaim.effects]; split <;> simp [notifiesFee]
  | _ => simp [notifiesFee]

end Payload.Tells

/-- **The news of a milestone are told once**, by the event that brings it
about. -/
theorem Event.Changes.once {e : Event} {l l' : Ledgers} {clock : Clock} {fx : List Effect}
    (hl : l.Keyed) (h : e.Changes clock l l' fx) (m : Milestone) :
    ∀ q ∈ m.news, Once q fx (m.Reached l) (m.Reached l') := by
  obtain ⟨w, hw, hbetween⟩ := h.writes hl
  have htells := h.tells
  refine fun q hq => ⟨fun hafter hbefore => ?_, fun hback => ?_⟩
  · have hown := (hw.milestone hbetween hafter).resolve_left hbefore
    exact h.tells.countP_news hown hafter q hq
  · exact h.tells.countP_others (fun hown hafter => h.tells.not_reached hown (hback hafter)) q hq

end ChainLedger
