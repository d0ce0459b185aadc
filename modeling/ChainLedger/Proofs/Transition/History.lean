import ChainLedger.Proofs.Transition.Earnings
import ChainLedger.Proofs.Transition.Frame
import ChainLedger.Proofs.Transition.Route

/-!
# What revenue entries keep

An entry keeps its account and its rate, its balance never falls, and once it
is withdrawn it keeps everything (`RevenueEntry.Keeps`). The ledgers after any
event remember every entry in this sense, and one that came in was opened by
an approval at the rate that the approval was told
(`Event.remembers_of_leads`).
-/

namespace ChainLedger

/-! ## Entries -/

/-- **What an entry keeps** when time goes by. -/
structure RevenueEntry.Keeps (a b : RevenueEntry) : Prop where
  account : b.account = a.account
  rate : b.rateAtApproval = a.rateAtApproval
  balance : a.balance.toRat ≤ b.balance.toRat
  withdrawn : a.isWithdrawn = true → b = a

namespace RevenueEntry.Keeps

variable {a b c : RevenueEntry}

theorem refl (a : RevenueEntry) : a.Keeps a := ⟨rfl, rfl, le_rfl, fun _ => rfl⟩

theorem trans (h : a.Keeps b) (h' : b.Keeps c) : a.Keeps c where
  account := h'.account.trans h.account
  rate := h'.rate.trans h.rate
  balance := h.balance.trans h'.balance
  withdrawn ha := by
    obtain rfl := h.withdrawn ha
    exact h'.withdrawn ha

end RevenueEntry.Keeps

namespace Ledgers

variable {opened opened' : Account → Decimal → Prop} {l l' l'' : Ledgers} {clock : Clock}

/-- **What ledgers remember of the revenue before**: every entry keeps what
entries keep, and those that came in were opened, for which accounts and at
which rates `opened` says. -/
structure Remembers (opened : Account → Decimal → Prop) (l l' : Ledgers) : Prop where
  still : Collection.Extends RevenueEntry.Keeps l.revenue l'.revenue
  opened : ∀ k e, l.revenue.get? k = none → l'.revenue.get? k = some e →
    opened e.account e.rateAtApproval

namespace Remembers

theorem of_revenue_eq (h : l'.revenue = l.revenue) : Remembers opened l l' where
  still := h ▸ .refl RevenueEntry.Keeps.refl
  opened k e hk hk' := by
    rw [h, hk] at hk'
    cases hk'

theorem trans (h : Remembers opened l l') (h' : Remembers opened l' l'') :
    Remembers opened l l'' where
  still := h.still.trans RevenueEntry.Keeps.trans h'.still
  opened k e hk he := by
    cases hmid : l'.revenue.get? k with
    | none => exact h'.opened k e hmid he
    | some e' =>
      -- An entry that came in earlier is still of the account and at the rate it was opened at.
      obtain ⟨e'', he'', hkeeps⟩ := h'.still k e' hmid
      obtain rfl := Option.some.inj (he.symm.trans he'')
      rw [hkeeps.account, hkeeps.rate]
      exact h.opened k e' hk hmid

theorem imp (h : Remembers opened l l') (himp : ∀ a r, opened a r → opened' a r) :
    Remembers opened' l l' :=
  ⟨h.still, fun k e hk he => himp _ _ (h.opened k e hk he)⟩

/-- Closing accounts forgets nothing and opens nothing. -/
theorem of_shuts {accounts : List Account} (h : Shuts accounts l l') : Remembers opened l l' where
  still k e he := by
    obtain ⟨e', he', hclosed⟩ := (he ▸ h k).of_some
    refine ⟨e', he', ?_⟩
    split at hclosed
    · next hopen =>
      obtain ⟨t, -, rfl⟩ := hclosed
      exact ⟨rfl, rfl, le_rfl, fun hw => by rw [hopen.1] at hw; cases hw⟩
    · rw [hclosed]
      exact .refl e
  opened k e hk he := by
    obtain ⟨e', he', -⟩ := (he ▸ h k).to_some
    rw [hk] at he'
    cases he'

end Remembers

/-- **A credit tops an entry up or opens one** at the rate of its quote. -/
theorem remembers_credit {beneficiary offering id : String} {amount : Decimal} {quote : Quote}
    (hl : l.Keyed) (hpos : Decimal.zero < amount)
    (h : l.credit clock beneficiary offering amount quote = .ok (id, l')) :
    Remembers (fun a r => a = ⟨beneficiary, offering, quote.currency⟩ ∧ r = quote.rate) l l' := by
  rcases of_credit h with ⟨e, balance, revenue, hentry, hadd, hrevenue, -, rfl⟩ |
    ⟨entry, revenue, -, hentry, hrevenue, rfl⟩
  · obtain ⟨⟨k, hk⟩, hopen, -⟩ := of_openEntry?_eq_some hentry
    obtain rfl : e.id = k := hl.revenue k e hk
    have hrevises := Collection.revises_update hrevenue RevenueEntry.Keeps.refl
      fun e' t he' _ => by
        obtain rfl := Option.some.inj (hk.symm.trans he')
        exact ⟨rfl, rfl, Decimal.toRat_le_add? (Int.le_of_lt hpos) hadd,
          fun hw => by rw [hopen] at hw; cases hw⟩
    exact ⟨hrevises.still, fun k e' hk' he' => by
      rw [hrevises.none k hk'] at he'
      cases he'⟩
  · obtain ⟨-, t, -, hget⟩ := Collection.get?_insert hrevenue
    refine ⟨Collection.extends_insert hrevenue RevenueEntry.Keeps.refl, fun k e hk he => ?_⟩
    change revenue.get? k = some e at he
    rw [hget] at he
    split at he
    · rw [← Option.some.inj he, hentry]
      exact ⟨rfl, rfl⟩
    · rw [hk] at he
      cases he

end Ledgers

variable {l l' : Ledgers} {clock : Clock} {fx : List Effect}

/-! ## Approvals -/

namespace RevenueApproval

variable {o : Origin} {p : RevenueApproval} {plan : Plan} {rate commission amount : Decimal}
  {told : List Exchange} {c : Commit}

/-- What the credits of an offering open: entries of it, in its currency, at
one rate. -/
def Opened (offering : Offering) (rate : Decimal) (a : Account) (r : Decimal) : Prop :=
  a.offeringId = offering.id ∧ a.currency = offering.currency ∧ r = rate

theorem remembers_creditShare {offering : Offering} {beneficiary : String} (hl : l.Keyed)
    (h : creditShare clock offering rate beneficiary amount l = .ok l') :
    Ledgers.Remembers (Opened offering rate) l l' := by
  unfold creditShare at h
  split at h
  · next hpos =>
    obtain ⟨⟨id, l''⟩, hcredit, rfl⟩ := map_eq_ok.mp h
    refine (Ledgers.remembers_credit hl hpos hcredit).imp fun a r hopened => ?_
    obtain ⟨rfl, rfl⟩ := hopened
    exact ⟨rfl, rfl, rfl⟩
  · cases h
    exact .of_revenue_eq rfl

theorem remembers_creditPartner (hl : l.Keyed) (h : creditPartner clock plan rate l = .ok l') :
    Ledgers.Remembers (Opened plan.offering rate) l l' := by
  unfold creditPartner at h
  split at h
  · exact remembers_creditShare hl h
  · cases h
    exact .of_revenue_eq rfl

/-- **An approval opens entries** of its offering, in its currency, at the rate
that it was told. -/
theorem remembers_apply (hl : l.Keyed)
    (h : p.apply plan rate commission clock l = .ok (l', fx)) :
    Ledgers.Remembers (Opened plan.offering rate) l l' := by
  obtain ⟨-, offerings, credited, -, -, hofferings, hcredited, hpartner, -⟩ := of_apply h
  have hkeyed : Ledgers.Keyed { l with offerings := offerings } :=
    { hl with offerings := Collection.keyed_update hofferings (fun _ => rfl) hl.offerings }
  have hkeyed' := (follows_creditShare hkeyed hcredited).keyed hkeyed
  have howner := remembers_creditShare hkeyed hcredited
  have hboth := howner.trans (remembers_creditPartner hkeyed' hpartner)
  exact ⟨hboth.still, hboth.opened⟩

open Attempt in
/-- An approval is told one thing on its way to its commit: the rate. -/
theorem of_leads (h : (p.attempt o l).Leads told (.commit c)) :
    ∃ plan rate commission, p.plan o l = .ok plan ∧
      told = [⟨.rate o.chain plan.offering.currency, .ok rate⟩] ∧
      c = p.apply plan rate commission := by
  simp only [attempt, leads_check, leads_ask, leads_commit] at h
  obtain ⟨plan, hplan, x, told', rfl, rate, rfl, commission, -, rfl, rfl⟩ := h
  exact ⟨plan, rate, commission, hplan, rfl, rfl⟩

end RevenueApproval

/-! ## Every event -/

namespace Event

variable {e : Event} {verify : Bool} {told : List Exchange} {c : Commit}

/-- **The entry that an event opens**: it is of the offering that the event
approves revenue of, and at the rate that was the answer to the approval. -/
def Opens (e : Event) (told : List Exchange) (a : Account) (rate : Decimal) : Prop :=
  ∃ p, e.payload = .approveRevenue p ∧ a.offeringId = p.offeringId ∧
    told = [⟨.rate e.origin.chain a.currency, .ok rate⟩]

/-- **Every event remembers the revenue**, and keeps at most one entry of an
account open. -/
theorem remembers_of_leads (hl : l.Keyed) (hs : l.SingleOpen)
    (hlead : (e.attempt verify l).Leads told (.commit c)) (hc : c clock l = .ok (l', fx)) :
    l'.SingleOpen ∧ l.Remembers (e.Opens told) l' := by
  have hcommits := commits_of_leads hlead
  cases hearns : e.payload.earns with
  | false =>
    have hchange : e.Changes clock l l' fx := ⟨c, hcommits, hc⟩
    have hrevenue := (hchange.sameEarnings hearns).revenue
    exact ⟨(Ledgers.Credits.of_revenue_eq hs hrevenue).single, .of_revenue_eq hrevenue⟩
  | true =>
    obtain ⟨o, p⟩ := e
    cases p with
    | approveRevenue p =>
      obtain ⟨plan, rate, commission, hplan, rfl, rfl⟩ := RevenueApproval.of_leads hlead
      obtain ⟨hid, -⟩ := RevenueApproval.Plan.offering_eq hl hplan
      refine ⟨(RevenueApproval.credits_apply hl hs hc).single,
        (RevenueApproval.remembers_apply hl hc).imp fun a r hopened => ?_⟩
      obtain ⟨hoffering, hcurrency, rfl⟩ := hopened
      exact ⟨p, rfl, hoffering.trans hid, by rw [hcurrency]⟩
    | claimRevenue p =>
      cases hcommits with
      | claimRevenue =>
        obtain ⟨request, item, -, hshuts, -⟩ := RevenueClaim.of_apply_closes hc
        exact ⟨(hshuts.closes hs).single, .of_shuts hshuts⟩
    | _ => cases hearns

end Event

end ChainLedger
