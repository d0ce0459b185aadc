import ChainLedger.Rates
import ChainLedger.Proofs.Ledger.Lookup
import Mathlib.Data.List.Perm.Basic

/-!
# The order in which a table of rates is configured

Settings give rates under texts of currencies, in no order that means anything.
A table is refused if one of the texts is no currency, whatever the order
(`setAll_error_iff`); otherwise the rate of a currency is the one that was
given last under a spelling of it (`given?_ofSettings`). So the order never
shows where every currency is given one rate, under however many spellings, and
it does show where two spellings of one currency are given different rates:
`ExchangeRates.agree_iff`.
-/

namespace ChainLedger

namespace ExchangeRates

variable {r r' : ExchangeRates} {c : Address} {rate : Decimal} {ms ms' : List (String × Decimal)}

/-! ## What was given -/

/-- What a table holds for a currency. -/
def given? (r : ExchangeRates) (c : Address) : Option Decimal :=
  (r.table.find? (·.1 = c)).map (·.2)

/-- The rates that members give for a currency, under any of its spellings. -/
def givenFor (c : Address) (ms : List (String × Decimal)) : List Decimal :=
  ms.filterMap fun m => if currency m.1 = .ok c then some m.2 else none

theorem mem_givenFor : rate ∈ givenFor c ms ↔ ∃ key, (key, rate) ∈ ms ∧ currency key = .ok c := by
  simp only [givenFor, List.mem_filterMap, Option.ite_none_right_eq_some, Option.some.injEq]
  constructor
  · rintro ⟨⟨key, _⟩, hmem, hkey, rfl⟩
    exact ⟨key, hmem, hkey⟩
  · rintro ⟨key, hmem, hkey⟩
    exact ⟨_, hmem, hkey, rfl⟩

theorem given?_set (r : ExchangeRates) (c' : Address) :
    (r.set c' rate).given? c = if c' = c then some rate else r.given? c := by
  unfold given? set
  rw [List.find?_cons]
  by_cases h : c' = c
  · simp [h]
  · have hrest : ∀ p : Address × Decimal, (p.1 ≠ c' ∧ p.1 = c) ↔ p.1 = c := by
      intro p
      exact ⟨And.right, fun hp => ⟨fun hc => h (hc.symm.trans hp), hp⟩⟩
    simp only [h, decide_false, if_false, List.find?_filter, decide_not, ne_eq]
    congr 1
    congr 1
    funext p
    simpa using hrest p

/-- **The last rate that was given for a currency is its rate**, and one that
was not given is what it was. -/
theorem given?_setAll (h : r.setAll ms = .ok r') :
    r'.given? c = ((givenFor c ms).getLast?).or (r.given? c) := by
  induction ms generalizing r with
  | nil =>
    cases h
    rfl
  | cons m ms ih =>
    obtain ⟨key, rate⟩ := m
    obtain ⟨c', hkey, hrest⟩ := bind_eq_ok.mp h
    rw [ih hrest, given?_set]
    by_cases hc : c' = c
    · subst hc
      simp [givenFor, hkey, List.getLast?_cons]
    · have hother : currency key ≠ .ok c := fun hok => hc (Except.ok.inj (hkey.symm.trans hok))
      simp [givenFor, hother, hc]

theorem given?_ofSettings (h : ofSettings ms = .ok r) :
    r.given? c = (givenFor c ms).getLast? := by
  rw [given?_setAll h]
  exact Option.or_none

/-- The answer about a currency is made of what was given for it. -/
theorem rate?_eq (r : ExchangeRates) (c : Address) : r.rate? c = match r.given? c with
    | none => .error (.unknown c)
    | some rate => if Decimal.zero < rate then .ok rate else .error (.notPositive rate c) := by
  unfold rate? given?
  cases r.table.find? (·.1 = c) <;> rfl

/-- Different rates are different answers. -/
theorem rate?_eq_iff : r.rate? c = r'.rate? c ↔ r.given? c = r'.given? c := by
  constructor
  · intro h
    rw [rate?_eq, rate?_eq] at h
    revert h
    cases r.given? c <;> cases r'.given? c <;> grind
  · intro h
    rw [rate?_eq, rate?_eq, h]

/-! ## Orders -/

/-- **A table is refused** exactly if one of the texts is no currency. -/
theorem setAll_error_iff : (∃ fault, r.setAll ms = .error fault) ↔
    ∃ m ∈ ms, ∀ c, currency m.1 ≠ .ok c := by
  induction ms generalizing r with
  | nil => simp [setAll]
  | cons m ms ih =>
    obtain ⟨key, rate⟩ := m
    cases hkey : currency key with
    | error fault =>
      have hrefused : r.setAll ((key, rate) :: ms) = .error fault := by
        rw [setAll, hkey]
        rfl
      exact iff_of_true ⟨_, hrefused⟩ ⟨_, .head _, fun c hc => by rw [hkey] at hc; cases hc⟩
    | ok c =>
      have hset : r.setAll ((key, rate) :: ms) = (r.set c rate).setAll ms := by
        rw [setAll, hkey, ok_bind]
      simp [hset, ih, hkey]

/-- **Two configurations agree**: both are refused, or they give one answer
about each currency. -/
def Agree : Except RateFault ExchangeRates → Except RateFault ExchangeRates → Prop
  | .ok r, .ok r' => ∀ c, r.rate? c = r'.rate? c
  | .error _, .error _ => True
  | _, _ => False

/-- **Every currency is given one rate**, under however many spellings. -/
def OneRate (ms : List (String × Decimal)) : Prop :=
  ∀ m ∈ ms, ∀ m' ∈ ms, ∀ c, currency m.1 = .ok c → currency m'.1 = .ok c → m.2 = m'.2

/-- A refused table is refused in every order. -/
theorem exists_error_of_perm (hperm : ms.Perm ms') {fault : RateFault}
    (h : ofSettings ms = .error fault) : ∃ fault', ofSettings ms' = .error fault' := by
  obtain ⟨m, hm, hbad⟩ := setAll_error_iff.mp ⟨fault, h⟩
  exact setAll_error_iff.mpr ⟨m, hperm.mem_iff.mp hm, hbad⟩

/-- The last of some rates that are all the same does not depend on their order. -/
theorem getLast?_givenFor_of_perm (hone : OneRate ms) (hperm : ms.Perm ms') :
    (givenFor c ms).getLast? = (givenFor c ms').getLast? := by
  have hgiven : (givenFor c ms).Perm (givenFor c ms') := hperm.filterMap _
  rcases hlast : (givenFor c ms).getLast? with _ | rate
  · have hnil : givenFor c ms = [] := List.getLast?_eq_none_iff.mp hlast
    have hnil' : givenFor c ms' = [] := List.nil_perm.mp (hnil ▸ hgiven)
    rw [hnil']
    rfl
  · rcases hlast' : (givenFor c ms').getLast? with _ | rate'
    · have hnil' : givenFor c ms' = [] := List.getLast?_eq_none_iff.mp hlast'
      have hnil : givenFor c ms = [] := List.perm_nil.mp (hnil' ▸ hgiven)
      rw [hnil] at hlast
      cases hlast
    · obtain ⟨key, hmem, hkey⟩ := mem_givenFor.mp (List.mem_of_getLast? hlast)
      obtain ⟨key', hmem', hkey'⟩ :=
        mem_givenFor.mp (hgiven.mem_iff.mpr (List.mem_of_getLast? hlast'))
      exact congrArg some (hone _ hmem _ hmem' c hkey hkey')

theorem agree_of_oneRate (hone : OneRate ms) (hperm : ms.Perm ms') :
    Agree (ofSettings ms) (ofSettings ms') := by
  rcases h : ofSettings ms with fault | r <;> rcases h' : ofSettings ms' with fault' | r'
  · trivial
  · obtain ⟨_, hfault⟩ := exists_error_of_perm hperm h
    cases h'.symm.trans hfault
  · obtain ⟨_, hfault⟩ := exists_error_of_perm hperm.symm h'
    cases h.symm.trans hfault
  · intro c
    rw [rate?_eq_iff, given?_ofSettings h, given?_ofSettings h',
      getLast?_givenFor_of_perm hone hperm]

/-- Any member may come last. -/
theorem exists_perm_getLast? {m : String × Decimal} (hm : m ∈ ms)
    (hc : currency m.1 = .ok c) : ∃ ms', ms'.Perm ms ∧ (givenFor c ms').getLast? = some m.2 := by
  obtain ⟨before, after, rfl⟩ := List.append_of_mem hm
  refine ⟨before ++ after ++ [m], ?_, ?_⟩
  · rw [List.append_assoc]
    exact List.perm_append_comm.append_left before
  · simp [givenFor, hc]

/-- **The order of a configured table never shows** exactly if the table is
refused, or every currency is given one rate. -/
theorem agree_iff (ms : List (String × Decimal)) :
    (∀ ms₁ ms₂, ms₁.Perm ms → ms₂.Perm ms → Agree (ofSettings ms₁) (ofSettings ms₂)) ↔
      (∃ fault, ofSettings ms = .error fault) ∨ OneRate ms := by
  constructor
  · intro hagree
    rcases h : ofSettings ms with fault | r
    · exact .inl ⟨fault, rfl⟩
    refine .inr fun m hm m' hm' c hkey hkey' => ?_
    -- Two orders, one with either member last.
    obtain ⟨ms₁, hperm₁, hlast₁⟩ := exists_perm_getLast? hm hkey
    obtain ⟨ms₂, hperm₂, hlast₂⟩ := exists_perm_getLast? hm' hkey'
    have hboth := hagree ms₁ ms₂ hperm₁ hperm₂
    rcases h₁ : ofSettings ms₁ with fault | r₁
    · obtain ⟨_, hfault⟩ := exists_error_of_perm hperm₁ h₁
      cases h.symm.trans hfault
    rcases h₂ : ofSettings ms₂ with fault | r₂
    · obtain ⟨_, hfault⟩ := exists_error_of_perm hperm₂ h₂
      cases h.symm.trans hfault
    rw [h₁, h₂] at hboth
    have hgiven := rate?_eq_iff.mp (hboth c)
    rw [given?_ofSettings h₁, given?_ofSettings h₂, hlast₁, hlast₂] at hgiven
    exact Option.some.inj hgiven
  · rintro (⟨fault, h⟩ | hone) ms₁ ms₂ hperm₁ hperm₂
    · obtain ⟨_, h₁⟩ := exists_error_of_perm hperm₁.symm h
      obtain ⟨_, h₂⟩ := exists_error_of_perm hperm₂.symm h
      rw [h₁, h₂]
      trivial
    · have hone₁ : OneRate ms₁ := fun m hm m' hm' =>
        hone m (hperm₁.mem_iff.mp hm) m' (hperm₁.mem_iff.mp hm')
      exact agree_of_oneRate hone₁ (hperm₁.trans hperm₂.symm)

/-- A currency. -/
def stablecoin : Address := .ofNat 0xcccccccccccccccccccccccccccccccccccccccc

/-- The rate `0.998`. -/
def belowPar : Decimal := (Decimal.ofParts? 998 3).getD .zero

/-- One currency under two spellings, with two rates. -/
def spelledTwice : List (String × Decimal) :=
  [("0xcccccccccccccccccccccccccccccccccccccccc", .hundred),
   ("0xCCCCCCCCCCCCCCCCCCCCCCCCCCCCCCCCCCCCCCCC", belowPar)]

/-- **Two spellings of one currency** are both taken, and the one that is read
last counts. -/
theorem disagree_of_spelledTwice : (spelledTwice.map Prod.fst).Nodup ∧
    spelledTwice.Perm spelledTwice.reverse ∧
    ¬ Agree (ofSettings spelledTwice) (ofSettings spelledTwice.reverse) := by
  refine ⟨by decide, spelledTwice.reverse_perm.symm, fun hagree => ?_⟩
  have hlast : ofSettings spelledTwice = .ok ⟨[(stablecoin, belowPar)]⟩ := rfl
  have hfirst : ofSettings spelledTwice.reverse = .ok ⟨[(stablecoin, .hundred)]⟩ := rfl
  rw [hlast, hfirst] at hagree
  exact absurd (hagree stablecoin) (by decide +kernel)

end ExchangeRates

end ChainLedger
