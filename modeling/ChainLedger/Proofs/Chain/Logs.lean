import ChainLedger.Proofs.Chain.Registry
import ChainLedger.Proofs.Chain.Rendering

/-!
# Fetching logs range by range

A node that serves a book of logs answers each request for a range of blocks
with the logs of that range, in some order, after some failures in passing that
are fewer than the tries a request has (`Link.ServesLogs`). The ranges that are
asked for follow each other without a gap (`Tiles`), so what they bring together
is what one request for all of them would bring (`Chains.fetches`); and since no
two logs have one place, there is one way to put them in order, however many
ranges it took (`history`). Main statement: `Chains.pastLogs_complete`.
-/

namespace ChainLedger

-- A power is the one of the core library, whatever other structure is in scope.
attribute [local instance (2000)] instPowNat

/-! ## Logs of a contract -/

/-- A log of a contract that lies in a range of blocks. -/
def Log.LiesIn (l : Log) (a : Address) (first last : ℕ) : Prop :=
  l.address = a ∧ first ≤ l.blockNumber.toNat ∧ l.blockNumber.toNat ≤ last
deriving Decidable

/-- The place of a log: its block, and its index in the block. -/
def Log.place (l : Log) : BitVec 64 × BitVec 64 := (l.blockNumber, l.logIndex)

/-- One log comes before another. -/
def Log.Before (l m : Log) : Prop :=
  l.blockNumber < m.blockNumber ∨ l.blockNumber = m.blockNumber ∧ l.logIndex < m.logIndex

/-- The logs of a contract in a range of blocks, as they stand in a book. -/
def logsIn (book : List Log) (a : Address) (first last : ℕ) : List Log :=
  book.filter (·.LiesIn a first last)

/-- **The history of a contract** over a range of blocks: its logs in order. -/
def history (book : List Log) (a : Address) (first last : ℕ) : List Log :=
  (logsIn book a first last).mergeSort Chains.notAfter

/-! ## Ranges that follow each other -/

/-- **Ranges tile an interval**: each starts where the one before ended, the
first at the first block and the last ends at the last. -/
inductive Tiles (last : ℕ) : ℕ → List (ℕ × ℕ) → Prop
  | none {first : ℕ} (h : last < first) : Tiles last first []
  | range {first mid : ℕ} {ranges : List (ℕ × ℕ)} (hfirst : first ≤ mid) (hlast : mid ≤ last)
      (rest : Tiles last (mid + 1) ranges) : Tiles last first ((first, mid) :: ranges)

/-- The request for the logs of a contract in a range of blocks. -/
def Request.logs (url : String) (a : Address) (first last : ℕ) : Request where
  url := url
  method := "eth_getLogs"
  params := .arr [.obj [("address", .str a.lower), ("fromBlock", .str (Hex.quantity first)),
    ("toBlock", .str (Hex.quantity last))]]

variable {τ : Type}

/-- **A node serves a book of logs** at an endpoint, to a policy for trying
again, in all of the states that it may come into. -/
structure Link.ServesLogs (net : Link τ) (policy : RetryPolicy) (url : String) (a : Address)
    (book : List Log) (may : τ → Prop) : Prop where
  /-- No two logs of the contract have one place. -/
  distinct : ((book.filter (·.address = a)).map Log.place).Nodup
  /-- A range is answered with its logs, after fewer failures than tries. -/
  answers : ∀ w, may w → ∀ first last : BitVec 64, first ≤ last →
    ∃ n < max policy.maxAttempts 1,
      (∀ i < n, FailsInPassing (net.reply policy.delayMs
        (fun _ => .logs url a first.toNat last.toNat) w i)) ∧
      (∃ items logs, net.reply policy.delayMs (fun _ => .logs url a first.toNat last.toNat) w n =
          .ok (.arr items) ∧ List.Forall₂ Log.Rendered logs items ∧
        logs.Perm (logsIn book a first.toNat last.toNat)) ∧
      may (net.ended policy.delayMs (fun _ => .logs url a first.toNat last.toNat) w n)

/-! ## Logs, put together and in order -/

section Order

variable {book logs : List Log} {a : Address} {first mid last : ℕ}

/-- **Two ranges that follow each other** have the logs of both together. -/
theorem logsIn_append_perm (hfirst : first ≤ mid) (hlast : mid ≤ last) :
    (logsIn book a first mid ++ logsIn book a (mid + 1) last).Perm (logsIn book a first last) := by
  have hleft : logsIn book a first mid =
      (logsIn book a first last).filter (·.blockNumber.toNat ≤ mid) := by
    rw [logsIn, logsIn, List.filter_filter]
    refine List.filter_congr fun l _ => ?_
    grind [Log.LiesIn]
  have hright : logsIn book a (mid + 1) last =
      (logsIn book a first last).filter fun l => !decide (l.blockNumber.toNat ≤ mid) := by
    rw [logsIn, logsIn, List.filter_filter]
    refine List.filter_congr fun l _ => ?_
    grind [Log.LiesIn]
  rw [hleft, hright]
  exact List.filter_append_perm _ _

theorem logsIn_eq_nil (h : last < first) : logsIn book a first last = [] := by
  refine List.filter_eq_nil_iff.mpr fun l _ hl => ?_
  obtain ⟨-, hfirst, hlast⟩ : l.LiesIn a first last := of_decide_eq_true hl
  omega

theorem notAfter_iff {l m : Log} : Chains.notAfter l m = true ↔
    l.blockNumber.toNat < m.blockNumber.toNat ∨
      l.blockNumber.toNat = m.blockNumber.toNat ∧ l.logIndex.toNat ≤ m.logIndex.toNat := by
  simp only [Chains.notAfter, Bool.or_eq_true, Bool.and_eq_true, decide_eq_true_eq,
    BitVec.lt_def, BitVec.le_def, ← BitVec.toNat_inj]

theorem notAfter_trans (l m n : Log) (hlm : Chains.notAfter l m = true)
    (hmn : Chains.notAfter m n = true) : Chains.notAfter l n = true := by
  rw [notAfter_iff] at *
  omega

theorem notAfter_total (l m : Log) : (Chains.notAfter l m || Chains.notAfter m l) = true := by
  rw [Bool.or_eq_true, notAfter_iff, notAfter_iff]
  omega

theorem place_eq_iff {l m : Log} : l.place = m.place ↔
    l.blockNumber.toNat = m.blockNumber.toNat ∧ l.logIndex.toNat = m.logIndex.toNat := by
  simp only [Log.place, Prod.mk.injEq, ← BitVec.toNat_inj]

/-- What is not after another log is before it, or in its place. -/
theorem before_of_notAfter {l m : Log} (h : Chains.notAfter l m = true) (hne : l.place ≠ m.place) :
    l.Before m := by
  rw [notAfter_iff] at h
  rw [Ne, place_eq_iff] at hne
  simp only [Log.Before, BitVec.lt_def, ← BitVec.toNat_inj]
  omega

/-- Two logs that are not after each other have one place. -/
theorem place_eq_of_notAfter {l m : Log} (hlm : Chains.notAfter l m = true)
    (hml : Chains.notAfter m l = true) : l.place = m.place := by
  rw [notAfter_iff] at hlm hml
  rw [place_eq_iff]
  omega

variable (hdistinct : ((book.filter (·.address = a)).map Log.place).Nodup)
include hdistinct

theorem distinct_logsIn : ((logsIn book a first last).map Log.place).Nodup := by
  have hsub : (logsIn book a first last).Sublist (book.filter (·.address = a)) := by
    have hfilter : logsIn book a first last = (book.filter (·.address = a)).filter
        fun l => first ≤ l.blockNumber.toNat ∧ l.blockNumber.toNat ≤ last := by
      rw [logsIn, List.filter_filter]
      refine List.filter_congr fun l _ => ?_
      grind [Log.LiesIn]
    exact hfilter ▸ List.filter_sublist
  exact hdistinct.sublist (hsub.map _)

/-- **There is one way to put the logs in order.** -/
theorem mergeSort_eq_history (h : logs.Perm (logsIn book a first last)) :
    logs.mergeSort Chains.notAfter = history book a first last := by
  refine List.Perm.eq_of_pairwise (fun l m hl hm => ?_)
    (List.pairwise_mergeSort notAfter_trans notAfter_total _)
    (List.pairwise_mergeSort notAfter_trans notAfter_total _)
    ((List.mergeSort_perm _ _).trans (h.trans (List.mergeSort_perm _ _).symm))
  intro hlm hml
  exact List.inj_on_of_nodup_map (distinct_logsIn hdistinct)
    (h.mem_iff.mp (List.mem_mergeSort.mp hl)) (List.mem_mergeSort.mp hm)
    (place_eq_of_notAfter hlm hml)

/-- The history is in order, each log before the next. -/
theorem pairwise_history : (history book a first last).Pairwise Log.Before := by
  have hsorted := List.pairwise_mergeSort notAfter_trans notAfter_total (logsIn book a first last)
  have hplaces : ((history book a first last).map Log.place).Nodup :=
    ((List.mergeSort_perm _ _).map _).nodup_iff.mpr (distinct_logsIn hdistinct)
  refine (hsorted.and (List.pairwise_map.mp hplaces)).imp ?_
  rintro l m ⟨hle, hne⟩
  exact before_of_notAfter hle hne

end Order

/-! ## Ranges of words -/

section Ranges

variable {σ : Type} (g : Chains σ)

/-- **A range ends** at the last block or before, and spans no more blocks than
settings allow. -/
theorem Chains.rangeEnd_le (first last : BitVec 64) (hrange : g.settings.logRange < 2 ^ (64 : ℕ)) :
    (g.rangeEnd first last).toNat ≤ last.toNat ∧
      (g.rangeEnd first last).toNat < first.toNat + max g.settings.logRange 1 := by
  have hspan : (g.logRange - 1).toNat + 1 = max g.settings.logRange 1 := by
    have hlog : g.logRange.toNat = max g.settings.logRange 1 := by
      rw [logRange, BitVec.toNat_ofNat, Nat.mod_eq_of_lt (by omega)]
    bv_omega
  have hreach : (blockAfter first (g.logRange - 1)).toNat < first.toNat + max g.settings.logRange 1 := by
    unfold blockAfter
    split
    · next hover =>
      simp only [BitVec.uaddOverflow, decide_eq_true_eq] at hover
      have := (finalBlock).isLt
      omega
    · rw [BitVec.toNat_add]
      have := Nat.mod_le (first.toNat + (g.logRange - 1).toNat) (2 ^ (64 : ℕ))
      omega
  unfold rangeEnd
  dsimp only
  split
  · next hle => exact ⟨BitVec.le_def.mp hle, hreach⟩
  · next hle =>
    rw [BitVec.le_def] at hle
    exact ⟨le_rfl, by omega⟩

end Ranges

/-! ## Requests for ranges -/

/-- A request to a connected chain ends where the search for an answer that is
no failure in passing stops. -/
theorem Chains.runFrom_request {σ : Type} (g : Chains σ) {c : Connection} {method : String}
    {params : Json} {s : σ} {k : ℕ}
    (hk : StopsAt (¬ FailsInPassing ·)
      (g.net.reply g.settings.retry.delayMs (fun _ => ⟨c.url, method, params⟩) s)
      (g.settings.retry.maxAttempts - 1) k) :
    (g.request c method params).runFrom s =
      (g.net.reply g.settings.retry.delayMs (fun _ => ⟨c.url, method, params⟩) s k,
        g.net.ended g.settings.retry.delayMs (fun _ => ⟨c.url, method, params⟩) s k) := by
  have hop : ∀ s, (g.net.send c.url method params).runFrom s =
      (id (g.net.ask ⟨c.url, method, params⟩ s).1, (g.net.ask ⟨c.url, method, params⟩ s).2) :=
    fun _ => rfl
  exact g.net.runFrom_tries hop (fun _ => Iff.rfl) hk

/-- The requests of round trips that were answered. -/
def requestsAnswered (trips : List RoundTrip) : List Request :=
  (trips.filter (·.answer.isOk)).map (·.request)

theorem requestsAnswered_append (trips more : List RoundTrip) :
    requestsAnswered (trips ++ more) = requestsAnswered trips ++ requestsAnswered more := by
  rw [requestsAnswered, List.filter_append, List.map_append]
  rfl

/-- Of requests that fail until the last one, only the last is answered. -/
theorem Link.requestsAnswered_roundTrips {net : Link τ} {delay n : ℕ} {q : Request} {w : τ}
    {v : Json} (hfails : ∀ i < n, FailsInPassing (net.reply delay (fun _ => q) w i))
    (hlast : net.reply delay (fun _ => q) w n = .ok v) :
    requestsAnswered (net.roundTrips delay (fun _ => q) w (n + 1)) = [q] := by
  have hnone : (net.roundTrips delay (fun _ => q) w n).filter (·.answer.isOk) = [] := by
    refine List.filter_eq_nil_iff.mpr fun trip htrip => ?_
    obtain ⟨i, hi, rfl⟩ := List.mem_map.mp htrip
    have hfail := hfails i (List.mem_range.mp hi)
    cases hanswer : net.reply delay (fun _ => q) w i with
    | ok v =>
      rw [hanswer] at hfail
      exact hfail.elim
    | error e => exact Bool.false_ne_true
  rw [roundTrips_succ, requestsAnswered_append, requestsAnswered, hnone, hlast]
  rfl

/-- What comes of a request for logs that was answered with a list. -/
theorem Chains.runFrom_logsBetween {σ : Type} (g : Chains σ) {c : Connection} {a : Address}
    {first last : BitVec 64} {s s' : σ} {items : List Json} {logs : List Log}
    (hrequest : (g.request c "eth_getLogs"
      (Request.logs c.url a first.toNat last.toNat).params).runFrom s = (.ok (.arr items), s'))
    (hitems : items.mapM Decode.log = .ok logs) :
    (g.logsBetween c a first last).runFrom s = (.ok logs, s') := by
  rw [logsBetween]
  refine (Session.runFrom_bind_of_ok hrequest).trans ?_
  simp only [Json.asItems?, decoded, hitems]
  rfl

section Serving

variable {settings : ChainSettings} {net : Link τ} {c : Connection} {a : Address}
  {book : List Log} {may : τ → Prop} {r : Registry} {first last : BitVec 64} {w : τ}

theorem runFrom_request_beside (r : Registry) (done : List RoundTrip) {method : String}
    {params : Json} {k : ℕ}
    (hk : StopsAt (¬ FailsInPassing ·)
      (net.reply settings.retry.delayMs (fun _ => ⟨c.url, method, params⟩) w)
      (settings.retry.maxAttempts - 1) k) :
    ((Chains.beside settings net.recorded).request c method params).runFrom (r, w, done) =
      (net.reply settings.retry.delayMs (fun _ => ⟨c.url, method, params⟩) w k, r,
        net.ended settings.retry.delayMs (fun _ => ⟨c.url, method, params⟩) w k,
        done ++ net.roundTrips settings.retry.delayMs (fun _ => ⟨c.url, method, params⟩) w (k + 1)) := by
  have hreply : (Chains.beside settings net.recorded).net.reply settings.retry.delayMs
      (fun _ => ⟨c.url, method, params⟩) (r, w, done) =
        net.reply settings.retry.delayMs (fun _ => ⟨c.url, method, params⟩) w := by
    rw [Chains.beside, Link.reply_beside, Link.reply_recorded]
  have hended : (Chains.beside settings net.recorded).net.ended settings.retry.delayMs
      (fun _ => ⟨c.url, method, params⟩) (r, w, done) k =
        (r, net.ended settings.retry.delayMs (fun _ => ⟨c.url, method, params⟩) w k, done ++
          net.roundTrips settings.retry.delayMs (fun _ => ⟨c.url, method, params⟩) w (k + 1)) := by
    rw [Chains.beside, Link.ended_beside, Link.ended_recorded]
  refine (Chains.runFrom_request _ (hreply.symm ▸ hk)).trans (Prod.ext ?_ hended)
  exact congrFun hreply k

variable (hserves : net.ServesLogs settings.retry c.url a book may)
include hserves

/-- **One range is fetched** with one answered request. -/
theorem Link.ServesLogs.exists_logsBetween (hle : first ≤ last) (hw : may w)
    (done : List RoundTrip) :
    ∃ logs w' trips,
      ((Chains.beside settings net.recorded).logsBetween c a first last).runFrom (r, w, done) =
        (.ok logs, r, w', done ++ trips) ∧
      logs.Perm (logsIn book a first.toNat last.toNat) ∧ may w' ∧
      requestsAnswered trips = [.logs c.url a first.toNat last.toNat] := by
  obtain ⟨n, hn, hfails, ⟨items, logs, hreply, hrendered, hperm⟩, hw'⟩ :=
    hserves.answers w hw first last hle
  have hstops : StopsAt (¬ FailsInPassing ·) (net.reply settings.retry.delayMs
      (fun _ => .logs c.url a first.toNat last.toNat) w) (settings.retry.maxAttempts - 1) n :=
    ⟨by omega, fun i hi => not_not.mpr (hfails i hi), .inl (by rw [hreply]; exact id)⟩
  have hrequest := runFrom_request_beside r done hstops
  have hitems : items.mapM Decode.log = .ok logs :=
    Decode.mapM_eq_ok (hrendered.imp fun _ _ => Decode.log_of_rendered)
  exact ⟨logs, _, _, Chains.runFrom_logsBetween _ (hrequest.trans (Prod.ext hreply rfl)) hitems,
    hperm, hw', Link.requestsAnswered_roundTrips hfails hreply⟩

/-- **All ranges together** bring the logs from the first block to the last. -/
theorem Link.ServesLogs.exists_logsFrom (hrange : settings.logRange < 2 ^ (64 : ℕ))
    (first last : BitVec 64) (hw : may w) (done : List RoundTrip) :
    ∃ logs w' trips ranges,
      ((Chains.beside settings net.recorded).logsFrom c a first last).runFrom (r, w, done) =
        (.ok logs, r, w', done ++ trips) ∧
      logs.Perm (logsIn book a first.toNat last.toNat) ∧
      Tiles last.toNat first.toNat ranges ∧
      (∀ p ∈ ranges, p.2 < p.1 + max settings.logRange 1) ∧
      requestsAnswered trips = ranges.map (fun p => .logs c.url a p.1 p.2) ∧
      (last < first → trips = []) := by
  let g := Chains.beside settings net.recorded
  induction first using Chains.logsFrom.induct g last generalizing w done with
  | case1 first hle ih =>
    obtain ⟨hend, hspan⟩ := g.rangeEnd_le first last hrange
    have hstart := BitVec.le_def.mp (g.le_rangeEnd hle)
    have hnot : ¬ last < first := BitVec.not_lt.mpr hle
    obtain ⟨logs, w', trips, hfetch, hperm, hw', hasked⟩ :=
      hserves.exists_logsBetween (r := r) (g.le_rangeEnd hle) hw done
    by_cases hfinal : g.rangeEnd first last = Chains.finalBlock
    · -- No block comes after this range.
      have hlast : (g.rangeEnd first last).toNat = last.toNat :=
        le_antisymm hend (hfinal ▸ Chains.le_finalBlock last)
      refine ⟨logs, w', trips, [(first.toNat, (g.rangeEnd first last).toNat)], ?_, hlast ▸ hperm,
        .range hstart hend (.none (by omega)), List.forall_mem_singleton.mpr hspan, hasked,
        fun h => absurd h hnot⟩
      rw [Chains.logsFrom, dif_pos hle, Session.runFrom_bind_of_ok hfetch, dif_pos hfinal]
      rfl
    · obtain ⟨more, w'', trips', ranges, hrest, hperm', htiles, hspans, hasked', -⟩ :=
        ih hfinal hw' (done ++ trips)
      rw [Chains.toNat_next hfinal] at hperm' htiles
      refine ⟨logs ++ more, w'', trips ++ trips', _ :: ranges, ?_,
        (hperm.append hperm').trans (logsIn_append_perm (by omega) hend),
        .range hstart hend htiles, List.forall_mem_cons.mpr ⟨hspan, hspans⟩, ?_,
        fun h => absurd h hnot⟩
      · rw [Chains.logsFrom, dif_pos hle, Session.runFrom_bind_of_ok hfetch, dif_neg hfinal,
          Session.runFrom_bind_of_ok hrest, List.append_assoc]
        rfl
      · rw [requestsAnswered_append, hasked, hasked']
        rfl
  | case2 first hlt =>
    have hlt' : last < first := BitVec.not_le.mp hlt
    refine ⟨[], w, [], [], ?_, ?_, .none (BitVec.lt_def.mp hlt'), nofun, rfl, fun _ => rfl⟩
    · rw [Chains.logsFrom, dif_neg hlt, List.append_nil]
      rfl
    · rw [logsIn_eq_nil (BitVec.lt_def.mp hlt')]

end Serving

/-! ## Past logs -/

section PastLogs

variable {settings : ChainSettings} {net : Link τ} {c : Connection} {a : Address}
  {chain : ℕ} {kind : ContractKind} {book : List Log} {may : τ → Prop} {r : Registry}
  {first last : BitVec 64} {w : τ}

/-- A connected chain has the contract that the settings name, without a
request, and is connected to the same endpoint afterwards. -/
theorem Registry.Sound.exists_contract (net : Link τ) (hr : r.Sound settings)
    (hc : r.connection? chain = some c) (ha : c.endpoint.contract? kind = some a) (s : τ) :
    ∃ k r' c', ((Chains.beside settings net).contract chain kind).runFrom (r, s) = (.ok k, r', s) ∧
      k.address = a ∧ c'.url = c.url ∧
      ((Chains.beside settings net).connection chain).runFrom (r', s) = (.ok c', r', s) := by
  have hchain := hr.chain_eq chain c hc
  have hsound := hr.sound chain c hc
  obtain ⟨family, hfamily⟩ := Option.ne_none_iff_exists'.mp (hchain ▸ hsound.served)
  have hcontract := runFrom_contract settings net kind
    (runFrom_connection_held settings net (s := s) hfamily hc)
  cases hbound : c.bound? kind with
  | some k =>
    obtain ⟨a', ha', rfl⟩ := hsound.bound kind k hbound
    simp only [hbound] at hcontract
    exact ⟨_, r, c, hcontract, Option.some.inj (ha'.symm.trans ha), rfl,
      runFrom_connection_held settings net hfamily hc⟩
  | none =>
    simp only [hbound, ha] at hcontract
    let c' : Connection := { c with bound := (kind, c.contractAt kind a) :: c.bound }
    have hc' : (r.set c').connection? chain = some c' :=
      hchain ▸ Registry.connection?_set_self
    exact ⟨_, _, c', hcontract, rfl, rfl, runFrom_connection_held settings net hfamily hc'⟩

/-- **All past logs, each once and in order.** Whatever the settings say of how
many blocks a request spans, from a node that serves the contract's logs come
those of the blocks from the first to the last, in the order of block and index.
The answered requests go over these blocks in ranges that follow each other, each
no longer than allowed, also where the last block is the last of all and no word
is left for the next; none is sent for an empty interval. -/
theorem Chains.pastLogs_complete (hr : r.Sound settings) (hc : r.connection? chain = some c)
    (ha : c.endpoint.contract? kind = some a) (hrange : settings.logRange < 2 ^ (64 : ℕ))
    (hserves : net.ServesLogs settings.retry c.url a book may) (hw : may w) :
    let out := ((Chains.beside settings net.recorded).pastLogs chain kind first last).runFrom
      (r, w, [])
    out.1 = .ok (history book a first.toNat last.toNat) ∧
    (history book a first.toNat last.toNat).Perm
      (book.filter fun l => l.LiesIn a first.toNat last.toNat) ∧
    (history book a first.toNat last.toNat).Pairwise Log.Before ∧
    (∃ ranges, Tiles last.toNat first.toNat ranges ∧
      (∀ p ∈ ranges, p.2 < p.1 + max settings.logRange 1) ∧
      requestsAnswered out.2.2.2 = ranges.map fun p => .logs c.url a p.1 p.2) ∧
    (last < first → out.2.2.2 = []) := by
  intro out
  obtain ⟨k, r', c', hcontract, rfl, hurl, hconnection⟩ :=
    hr.exists_contract net.recorded hc ha (w, [])
  obtain ⟨logs, w', trips, ranges, hfetch, hperm, htiles, hspans, hasked, hempty⟩ :=
    (hurl ▸ hserves).exists_logsFrom (c := c') hrange first last hw (r := r') []
  have hout : out = (.ok (logs.mergeSort notAfter), r', w', trips) := by
    simp only [out]
    rw [pastLogs, Session.runFrom_bind_of_ok hcontract, Session.runFrom_bind_of_ok hconnection,
      Session.runFrom_bind_of_ok hfetch]
    rfl
  rw [hout]
  refine ⟨congrArg _ (mergeSort_eq_history hserves.distinct hperm), List.mergeSort_perm _ _,
    pairwise_history hserves.distinct, ⟨ranges, htiles, hspans, hurl ▸ hasked⟩, hempty⟩

end PastLogs

/-! ### A node that falters -/

namespace Chains

variable {book : List Log} {a : Address} {first last : BitVec 64}

/-- The logs of a book that a request asks for, the last ones first. -/
def answerFrom (book : List Log) (a : Address) (params : Json) : Json :=
  match params with
  | .arr [.obj [_, (_, .str first), (_, .str last)]] =>
    match Quantity.word first, Quantity.word last with
    | .ok first, .ok last => .arr ((logsIn book a first.toNat last.toNat).reverse.map Log.toJson)
    | _, _ => .null
  | _ => .null

theorem answerFrom_logs (url : String) :
    answerFrom book a (Request.logs url a first.toNat last.toNat).params =
      .arr ((logsIn book a first.toNat last.toNat).reverse.map Log.toJson) := by
  have hfirst := Quantity.word_of_spells (Quantity.spells_quantity first.toNat)
  have hlast := Quantity.word_of_spells (Quantity.spells_quantity last.toNat)
  simp only [answerFrom, Request.logs, hfirst, hlast]

/-- A node that times out every other time, and serves a book of logs. -/
def faltering (book : List Log) (a : Address) : Link ℕ where
  request _ _ params n :=
    (if n % 2 = 0 then .error (.transient .timeout "rpc") else .ok (answerFrom book a params), n + 1)
  sleep _ n := n
  choose _ n := (0, n)

theorem servesLogs_faltering {policy : RetryPolicy} (hpolicy : 1 < policy.maxAttempts) (url : String)
    (hdistinct : ((book.filter (·.address = a)).map Log.place).Nodup) :
    (faltering book a).ServesLogs policy url a book (· % 2 = 0) where
  distinct := hdistinct
  answers w hw first last _ := by
    have hodd : ¬ (w + 1) % 2 = 0 := by omega
    let logs := (logsIn book a first.toNat last.toNat).reverse
    refine ⟨1, by omega, fun i hi => ?_, ⟨logs.map Log.toJson, logs, ?_, ?_, List.reverse_perm _⟩, ?_⟩
    · obtain rfl : i = 0 := by omega
      simp [Link.reply, Link.ask, Link.after, faltering, hw, FailsInPassing, ChainError.isTransient]
    · rw [← answerFrom_logs url]
      exact if_neg hodd
    · exact List.forall₂_map_right_iff.mpr (List.forall₂_same.mpr fun l _ => l.rendered_toJson)
    · change (w + 1 + 1) % 2 = 0
      omega

/-- A chain with one contract. -/
def lone : Endpoint := ⟨97, ["http://a"], [(.nft, .ofNat 0xaa)]⟩

/-- Settings of that chain, with two tries for a request, and two blocks. -/
def inPairs : ChainSettings where
  endpoints := [lone]
  retry := ⟨2, 0⟩
  logRange := 2

/-- Two logs of the last block of all, and one of two blocks before. -/
def lateBook : List Log :=
  [⟨.ofNat 0xaa, [], [], finalBlock, .ofNat 1, 1⟩,
    ⟨.ofNat 0xaa, [], [0xff], finalBlock, .ofNat 1, 0⟩,
    ⟨.ofNat 0xaa, [.ofNat 7], [], finalBlock - 2, .ofNat 2, 5⟩]

/-- Up to the last block of all, from a node that falters, come all three. -/
theorem pastLogs_complete_late :
    (Registry.set {} ⟨97, "http://a", lone, []⟩).Sound inPairs ∧
      (faltering lateBook (.ofNat 0xaa)).ServesLogs inPairs.retry "http://a" (.ofNat 0xaa) lateBook
        (· % 2 = 0) ∧
      (((beside inPairs (faltering lateBook (.ofNat 0xaa)).recorded).pastLogs 97 .nft
        (finalBlock - 3) finalBlock).runFrom
          (Registry.set {} ⟨97, "http://a", lone, []⟩, 0, [])).1 =
        .ok (history lateBook (.ofNat 0xaa) (finalBlock - 3).toNat finalBlock.toNat) :=
  have hsound : (Registry.set {} ⟨97, "http://a", lone, []⟩).Sound inPairs :=
    Registry.sound_empty.set ⟨by decide, rfl, nofun⟩
  have hserves : (faltering lateBook (.ofNat 0xaa)).ServesLogs inPairs.retry "http://a"
      (.ofNat 0xaa) lateBook (· % 2 = 0) :=
    servesLogs_faltering (by decide) "http://a" (by decide)
  have hheld : (Registry.set {} ⟨97, "http://a", lone, []⟩).connection? 97 =
      some ⟨97, "http://a", lone, []⟩ := rfl
  ⟨hsound, hserves, (pastLogs_complete hsound hheld rfl (by decide) hserves rfl).1⟩

end Chains

end ChainLedger
