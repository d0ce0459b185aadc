import ChainLedger.Chain.Registry
import ChainLedger.Chain.Transaction
import ChainLedger.Chain.Call

/-!
# Questions to a chain

Calls of contracts, and blocks, transactions, receipts and logs. Every
request is tried as often as the settings allow. Logs are fetched in
consecutive ranges of blocks, each no longer than the settings allow, and
are answered in the order of block and index.
-/

namespace ChainLedger.Chains

variable {σ α : Type} (g : Chains σ)

/-- What a decoder answers, as part of a session. -/
def decoded (x : Except DecodeFault α) : Session σ α :=
  .ofExcept (x.mapError .decode)

/-- One request to a connected chain. -/
def request (c : Connection) (method : String) (params : Json) : Session σ Json :=
  g.net.retry g.settings.retry (g.net.send c.url method params)

/-- Sends the bytes of a call once. -/
def sendCall (c : Contract) (data : Bytes) : Session σ Bytes := do
  let target := Json.obj
    [("to", .str c.address.lower), ("data", .str (Hex.encode0x data))]
  let answer ← g.net.send c.url "eth_call" (.arr [target, .str "latest"])
  match answer.asText? with
  | none => throw (.decode .resultNotText)
  | some s => decoded (Decode.bytes s)

/-- **A call of a contract.** -/
def call (c : Contract) (q : Call α) : Session σ α := do
  let bs ← g.net.retry g.settings.retry (g.sendCall c q.data)
  match q.decode bs with
  | some a => return a
  | none => throw (.decode (.badResult q.signature))

/-- The number of the latest block. -/
def blockNumber (c : Connection) : Session σ (BitVec 64) := do
  let answer ← g.request c "eth_blockNumber" (.arr [])
  match answer.asText? with
  | none => throw (.decode .blockNumberNotText)
  | some s => decoded (Decode.word s)

/-- What a node knows under a hash, if anything. -/
def lookUp (c : Connection) (method : String) (hash : Hash)
    (read : Json → Except DecodeFault α) : Session σ (Option α) := do
  let answer ← g.request c method (.arr [.str hash.toText])
  if answer.isNull then return none
  else return some (← decoded (read answer))

/-- The transaction of a hash, if the node knows it. -/
def transaction (c : Connection) (hash : Hash) : Session σ (Option Transaction) :=
  g.lookUp c "eth_getTransactionByHash" hash Decode.transaction

/-- The receipt of a hash, if the transaction is mined. -/
def receipt (c : Connection) (hash : Hash) : Session σ (Option Receipt) :=
  g.lookUp c "eth_getTransactionReceipt" hash Decode.receipt

/-! ## Logs

The number of a block is a word of 64 bits, and no sum of blocks leaves it: a
range that would reach past the last of all blocks ends with that block, and
nothing is looked for after it.
-/

/-- The logs of a contract in one range of blocks. -/
def logsBetween (c : Connection) (address : Address) (first last : BitVec 64) :
    Session σ (List Log) := do
  let range := Json.obj
    [("address", .str address.lower), ("fromBlock", .str (Hex.quantity first.toNat)),
      ("toBlock", .str (Hex.quantity last.toNat))]
  let answer ← g.request c "eth_getLogs" (.arr [range])
  match answer.asItems? with
  | none => throw (.decode .logsNotList)
  | some items => decoded (items.mapM Decode.log)

/-- The last of all blocks. -/
def finalBlock : BitVec 64 := BitVec.allOnes 64

theorem le_finalBlock (block : BitVec 64) : block.toNat ≤ finalBlock.toNat := by
  rw [finalBlock, BitVec.toNat_allOnes]
  have := block.isLt
  omega

/-- The block that is `n` blocks after another, or the last of all. -/
def blockAfter (block n : BitVec 64) : BitVec 64 :=
  if block.uaddOverflow n then finalBlock else block + n

/-- How many blocks a request for logs may span, at least one. -/
def logRange : BitVec 64 := BitVec.ofNat 64 (max g.settings.logRange 1)

/-- The last block of the range that starts at `first`. -/
def rangeEnd (first last : BitVec 64) : BitVec 64 :=
  let reach := blockAfter first (g.logRange - 1)
  if reach ≤ last then reach else last

theorem le_rangeEnd {first last : BitVec 64} (h : first ≤ last) :
    first ≤ g.rangeEnd first last := by
  have hafter : first ≤ blockAfter first (g.logRange - 1) := by
    unfold blockAfter
    split
    · exact BitVec.le_def.mpr (le_finalBlock first)
    · next hfits =>
      simp only [BitVec.uaddOverflow, decide_eq_true_eq] at hfits
      bv_omega
  unfold rangeEnd
  dsimp only
  split
  · exact hafter
  · exact h

/-- The block after one that is not the last of all. -/
theorem toNat_next {block : BitVec 64} (h : block ≠ finalBlock) :
    (block + 1).toNat = block.toNat + 1 := by
  have hlt : block.toNat < finalBlock.toNat :=
    Nat.lt_of_le_of_ne (le_finalBlock block) fun heq => h (BitVec.eq_of_toNat_eq heq)
  rw [finalBlock, BitVec.toNat_allOnes] at hlt
  bv_omega

/-- The logs from `first` to `last`, range by range. -/
def logsFrom (c : Connection) (address : Address) (first last : BitVec 64) :
    Session σ (List Log) :=
  if _h : first ≤ last then do
    let found ← g.logsBetween c address first (g.rangeEnd first last)
    if _hend : g.rangeEnd first last = finalBlock then return found
    else
      let more ← logsFrom c address (g.rangeEnd first last + 1) last
      return found ++ more
  else return []
termination_by last.toNat + 1 - first.toNat
decreasing_by
  have hle := BitVec.le_def.mp (g.le_rangeEnd _h)
  have hnext := toNat_next _hend
  have := BitVec.le_def.mp _h
  omega

/-- One log comes before another, or in its place. -/
def notAfter (a b : Log) : Bool :=
  a.blockNumber < b.blockNumber || (a.blockNumber = b.blockNumber && a.logIndex ≤ b.logIndex)

/-- **The logs of the contract of a kind**, from block `first` to block
`last`, in the order of block and index. -/
def pastLogs (chain : Nat) (kind : ContractKind) (first last : BitVec 64) :
    Session σ (List Log) := do
  let k ← g.contract chain kind
  let c ← g.connection chain
  let logs ← g.logsFrom c k.address first last
  return logs.mergeSort notAfter

end ChainLedger.Chains
