import ChainLedger.Main
import ChainLedger.Chain.PackedMessage
import ChainLedger.Proofs.Dispatch.Redelivery
import ChainLedger.Proofs.Dispatch.Settlement
import ChainLedger.Proofs.Dispatch.Accounting
import ChainLedger.Proofs.Dispatch.Payout
import ChainLedger.Proofs.Dispatch.Isolation
import ChainLedger.Proofs.Dispatch.Supply
import ChainLedger.Proofs.Dispatch.Lifecycle
import ChainLedger.Proofs.Dispatch.Redemption
import ChainLedger.Proofs.Dispatch.Fractionalization
import ChainLedger.Proofs.Dispatch.Convergence
import ChainLedger.Proofs.Dispatch.Range
import ChainLedger.Proofs.Dispatch.Confirmation
import ChainLedger.Proofs.Dispatch.Announcement
import ChainLedger.Proofs.Ledger.Watermark
import ChainLedger.Proofs.Dispatch.Footprint
import ChainLedger.Proofs.Dispatch.Staking
import ChainLedger.Proofs.Dispatch.Commutation
import ChainLedger.Proofs.Dispatch.Booking
import ChainLedger.Proofs.Ledger.Division
import ChainLedger.Proofs.Ledger.Generation
import ChainLedger.Proofs.Dispatch.Ownership
import ChainLedger.Proofs.Dispatch.Contention
import ChainLedger.Proofs.Transition.Units
import ChainLedger.Proofs.Ledger.Threshold
import ChainLedger.Proofs.Event.Money
import ChainLedger.Proofs.Event.TxHash
import ChainLedger.Proofs.Chain.Call
import ChainLedger.Proofs.Chain.Registry
import ChainLedger.Proofs.Chain.Logs
import ChainLedger.Proofs.Chain.Envelope
import ChainLedger.Proofs.Chain.Decoding
import ChainLedger.Proofs.Chain.PackedMessage
import ChainLedger.Proofs.Ledger.Rates
import ChainLedger.Proofs.Chain.Quantity
import ChainLedger.Proofs.Dispatch.Stage
